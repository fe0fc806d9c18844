/-!
# Doubles as fractions

A finite double is `m * 2 ^ q` for natural `m` and integer `q`. `Parts.ofFloat` takes it apart and
`nearest` goes the other way: from a fraction to the double nearest to it, ties to even.
-/

namespace Displays.Decimal

/-- A double taken apart. -/
inductive Parts where
  /-- Not a number. -/
  | nan
  /-- An infinity. -/
  | infinite (negative : Bool)
  /-- The number `m * 2 ^ q` with a sign. -/
  | finite (negative : Bool) (m : Nat) (q : Int)
  deriving DecidableEq, Repr

/-- The exponent of the least positive double. -/
def leastExponent : Int := -1074

/-- The parts of a double; `m` has 53 bits unless `q` is the least exponent. -/
def Parts.ofFloat (x : Float) : Parts :=
  let bits := x.toBits.toNat
  let negative := Nat.pow 2 63 ≤ bits
  let exponent : Nat := bits / Nat.pow 2 52 % Nat.pow 2 11
  let fraction : Nat := bits % Nat.pow 2 52
  if exponent = 2047 then
    if fraction = 0 then .infinite negative else .nan
  else if exponent = 0 then .finite negative fraction leastExponent
  else .finite negative (Nat.pow 2 52 + fraction) (exponent + leastExponent - 1)

/-- The fraction `num / den * 2 ^ (-q)` rounded to a whole number, ties to even. -/
def roundedQuotient (num den : Nat) (q : Int) : Nat :=
  let num := num * Nat.pow 2 (-q).toNat
  let den := den * Nat.pow 2 q.toNat
  let m := num / den
  let r := num % den
  if 2 * r < den then m else if den < 2 * r then m + 1 else m + m % 2

/-- The exponent at which the fraction `num / den` has 53 bits, or the least one. -/
def exponentFor (num den : Nat) : Int :=
  let e : Int := (num.log2 : Int) - den.log2
  let reached := den * Nat.pow 2 e.toNat ≤ num * Nat.pow 2 (-e).toNat
  max leastExponent ((if reached then e else e - 1) - 52)

/-- The bits of the double nearest to the positive fraction `num / den`. -/
def nearestBits (num den : Nat) : Nat :=
  if num = 0 then 0
  else
    let q := exponentFor num den
    -- a carry out of 53 bits moves into the exponent, and from the greatest one to infinity
    min ((q - leastExponent).toNat * Nat.pow 2 52 + roundedQuotient num den q)
      (2047 * Nat.pow 2 52)

/-- The double nearest to the fraction `num / den`, ties to even. -/
def nearest (negative : Bool) (num den : Nat) : Float :=
  .ofBits (UInt64.ofNat (nearestBits num den + if negative then Nat.pow 2 63 else 0))

example : nearest false 1 10 = 0.1 := by decide

example : nearest true 5 2 = -2.5 := by decide

end Displays.Decimal
