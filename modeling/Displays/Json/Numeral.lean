import Displays.Decimal.Integer
import Displays.Decimal.Shortest

/-!
# JSON numerals

A numeral is kept as it is written: sign, digits before and after the point, exponent. Whole
numbers must be written as such. Doubles are read with one floating-point operation on a 64-bit
significand, which is not always the nearest double, and written with the fewest digits that read
back, positionally below `10 ^ 16` and down to `10 ^ -5`, with a point or an exponent in any case.
-/

namespace Displays.Json

open Decimal (Bounds)

/-- A number as it is written. Digits stand most significant first. -/
structure Numeral where
  /-- A minus sign stands in front. -/
  negative : Bool
  /-- The digits before the point. -/
  whole : List Nat
  /-- The digits after the point; none if there is no point. -/
  fraction : List Nat
  /-- The exponent, if one is written. -/
  exponent : Option Int
  deriving DecidableEq, Repr

/-- The number that digits stand for, continuing the number `n`. -/
def ofDigits (n : Nat) (digits : List Nat) : Nat :=
  digits.foldl (fun n d => 10 * n + d) n

/-- The digits of a number, most significant first. -/
def toDigits (n : Nat) : List Nat :=
  if n < 10 then [n] else toDigits (n / 10) ++ [n % 10]

/-- The digits of a number stand for the number. -/
theorem ofDigits_toDigits (n : Nat) : ofDigits 0 (toDigits n) = n := by
  induction n using Nat.strongRecOn with
  | _ n ih =>
    rw [toDigits]
    split
    · simp [ofDigits]
    · have := ih (n / 10) (by omega)
      simp only [ofDigits, List.foldl_append, List.foldl_cons, List.foldl_nil] at this ⊢
      rw [this]
      omega

namespace Numeral

/-- The numeral of an integer. -/
def ofInt (n : Int) : Numeral where
  negative := n < 0
  whole := toDigits n.natAbs
  fraction := []
  exponent := none

/-- The integer that the numeral stands for, if it is written as one and lies within the bounds. A
minus sign before zero makes it no integer. -/
def int? (r : Bounds) (n : Numeral) : Option Int :=
  let magnitude : Nat := ofDigits 0 n.whole
  if n.fraction ≠ [] ∨ n.exponent ≠ none ∨ (n.negative ∧ magnitude = 0) then none
  else
    let value : Int := if n.negative then -magnitude else magnitude
    if value ∈ r then some value else none

/-- Continues a 64-bit significand with digits as long as they fit, and counts the others. -/
def significand (n : Nat) : List Nat → Nat × Nat
  | [] => (n, 0)
  | d :: rest =>
    if 10 * n + d < Nat.pow 2 64 then significand (10 * n + d) rest else (n, rest.length + 1)

/-- The greatest power of ten that is a double. -/
def greatestPower : Nat := 308

/-- The double nearest to a power of ten. -/
def powerOfTen (n : Nat) : Float :=
  Decimal.nearest false (Nat.pow 10 n) 1

/-- Scales a double by a power of ten: upward in one step, downward in steps of at most the
greatest power. Fails where the result is infinite. -/
def scaled? (x : Float) (exponent : Int) : Option Float :=
  if exponent.natAbs ≤ greatestPower then
    if 0 ≤ exponent then
      let y := x * powerOfTen exponent.natAbs
      if y.isInf then none else some y
    else some (x / powerOfTen exponent.natAbs)
  else if x == 0 then some x
  else if 0 ≤ exponent then none
  else scaled? (x / powerOfTen greatestPower) (exponent + greatestPower)
termination_by exponent.natAbs
decreasing_by simp only [greatestPower] at *; omega

/-- The bounds within which exponents are kept. -/
def exponents : Bounds := .signed 32

/-- The double that the numeral stands for, or `none` if its magnitude is out of range. -/
def float? (n : Numeral) : Option Float :=
  let signed (x : Float) : Float := if n.negative then -x else x
  let (whole, dropped) := significand 0 n.whole
  let (digits, ignored) := significand whole n.fraction
  let places : Int := dropped - (n.fraction.length - ignored : Nat)
  let exponent : Int := n.exponent.getD 0
  if exponents.greatest < exponent.natAbs then
    if digits ≠ 0 ∧ 0 < exponent then none else some (signed 0)
  else
    let total := max exponents.least (min exponents.greatest (places + exponent))
    (scaled? (Decimal.nearest false digits 1) total).map signed

/-- Zeros. -/
def zeros (n : Nat) : List Nat :=
  List.replicate n 0

/-- The numeral of a positive decimal. -/
def ofScientific (negative : Bool) (x : Decimal.Scientific) : Numeral :=
  let digits := toDigits x.digits
  -- the place of the point, counted from the front of the digits
  let point := digits.length + x.exponent
  if 0 ≤ x.exponent ∧ point ≤ 16 then
    ⟨negative, digits ++ zeros x.exponent.toNat, [0], none⟩
  else if 0 < point ∧ point ≤ 16 then
    ⟨negative, digits.take point.toNat, digits.drop point.toNat, none⟩
  else if -5 < point ∧ point ≤ 0 then
    ⟨negative, [0], zeros (-point).toNat ++ digits, none⟩
  else ⟨negative, digits.take 1, digits.drop 1, some (point - 1)⟩

/-- The numeral of a double, unless it is not finite. -/
def ofFloat? (x : Float) : Option Numeral :=
  match Decimal.Parts.ofFloat x with
  | .finite negative m q =>
    if m = 0 then some ⟨negative, [0], [0], none⟩
    else some (ofScientific negative (Decimal.shortest .even m q))
  | _ => none

end Numeral

end Displays.Json
