import Displays.Decimal.Binary

/-!
# The fewest digits that read back, and the text of a double

Among all decimals that round to a given double, those with the fewest significant digits are
chosen, and among them the one nearest to the double. The reals that round to `m * 2 ^ q` form an
interval whose ends belong to it exactly when `m` is even; one to seventeen digits are tried, and
on each decimal grid only the two neighbours of the double can be the answer. All comparisons are
between natural numbers.

Plain text is positional for every magnitude: no exponent, no point after a whole number, and a
decimal halfway between two candidates goes up.
-/

namespace Displays.Decimal

/-- The decimal `digits * 10 ^ exponent`. -/
structure Scientific where
  /-- The significant digits as a number. -/
  digits : Nat
  /-- The power of ten. -/
  exponent : Int
  deriving DecidableEq, Repr

/-- Which of two decimals is taken that are equally near. -/
inductive Tie where
  /-- The greater one. -/
  | up
  /-- The one with an even last digit. -/
  | even
  deriving DecidableEq, Repr

/-- A double between its neighbours, in quarters of its last binary place. -/
structure Neighbourhood where
  /-- The lower end of the interval that rounds to the double. -/
  low : Nat
  /-- The double itself. -/
  value : Nat
  /-- The upper end of the interval. -/
  high : Nat
  /-- The ends themselves round to the double. -/
  closed : Bool
  /-- The power of two that one quarter stands for. -/
  exponent : Int
  deriving DecidableEq, Repr

/-- The neighbourhood of `m * 2 ^ q`; below a power of two the gap is half as wide. -/
def Neighbourhood.of (m : Nat) (q : Int) : Neighbourhood where
  low := if m = Nat.pow 2 52 ∧ leastExponent < q then 4 * m - 1 else 4 * m - 2
  value := 4 * m
  high := 4 * m + 2
  closed := m % 2 = 0
  exponent := q - 2

namespace Neighbourhood

/-- The length of the step `10 ^ g` of a grid, where a quarter has length `quarter g`. -/
def step (v : Neighbourhood) (g : Int) : Nat :=
  Nat.pow 10 g.toNat * Nat.pow 2 (-v.exponent).toNat

/-- The length of a quarter where the grid `10 ^ g` has steps of length `step g`. -/
def quarter (v : Neighbourhood) (g : Int) : Nat :=
  Nat.pow 2 v.exponent.toNat * Nat.pow 10 (-g).toNat

/-- The point `d * 10 ^ g` rounds to the double. -/
def Covers (v : Neighbourhood) (d : Nat) (g : Int) : Prop :=
  let x := d * v.step g
  let low := v.low * v.quarter g
  let high := v.high * v.quarter g
  if v.closed then low ≤ x ∧ x ≤ high else low < x ∧ x < high

instance (v : Neighbourhood) (d : Nat) (g : Int) : Decidable (v.Covers d g) := by
  unfold Covers
  infer_instance

/-- The point of the grid `10 ^ g` that rounds to the double and is nearest to it, if any. -/
def onGrid? (tie : Tie) (v : Neighbourhood) (g : Int) : Option Nat :=
  let value := v.value * v.quarter g
  let step := v.step g
  let d := value / step
  let r := value % step
  let upper : Bool :=
    if step = 2 * r then
      match tie with
      | .up => true
      | .even => d % 2 = 1
    else step < 2 * r
  if v.Covers d g ∧ (¬ v.Covers (d + 1) g ∨ upper = false) then some d
  else if v.Covers (d + 1) g then some (d + 1)
  else none

/-- The power of ten of the first significant digit, raised from an estimate not above it. -/
def raiseExponent (v : Neighbourhood) : Nat → Int → Int
  | 0, e => e
  | fuel + 1, e =>
    if v.step (e + 1) ≤ v.value * v.quarter (e + 1) then v.raiseExponent fuel (e + 1) else e

/-- The power of ten of the first significant digit. -/
def decimalExponent (v : Neighbourhood) : Int :=
  -- 1233 / 4096 is just below the logarithm of two to the base ten
  v.raiseExponent 3 (Int.fdiv ((v.value.log2 + v.exponent) * 1233) 4096 - 1)

end Neighbourhood

/-- The decimal without the zeros at the end of its digits. -/
def Scientific.strip : Nat → Scientific → Scientific
  | 0, x => x
  | fuel + 1, x =>
    if x.digits % 10 = 0 then strip fuel ⟨x.digits / 10, x.exponent + 1⟩ else x

/-- The shortest decimal that rounds to the positive double `m * 2 ^ q`. -/
def shortest (tie : Tie) (m : Nat) (q : Int) : Scientific :=
  let v := Neighbourhood.of m q
  let e := v.decimalExponent
  let grids : List Int := (List.range 17).map fun n => e - Int.ofNat n
  match grids.findSome? fun g => (v.onGrid? tie g).map fun d => (⟨d, g⟩ : Scientific) with
  | some x => x.strip 17
  | none => ⟨m, q⟩

example : shortest .up 1 (-1074) = ⟨5, -324⟩ := by decide +kernel

example : shortest .up (Nat.pow 2 52) (-52) = ⟨1, 0⟩ := by decide +kernel

/-! ## Text -/

/-- The decimal digits of a number. -/
def digitChars (n : Nat) : List Char :=
  Nat.toDigits 10 n

/-- Writes a decimal without exponent. -/
def Scientific.positional (x : Scientific) : List Char :=
  let digits := digitChars x.digits
  match x.exponent with
  | .ofNat zeros => digits ++ List.replicate zeros '0'
  | .negSucc n =>
    let places := n + 1
    let padded := List.replicate (places + 1 - digits.length) '0' ++ digits
    let whole := padded.length - places
    padded.take whole ++ '.' :: padded.drop whole

/-- The shortest positional text that reads back as the double. -/
def plainText (x : Float) : String :=
  match Parts.ofFloat x with
  | .nan => "NaN"
  | .infinite negative => if negative then "-inf" else "inf"
  | .finite negative m q =>
    let sign := if negative then ['-'] else []
    let digits := if m = 0 then ['0'] else (shortest .up m q).positional
    String.ofList (sign ++ digits)

/-- The number in decimal digits, with at least `width` of them. -/
def padded (width n : Nat) : String :=
  let digits := digitChars n
  String.ofList (List.replicate (width - digits.length) '0' ++ digits)

end Displays.Decimal
