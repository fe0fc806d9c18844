/-!
# Whole numbers within bounds

Whole numbers are read from decimal digits with an optional sign, and must lie within the bounds
of a fixed number of bits. A minus sign is read only where the bounds reach below zero. The text
is judged from left to right, so digits that leave the bounds are reported before a stray
character behind them.
-/

namespace Displays.Decimal

/-- A closed range of integers. -/
structure Bounds where
  /-- The least member. -/
  least : Int
  /-- The greatest member. -/
  greatest : Int
  deriving DecidableEq, Repr

/-- The range of unsigned words of this many bits. -/
def Bounds.unsigned (bits : Nat) : Bounds := ⟨0, Nat.pow 2 bits - 1⟩

/-- The range of signed words of this many bits. -/
def Bounds.signed (bits : Nat) : Bounds := ⟨-Nat.pow 2 (bits - 1), Nat.pow 2 (bits - 1) - 1⟩

instance : Membership Int Bounds where
  mem r n := r.least ≤ n ∧ n ≤ r.greatest

instance (n : Int) (r : Bounds) : Decidable (n ∈ r) :=
  inferInstanceAs (Decidable (r.least ≤ n ∧ n ≤ r.greatest))

/-- Why a text is no whole number within its bounds. -/
inductive IntegerFault where
  /-- The text is empty. -/
  | empty
  /-- A character is not a digit, or no digit follows the sign. -/
  | invalidDigit
  /-- The number lies above the bounds. -/
  | tooLarge
  /-- The number lies below the bounds. -/
  | tooSmall
  deriving DecidableEq, Repr

/-- The description of a fault. -/
def IntegerFault.message : IntegerFault → String
  | .empty => "cannot parse integer from empty string"
  | .invalidDigit => "invalid digit found in string"
  | .tooLarge => "number too large to fit in target type"
  | .tooSmall => "number too small to fit in target type"

/-- The value of an ASCII digit. -/
def digit? (c : Char) : Option Nat :=
  if c.isDigit then some (c.toNat - '0'.toNat) else none

/-- Continues the magnitude `n` with further digits while it is at most `limit`. -/
def magnitude (limit : Nat) (excess : IntegerFault) (n : Nat) : List Char → Except IntegerFault Nat
  | [] => .ok n
  | c :: rest =>
    match digit? c with
    | none => .error .invalidDigit
    | some d =>
      if 10 * n + d ≤ limit then magnitude limit excess (10 * n + d) rest else .error excess

/-- The number that a text without sign stands for. -/
def unsignedOf (limit : Nat) (excess : IntegerFault) (s : List Char) : Except IntegerFault Nat :=
  if s.isEmpty then .error .invalidDigit else magnitude limit excess 0 s

/-- Reads a whole number within the bounds. -/
def readInt (r : Bounds) : List Char → Except IntegerFault Int
  | [] => .error .empty
  | '+' :: rest => (unsignedOf r.greatest.toNat .tooLarge rest).map Int.ofNat
  | '-' :: rest =>
    if r.least < 0 then (unsignedOf (-r.least).toNat .tooSmall rest).map fun n => -(n : Int)
    else .error .invalidDigit
  | s => (unsignedOf r.greatest.toNat .tooLarge s).map Int.ofNat

/-- Reads a natural number of at most this many bits. -/
def readNat (bits : Nat) (s : List Char) : Except IntegerFault Nat :=
  (readInt (.unsigned bits) s).map Int.toNat

example : readInt (.signed 8) "-128".toList = .ok (-128) := by rfl

example : readInt (.signed 8) "-129x".toList = .error .tooSmall := by rfl

example : readInt (.unsigned 8) "2 56".toList = .error .invalidDigit := by rfl

end Displays.Decimal
