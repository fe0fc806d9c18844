import Displays.Decimal.Binary
import Displays.Decimal.Integer

/-!
# Reading doubles

A decimal number is an optional sign, digits with at most one point among or around them, and an
optional exponent; it is rounded to the nearest double, ties to even. The words for infinity and
for what is not a number are read in any case.
-/

namespace Displays.Decimal

/-- The digits at the front of a text, as a number and a count, and the rest of the text. -/
def spanDigits (n count : Nat) : List Char → Nat × Nat × List Char
  | [] => (n, count, [])
  | c :: rest =>
    match digit? c with
    | some d => spanDigits (10 * n + d) (count + 1) rest
    | none => (n, count, c :: rest)

/-- The double nearest to `digits * 10 ^ exponent`. -/
def nearestDecimal (negative : Bool) (digits : Nat) (exponent : Int) : Float :=
  -- beyond these bounds the result is infinite or zero, whatever the digits
  if digits = 0 then nearest negative 0 1
  else if 310 < exponent then nearest negative (Nat.pow 2 1024) 1
  else if exponent < -330 - (digits.log2 : Int) then nearest negative 0 1
  else nearest negative (digits * Nat.pow 10 exponent.toNat) (Nat.pow 10 (-exponent).toNat)

/-- Reads an exponent with its sign; the text must end behind it. -/
def readExponent? : List Char → Option Int
  | '-' :: rest => (digitsToEnd? rest).map fun n => -(n : Int)
  | '+' :: rest => (digitsToEnd? rest).map Int.ofNat
  | rest => (digitsToEnd? rest).map Int.ofNat
where
  /-- The number that digits up to the end of the text stand for. -/
  digitsToEnd? (s : List Char) : Option Nat :=
    match spanDigits 0 0 s with
    | (n, _ + 1, []) => some n
    | _ => none

/-- Reads a decimal number without sign. -/
def readDecimal? (negative : Bool) (s : List Char) : Option Float :=
  let (whole, wholeCount, rest) := spanDigits 0 0 s
  let (digits, places, rest) :=
    match rest with
    | '.' :: rest => spanDigits whole 0 rest
    | rest => (whole, 0, rest)
  if wholeCount + places = 0 then none
  else
    match rest with
    | [] => some (nearestDecimal negative digits (-places))
    | c :: rest =>
      if c = 'e' ∨ c = 'E' then
        (readExponent? rest).map fun e => nearestDecimal negative digits (e - places)
      else none

/-- Reads a number or one of the words for the other doubles. -/
def readUnsigned? (negative : Bool) (s : List Char) : Option Float :=
  let word := s.map Char.toLower
  if word = ['n', 'a', 'n'] then some (0.0 / 0.0)
  else if word = ['i', 'n', 'f'] ∨ word = ['i', 'n', 'f', 'i', 'n', 'i', 't', 'y'] then
    some (if negative then -1.0 / 0.0 else 1.0 / 0.0)
  else readDecimal? negative s

/-- Reads a double. -/
def readFloat? : List Char → Option Float
  | '-' :: rest => readUnsigned? true rest
  | '+' :: rest => readUnsigned? false rest
  | s => readUnsigned? false s

end Displays.Decimal
