import Displays.Json.Value
import Displays.Json.Text

/-!
# Printing JSON

Values are laid out over several lines, each level indented by two more spaces; an empty container
stays on its line.
-/

namespace Displays.Json

/-- The octets of digits. -/
def digitBytes (digits : List Nat) : List UInt8 :=
  digits.map fun d => UInt8.ofNat (0x30 + d)

/-- The octets of an exponent, which always has a sign. -/
def exponentBytes (e : Int) : List UInt8 :=
  0x65 :: (if e < 0 then 0x2d else 0x2b) :: digitBytes (toDigits e.natAbs)

/-- The octets of a numeral. -/
def Numeral.print (n : Numeral) : List UInt8 :=
  (if n.negative then [0x2d] else []) ++ digitBytes n.whole ++
    (if n.fraction = [] then [] else 0x2e :: digitBytes n.fraction) ++
    n.exponent.elim [] exponentBytes

/-- A line end and the indentation of the next line. -/
def newLine (indent : Nat) : List UInt8 :=
  0x0a :: List.replicate (2 * indent) 0x20

/-- A string in quotes. -/
def printString (raw : List UInt8) : List UInt8 :=
  0x22 :: raw ++ [0x22]

mutual

/-- The octets of a value whose container is indented by this many levels. -/
def Value.print (indent : Nat) : Value → List UInt8
  | .null => [0x6e, 0x75, 0x6c, 0x6c]
  | .bool true => [0x74, 0x72, 0x75, 0x65]
  | .bool false => [0x66, 0x61, 0x6c, 0x73, 0x65]
  | .number n => n.print
  | .string raw => printString raw
  | .array [] => [0x5b, 0x5d]
  | .array (v :: items) =>
    0x5b :: newLine (indent + 1) ++ v.print (indent + 1) ++ printItems (indent + 1) items ++
      newLine indent ++ [0x5d]
  | .object [] => [0x7b, 0x7d]
  | .object ((name, v) :: members) =>
    0x7b :: newLine (indent + 1) ++ printString name ++ [0x3a, 0x20] ++ v.print (indent + 1) ++
      printMembers (indent + 1) members ++ newLine indent ++ [0x7d]

/-- The items behind the first, each after a comma on a line of its own. -/
def printItems (indent : Nat) : List Value → List UInt8
  | [] => []
  | v :: items => 0x2c :: newLine indent ++ v.print indent ++ printItems indent items

/-- The members behind the first, each after a comma on a line of its own. -/
def printMembers (indent : Nat) : List (List UInt8 × Value) → List UInt8
  | [] => []
  | (name, v) :: members =>
    0x2c :: newLine indent ++ printString name ++ [0x3a, 0x20] ++ v.print indent ++
      printMembers indent members

end

/-- A string value that says this text. -/
def Value.ofText (s : String) : Value :=
  .string (escape s.toList)

/-- An object with these members. -/
def Value.ofMembers (members : List (String × Value)) : Value :=
  .object (members.map fun m => (escape m.1.toList, m.2))

/-- The numeral of an integer. -/
def Value.ofInt (n : Int) : Value :=
  .number (.ofInt n)

/-- The numeral of a double, or the empty value if it is not finite. -/
def Value.ofFloat (x : Float) : Value :=
  match Numeral.ofFloat? x with
  | some n => .number n
  | none => .null

end Displays.Json
