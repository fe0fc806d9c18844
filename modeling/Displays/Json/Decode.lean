import Displays.Json.Value
import Displays.Json.Text

/-!
# Reading records from JSON values

A record is an object with a member for each of its fields, in any order, or an array of its
fields in their order. Other members are passed over, a field that comes twice is an error. A
choice is the name of an alternative, alone or as the only member of an object with an empty value.
-/

namespace Displays.Json.Value

open Decimal (Bounds)

/-- The truth value. -/
def bool? : Value → Option Bool
  | .bool b => some b
  | _ => none

/-- The integer within the bounds. -/
def int? (r : Bounds) : Value → Option Int
  | .number n => n.int? r
  | _ => none

/-- The natural number of at most this many bits. -/
def nat? (bits : Nat) (v : Value) : Option Nat :=
  (v.int? (.unsigned bits)).map Int.toNat

/-- The double. -/
def float? : Value → Option Float
  | .number n => n.float?
  | _ => none

/-- The text of a string. -/
def text? : Value → Option String
  | .string raw => (Json.text? raw).map String.ofList
  | _ => none

/-- The text of a string without escapes. -/
def plainText? : Value → Option String
  | .string raw => (Json.plainText? raw).map String.ofList
  | _ => none

/-- The items of an array. -/
def list? {α : Type} (item? : Value → Option α) : Value → Option (List α)
  | .array items => items.mapM item?
  | _ => none

/-- A value that may be empty. -/
def option? {α : Type} (some? : Value → Option α) : Value → Option (Option α)
  | .null => some none
  | v => (some? v).map some

/-- A field that may be empty or missing. -/
def optional? {α : Type} (some? : Value → Option α) : Option Value → Option (Option α)
  | none => some none
  | some v => v.option? some?

/-- The members by name, with the escapes of the names resolved. -/
def members? : Value → Option (List (String × Value))
  | .object members =>
    members.mapM fun (raw, v) => (Json.text? raw).map fun name => (String.ofList name, v)
  | _ => none

/-- A field of a record. -/
structure Field where
  /-- The name of the field. -/
  name : String
  /-- An array may end before this field. -/
  trailing : Bool := false
  deriving DecidableEq, Repr

/-- The value of the member with this name, if there is one; fails if there are several. -/
def member? (members : List (String × Value)) (name : String) : Option (Option Value) :=
  match members.filter fun m => m.1 = name with
  | [] => some none
  | [m] => some (some m.2)
  | _ => none

/-- The fields in their order, each with an item as long as there are any. -/
def positional? : List Field → List Value → Option (List (Option Value))
  | [], [] => some []
  | [], _ :: _ => none
  | _ :: fields, v :: items => (positional? fields items).map (some v :: ·)
  | f :: fields, [] => if f.trailing then (positional? fields []).map (none :: ·) else none

/-- The values of the fields of a record, in their order; none for a field that is not written. -/
def fields? (fields : List Field) : Value → Option (List (Option Value))
  | .array items => positional? fields items
  | v => do
    let members ← v.members?
    fields.mapM fun f => member? members f.name

/-- The alternative with the name that is written. -/
def choice? {α : Type} (ofName? : String → Option α) : Value → Option α
  | .object [(raw, .null)] => (Json.text? raw).bind fun name => ofName? (String.ofList name)
  | v => v.text?.bind ofName?

end Displays.Json.Value
