import Displays.Json.Token

/-!
# JSON values

A value is read from tokens by a machine with a stack of open containers, so that nesting may be of
any depth. Members of an object stay in the order in which they are written, repeated names
included, and strings stay as they are written.
-/

namespace Displays.Json

/-- A JSON value. -/
inductive Value where
  /-- The empty value. -/
  | null
  /-- A truth value. -/
  | bool (b : Bool)
  /-- A number. -/
  | number (n : Numeral)
  /-- A string, as the octets between its quotes. -/
  | string (raw : List UInt8)
  /-- The items in brackets. -/
  | array (items : List Value)
  /-- The members in braces, by name. -/
  | object (members : List (List UInt8 × Value))
  deriving Repr

/-- A container that is open, with what it holds so far, newest first. -/
inductive Container where
  /-- An array. -/
  | array (items : List Value)
  /-- An object, with the name that was read last. -/
  | object (members : List (List UInt8 × Value)) (name : List UInt8)
  deriving Repr

/-- What may come next. -/
inductive Expected where
  /-- A value. -/
  | value
  /-- The first item of an array, or its end. -/
  | item
  /-- The first name of an object, or its end. -/
  | member
  /-- A further name of an object. -/
  | name
  /-- The colon behind a name. -/
  | colon
  /-- A comma, or the end of the innermost container. -/
  | separator
  /-- Nothing: this value is complete. -/
  | nothing (v : Value)
  deriving Repr

/-- The open containers, innermost first, and what may come next. -/
structure Reader where
  /-- The open containers. -/
  stack : List Container
  /-- What may come next. -/
  expected : Expected
  deriving Repr

/-- The reader after a complete value. -/
def Reader.deliver (v : Value) : List Container → Reader
  | [] => ⟨[], .nothing v⟩
  | .array items :: stack => ⟨.array (v :: items) :: stack, .separator⟩
  | .object members name :: stack => ⟨.object ((name, v) :: members) name :: stack, .separator⟩

/-- Reads a token that begins or is a value. -/
def Reader.begin? (stack : List Container) : Token → Option Reader
  | .null => some (.deliver .null stack)
  | .bool b => some (.deliver (.bool b) stack)
  | .number n => some (.deliver (.number n) stack)
  | .string raw => some (.deliver (.string raw) stack)
  | .openArray => some ⟨.array [] :: stack, .item⟩
  | .openObject => some ⟨.object [] [] :: stack, .member⟩
  | _ => none

/-- Reads a token. -/
def Reader.step? (r : Reader) (t : Token) : Option Reader :=
  match r.expected, t, r.stack with
  | .value, t, stack => begin? stack t
  | .item, .closeArray, .array items :: stack => some (deliver (.array items.reverse) stack)
  | .item, t, stack => begin? stack t
  | .member, .closeObject, .object members _ :: stack =>
    some (deliver (.object members.reverse) stack)
  | .member, .string raw, .object members _ :: stack => some ⟨.object members raw :: stack, .colon⟩
  | .name, .string raw, .object members _ :: stack => some ⟨.object members raw :: stack, .colon⟩
  | .colon, .colon, stack => some ⟨stack, .value⟩
  | .separator, .comma, .array items :: stack => some ⟨.array items :: stack, .value⟩
  | .separator, .comma, .object members name :: stack =>
    some ⟨.object members name :: stack, .name⟩
  | .separator, .closeArray, .array items :: stack => some (deliver (.array items.reverse) stack)
  | .separator, .closeObject, .object members _ :: stack =>
    some (deliver (.object members.reverse) stack)
  | _, _, _ => none

/-- Reads tokens up to their end. -/
def Reader.run? (r : Reader) : List Token → Option Value
  | [] =>
    match r.expected with
    | .nothing v => some v
    | _ => none
  | t :: rest =>
    match r.step? t with
    | some r => r.run? rest
    | none => none

/-- The value that a JSON text stands for. -/
def Value.read? (bytes : List UInt8) : Option Value := do
  Reader.run? ⟨[], .value⟩ (← tokens? bytes)

end Displays.Json
