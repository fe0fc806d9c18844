import Displays.Decimal.Integer
import Displays.Text.Scan
import Displays.Text.Printable

/-!
# Sizes, modes and places

Resolutions, modes and positions, and reading the first and the last from their written forms
`WIDTHxHEIGHT` and `X,Y`.
-/

namespace Displays

open Decimal (IntegerFault readInt readNat)

/-- A size in pixels. -/
structure Resolution where
  /-- The number of columns. -/
  width : Nat
  /-- The number of rows. -/
  height : Nat
  deriving DecidableEq, Repr, Inhabited

/-- A video mode. -/
structure Mode where
  /-- The size of the picture. -/
  resolution : Resolution
  /-- Pictures in a thousand seconds. -/
  refresh : Nat
  deriving DecidableEq, Repr

/-- A place on the desktop. -/
structure Point where
  /-- Pixels to the right of the origin. -/
  x : Int
  /-- Pixels below the origin. -/
  y : Int
  deriving DecidableEq, Repr, Inhabited

/-- A rectangle on the desktop. -/
structure Rect where
  /-- The top left corner. -/
  topLeft : Point
  /-- The extent. -/
  size : Resolution
  deriving DecidableEq, Repr, Inhabited

/-- The extent of a display in millimetres. -/
structure PhysicalSize where
  /-- The width. -/
  width : Nat
  /-- The height. -/
  height : Nat
  deriving DecidableEq, Repr, Inhabited

/-- Splits a text at the first occurrence of a character. -/
def splitAt? (c : Char) : List Char → Option (List Char × List Char)
  | [] => none
  | d :: rest =>
    if d = c then some ([], rest) else (splitAt? c rest).map fun (front, back) => (d :: front, back)

/-- Why a text is no pair of numbers. -/
inductive PairFault where
  /-- The separator is missing. -/
  | form (expected : String) (text : String)
  /-- A number is wrong. -/
  | number (name : String) (fault : IntegerFault)
  deriving DecidableEq, Repr

/-- The description of a fault. -/
def PairFault.message : PairFault → String
  | .form expected text => s!"expected {expected}, got {Text.quoted text}"
  | .number name fault => s!"bad {name}: {fault.message}"

/-- Reads a resolution. -/
def Resolution.read (s : String) : Except PairFault Resolution := do
  let some (width, height) := splitAt? 'x' s.toList | throw (.form "WIDTHxHEIGHT" s)
  let width ← (readNat 32 width).mapError (.number "width")
  let height ← (readNat 32 height).mapError (.number "height")
  return ⟨width, height⟩

/-- Reads a point; white space around its numbers is passed over. -/
def Point.read (s : String) : Except PairFault Point := do
  let some (x, y) := splitAt? ',' s.toList | throw (.form "X,Y" s)
  let x ← (readInt (.signed 32) (Text.trim x)).mapError (.number "x")
  let y ← (readInt (.signed 32) (Text.trim y)).mapError (.number "y")
  return ⟨x, y⟩

end Displays
