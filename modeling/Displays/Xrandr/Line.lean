import Displays.Text.Scan

/-!
# Lines of an xrandr report

The report of `xrandr --verbose` has one header line per output and below it indented lines of
details. Each kind of line is recognised by its form alone; numbers stay as they are written, since
only the reader of the report knows which of them it needs.
-/

namespace Displays.Xrandr

open Displays.Text

/-- The header line of an output. -/
structure Header where
  /-- The name of the connector. -/
  name : List Char
  /-- A display hangs on the connector. -/
  connected : Bool
  /-- The digits of the position, for an output in use. -/
  place : Option (List Char × List Char)
  /-- The digits of the extent in millimetres, if it is given. -/
  extent : Option (List Char × List Char)
  deriving DecidableEq, Repr

/-- Takes the word for the primary output, with the blank before it. -/
def primary? (s : List Char) : Option (List Char) := do
  literal? "primary".toList (← blank? s)

/-- Takes the size and position of a picture, with the blank before it, and gives the position. -/
def geometry? (s : List Char) : Option ((List Char × List Char) × List Char) := do
  let (_, s) ← digits? (← blank? s)
  let (_, s) ← digits? (← literal? ['x'] s)
  let (x, s) ← signedDigits? (← literal? ['+'] s)
  let (y, s) ← signedDigits? (← literal? ['+'] s)
  return ((x, y), s)

/-- Takes the position, if there is one, and the blank behind it. -/
def place? (s : List Char) : Option (Option (List Char × List Char) × List Char) :=
  let placed := do
    let (place, s) ← geometry? s
    return (some place, ← blank? s)
  placed <|> (blank? s).map fun s => (none, s)

/-- Takes a number of millimetres. -/
def millimetres? (s : List Char) : Option (List Char × List Char) := do
  let (digits, s) ← digits? (← blank? s)
  return (digits, ← literal? ['m', 'm'] s)

/-- Takes an extent in millimetres, with the blank before it. -/
def extent? (s : List Char) : Option (List Char × List Char) := do
  let (width, s) ← millimetres? s
  let (height, _) ← millimetres? (← literal? ['x'] (← blank? s))
  return (width, height)

/-- Takes the word for the state of a connector. -/
def status? (s : List Char) : Option (Bool × List Char) :=
  ((literal? "connected".toList s).map fun s => (true, s)) <|>
    (literal? "disconnected".toList s).map fun s => (false, s)

/-- Recognises the header line of an output. The word for the primary output is passed over where
the line goes on as it has to behind it. -/
def header? (line : List Char) : Option Header := do
  let (name, s) ← word? line
  let (connected, s) ← status? (← blank? s)
  let (place, s) ← ((primary? s).bind place?) <|> place? s
  return { name, connected, place, extent := last? extent? s }

/-- Recognises the line that opens an EDID. -/
def isEdidStart (line : List Char) : Bool :=
  let opened := do literal? "EDID:".toList (← blanks? line)
  opened.any fun s => s.all isBlank

/-- A lower-case hexadecimal digit. -/
def isHexDigit (c : Char) : Bool :=
  c.isDigit || ('a' ≤ c && c ≤ 'f')

/-- Recognises a line of sixteen octets of an EDID and gives its digits. -/
def edidData? (line : List Char) : Option (List Char) := do
  let (digits, s) ← exactly? isHexDigit 32 (← blanks? line)
  if s.all isBlank then some digits else none

/-- Recognises the line with the transformation and gives the first factor. -/
def transform? (line : List Char) : Option (List Char) := do
  let s ← blanks? (← literal? "Transform:".toList (← blanks? line))
  let (whole, s) ← digits? s
  let (places, s) ← digits? (← literal? ['.'] s)
  let _ ← blank? s
  return whole ++ '.' :: places

/-- Whether the letters occur in the text. -/
def occurs (word : List Char) (s : List Char) : Bool :=
  (last? (fun s => literal? word s) s).isSome

/-- Recognises the line that opens a mode and tells whether the mode is the current one. -/
def mode? (line : List Char) : Option Bool := do
  let (_, s) ← word? (← blanks? line)
  let (_, s) ← run? isHexDigit (← literal? "(0x".toList (← blanks? s))
  let s ← blanks? (← literal? [')'] s)
  let (_, s) ← digits? s
  let (_, s) ← digits? (← literal? ['.'] s)
  let flags ← literal? "MHz".toList s
  return occurs "*current".toList flags

/-- Recognises the line with the horizontal timing of a mode and gives the width. -/
def width? (line : List Char) : Option (List Char) := do
  let s ← blanks? (← literal? "h:".toList (← blanks? line))
  let s ← blanks? (← literal? "width".toList s)
  let (width, s) ← digits? s
  let _ ← blank? s
  return width

/-- The digits in the line with the vertical timing of a mode. -/
structure Vertical where
  /-- The height. -/
  height : List Char
  /-- The whole hertz of the refresh rate. -/
  hertz : List Char
  /-- The hundredths of a hertz, two digits. -/
  hundredths : List Char
  deriving DecidableEq, Repr

/-- Takes the refresh rate. -/
def clock? (s : List Char) : Option (List Char × List Char) := do
  let (hertz, s) ← digits? (← blanks? (← literal? "clock".toList s))
  let (hundredths, s) ← exactly? isDecimalDigit 2 (← literal? ['.'] s)
  let _ ← literal? "Hz".toList s
  return (hertz, hundredths)

/-- Recognises the line with the vertical timing of a mode. -/
def height? (line : List Char) : Option Vertical := do
  let s ← blanks? (← literal? "v:".toList (← blanks? line))
  let s ← blanks? (← literal? "height".toList s)
  let (height, s) ← digits? s
  let (hertz, hundredths) ← last? clock? (← blank? s)
  return { height, hertz, hundredths }

end Displays.Xrandr
