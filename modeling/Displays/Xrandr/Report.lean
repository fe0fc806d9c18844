import Displays.Decimal.Reading
import Displays.Fault
import Displays.Text.Hex
import Displays.Text.Scan
import Displays.Xrandr.Line

/-!
# Reading xrandr reports

The lines of a report are read one after the other. A header line opens an output, and the lines
below it add to that output alone; the first number out of range ends the reading. Lines of an EDID
stand directly behind the line that opens it, and a mode counts once both its timings are read. Each
number of a refresh rate has to be in range, but the rate that they make up is not checked: what 32
bits do not hold of it is lost.
-/

namespace Displays.Xrandr

open Displays.Decimal (readInt readNat)

/-- The octets that pairs of hexadecimal digits stand for, the first pair at this offset. A plus
sign may stand for a leading zero. -/
def hexBytes (offset : Nat) : List UInt8 → Except Garble (List UInt8)
  | [] => .ok []
  | [_] => .error (.reportHex offset)
  | a :: b :: rest =>
    let a := Char.ofNat a.toNat
    let high := if a = '+' then some 0 else Text.Hex.value? a
    match high, Text.Hex.value? (Char.ofNat b.toNat) with
    | some high, some low =>
      match hexBytes (offset + 2) rest with
      | .ok bytes => .ok (UInt8.ofNat (16 * high + low) :: bytes)
      | .error g => .error g
    | _, _ => .error (.reportHex offset)

/-- The octets that a text of hexadecimal digits stands for. -/
def decodeHex (s : List Char) : Except Garble (List UInt8) :=
  hexBytes 0 (Text.Utf8.encode s)

/-- A mode whose timings are not yet read. -/
structure PendingMode where
  /-- The mode is the current one. -/
  current : Bool
  /-- The width, once its line is read. -/
  width : Option Nat
  deriving DecidableEq, Repr

/-- An output whose lines are being read. -/
structure Draft where
  /-- The output as far as it is known. -/
  output : Output
  /-- The index of the mode that is marked as current, if one is. -/
  current : Option Nat
  /-- The mode that the next timings belong to. -/
  pending : Option PendingMode
  /-- The line before this one belonged to an EDID. -/
  inEdid : Bool
  /-- The hexadecimal digits of the EDID. -/
  hex : List Char
  deriving Repr

/-- The value of a number, which must be in range. -/
def number (name : String) (digits : List Char) : Except Garble Nat :=
  (readNat 32 digits).mapError fun _ => .reportNumber name (String.ofList digits)

/-- The value of a number with sign, which must be in range. -/
def signedNumber (name : String) (digits : List Char) : Except Garble Int :=
  (readInt (.signed 32) digits).mapError fun _ => .reportNumber name (String.ofList digits)

/-- The refresh rate in thousandths of a hertz, in arithmetic of 32 bits that wraps around. -/
def millihertz (hertz hundredths : Nat) : Nat :=
  (1000 * hertz + 10 * hundredths) % Nat.pow 2 32

/-- A refresh rate that 32 bits hold is read as it is written. -/
theorem millihertz_of_lt {hertz hundredths : Nat}
    (h : 1000 * hertz + 10 * hundredths < Nat.pow 2 32) :
    millihertz hertz hundredths = 1000 * hertz + 10 * hundredths :=
  Nat.mod_eq_of_lt h

/-- The output that a header line opens. -/
def Draft.ofHeader (h : Header) : Except Garble Draft := do
  let topLeft ←
    match h.place with
    | some (x, y) => do pure (⟨← signedNumber "x" x, ← signedNumber "y" y⟩ : Point)
    | none => pure ⟨0, 0⟩
  let size ←
    match h.extent with
    | some (width, height) => do
      pure (⟨← number "mm_width" width, ← number "mm_height" height⟩ : PhysicalSize)
    | none => pure ⟨0, 0⟩
  return {
    output := {
      id := String.ofList h.name
      connected := h.connected
      used := h.place.isSome
      topLeft
      modeIndex := 0
      modes := []
      power := .on
      scale := 1
      form := .monitor
      size
      edid := none }
    current := none
    pending := none
    inEdid := false
    hex := [] }

namespace Draft

/-- Reads the factor of a transformation: the framebuffer grows by it, so the scale shrinks. -/
def readTransform (d : Draft) (digits : List Char) : Except Garble Draft :=
  match Decimal.readFloat? digits with
  | none => .error (.reportNumber "factor" (String.ofList digits))
  | some factor =>
    .ok (if 0 < factor then { d with output := { d.output with scale := 1 / factor } } else d)

/-- Reads the width of the mode that is pending, if one is. -/
def readWidth (d : Draft) (digits : List Char) : Except Garble Draft :=
  match d.pending with
  | none => .ok d
  | some mode => do
    let width ← number "width" digits
    return { d with pending := some { mode with width := some width } }

/-- Adds the mode that is pending, if its width is known. -/
def readHeight (d : Draft) (v : Vertical) : Except Garble Draft :=
  let d' := { d with pending := none }
  match d.pending with
  | some ⟨current, some width⟩ => do
    let hertz ← number "hz" v.hertz
    let hundredths ← number "centihz" v.hundredths
    let height ← number "height" v.height
    let mode : Mode := ⟨⟨width, height⟩, millihertz hertz hundredths⟩
    return { d' with
      output := { d.output with modes := d.output.modes ++ [mode] }
      current := if current then some d.output.modes.length else d.current }
  | _ => .ok d'

/-- Reads a line outside the digits of an EDID. -/
def readOther (d : Draft) (line : List Char) : Except Garble Draft :=
  if isEdidStart line then .ok { d with inEdid := true }
  else
    match transform? line with
    | some digits => d.readTransform digits
    | none =>
      match mode? line with
      | some current => .ok { d with pending := some ⟨current, none⟩ }
      | none =>
        match width? line with
        | some digits => d.readWidth digits
        | none =>
          match height? line with
          | some v => d.readHeight v
          | none => .ok d

/-- Reads a line below the header. -/
def readLine (d : Draft) (line : List Char) : Except Garble Draft :=
  if d.inEdid then
    match edidData? line with
    | some digits => .ok { d with hex := d.hex ++ digits }
    | none => readOther { d with inEdid := false } line
  else d.readOther line

/-- The output, when all its lines are read. -/
def finish (d : Draft) : Except Garble Output := do
  let output := { d.output with modeIndex := d.current.getD 0 }
  if d.hex = [] then return output
  else return { output with edid := some (← decodeHex d.hex) }

end Draft

/-- A report in the course of being read. -/
structure Reader where
  /-- The outputs whose lines are all read. -/
  outputs : List Output := []
  /-- The output that the next line may belong to. -/
  draft : Option Draft := none
  deriving Repr

namespace Reader

/-- Completes the output that is being read. -/
def finish (r : Reader) : Except Garble (List Output) :=
  match r.draft with
  | none => .ok r.outputs
  | some d => do return r.outputs ++ [← d.finish]

/-- Reads a line. Lines before the first header are passed over. -/
def readLine (r : Reader) (line : List Char) : Except Garble Reader :=
  match header? line with
  | some h => do
    let d ← Draft.ofHeader h
    return ⟨← r.finish, some d⟩
  | none =>
    match r.draft with
    | none => .ok r
    | some d => do return { r with draft := some (← d.readLine line) }

end Reader

/-- Reads the lines of a report. -/
def readLines (lines : List (List Char)) : Except Garble (List Output) := do
  let r ← lines.foldlM Reader.readLine {}
  r.finish

/-- Reads a report. -/
def read (s : List Char) : Except HardwareFault Configuration :=
  match readLines (Text.lines s) with
  | .ok outputs => .ok ⟨outputs⟩
  | .error g => .error (.garbled g)

/-- Reads the octets of a report. -/
def readBytes (bytes : List UInt8) : Except HardwareFault Configuration :=
  match Text.Utf8.decode bytes with
  | .ok s => read s
  | .error fault => .error (.garbled (.reportText fault))

end Displays.Xrandr
