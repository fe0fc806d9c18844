import Displays.Proofs.Numerals
import Displays.Proofs.Scanning
import Displays.Text.Printable
import Displays.Xrandr.Report

/-!
# Descriptions of outputs

What `xrandr --verbose` knows about its outputs, and the report that it writes about them. Each part
of a description carries what makes it fit for a line, so every description has a report. Lines that
tell a reader nothing may stand anywhere except among the octets of an EDID.
-/

namespace Displays.Xrandr

open Displays.Decimal (digitChars nearestDecimal padded signedChars)
open Displays.Text

/-- The digits of an unsigned word. -/
def wordChars (n : UInt32) : List Char :=
  digitChars n.toNat

/-- Blanks within a line. -/
structure Gap where
  /-- The blanks. -/
  chars : List Char
  /-- There is a blank. -/
  ne_nil : chars ≠ []
  /-- There are only blanks. -/
  isBlank_of_mem : ∀ c ∈ chars, isBlank c = true
  /-- The line does not end. -/
  newline_not_mem : '\n' ∉ chars

/-- A name without blanks. -/
structure Name where
  /-- The characters. -/
  chars : List Char
  /-- There is a character. -/
  ne_nil : chars ≠ []
  /-- There is no blank. -/
  isBlank_of_mem : ∀ c ∈ chars, isBlank c = false

/-- Any text up to the end of a line. -/
structure Rest where
  /-- The text. -/
  chars : List Char
  /-- The text ends with its line. -/
  isLine : IsLine chars

/-- An indented line that matches no pattern for details. -/
structure Remark where
  /-- The line. -/
  line : List Char
  /-- The line is one. -/
  isLine : IsLine line
  /-- The line begins with a blank. -/
  indented : line.head?.any isBlank = true
  /-- The line has no octets. -/
  edidData?_eq : edidData? line = none
  /-- The line opens no EDID. -/
  isEdidStart_eq : isEdidStart line = false
  /-- The line has no transformation. -/
  transform?_eq : transform? line = none
  /-- The line opens no mode. -/
  mode?_eq : mode? line = none
  /-- The line has no horizontal timing. -/
  width?_eq : width? line = none
  /-- The line has no vertical timing. -/
  height?_eq : height? line = none

/-- A number with places behind the point. -/
structure Fixed where
  /-- The whole part. -/
  whole : Nat
  /-- The number of places. -/
  places : Nat
  /-- There is a place. -/
  places_pos : 0 < places
  /-- The digits behind the point, as a number. -/
  part : Nat
  /-- The digits fit into the places. -/
  part_lt : part < Nat.pow 10 places

/-- The text of the number. -/
def Fixed.chars (f : Fixed) : List Char :=
  digitChars f.whole ++ '.' :: (padded f.places f.part).toList

/-- The double nearest to the number. -/
def Fixed.value (f : Fixed) : Float :=
  nearestDecimal false (f.whole * Nat.pow 10 f.places + f.part) (-f.places)

/-- The picture that an output shows. -/
structure Picture where
  /-- The width. -/
  width : UInt32
  /-- The height. -/
  height : UInt32
  /-- The pixels to the right of the origin. -/
  x : Int32
  /-- The pixels below the origin. -/
  y : Int32
  /-- The mode. -/
  id : UInt32

/-- The part of a header line about the picture. -/
def Picture.chars (p : Picture) : List Char :=
  ' ' :: (wordChars p.width ++ 'x' :: (wordChars p.height ++
    '+' :: (signedChars p.x.toInt ++ '+' :: (signedChars p.y.toInt ++
      ' ' :: ("(0x".toList ++ (hexDigits p.id.toNat ++ ") normal".toList))))))

/-- The extent of a display in millimetres. -/
structure Extent where
  /-- The width. -/
  width : UInt32
  /-- The height. -/
  height : UInt32

/-- The part of a header line about the extent. -/
def Extent.chars (e : Extent) : List Char :=
  ' ' :: (wordChars e.width ++ ("mm".toList ++
    ' ' :: 'x' :: ' ' :: (wordChars e.height ++ "mm".toList)))

/-- A line of octets of an EDID. -/
structure Row where
  /-- The indentation. -/
  indent : Gap
  /-- The octets. -/
  octets : List UInt8
  /-- There are sixteen octets. -/
  length_eq : octets.length = 16

/-- The line. -/
def Row.line (r : Row) : List Char :=
  r.indent.chars ++ Hex.encode r.octets

/-- An EDID. -/
structure Block where
  /-- The indentation of the line that opens the EDID. -/
  indent : Gap
  /-- The lines of octets. -/
  rows : List Row
  /-- There are octets. -/
  ne_nil : rows ≠ []
  /-- The lines below the octets. -/
  below : List Remark

/-- The octets of the EDID. -/
def Block.octets (b : Block) : List UInt8 :=
  b.rows.flatMap Row.octets

/-- The line that opens the EDID. -/
def Block.opening (b : Block) : List Char :=
  b.indent.chars ++ ("EDID:".toList ++ [' '])

/-- The lines of the EDID. -/
def Block.lines (b : Block) : List (List Char) :=
  b.opening :: b.rows.map Row.line ++ b.below.map Remark.line

/-- The horizontal timing of a mode. -/
structure Horizontal where
  /-- The indentation. -/
  indent : Gap
  /-- The blanks before the width's word. -/
  label : Gap
  /-- The blanks before the width. -/
  gap : Gap
  /-- The width. -/
  width : UInt32
  /-- What follows the width's blank. -/
  rest : Rest

/-- The line. -/
def Horizontal.line (h : Horizontal) : List Char :=
  h.indent.chars ++ ("h:".toList ++ (h.label.chars ++ ("width".toList ++ (h.gap.chars ++
    (wordChars h.width ++ ' ' :: ("start ".toList ++ h.rest.chars))))))

/-- The vertical timing of a mode. -/
structure Timing where
  /-- The indentation. -/
  indent : Gap
  /-- The blanks before the height's word. -/
  label : Gap
  /-- The blanks before the height. -/
  gap : Gap
  /-- The height. -/
  height : UInt32
  /-- What stands between the height and the clock. -/
  between : List Char
  /-- The line does not end there. -/
  newline_not_mem : '\n' ∉ between
  /-- The blanks before the refresh rate. -/
  rate : Gap
  /-- The whole hertz of the refresh rate. -/
  hertz : Nat
  /-- The hundredths of a hertz. -/
  hundredths : Fin 100
  /-- The refresh rate in thousandths of a hertz is an unsigned word. -/
  refresh_lt : 1000 * hertz + 10 * hundredths < Nat.pow 2 32

/-- The part of the line about the refresh rate. -/
def Timing.clock (v : Timing) : List Char :=
  v.rate.chars ++ (digitChars v.hertz ++ '.' :: ((padded 2 v.hundredths).toList ++ "Hz".toList))

/-- The line. -/
def Timing.line (v : Timing) : List Char :=
  v.indent.chars ++ ("v:".toList ++ (v.label.chars ++ ("height".toList ++ (v.gap.chars ++
    (wordChars v.height ++ ' ' :: ("start ".toList ++ v.between ++
      ("clock".toList ++ v.clock)))))))

/-- A mode that an output offers. -/
structure Listing where
  /-- The indentation. -/
  indent : Gap
  /-- The name of the mode. -/
  name : Name
  /-- The number of the mode. -/
  id : UInt32
  /-- The pixel clock in megahertz. -/
  clock : Fixed
  /-- The flags. -/
  flags : Rest
  /-- The horizontal timing. -/
  horizontal : Horizontal
  /-- The vertical timing. -/
  vertical : Timing
  /-- The lines between the first one and the horizontal timing. -/
  belowOpening : List Remark
  /-- The lines between the timings. -/
  belowHorizontal : List Remark
  /-- The lines below the vertical timing. -/
  belowVertical : List Remark

/-- The line that opens the mode. -/
def Listing.opening (m : Listing) : List Char :=
  m.indent.chars ++ (m.name.chars ++ ' ' :: ("(0x".toList ++ (hexDigits m.id.toNat ++
    ')' :: ' ' :: (m.clock.chars ++ ("MHz".toList ++ ' ' :: m.flags.chars)))))

/-- The lines of the mode. -/
def Listing.lines (m : Listing) : List (List Char) :=
  m.opening :: m.belowOpening.map Remark.line ++
    (m.horizontal.line :: m.belowHorizontal.map Remark.line ++
      m.vertical.line :: m.belowVertical.map Remark.line)

/-- Whether the mode is flagged as the current one. -/
def Listing.isCurrent (m : Listing) : Bool :=
  decide ("*current".toList <:+: m.flags.chars)

/-- A mode is the current one exactly if its flags say so somewhere. -/
theorem Listing.isCurrent_iff {m : Listing} :
    m.isCurrent = true ↔ "*current".toList <:+: m.flags.chars :=
  decide_eq_true_iff

/-- The mode itself. -/
def Listing.mode (m : Listing) : Mode where
  resolution := ⟨m.horizontal.width.toNat, m.vertical.height.toNat⟩
  refresh := 1000 * m.vertical.hertz + 10 * m.vertical.hundredths

/-- An output. -/
structure Description where
  /-- The name of the connector. -/
  name : Name
  /-- A display hangs on the connector. -/
  connected : Bool
  /-- The output is the primary one. -/
  primary : Bool
  /-- The picture, for an output in use. -/
  picture : Option Picture
  /-- The extent of the display, if it is given. -/
  extent : Option Extent
  /-- The lines between the header and the transformation. -/
  belowHeader : List Remark
  /-- The indentation of the line with the transformation. -/
  indent : Gap
  /-- The blanks before the factor. -/
  gap : Gap
  /-- The factor of the transformation. -/
  factor : Fixed
  /-- The lines below the transformation. -/
  belowTransform : List Remark
  /-- The EDID, if there is one. -/
  edid : Option Block
  /-- The modes. -/
  modes : List Listing
  /-- At most one mode is the current one. -/
  current_le : modes.countP Listing.isCurrent ≤ 1

namespace Description

/-- The state of the connector. -/
def status (d : Description) : List Char :=
  if d.connected then "connected".toList else "disconnected".toList

/-- The word for the primary output. -/
def role (d : Description) : List Char :=
  if d.primary then ' ' :: "primary".toList else []

/-- What every header line has behind the picture, and the extent. -/
def trailer (d : Description) : List Char :=
  "(normal left inverted right x axis y axis)".toList ++ d.extent.elim [] Extent.chars

/-- The header line from the picture on. -/
def placing (d : Description) : List Char :=
  d.picture.elim [] Picture.chars ++ ' ' :: d.trailer

/-- The header line. -/
def header (d : Description) : List Char :=
  d.name.chars ++ ' ' :: (d.status ++ (d.role ++ d.placing))

/-- The line with the transformation. -/
def transform (d : Description) : List Char :=
  d.indent.chars ++ ("Transform:".toList ++ (d.gap.chars ++
    (d.factor.chars ++ ' ' :: "0.000000 0.000000".toList)))

/-- The lines below the header. -/
def details (d : Description) : List (List Char) :=
  d.belowHeader.map Remark.line ++ (d.transform :: d.belowTransform.map Remark.line ++
    (d.edid.elim [] Block.lines ++ d.modes.flatMap Listing.lines))

/-- The lines about the output. -/
def lines (d : Description) : List (List Char) :=
  d.header :: d.details

/-- The output as it is to be read. -/
def output (d : Description) : Output where
  id := String.ofList d.name.chars
  connected := d.connected
  used := d.picture.isSome
  topLeft := d.picture.elim ⟨0, 0⟩ fun p => ⟨p.x.toInt, p.y.toInt⟩
  modeIndex := (d.modes.findIdx? Listing.isCurrent).getD 0
  modes := d.modes.map Listing.mode
  power := .on
  scale := if 0 < d.factor.value then 1 / d.factor.value else 1
  form := .monitor
  size := d.extent.elim ⟨0, 0⟩ fun e => ⟨e.width.toNat, e.height.toNat⟩
  edid := d.edid.map Block.octets

end Description

/-- A line before the outputs. -/
structure Preface where
  /-- The line. -/
  line : List Char
  /-- The line is one. -/
  isLine : IsLine line
  /-- The line is no header. -/
  header?_eq : header? line = none

/-- The report about outputs, behind a preface. -/
def report (preface : List Preface) (ds : List Description) : List Char :=
  unlines (preface.map Preface.line ++ ds.flatMap Description.lines)

example :
    let tab : Gap := ⟨['\t'], by decide, List.all_eq_true.mp rfl, by decide⟩
    let spaces (n : Nat) : Gap := ⟨List.replicate (n + 1) ' ', by simp,
      fun c hc => by rw [List.eq_of_mem_replicate hc]; rfl,
      fun h => absurd (List.eq_of_mem_replicate h) (by decide)⟩
    let mode : Listing := {
      indent := spaces 1
      name := ⟨"800x600".toList, by decide, forall_isBlank_eq_false rfl⟩
      id := 74
      clock := ⟨40, 3, by decide, 5, by decide⟩
      flags := ⟨"+HSync *current".toList, by decide⟩
      horizontal := ⟨spaces 7, spaces 0, spaces 1, 800, ⟨"840".toList, by decide⟩⟩
      vertical := ⟨spaces 7, spaces 0, spaces 0, 600, "601 ".toList, by decide, spaces 1, 60, 5,
        by decide⟩
      belowOpening := []
      belowHorizontal := []
      belowVertical := [] }
    let output : Description := {
      name := ⟨"DP-1".toList, by decide, forall_isBlank_eq_false rfl⟩
      connected := true
      primary := true
      picture := some ⟨800, 600, 0, -5, 74⟩
      extent := some ⟨310, 174⟩
      belowHeader := []
      indent := tab
      gap := spaces 1
      factor := ⟨1, 6, by decide, 0, by decide⟩
      belowTransform := []
      edid := none
      modes := [mode]
      current_le := by decide }
    output.lines.map String.ofList = [
      "DP-1 connected primary 800x600+0+-5 (0x4a) normal " ++
        "(normal left inverted right x axis y axis) 310mm x 174mm",
      "\tTransform:  1.000000 0.000000 0.000000",
      "  800x600 (0x4a) 40.005MHz +HSync *current",
      "        h: width  800 start 840",
      "        v: height 600 start 601 clock  60.05Hz"] := by
  decide +kernel

end Displays.Xrandr
