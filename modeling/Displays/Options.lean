import Displays.Json.Decode
import Displays.Json.Printer
import Displays.Settings

/-!
# Remembered options

The settings of one physical display as they are remembered between connections. The mode is kept
by value, because its index changes with the list of modes that the display offers. In files,
options are JSON objects.
-/

namespace Displays

open Json (Value)

/-- The remembered options of a display. -/
structure Options where
  /-- The display was used. -/
  used : Bool
  /-- Its position. -/
  topLeft : Point
  /-- Its mode, if it had one. -/
  mode : Option Mode
  /-- Its scale. -/
  scale : Float
  /-- The kind of device. -/
  form : FormFactor
  /-- How far it was powered. -/
  power : PowerMode
  deriving BEq, DecidableEq, Repr

namespace Options

/-- The options that settings amount to, given the modes on offer. -/
def ofSettings (s : Settings) (modes : List Mode) : Options where
  used := s.used
  topLeft := s.topLeft
  mode := modes[s.modeIndex]?
  scale := s.scale
  form := s.form
  power := s.power

/-- The settings that the options amount to, given the modes on offer; none if the remembered mode
is not among them. -/
def toSettings? (o : Options) (modes : List Mode) : Option Settings := do
  let index ←
    match o.mode with
    | some mode => modes.idxOf? mode
    | none => some 0
  return ⟨o.used, o.topLeft, index, o.power, o.scale, o.form⟩

end Options

/-- Writes a point. -/
def Point.toValue (p : Point) : Value :=
  .ofMembers [("x", .ofInt p.x), ("y", .ofInt p.y)]

/-- Writes a resolution. -/
def Resolution.toValue (r : Resolution) : Value :=
  .ofMembers [("width", .ofInt r.width), ("height", .ofInt r.height)]

/-- Writes a mode. -/
def Mode.toValue (m : Mode) : Value :=
  .ofMembers [("resolution", m.resolution.toValue), ("refresh_rate_millihz", .ofInt m.refresh)]

/-- Writes options. -/
def Options.toValue (o : Options) : Value :=
  .ofMembers
    [("used", .bool o.used), ("top_left", o.topLeft.toValue),
      ("mode", match o.mode with | some m => m.toValue | none => .null),
      ("scale", .ofFloat o.scale), ("form_factor", .ofText o.form.name),
      ("power_mode", .ofText o.power.name)]

/-- Reads a point. -/
def Point.ofValue? (v : Value) : Option Point := do
  let [some x, some y] ← v.fields? [⟨"x", false⟩, ⟨"y", false⟩] | none
  return ⟨← x.int? (.signed 32), ← y.int? (.signed 32)⟩

/-- Reads a resolution. -/
def Resolution.ofValue? (v : Value) : Option Resolution := do
  let [some width, some height] ← v.fields? [⟨"width", false⟩, ⟨"height", false⟩] | none
  return ⟨← width.nat? 32, ← height.nat? 32⟩

/-- Reads a mode. -/
def Mode.ofValue? (v : Value) : Option Mode := do
  let [some resolution, some refresh] ←
    v.fields? [⟨"resolution", false⟩, ⟨"refresh_rate_millihz", false⟩] | none
  return ⟨← Resolution.ofValue? resolution, ← refresh.nat? 32⟩

/-- Reads options. -/
def Options.ofValue? (v : Value) : Option Options := do
  let [some used, some topLeft, mode, some scale, some form, some power] ←
    v.fields?
      [⟨"used", false⟩, ⟨"top_left", false⟩, ⟨"mode", false⟩, ⟨"scale", false⟩,
        ⟨"form_factor", false⟩, ⟨"power_mode", false⟩] | none
  return {
    used := ← used.bool?
    topLeft := ← Point.ofValue? topLeft
    mode := ← Value.optional? Mode.ofValue? mode
    scale := ← scale.float?
    form := ← form.choice? FormFactor.ofName?
    power := ← power.choice? PowerMode.ofName? }

end Displays
