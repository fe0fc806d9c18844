import Displays.Fault
import Displays.Json.Decode

/-!
# Reading the outputs of sway

The window manager reports its outputs as a JSON array of objects. It leaves out connectors without
display, so every output is connected. Names are written without escapes, which keeps quotes and
backslashes out of them.
-/

namespace Displays.Sway

open Json (Value)

/-- Reads a mode. -/
def mode? (v : Value) : Option Mode := do
  let [some width, some height, some refresh] ←
    v.fields? [⟨"width", false⟩, ⟨"height", false⟩, ⟨"refresh", false⟩] | none
  return ⟨⟨← width.nat? 32, ← height.nat? 32⟩, ← refresh.nat? 32⟩

/-- Reads the position of an output. -/
def place? (v : Value) : Option Point := do
  let [some x, some y] ← v.fields? [⟨"x", false⟩, ⟨"y", false⟩] | none
  return ⟨← x.int? (.signed 32), ← y.int? (.signed 32)⟩

/-- Reads an output. A scale that is missing or not positive says that the output is not scaled. -/
def output? (v : Value) : Option Output := do
  let [some name, some active, power, dpms, scale, some rect, some modes, mode] ←
    v.fields?
      [⟨"name", false⟩, ⟨"active", false⟩, ⟨"power", true⟩, ⟨"dpms", true⟩, ⟨"scale", true⟩,
        ⟨"rect", false⟩, ⟨"modes", false⟩, ⟨"current_mode", true⟩] | none
  let id ← name.plainText?
  let used ← active.bool?
  let power ← Value.optional? Value.bool? power
  let dpms ← Value.optional? Value.bool? dpms
  let scale ← Value.optional? Value.float? scale
  let topLeft ← place? rect
  let modes ← modes.list? mode?
  let mode ← Value.optional? mode? mode
  return {
    id
    connected := true
    used
    topLeft
    modeIndex := (mode.bind fun m => modes.idxOf? m).getD 0
    modes
    power := if (power <|> dpms).getD true then .on else .off
    scale := (scale.filter fun s => 0 < s).getD 1
    form := .monitor
    size := ⟨0, 0⟩
    edid := none }

/-- An output that is read has its name from its first field, written without escapes, and as the
index of its mode the one at which its modes list a mode, or zero. -/
theorem of_output? {v : Value} {o : Output} (h : output? v = some o) :
    (∃ fields name values, v.fields? fields = some (some name :: values) ∧
      name.plainText? = some o.id) ∧
    ∃ mode : Option Mode, o.modeIndex = (mode.bind fun m => o.modes.idxOf? m).getD 0 := by
  obtain ⟨values, hvalues, h⟩ := Option.bind_eq_some_iff.mp h
  split at h
  · obtain ⟨id, hid, h⟩ := Option.bind_eq_some_iff.mp h
    obtain ⟨used, -, h⟩ := Option.bind_eq_some_iff.mp h
    obtain ⟨power, -, h⟩ := Option.bind_eq_some_iff.mp h
    obtain ⟨dpms, -, h⟩ := Option.bind_eq_some_iff.mp h
    obtain ⟨scale, -, h⟩ := Option.bind_eq_some_iff.mp h
    obtain ⟨topLeft, -, h⟩ := Option.bind_eq_some_iff.mp h
    obtain ⟨modes, -, h⟩ := Option.bind_eq_some_iff.mp h
    obtain ⟨mode, -, h⟩ := Option.bind_eq_some_iff.mp h
    obtain rfl := Option.some.inj h
    exact ⟨⟨_, _, _, hvalues, hid⟩, mode, rfl⟩
  · cases h

/-- Reads the octets of a report. -/
def readBytes (bytes : List UInt8) : Except HardwareFault Configuration :=
  match (Value.read? bytes).bind fun v => v.list? output? with
  | some outputs => .ok ⟨outputs⟩
  | none => .error (.garbled .swayOutputs)

end Displays.Sway
