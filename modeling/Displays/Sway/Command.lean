import Displays.Fault

/-!
# sway messages

One message requests a whole configuration: a command for each connected output, joined by
semicolons so that they run as a batch. The window manager does not tell kinds of device apart.
-/

namespace Displays.Sway

/-- The command that switches an output off. -/
def disable (id : OutputId) : String :=
  s!"output \"{id}\" disable"

/-- The part of a command that requests a mode. -/
def modePart (m : Mode) : String :=
  let hertz := m.refresh / 1000
  let thousandths := Decimal.padded 3 (m.refresh % 1000)
  s!" mode {m.resolution.width}x{m.resolution.height}@{hertz}.{thousandths}Hz"

/-- The command that switches an output on. -/
def enable (o : Output) : String :=
  let scale := Decimal.plainText o.scale
  let mode := (o.mode?.map modePart).getD ""
  let power := if o.power = .on then "on" else "off"
  s!"output \"{o.id}\" enable position {o.topLeft.x} {o.topLeft.y} " ++
    s!"scale {scale}{mode} power {power}"

/-- The command for an output; none for one that is not connected. -/
def command? (o : Output) : Except HardwareFault (Option String) :=
  if o.connected = false then .ok none
  else if o.used = false then .ok (some (disable o.id))
  else if o.form = .monitor then .ok (some (enable o))
  else .error (.unsupported (.form .sway o.form o.id))

/-- The commands that request a configuration. -/
def commands (c : Configuration) : Except HardwareFault (List String) := do
  return (← c.outputs.mapM command?).reduceOption

/-- The words that request a configuration, behind the name of the program. -/
def words (c : Configuration) : Except HardwareFault (List String) := do
  let commands ← commands c
  return if commands.isEmpty then [] else ["; ".intercalate commands]

/-- The words that ask for a report. -/
def reportWords : List String := ["-t", "get_outputs"]

end Displays.Sway
