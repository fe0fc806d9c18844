import Displays.Fault

/-!
# Settings

What a client may request of one output, and how the request changes the output. Everything else
about an output is the hardware's to say.
-/

namespace Displays

/-- The settings requested of an output. -/
structure Settings where
  /-- The output is to show a picture. -/
  used : Bool
  /-- The position of the picture. -/
  topLeft : Point
  /-- The index of the mode. -/
  modeIndex : Nat
  /-- How far the display is to be powered. -/
  power : PowerMode
  /-- Device pixels per pixel. -/
  scale : Float
  /-- The kind of device. -/
  form : FormFactor
  deriving BEq, DecidableEq, Repr

/-- The output with these settings. -/
def Settings.apply (s : Settings) (o : Output) : Output :=
  { o with
    used := s.used, topLeft := s.topLeft, modeIndex := s.modeIndex, power := s.power,
    scale := s.scale, form := s.form }

namespace Configuration

/-- The configuration with these settings of its first output with this name; the output has to be
connected. -/
def request (c : Configuration) (id : OutputId) (s : Settings) : Except ConfigFault Configuration :=
  match c.output? id with
  | some o => if o.connected then .ok (c.modify id s.apply) else .error (.unknownOutput id)
  | none => .error (.unknownOutput id)

/-- The configuration with all these settings, taken one after the other. -/
def requestAll : Configuration → List (OutputId × Settings) → Except ConfigFault Configuration
  | c, [] => .ok c
  | c, (id, s) :: entries =>
    match c.request id s with
    | .ok c => c.requestAll entries
    | .error fault => .error fault

end Configuration

end Displays
