import Displays.Fault

/-!
# xrandr command lines

One command line requests a whole configuration: for each output that is connected or used its
name, then mode, rate, position and scale, or that it is off. The program can neither change power
nor tell kinds of device apart, so any other request is refused.
-/

namespace Displays.Xrandr

/-- The words that request a mode. -/
def modeWords (m : Mode) : List String :=
  let hertz := m.refresh / 1000
  let hundredths := Decimal.padded 2 (m.refresh % 1000 / 10)
  ["--mode", s!"{m.resolution.width}x{m.resolution.height}", "--rate", s!"{hertz}.{hundredths}"]

/-- The words that request a position. -/
def placeWords (p : Point) : List String :=
  ["--pos", s!"{p.x}x{p.y}"]

/-- The words that request a scale, as the factor by which the framebuffer grows. -/
def scaleWords (scale : Float) : List String :=
  let factor := Decimal.plainText (1 / scale)
  ["--scale", s!"{factor}x{factor}"]

/-- The words that request the state of an output. -/
def stateWords (o : Output) : List String :=
  match o.used, o.mode? with
  | true, some m => modeWords m ++ placeWords o.topLeft ++ scaleWords o.scale
  | _, _ => ["--off"]

/-- The words for an output; none for one that is neither connected nor used. -/
def outputWords (o : Output) : Except HardwareFault (List String) :=
  if o.connected = false ∧ o.used = false then .ok []
  else if o.used ∧ o.power ≠ .on then .error (.unsupported (.power .xrandr o.power o.id))
  else if o.used ∧ o.form ≠ .monitor then .error (.unsupported (.form .xrandr o.form o.id))
  else .ok ("--output" :: o.id :: stateWords o)

/-- The words that request a configuration, behind the name of the program. -/
def words (c : Configuration) : Except HardwareFault (List String) := do
  return (← c.outputs.mapM outputWords).flatten

/-- The words that ask for a report. -/
def reportWords : List String := ["--verbose"]

end Displays.Xrandr
