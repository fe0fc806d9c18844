import Displays.Fault
import Displays.Settings
import Displays.Notification

/-!
# Screens

A screen is the software's idea of a connected output. Requests move it ahead of the hardware, and
observations of the hardware bring it back in line; both tell which fields changed, and neither
tells of a field that kept its value. A scale that is equal up to rounding is not a change.
-/

namespace Displays

/-- A screen. -/
structure Screen where
  /-- The output that the screen stands for. -/
  id : OutputId
  /-- Where its display is. -/
  location : Location
  /-- It shows a picture. -/
  used : Bool
  /-- The rectangle that it shows, as the hardware has it. -/
  geometry : Rect
  /-- The modes on offer. -/
  modes : List Mode
  /-- The index of the current mode. -/
  modeIndex : Nat
  /-- The refresh rate, as the hardware has it. -/
  refresh : Nat
  /-- Device pixels per pixel. -/
  scale : Float
  /-- The kind of device. -/
  form : FormFactor
  /-- How far the display is powered. -/
  power : PowerMode
  /-- The extent of the display. -/
  size : PhysicalSize
  /-- The orientation of the device when its picture is not turned. -/
  native : Orientation
  /-- How the picture is turned. -/
  orientation : Orientation
  /-- The screen follows the tilt sensor. -/
  sensor : Bool
  /-- This is the active screen. -/
  active : Bool
  /-- The EDID of the display, if it gives one. -/
  edid : Option (List UInt8)
  /-- The identity of the display, if its EDID tells one. -/
  identity : Option Identity
  deriving DecidableEq, Repr

/-- A change if the condition holds. -/
def changeIf (c : Prop) [Decidable c] (change : Change) : List Change :=
  if c then [change] else []

/-- The rectangle that an output shows; it is empty without a mode. -/
def Output.geometry (o : Output) : Rect :=
  ⟨o.topLeft, o.mode?.elim ⟨0, 0⟩ Mode.resolution⟩

/-- The refresh rate of an output; zero without a mode. -/
def Output.refresh (o : Output) : Nat :=
  o.mode?.elim 0 Mode.refresh

/-- The identity that the EDID of an output tells. -/
def Output.identity? (o : Output) : Option Identity :=
  o.edid.bind Edid.identity?

namespace Screen

/-- The screen brought in line with its output. -/
def follow (s : Screen) (o : Output) : Screen :=
  { s with
    used := o.used
    modes := o.modes
    modeIndex := o.modeIndex
    power := o.power
    geometry := o.geometry
    refresh := o.refresh
    form := o.form
    scale := if scaleEq s.scale o.scale then s.scale else o.scale
    size := o.size
    edid := o.edid
    identity := if s.edid = o.edid then s.identity else o.identity? }

/-- The changes that bring the screen in line with its output. -/
def differences (s : Screen) (o : Output) : List Change :=
  changeIf (s.used ≠ o.used) (.used o.used) ++
  changeIf (s.modes ≠ o.modes) (.modes o.modes) ++
  changeIf (s.modeIndex ≠ o.modeIndex) (.modeIndex o.modeIndex) ++
  changeIf (s.power ≠ o.power) (.power o.power) ++
  changeIf (s.geometry ≠ o.geometry) (.geometry o.geometry) ++
  changeIf (s.refresh ≠ o.refresh) (.refresh o.refresh) ++
  changeIf (s.form ≠ o.form) (.form o.form) ++
  changeIf (scaleEq s.scale o.scale = false) (.scale o.scale) ++
  changeIf (s.edid ≠ o.edid ∧ s.identity ≠ o.identity?) (.identity o.identity?)

/-- Takes over what the hardware reports of the output. -/
def absorb (s : Screen) (o : Output) : Screen × List Change :=
  (s.follow o, s.differences o)

/-- A screen before anything is known of its output but the name. -/
def blank (id : OutputId) : Screen where
  id
  location := .ofOutput id
  used := false
  geometry := ⟨⟨0, 0⟩, ⟨0, 0⟩⟩
  modes := []
  modeIndex := 0
  refresh := 0
  scale := 1
  form := .unknown
  power := .on
  size := ⟨0, 0⟩
  native := .landscape
  orientation := .landscape
  sensor := Location.ofOutput id = .internal
  active := false
  edid := none
  identity := none

/-- The screen of an output that was just connected. It is upright, and landscape unless it is
higher than wide. -/
def ofOutput (o : Output) : Screen :=
  let s := (blank o.id).follow o
  let native :=
    if s.geometry.size.height ≤ s.geometry.size.width then .landscape else .portrait
  { s with native, orientation := native }

/-- Requests that the screen be used or not. -/
def setUsed (used : Bool) (s : Screen) : Screen × List Change :=
  if s.used = used then (s, []) else ({ s with used }, [.used used])

/-- Requests a scale. -/
def setScale (scale : Float) (s : Screen) : Except ConfigFault (Screen × List Change) :=
  if isPositiveScale scale = false then .error (.invalid (.screenScale s.id scale))
  else if scaleEq s.scale scale then .ok (s, [])
  else .ok ({ s with scale }, [.scale scale])

/-- Requests a kind of device. -/
def setForm (form : FormFactor) (s : Screen) : Screen × List Change :=
  if s.form = form then (s, []) else ({ s with form }, [.form form])

/-- Requests a mode. Geometry and refresh rate wait for the hardware. -/
def setModeIndex (index : Nat) (s : Screen) : Except ConfigFault (Screen × List Change) :=
  if s.modes.length ≤ index then
    .error (.invalid (.screenModeIndex s.id index s.modes.length))
  else if s.modeIndex = index then .ok (s, [])
  else .ok ({ s with modeIndex := index }, [.modeIndex index])

/-- Requests the first mode of this size. -/
def setSize (size : Resolution) (s : Screen) : Except ConfigFault (Screen × List Change) :=
  match s.modes.findIdx? fun m => m.resolution = size with
  | some index => s.setModeIndex index
  | none => .error (.invalid (.screenSize s.id size))

/-- Makes this the active screen, or not. -/
def setActive (active : Bool) (s : Screen) : Screen × List Change :=
  if s.active = active then (s, []) else ({ s with active }, [.active active])

/-- Turns the picture as the device is tilted, if the screen follows the sensor. -/
def tilt (t : Tilt) (s : Screen) : Screen × List Change :=
  if s.sensor then
    match t.orientation? (s.native = .landscape) with
    | none => (s, [])
    | some orientation =>
      if s.orientation = orientation then (s, [])
      else ({ s with orientation }, [.orientation orientation])
  else (s, [])

/-- Follows the sensor while the display is lit, if it is built in. -/
def setLit (lit : Bool) (s : Screen) : Screen :=
  if s.location = .internal then { s with sensor := lit } else s

/-- The settings of the screen. -/
def settings (s : Screen) : Settings :=
  ⟨s.used, s.geometry.topLeft, s.modeIndex, s.power, s.scale, s.form⟩

end Screen

end Displays
