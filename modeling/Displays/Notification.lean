import Displays.Configuration

/-!
# Notifications

A notification says that a field of a screen has a new value and where the change comes from: a
request of the software, which the hardware has yet to follow, or an observation of the hardware.
-/

namespace Displays

/-- The new value of a field of a screen. -/
inductive Change where
  /-- Whether the screen shows a picture. -/
  | used (used : Bool)
  /-- The scale. -/
  | scale (scale : Float)
  /-- The kind of device. -/
  | form (form : FormFactor)
  /-- The index of the current mode. -/
  | modeIndex (index : Nat)
  /-- The modes on offer. -/
  | modes (modes : List Mode)
  /-- How far the display is powered. -/
  | power (power : PowerMode)
  /-- The rectangle that the screen shows. -/
  | geometry (geometry : Rect)
  /-- The refresh rate. -/
  | refresh (refresh : Nat)
  /-- How the picture is turned. -/
  | orientation (orientation : Orientation)
  /-- Whether this is the active screen. -/
  | active (active : Bool)
  /-- The identity of the display. -/
  | identity (identity : Option Identity)
  deriving DecidableEq, Repr

/-- The fields of a screen that notifications tell of. -/
inductive Field where
  | used | scale | form | modeIndex | modes | power | geometry | refresh | orientation | active
  | identity
  deriving DecidableEq, Repr

/-- The field that a change is about. -/
def Change.field : Change → Field
  | used _ => .used
  | scale _ => .scale
  | form _ => .form
  | modeIndex _ => .modeIndex
  | modes _ => .modes
  | power _ => .power
  | geometry _ => .geometry
  | refresh _ => .refresh
  | orientation _ => .orientation
  | active _ => .active
  | identity _ => .identity

/-- Where a change comes from. -/
inductive Origin where
  /-- The software requested it. -/
  | software
  /-- The hardware was observed to have made it. -/
  | hardware
  deriving DecidableEq, Repr

/-- The news of a change. -/
structure Notification where
  /-- The output whose screen changed. -/
  output : OutputId
  /-- What changed. -/
  change : Change
  /-- Where the change comes from. -/
  origin : Origin
  deriving DecidableEq, Repr

end Displays
