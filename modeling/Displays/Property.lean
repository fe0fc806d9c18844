/-!
# Properties of displays

The enumerated properties of outputs and screens, with their written names. Names in messages are
those of the alternatives themselves.
-/

namespace Displays

/-- The name of a connector, such as `eDP-1`. -/
abbrev OutputId := String

/-- What kind of device a display is. -/
inductive FormFactor where
  | unknown | phone | tablet | monitor | tv | projector
  deriving DecidableEq, Repr

/-- How far a display is powered. -/
inductive PowerMode where
  | on | standby | suspend | off
  deriving DecidableEq, Repr

/-- How a picture is turned. -/
inductive Orientation where
  | landscape | portrait | invertedLandscape | invertedPortrait
  deriving DecidableEq, Repr

/-- What a tilt sensor reports: the edge of the device that points up, if one does. -/
inductive Tilt where
  | topUp | topDown | leftUp | rightUp | faceUp | faceDown | undefined
  deriving DecidableEq, Repr

/-- Whether a display is built into the device. -/
inductive Location where
  | internal | external
  deriving DecidableEq, Repr

namespace FormFactor

/-- All kinds of device. -/
def all : List FormFactor := [.unknown, .phone, .tablet, .monitor, .tv, .projector]

/-- The name in files and on the command line. -/
def name : FormFactor → String
  | unknown => "unknown"
  | phone => "phone"
  | tablet => "tablet"
  | monitor => "monitor"
  | tv => "tv"
  | projector => "projector"

/-- The name in messages. -/
def label : FormFactor → String
  | unknown => "Unknown"
  | phone => "Phone"
  | tablet => "Tablet"
  | monitor => "Monitor"
  | tv => "Tv"
  | projector => "Projector"

/-- The kind with this name. -/
def ofName? (s : String) : Option FormFactor :=
  all.find? fun f => f.name = s

/-- The kind with this name, or a message; if case is ignored, so it is for ASCII letters. -/
def read (ignoreCase : Bool) (s : String) : Except String FormFactor :=
  match ofName? (if ignoreCase then s.map Char.toLower else s) with
  | some f => .ok f
  | none => .error s!"invalid variant: {s}"

end FormFactor

namespace PowerMode

/-- All power modes. -/
def all : List PowerMode := [.on, .standby, .suspend, .off]

/-- The name in files. -/
def name : PowerMode → String
  | on => "on"
  | standby => "standby"
  | suspend => "suspend"
  | off => "off"

/-- The name in messages. -/
def label : PowerMode → String
  | on => "On"
  | standby => "Standby"
  | suspend => "Suspend"
  | off => "Off"

/-- The power mode with this name. -/
def ofName? (s : String) : Option PowerMode :=
  all.find? fun p => p.name = s

end PowerMode

/-- The name in messages. -/
def Orientation.label : Orientation → String
  | landscape => "Landscape"
  | portrait => "Portrait"
  | invertedLandscape => "InvertedLandscape"
  | invertedPortrait => "InvertedPortrait"

/-- The name in messages. -/
def Location.label : Location → String
  | internal => "Internal"
  | external => "External"

/-- Connectors of these kinds lead to built-in panels. -/
def internalConnectors : List String := ["eDP-", "LVDS-", "DSI-"]

/-- The location that the name of a connector tells. -/
def Location.ofOutput (id : OutputId) : Location :=
  if internalConnectors.any fun kind => kind.toList.isPrefixOf id.toList then internal else external

/-- The orientation of a device that is lying with this edge up, given that its own orientation is
landscape or not; a device that lies flat has none. -/
def Tilt.orientation? (landscape : Bool) : Tilt → Option Orientation
  | topUp => some (if landscape then .landscape else .portrait)
  | topDown => some (if landscape then .invertedLandscape else .invertedPortrait)
  | leftUp => some (if landscape then .invertedPortrait else .landscape)
  | rightUp => some (if landscape then .portrait else .invertedLandscape)
  | faceUp => none
  | faceDown => none
  | undefined => none

end Displays
