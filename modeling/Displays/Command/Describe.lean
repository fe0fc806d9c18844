import Displays.Model

/-!
# Describing screens

The text for one screen: a line with its settings, a line on its orientation if it is built in, a
line on its identity if that is known, and a line for each of its modes.
-/

namespace Displays

/-- A refresh rate in hertz. -/
def hertz (refresh : Nat) : String :=
  let whole := refresh / 1000
  let thousandths := Decimal.padded 3 (refresh % 1000)
  s!"{whole}.{thousandths} Hz"

namespace Screen

/-- The line with the settings. -/
def settingsLine (s : Screen) : String :=
  let used := if s.used then "used" else "unused"
  let size := s.geometry.size
  let place := s.geometry.topLeft
  let scale := Decimal.plainText s.scale
  let active := if s.active then ", active" else ""
  s!"{s.id} ({s.location.label}): {used} {size.width}x{size.height}+{place.x}+{place.y} @ " ++
    s!"{hertz s.refresh}, scale {scale}, {s.form.label}, power {s.power.label}{active}"

/-- The line on the orientation of a built-in screen. -/
def orientationLines (s : Screen) : List String :=
  match s.location with
  | .external => []
  | .internal =>
    let sensor := if s.sensor then "on" else "off"
    [s!"    orientation {s.orientation.label} (native {s.native.label}, sensor {sensor})"]

/-- The line on the identity of the display. -/
def identityLines (s : Screen) : List String :=
  match s.identity with
  | none => []
  | some i =>
    let name := i.monitorName?.elim "" fun text => s!", name {Text.quoted text}"
    let serial := i.serialText?.elim "" fun text => s!", serial {Text.quoted text}"
    let extensions :=
      if i.extensionCount = 0 then "" else s!", {i.extensionCount} extension block(s)"
    [s!"    id {i.displayId}, EDID {i.version}.{i.revision}, made week {i.week} of {i.year}" ++
      name ++ serial ++ s!", {s.size.width}x{s.size.height} mm " ++
      s!"({i.widthCm}x{i.heightCm} cm per EDID)" ++ extensions]

/-- The line for a mode; a star marks the current one. -/
def modeLine (s : Screen) (index : Nat) (m : Mode) : String :=
  let mark := if index = s.modeIndex then "*" else " "
  s!"  {mark} #{index} {m.resolution.width}x{m.resolution.height} @ {hertz m.refresh}"

/-- The description of a screen. -/
def describe (s : Screen) : String :=
  let modes := s.modes.zipIdx.map fun (m, index) => s.modeLine index m
  "\n".intercalate (s.settingsLine :: s.orientationLines ++ s.identityLines ++ modes)

end Screen

/-- The descriptions of all screens, each ended by a line feed. -/
def Model.describe (m : Model) : String :=
  String.join (m.screens.map fun s => s.describe ++ "\n")

end Displays
