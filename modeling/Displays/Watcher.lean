import Displays.Accelerometer
import Displays.State

/-!
# Watching the hardware

A watcher polls the hardware and the accelerometer and sends what differs from its last successful
reading of each: a configuration, then whether the built-in panel is lit if that changed with it,
then the tilt, addressed to the built-in panel of the last configuration. What cannot be read
changes nothing. The watcher stops when nobody listens any more.
-/

namespace Displays

/-- The built-in panel: the first connected output of that kind. -/
def Configuration.internal? (c : Configuration) : Option Output :=
  c.outputs.find? fun o => o.connected && Location.ofOutput o.id = .internal

/-- Whether the built-in panel shows a picture, if there is one. -/
def Configuration.lit? (c : Configuration) : Option Bool :=
  c.internal?.map fun o => o.used && o.power = .on

/-- What the last successful readings gave. -/
structure Watcher where
  /-- The configuration. -/
  configuration : Option Configuration := none
  /-- Whether the built-in panel is lit, if there is one. -/
  lit : Option Bool := none
  /-- The tilt. -/
  tilt : Option Tilt := none
  deriving Repr

/-- What there is to read at one poll. -/
structure Reading where
  /-- What the hardware answers. -/
  hardware : Except HardwareFault Configuration
  /-- What the accelerometer says, if there is one. -/
  accelerometer : Option (Except IoFault Tilt) := none
  deriving Repr

/-- The outcome of a poll. -/
structure Poll where
  /-- Somebody listened to everything that was sent. -/
  alive : Bool
  /-- What was sent. -/
  sent : List Observation
  /-- What the watcher saw last, this poll included. -/
  watcher : Watcher
  deriving Repr

namespace Watcher

/-- Takes note of a reading of the hardware. -/
def pollHardware (w : Watcher) (listening : Bool) (reading : Except HardwareFault Configuration) :
    Poll :=
  match reading with
  | .error _ => ⟨true, [], w⟩
  | .ok c =>
    if w.configuration == some c then ⟨true, [], w⟩
    else if listening = false then ⟨false, [], w⟩
    else if w.lit = c.lit? then
      ⟨true, [.configuration c], { w with configuration := some c }⟩
    else
      ⟨true, .configuration c :: (c.lit?.map Observation.lit).toList,
        { w with configuration := some c, lit := c.lit? }⟩

/-- Takes note of a reading of the accelerometer. -/
def pollTilt (w : Watcher) (listening : Bool) (reading : Except IoFault Tilt) : Poll :=
  match reading with
  | .error _ => ⟨true, [], w⟩
  | .ok t =>
    if w.tilt = some t then ⟨true, [], w⟩
    else
      let w := { w with tilt := some t }
      match w.configuration.bind Configuration.internal? with
      | none => ⟨true, [], w⟩
      | some panel => if listening then ⟨true, [.tilt panel.id t], w⟩ else ⟨false, [], w⟩

/-- Polls the hardware and then the accelerometer, if there is one. -/
def poll (w : Watcher) (listening : Bool) (r : Reading) : Poll :=
  let first := w.pollHardware listening r.hardware
  match first.alive, r.accelerometer with
  | true, some reading =>
    let second := first.watcher.pollTilt listening reading
    { second with sent := first.sent ++ second.sent }
  | _, _ => first

/-- What is sent by polls one after the other while somebody listens, and the watcher after them. -/
def pollAll (w : Watcher) : List Reading → List Observation × Watcher
  | [] => ([], w)
  | r :: rest =>
    let p := w.poll true r
    let (later, w) := p.watcher.pollAll rest
    (p.sent ++ later, w)

end Watcher

end Displays
