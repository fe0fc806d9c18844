import Displays.Hardware.Guarded
import Displays.Model
import Displays.Storage

/-!
# The state of the displays

The model, the hardware and the remembered options, kept in line with each other. Requests of the
software are followed by the hardware as their notifications are processed. If one of them fails,
the model is ahead of the hardware, so it takes over what the hardware says before the first fault
is reported. Outputs that get a screen also get the options that are remembered of their display.
-/

namespace Displays

/-- What was observed of the hardware. -/
inductive Observation where
  /-- The hardware has this configuration now. -/
  | configuration (c : Configuration)
  /-- The device is tilted like this; the panel of this output may turn its picture. -/
  | tilt (id : OutputId) (t : Tilt)
  /-- The built-in panel was lit or went dark. -/
  | lit (lit : Bool)
  deriving BEq, Repr

/-- The state of the displays. -/
structure State (H : Type) where
  /-- The screens. -/
  model : Model := {}
  /-- The hardware. -/
  hardware : H
  /-- The remembered options, if options are remembered. -/
  storage : Option Storage := none
  deriving Repr

namespace State

variable {H : Type} [Hardware H]

/-- Tells the observers of a notification and lets the hardware follow it. The first fault stays. -/
def deliver (first : Option ConfigFault) (n : Notification) (s : State H) :
    Option ConfigFault × State H :=
  match Guarded.follow n s.hardware with
  | (.ok (), hardware) => (first, { s with model := s.model.tell n, hardware })
  | (.error fault, hardware) =>
    (first <|> some fault, { s with model := s.model.tell n, hardware })

/-- Delivers notifications in order. -/
def deliverAll : Option ConfigFault → List Notification → State H → Option ConfigFault × State H
  | first, [], s => (first, s)
  | first, n :: rest, s =>
    let (first, s) := s.deliver first n
    s.deliverAll first rest

/-- Delivers the notifications in the queue, which none of them adds to. -/
def drain (s : State H) : Option ConfigFault × State H :=
  { s with model := { s.model with queue := [] } }.deliverAll none s.model.queue

/-- Takes over what the hardware says, if it can be read. What this notifies comes from the hardware
and is not followed. -/
def resync (s : State H) : State H :=
  match Guarded.read s.hardware with
  | (.error _, hardware) => { s with hardware }
  | (.ok c, hardware) => ({ s with model := (s.model.absorb c).1, hardware } : State H).drain.2

/-- Processes the notifications in the queue. -/
def process (s : State H) : Except ConfigFault Unit × State H :=
  match s.drain with
  | (none, s) => (.ok (), s)
  | (some fault, s) => (.error fault, s.resync)

/-- The settings that are remembered of the display on an output. -/
def remembered? (s : State H) (id : OutputId) : Option Settings := do
  let storage ← s.storage
  let screen ← s.model.screen? id
  let identity ← screen.identity
  let options ← storage.load? identity.displayId
  options.toSettings? screen.modes

/-- Requests the settings that are remembered of the display on an output. That it fails is no
fault of the step that connected the output. -/
def restore (id : OutputId) (s : State H) : State H :=
  match s.remembered? id with
  | none => s
  | some settings => { s with hardware := (Guarded.request id settings s.hardware).2 }

/-- Takes over a configuration and restores the options of the displays that are new. -/
def absorb (c : Configuration) (s : State H) : Except ConfigFault Unit × State H :=
  let (model, delta) := s.model.absorb c
  let (result, s) := { s with model }.process
  (result, delta.added.foldl (fun s id => s.restore id) s)

/-- Takes over the configuration of the hardware. -/
def sync (s : State H) : Except ConfigFault Unit × State H :=
  match Guarded.read s.hardware with
  | (.error fault, hardware) => (.error fault, { s with hardware })
  | (.ok c, hardware) => { s with hardware }.absorb c

/-- Takes note of an observation. -/
def handle (o : Observation) (s : State H) : Except ConfigFault Unit × State H :=
  match o with
  | .configuration c => s.absorb c
  | .tilt id t => { s with model := s.model.update id .hardware (Screen.tilt t) }.process
  | .lit lit => { s with model := s.model.setLit lit }.process

/-- Takes note of observations one after the other, whatever becomes of each. -/
def handleAll : List Observation → State H → State H
  | [], s => s
  | o :: rest, s => (s.handle o).2.handleAll rest

end State

end Displays
