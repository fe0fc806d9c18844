import Displays.Screen

/-!
# The model

The screens of the connected outputs, with a queue of notifications that are not yet processed and
what each observer was told so far. Absorbing a configuration removes the screens whose outputs are
gone and adds one for each output that is new; neither is notified, nor is what a new screen takes
over.
-/

namespace Displays

/-- The screens of the connected outputs. -/
structure Model where
  /-- The screens. -/
  screens : List Screen := []
  /-- The notifications to be processed, oldest first. -/
  queue : List Notification := []
  /-- What each observer was told, oldest first. -/
  inboxes : List (List Notification) := []
  deriving DecidableEq, Repr

/-- The outputs whose screens came and went. -/
structure Delta where
  /-- The outputs that got a screen. -/
  added : List OutputId
  /-- The outputs that lost their screen. -/
  removed : List OutputId
  deriving DecidableEq, Repr

namespace Model

/-- The screen of an output. -/
def screen? (m : Model) (id : OutputId) : Option Screen :=
  m.screens.find? fun s => s.id = id

/-- Queues changes of a screen. -/
def push (m : Model) (id : OutputId) (origin : Origin) (changes : List Change) : Model :=
  { m with queue := m.queue ++ changes.map fun change => ⟨id, change, origin⟩ }

/-- Replaces the first screen with the name of this one. -/
def replaceFirst (s : Screen) : List Screen → List Screen
  | [] => []
  | t :: rest => if t.id = s.id then s :: rest else t :: replaceFirst s rest

/-- Replaces a screen and queues its changes. -/
def put (m : Model) (origin : Origin) (s : Screen) (changes : List Change) : Model :=
  { m with screens := replaceFirst s m.screens }.push s.id origin changes

/-- Changes the screen of an output, if it has one. -/
def update (m : Model) (id : OutputId) (origin : Origin) (f : Screen → Screen × List Change) :
    Model :=
  match m.screen? id with
  | none => m
  | some s => m.put origin (f s).1 (f s).2

/-- Changes the screen of an output by a request that may fail, if it has one. -/
def tryUpdate (m : Model) (id : OutputId)
    (f : Screen → Except ConfigFault (Screen × List Change)) : Except ConfigFault Unit × Model :=
  match m.screen? id with
  | none => (.ok (), m)
  | some s =>
    match f s with
    | .ok (s', changes) => (.ok (), m.put .software s' changes)
    | .error fault => (.error fault, m)

/-- The first output with this name is connected. -/
def isConnected (c : Configuration) (id : OutputId) : Bool :=
  (c.output? id).any Output.connected

/-- Takes over a connected output. -/
def absorbOutput (m : Model) (o : Output) : Model :=
  match m.screen? o.id with
  | some _ => m.update o.id .hardware fun s => s.absorb o
  | none => { m with screens := m.screens ++ [.ofOutput o] }

/-- Takes over connected outputs one after the other and lists those that were new. -/
def absorbOutputs : Model → List Output → Model × List OutputId
  | m, [] => (m, [])
  | m, o :: outputs =>
    let (m', added) := absorbOutputs (m.absorbOutput o) outputs
    (m', if (m.screen? o.id).isSome then added else o.id :: added)

/-- Takes over a configuration. -/
def absorb (m : Model) (c : Configuration) : Model × Delta :=
  let kept := { m with screens := m.screens.filter fun s => isConnected c s.id }
  let gone := m.screens.filter fun s => !isConnected c s.id
  let (m', added) := kept.absorbOutputs (c.outputs.filter Output.connected)
  (m', ⟨added, gone.map Screen.id⟩)

/-- Changes each screen by a request, in order. -/
def updateAll (m : Model) (origin : Origin) (f : Screen → Screen × List Change) : Model :=
  m.screens.foldl (fun m s => m.update s.id origin f) m

/-- Makes the screen of this output the only active one. -/
def activate (m : Model) (id : OutputId) : Except ConfigFault Model :=
  match m.screen? id with
  | none => .error (.unknownOutput id)
  | some _ =>
    let others := m.updateAll .software fun s => if s.id = id then (s, []) else s.setActive false
    .ok (others.update id .software (Screen.setActive true))

/-- Lets the built-in screens follow the sensor, or not. -/
def setLit (m : Model) (lit : Bool) : Model :=
  { m with screens := m.screens.map (Screen.setLit lit) }

/-- Tells every observer. -/
def tell (m : Model) (n : Notification) : Model :=
  { m with inboxes := m.inboxes.map (· ++ [n]) }

/-- Adds an observer, who will be told of what is processed from now on. -/
def subscribe (m : Model) : Model :=
  { m with inboxes := m.inboxes ++ [[]] }

/-- The settings of each screen. -/
def settings (m : Model) : List (OutputId × Settings) :=
  m.screens.map fun s => (s.id, s.settings)

end Model

end Displays
