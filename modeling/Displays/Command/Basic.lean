import Displays.Command.Describe
import Displays.Watcher

/-!
# Commands

What the command line does with the state of the displays: change the settings of one output, and
remember the options of every display whose identity is known. A command that fails keeps what it
did up to then.
-/

namespace Displays

/-- Why a command failed. -/
inductive CommandFault where
  /-- A request to the displays failed. -/
  | config (fault : ConfigFault)
  /-- The remembered options cannot be read or written. -/
  | storage (fault : StorageFault)
  /-- No connected output has this name. -/
  | noOutput (id : OutputId)
  /-- The output was disconnected in the meantime. -/
  | disappeared (id : OutputId)
  /-- No file for remembered options was named. -/
  | noStorage
  deriving DecidableEq, Repr

/-- The description of a fault. -/
def CommandFault.message : CommandFault → String
  | config fault => fault.message
  | storage fault => fault.message
  | noOutput id => s!"no connected output named {id}"
  | disappeared id => s!"{id} disappeared"
  | noStorage => "--config-file is required to save"

/-- What is to be changed about an output. -/
structure SetRequest where
  /-- The output. -/
  output : OutputId
  /-- Whether it is to be used. -/
  used : Option Bool := none
  /-- Its scale. -/
  scale : Option Float := none
  /-- The index of its mode. -/
  modeIndex : Option Nat := none
  /-- The size of its mode. -/
  size : Option Resolution := none
  /-- The kind of device. -/
  form : Option FormFactor := none
  /-- Its position. -/
  position : Option Point := none
  /-- It is to become the active one. -/
  activate : Bool := false
  deriving BEq, Repr

namespace SetRequest

/-- The requests to the screen, in the order in which they are made. -/
def steps (r : SetRequest) : List (Screen → Except ConfigFault (Screen × List Change)) :=
  r.used.toList.map (fun used s => .ok (s.setUsed used)) ++
  r.scale.toList.map Screen.setScale ++
  r.modeIndex.toList.map Screen.setModeIndex ++
  r.size.toList.map Screen.setSize ++
  r.form.toList.map (fun form s => .ok (s.setForm form))

/-- Makes requests to a screen up to the first that fails. -/
def update (id : OutputId) :
    List (Screen → Except ConfigFault (Screen × List Change)) → Model →
      Except ConfigFault Unit × Model
  | [], m => (.ok (), m)
  | step :: steps, m =>
    match m.tryUpdate id step with
    | (.ok (), m) => update id steps m
    | failed => failed

/-- Makes all requests to the model. -/
def apply (r : SetRequest) (m : Model) : Except ConfigFault Unit × Model :=
  match update r.output r.steps m with
  | (.error fault, m) => (.error fault, m)
  | (.ok (), m) =>
    if r.activate then
      match m.activate r.output with
      | .ok m => (.ok (), m)
      | .error fault => (.error fault, m)
    else (.ok (), m)

end SetRequest

namespace State

variable {H : Type} [Hardware H]

/-- Requests a position for an output, with all other settings as its screen has them. -/
def place (id : OutputId) (position : Point) (s : State H) : Except CommandFault Unit × State H :=
  match s.model.screen? id with
  | none => (.error (.disappeared id), s)
  | some screen =>
    match Guarded.request id { screen.settings with topLeft := position } s.hardware with
    | (.ok (), hardware) => (.ok (), { s with hardware })
    | (.error fault, hardware) => (.error (.config fault), { s with hardware })

/-- Takes over what the hardware made of the requests, and describes the screen. -/
def confirm (id : OutputId) (s : State H) : Except CommandFault String × State H :=
  match s.sync with
  | (.error fault, s) => (.error (.config fault), s)
  | (.ok (), s) => (.ok ((s.model.screen? id).elim "" fun screen => screen.describe ++ "\n"), s)

/-- Changes the settings of an output and describes its screen afterwards. -/
def set (r : SetRequest) (s : State H) : Except CommandFault String × State H :=
  match s.model.screen? r.output with
  | none => (.error (.noOutput r.output), s)
  | some _ =>
    match r.apply s.model with
    | (.error fault, model) => (.error (.config fault), { s with model })
    | (.ok (), model) =>
      match { s with model }.process with
      | (.error fault, s) => (.error (.config fault), s)
      | (.ok (), s) =>
        match r.position with
        | none => s.confirm r.output
        | some position =>
          match s.place r.output position with
          | (.error fault, s) => (.error fault, s)
          | (.ok (), s) => s.confirm r.output

end State

/-- The outcome of remembering options. -/
structure Saving where
  /-- Whether everything was written. -/
  result : Except CommandFault Unit
  /-- The lines for the displays that were saved. -/
  printed : String
  /-- The remembered options. -/
  storage : Storage
  /-- The file with them. -/
  file : File
  deriving Repr

/-- Remembers the options of screens whose identity is known, up to the first that fails. -/
def saveAll (storage : Storage) (file : File) (printed : String) : List Screen → Saving
  | [] => ⟨.ok (), printed, storage, file⟩
  | s :: rest =>
    match s.identity with
    | none => saveAll storage file printed rest
    | some identity =>
      let id := identity.displayId
      match storage.save id (.ofSettings s.settings s.modes) file with
      | (.error fault, storage, file) => ⟨.error (.storage fault), printed, storage, file⟩
      | (.ok (), storage, file) =>
        saveAll storage file (printed ++ s!"{s.id}: saved as {id}\n") rest

/-- Remembers the options of all screens whose identity is known. -/
def Model.save (m : Model) (storage : Storage) (file : File) : Saving :=
  saveAll storage file "" m.screens

end Displays
