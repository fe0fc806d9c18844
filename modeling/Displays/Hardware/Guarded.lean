import Displays.Hardware.Basic
import Displays.Notification
import Displays.Settings

/-!
# Guarded requests

Every request is judged on the whole configuration as the hardware has it at that moment: the
request is written into what was read, the result is validated, and only then it is submitted. So
a request is carried out in one submission or not at all.
-/

namespace Displays.Guarded

variable {H : Type} [Hardware H]

/-- Reads the configuration. -/
def read (h : H) : Except ConfigFault Configuration × H :=
  match Hardware.read h with
  | (.ok c, h) => (.ok c, h)
  | (.error fault, h) => (.error (.unavailable fault), h)

/-- Submits a configuration if it is valid. -/
def submit (c : Configuration) (h : H) : Except ConfigFault Unit × H :=
  match c.defect? with
  | some defect => (.error (.invalid defect), h)
  | none =>
    match Hardware.submit c h with
    | (.ok (), h) => (.ok (), h)
    | (.error fault, h) => (.error (.rejected fault), h)

/-- Requests settings of several outputs in one submission. -/
def requestAll (entries : List (OutputId × Settings)) (h : H) : Except ConfigFault Unit × H :=
  match read h with
  | (.error fault, h) => (.error fault, h)
  | (.ok c, h) =>
    match c.requestAll entries with
    | .error fault => (.error fault, h)
    | .ok c => submit c h

/-- Requests settings of one output. -/
def request (id : OutputId) (s : Settings) (h : H) : Except ConfigFault Unit × H :=
  requestAll [(id, s)] h

/-- The output with a change that the hardware has to follow; none for other changes. -/
def patch? (change : Change) (o : Output) : Option Output :=
  match change with
  | .used used => some { o with used }
  | .scale scale => some { o with scale }
  | .form form => some { o with form }
  | .modeIndex index => some { o with modeIndex := index }
  | _ => none

/-- The configuration with a change of the first output with this name, if that is connected and
the hardware has to follow the change. -/
def patched? (c : Configuration) (id : OutputId) (change : Change) : Option Configuration := do
  let o ← c.output? id
  if o.connected then
    let o ← patch? change o
    return c.modify id fun _ => o
  else none

/-- Lets the hardware follow a change that the software requested. -/
def follow (n : Notification) (h : H) : Except ConfigFault Unit × H :=
  match n.origin with
  | .hardware => (.ok (), h)
  | .software =>
    match read h with
    | (.error fault, h) => (.error fault, h)
    | (.ok c, h) =>
      match patched? c n.output n.change with
      | none => (.ok (), h)
      | some c => submit c h

end Displays.Guarded
