import Displays.Command.Invocation

/-!
# Carrying out invocations

A file of remembered options that is named is opened before anything else. Every command begins
by taking over the configuration of the hardware. A command that fails ends with the report of its
fault, which is followed by the faults behind it.
-/

namespace Displays

/-- The descriptions of the faults behind a fault of the hardware. -/
def HardwareFault.causes : HardwareFault → List String
  | spawn _ cause => [cause.message]
  | _ => []

/-- The descriptions of the faults behind a fault. -/
def CommandFault.causes : CommandFault → List String
  | config (.rejected source) => source.message :: source.causes
  | config (.unavailable source) => source.message :: source.causes
  | storage (.io _ cause) => [cause.message]
  | storage (.format _) => ["unexpected JSON"]
  | _ => []

namespace Command

/-- A text with a heading before its first line, and blanks as wide before the others. -/
def indented (heading text : List Char) : List Char :=
  let margin := List.replicate heading.length ' '
  heading ++ text.flatMap fun c => if c = '\n' then '\n' :: margin else [c]

/-- The heading of a numbered cause: the number ends at the fifth column. -/
def numbered (index : Nat) : List Char :=
  let digits := Decimal.digitChars index
  List.replicate (5 - digits.length) ' ' ++ digits ++ [':', ' ']

/-- The lines of the causes in a report: indented, and numbered if there are several. -/
def causeLines : List String → List String
  | [] => []
  | [cause] => [String.ofList (indented [' ', ' ', ' ', ' '] cause.toList)]
  | causes => causes.zipIdx.map fun (cause, index) =>
    String.ofList (indented (numbered index) cause.toList)

/-- The report of a fault with its causes. -/
def report (message : String) (causes : List String) : String :=
  let below := if causes.isEmpty then [] else "" :: "Caused by:" :: causeLines causes
  String.join ((s!"Error: {message}" :: below).map fun line => line ++ "\n")

/-- What the program says of its version. -/
def versionLine : String := "display-sync 0.1.0\n"

/-- The status with which a program ends that was stopped. -/
def Stop.status : Stop → Nat
  | .help => 0
  | .version => 0
  | _ => 2

end Command

/-- The report of a fault. -/
def CommandFault.report (f : CommandFault) : String :=
  Command.report f.message f.causes

/-- How an invocation ends. -/
structure Outcome (H : Type) where
  /-- Whether everything was done. -/
  result : Except CommandFault Unit
  /-- What was printed. -/
  printed : String
  /-- The hardware. -/
  hardware : H
  /-- What stands at the path of the file of remembered options. -/
  file : File
  deriving Repr

/-- The status with which the program ends. -/
def Outcome.status {H : Type} (o : Outcome H) : Nat :=
  match o.result with
  | .ok () => 0
  | .error _ => 1

namespace State

variable {H : Type} [Hardware H]

/-- Follows the hardware as long as there is something to read: takes over its configuration, then
takes note of what a watcher sends. -/
def watch (readings : List Reading) (s : State H) : Except ConfigFault Unit × State H :=
  match s.sync with
  | (.error fault, s) => (.error fault, s)
  | (.ok (), s) => (.ok (), s.handleAll (Watcher.pollAll {} readings).1)

/-- Does what is asked, with an open file of remembered options. -/
def perform (action : Action) (storage : Option Storage) (file : File) (readings : List Reading)
    (s : State H) : Outcome H :=
  match action, storage with
  | .save, none => ⟨.error .noStorage, "", s.hardware, file⟩
  | .watch _, storage =>
    let (result, s) := { s with storage }.watch readings
    ⟨result.mapError .config, "", s.hardware, file⟩
  | action, storage =>
    match s.sync with
    | (.error fault, s) => ⟨.error (.config fault), "", s.hardware, file⟩
    | (.ok (), s) =>
      match action, storage with
      | .set r, _ =>
        let (result, s) := s.set r
        ⟨result.map fun _ => (), result.toOption.getD "", s.hardware, file⟩
      | .save, some storage =>
        let saving := s.model.save storage file
        ⟨saving.result, saving.printed, s.hardware, saving.file⟩
      | _, _ => ⟨.ok (), s.model.describe, s.hardware, file⟩

end State

/-- Carries out an invocation on hardware, with the file that stands at the path it names. The
readings are what a watcher finds. -/
def Invocation.execute {H : Type} [Hardware H] (i : Invocation) (file : File)
    (readings : List Reading) (hardware : H) : Outcome H :=
  let s : State H := { hardware }
  match i.path with
  | none => s.perform i.action none file readings
  | some path =>
    match Storage.ofFile path file with
    | .error fault => ⟨.error (.storage fault), "", hardware, file⟩
    | .ok storage => s.perform i.action (some storage) file readings

end Displays
