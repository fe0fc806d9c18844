import Displays.Command.Basic
import Displays.Command.Grammar
import Displays.Decimal.Reading

/-!
# Invocations

An invocation names a backend, possibly a file of remembered options, and what is to be done. Both
options can also come from the environment. The words of the command behind the options are judged
first, then the last option in front of it, then the environment, then what is missing.
-/

namespace Displays

open Command (Draft Effect Grammar Stop)

/-- How outputs are watched. -/
structure WatchRequest where
  /-- The milliseconds between two polls. -/
  interval : Nat := 2000
  /-- The directory of the accelerometer; any that is found if none is named. -/
  accelerometer : Option String := none
  deriving DecidableEq, Repr

/-- What is to be done. -/
inductive Action where
  /-- Describe the outputs. -/
  | list
  /-- Change the settings of an output. -/
  | set (r : SetRequest)
  /-- Remember the options of all displays. -/
  | save
  /-- Follow the hardware. -/
  | watch (w : WatchRequest)
  deriving BEq, Repr

/-- What the command line asks for. -/
structure Invocation where
  /-- The backend. -/
  backend : Backend
  /-- The path of the file of remembered options. -/
  path : Option String
  /-- What is to be done. -/
  action : Action
  deriving BEq, Repr

/-- What the environment says in place of options. -/
structure Environment where
  /-- The name of the backend. -/
  backend : Option String := none
  /-- The path of the file of remembered options. -/
  path : Option String := none
  deriving DecidableEq, Repr

namespace Command

/-- An option whose value is one of some words. -/
def word {α β : Type} (read : String → Option β) (enter : β → α → α) : Effect α :=
  .value false fun text a =>
    match read text with
    | some b => .ok (enter b a)
    | none => .error .invalidValue

/-- An option whose value is read as text of some form. -/
def formed {α β : Type} (read : String → Option β) (enter : β → α → α)
    (hyphens : Bool := false) : Effect α :=
  .value hyphens fun text a =>
    match read text with
    | some b => .ok (enter b a)
    | none => .error .unreadableValue

/-- A path, which is not empty. -/
def path? (text : String) : Option String :=
  if text.isEmpty then none else some text

/-- The words for truth values. -/
def truth? (text : String) : Option Bool :=
  if text = "true" then some true else if text = "false" then some false else none

/-- A natural number of at most 64 bits. -/
def word64? (text : String) : Option Nat :=
  (Decimal.readNat 64 text.toList).toOption

/-- The backend with this name. -/
def backend? (text : String) : Option Backend :=
  [Backend.xrandr, Backend.sway, Backend.randr].find? fun b => b.name == text

/-- The words behind `set`. -/
def setGrammar : Grammar SetRequest where
  operand := some fun output r => { r with output }
  options := [
    ("used", word truth? fun used r => { r with used := some used }),
    ("scale", formed (fun s => Decimal.readFloat? s.toList) fun scale r =>
      { r with scale := some scale }),
    ("mode-index", formed word64? fun index r => { r with modeIndex := some index }),
    ("size", formed (fun s => (Resolution.read s).toOption) fun size r =>
      { r with size := some size }),
    ("form-factor", word (fun s => (FormFactor.read false s).toOption) fun form r =>
      { r with form := some form }),
    ("position", formed (fun s => (Point.read s).toOption) (fun position r =>
      { r with position := some position }) true),
    ("activate", .mark fun r => { r with activate := true })]

/-- Reads the words behind `set`. The index and the size of a mode exclude each other. -/
def readSet (words : List String) : Except Stop SetRequest := do
  let d ← setGrammar.readAll { output := "" } words
  if d.value.modeIndex.isSome ∧ d.value.size.isSome then .error .conflict
  else if d.hasOperand then .ok d.value
  else .error .missingArgument

/-- The words behind `watch`. -/
def watchGrammar : Grammar WatchRequest where
  options := [
    ("poll-interval", formed word64? fun interval w => { w with interval }),
    ("accelerometer", word path? fun path w => { w with accelerometer := some path })]

/-- The words behind a command that takes none. -/
def emptyGrammar : Grammar Unit where
  options := []

/-- The commands. -/
def names : List String := ["list", "set", "save", "watch", "help"]

/-- Reads the words behind `help`, which may be the name of a command. -/
def readHelp : List String → Stop
  | [] => .help
  | [name] => if name ∈ names then .help else .unknownCommand
  | _ => .unknownCommand

/-- Reads the words behind the name of a command. -/
def readAction (name : String) (words : List String) : Except Stop Action :=
  match name with
  | "list" => (emptyGrammar.readAll () words).map fun _ => .list
  | "set" => (readSet words).map .set
  | "save" => (emptyGrammar.readAll () words).map fun _ => .save
  | "watch" => (watchGrammar.readAll {} words).map fun d => .watch d.value
  | _ => .error (readHelp words)

/-- The options in front of the command. -/
structure Preface where
  /-- The backend. -/
  backend : Option Backend := none
  /-- The path of the file of remembered options. -/
  path : Option String := none
  deriving Repr

/-- What the option for the backend does. -/
def backendEffect : Effect Preface :=
  word backend? fun backend p => { p with backend := some backend }

/-- What the option for the file does. -/
def pathEffect : Effect Preface :=
  word path? fun path p => { p with path := some path }

/-- The words in front of the command. -/
def prefaceGrammar : Grammar Preface where
  options := [("controller", backendEffect), ("config-file", pathEffect)]
  commands := names
  hasVersion := true

/-- Enters the value that the environment has for an option, unless that was given. -/
def fill (name : String) (value : Option String) (d : Draft Preface) :
    Except Stop (Draft Preface) :=
  match prefaceGrammar.options.lookup name, value with
  | some (.value _ enter), some text =>
    if name ∈ d.given then .ok d else d.enter name (enter text)
  | _, _ => .ok d

end Command

open Command

/-- Reads a command line. -/
def Invocation.read (environment : Environment) (words : List String) :
    Except Stop Invocation := do
  let (d, command) ← prefaceGrammar.read { value := {} } words
  let action? ← command.mapM fun (name, rest) => readAction name rest
  let d ← d.settle
  let d ← fill "controller" environment.backend d
  let d ← fill "config-file" environment.path d
  match action?, d.value.backend with
  | none, _ => .error (if d.given.isEmpty then .nothing else .missingCommand)
  | some _, none => .error .missingArgument
  | some action, some backend => .ok ⟨backend, d.value.path, action⟩

end Displays
