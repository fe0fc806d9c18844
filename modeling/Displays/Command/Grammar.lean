/-!
# Grammars of command lines

A grammar describes the words of a command by what each of them does to a draft of the result. An
option takes its value from its own word, behind an equality sign, or from the next one. In the
second case the value is entered only when the word after it shows that it is complete, so faults
of other words can come first. After a lone double hyphen no word is an option.
-/

namespace Displays.Command

/-- Why the words of a command line are not carried out. -/
inductive Stop where
  /-- Help is asked for. -/
  | help
  /-- The version is asked for. -/
  | version
  /-- There are no words that say anything. -/
  | nothing
  /-- The command is missing. -/
  | missingCommand
  /-- There is no such command. -/
  | unknownCommand
  /-- An argument that has to be given is missing. -/
  | missingArgument
  /-- There is no such argument. -/
  | unknownArgument
  /-- An argument is given twice, or with one that excludes it. -/
  | conflict
  /-- A value is missing, or is not among the possible ones. -/
  | invalidValue
  /-- A value cannot be read. -/
  | unreadableValue
  /-- A value is given to an option that has none. -/
  | excessValue
  deriving DecidableEq, Repr

/-- A word by its form. -/
inductive Form where
  /-- The lone double hyphen. -/
  | separator
  /-- The name of an option, with the value that its word holds. -/
  | long (name : String) (value : Option String)
  /-- A letter behind a hyphen. -/
  | short (letter : Char)
  /-- Any other word. -/
  | plain
  deriving DecidableEq, Repr

/-- The form of a word. -/
def Form.ofWord (w : String) : Form :=
  match w.toList with
  | ['-', '-'] => separator
  | '-' :: '-' :: rest =>
    let name := String.ofList (rest.takeWhile (· ≠ '='))
    match rest.dropWhile (· ≠ '=') with
    | [] => long name none
    | _ :: value => long name (some (String.ofList value))
  | '-' :: c :: _ => short c
  | _ => plain

/-- What an option does. -/
inductive Effect (α : Type) where
  /-- It has no value. -/
  | mark (enter : α → α)
  /-- It has a value, which may begin with a hyphen or not. -/
  | value (hyphens : Bool) (enter : String → α → Except Stop α)

/-- The words that a command understands. -/
structure Grammar (α : Type) where
  /-- The options, by name. -/
  options : List (String × Effect α)
  /-- What the one word does that is no option, if there may be one. -/
  operand : Option (String → α → α) := none
  /-- The commands that may follow. -/
  commands : List String := []
  /-- The version can be asked for. -/
  hasVersion : Bool := false

/-- An option whose value is not entered yet. -/
structure Pending (α : Type) where
  /-- The name of the option. -/
  name : String
  /-- The value may begin with a hyphen. -/
  hyphens : Bool
  /-- Enters the value. -/
  enter : String → α → Except Stop α
  /-- The value, as soon as it is known. -/
  text : Option String

/-- What is known of a command while its words are read. -/
structure Draft (α : Type) where
  /-- The result so far. -/
  value : α
  /-- The options that are entered, latest first. -/
  given : List String := []
  /-- The option that is not entered yet. -/
  pending : Option (Pending α) := none
  /-- The word that is no option was given. -/
  hasOperand : Bool := false

namespace Draft

variable {α : Type}

/-- Enters an option that has not been entered before. -/
def enter (d : Draft α) (name : String) (f : α → Except Stop α) : Except Stop (Draft α) :=
  if name ∈ d.given then .error .conflict
  else (f d.value).map fun value => { d with value, given := name :: d.given }

/-- Enters the option that is pending. -/
def settle (d : Draft α) : Except Stop (Draft α) :=
  match d.pending with
  | none => .ok d
  | some p =>
    match p.text with
    | none => .error .invalidValue
    | some text => { d with pending := none }.enter p.name (p.enter text)

/-- The option that waits for its value. -/
def waiting? (d : Draft α) : Option (Pending α) :=
  d.pending.filter fun p => p.text.isNone

end Draft

/-- The effect of a word. -/
inductive Step (α : Type) where
  /-- It belongs to the command. -/
  | draft (d : Draft α)
  /-- No word after it is an option. -/
  | separator
  /-- It names the command that follows. -/
  | command (name : String)

namespace Grammar

variable {α : Type}

/-- Stops for what is asked, once the pending option is entered. -/
def inform (d : Draft α) (s : Stop) : Except Stop (Step α) :=
  match d.settle with
  | .ok _ => .error s
  | .error fault => .error fault

/-- Reads the name of an option, and its value if the word holds it. -/
def readOption (g : Grammar α) (d : Draft α) (name : String) (value : Option String) :
    Except Stop (Step α) :=
  match g.options.lookup name, value with
  | none, value =>
    let stop? : Option Stop :=
      if name = "help" then some .help
      else if name = "version" ∧ g.hasVersion then some .version
      else none
    match stop?, value with
    | none, _ => .error .unknownArgument
    | some _, some _ => .error .excessValue
    | some stop, none => inform d stop
  | some (.mark _), some _ => .error .excessValue
  | some (.mark enter), none => do
    return .draft (← (← d.settle).enter name fun a => .ok (enter a))
  | some (.value _ enter), some text => do
    return .draft (← (← d.settle).enter name (enter text))
  | some (.value hyphens enter), none => do
    return .draft { ← d.settle with pending := some ⟨name, hyphens, enter, none⟩ }

/-- Reads a letter behind a hyphen. -/
def readLetter (g : Grammar α) (d : Draft α) (letter : Char) : Except Stop (Step α) :=
  if letter = 'h' then inform d .help
  else if letter = 'V' ∧ g.hasVersion then inform d .version
  else .error .unknownArgument

/-- What a word is that has no place. -/
def stray (g : Grammar α) (separated : Bool) (w : String) : Stop :=
  if g.commands = [] ∨ (separated ∧ w ∈ g.commands) then .unknownArgument else .unknownCommand

/-- Reads a word that is no option. -/
def readOperand (g : Grammar α) (d : Draft α) (separated : Bool) (w : String) :
    Except Stop (Draft α) :=
  match d.hasOperand, g.operand with
  | false, some enter => do
    let d ← d.settle
    return { d with value := enter w d.value, hasOperand := true }
  | _, _ => .error (g.stray separated w)

/-- Reads a word. -/
def readWord (g : Grammar α) (d : Draft α) (w : String) : Except Stop (Step α) :=
  match d.waiting?, Form.ofWord w with
  | some p, .plain => .ok (.draft { d with pending := some { p with text := some w } })
  | none, .plain =>
    if w ∈ g.commands then .ok (.command w)
    else (g.readOperand d false w).map Step.draft
  | waiting, form =>
    match waiting.filter fun p => p.hyphens, form with
    | some p, _ => .ok (.draft { d with pending := some { p with text := some w } })
    | none, .long name value => g.readOption d name value
    | none, .short letter => g.readLetter d letter
    | none, _ => .ok .separator

/-- Reads words of which none is an option. -/
def readOperands (g : Grammar α) (d : Draft α) : List String → Except Stop (Draft α)
  | [] => .ok d
  | w :: rest => do g.readOperands (← g.readOperand d true w) rest

/-- Reads words up to the name of a command, and gives that with the words behind it. -/
def read (g : Grammar α) (d : Draft α) :
    List String → Except Stop (Draft α × Option (String × List String))
  | [] => .ok (d, none)
  | w :: rest => do
    match ← g.readWord d w with
    | .draft d => g.read d rest
    | .separator => return (← g.readOperands d rest, none)
    | .command name => .ok (d, some (name, rest))

/-- Reads all words of a command behind which no other follows. -/
def readAll (g : Grammar α) (value : α) (words : List String) : Except Stop (Draft α) := do
  (← g.read { value } words).1.settle

end Grammar

end Displays.Command
