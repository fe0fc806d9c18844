import Displays.Property
import Displays.Configuration
import Displays.Text.Utf8
import Displays.Text.Printable

/-!
# Faults

What can go wrong, as causes; the wording of each stands in one function. A fault of the hardware
is the source of the fault that a controller reports.
-/

namespace Displays

/-- A fault of the operating system's input and output. -/
inductive IoFault where
  /-- There is no such file. -/
  | notFound
  /-- Access is not permitted. -/
  | permissionDenied
  /-- The file is a directory. -/
  | isDirectory
  /-- The content is not what it has to be. -/
  | invalidData
  /-- A word for a program holds a NUL. -/
  | nulInWord
  deriving DecidableEq, Repr

/-- The description of a fault. -/
def IoFault.message : IoFault → String
  | notFound => "No such file or directory (os error 2)"
  | permissionDenied => "Permission denied (os error 13)"
  | isDirectory => "Is a directory (os error 21)"
  | invalidData => "invalid data"
  | nulInWord => "nul byte found in provided data"

/-- How a process ended. -/
inductive ExitStatus where
  /-- It returned this status. -/
  | code (n : Nat)
  /-- It was ended by this signal. -/
  | signal (n : Nat)
  deriving DecidableEq, Repr

/-- The names of the signals, from the first one on. -/
def signalNames : List String :=
  ["SIGHUP", "SIGINT", "SIGQUIT", "SIGILL", "SIGTRAP", "SIGABRT", "SIGBUS", "SIGFPE", "SIGKILL",
    "SIGUSR1", "SIGSEGV", "SIGUSR2", "SIGPIPE", "SIGALRM", "SIGTERM", "SIGSTKFLT", "SIGCHLD",
    "SIGCONT", "SIGSTOP", "SIGTSTP", "SIGTTIN", "SIGTTOU", "SIGURG", "SIGXCPU", "SIGXFSZ",
    "SIGVTALRM", "SIGPROF", "SIGWINCH", "SIGIO", "SIGPWR", "SIGSYS"]

/-- The description of an end. -/
def ExitStatus.message : ExitStatus → String
  | code n => s!"exit status: {n}"
  | signal n =>
    match signalNames[n - 1]? with
    | some name => s!"signal: {n} ({name})"
    | none => s!"signal: {n}"

/-- The ways to reach the hardware. -/
inductive Backend where
  /-- The program `xrandr`. -/
  | xrandr
  /-- The program `swaymsg`. -/
  | sway
  /-- The X server itself. -/
  | randr
  deriving DecidableEq, Repr

/-- The name on the command line and in messages. -/
def Backend.name : Backend → String
  | xrandr => "xrandr"
  | sway => "sway"
  | randr => "randr"

/-- Why the hardware cannot do what is asked of it. -/
inductive Refusal where
  /-- The backend cannot scale. -/
  | scale (backend : Backend) (id : OutputId) (scale : Float)
  /-- The backend cannot set this power mode. -/
  | power (backend : Backend) (mode : PowerMode) (id : OutputId)
  /-- The backend cannot set this kind of device. -/
  | form (backend : Backend) (form : FormFactor) (id : OutputId)
  /-- The server offers no mode with this index. -/
  | noMode (id : OutputId) (index : Nat)
  /-- All CRTCs that could drive the output are taken. -/
  | noFreeCrtc (id : OutputId)
  /-- A coordinate does not fit sixteen bits. -/
  | position (id : OutputId) (value : Int)
  /-- Moved to the origin, the layout leaves the addressable range. -/
  | layoutTooLarge
  /-- The screen that holds the layout is too large. -/
  | screenTooLarge
  /-- A reason that the hardware gives itself. -/
  | stated (reason : String)
  deriving DecidableEq, Repr

/-- The description of a refusal. -/
def Refusal.message : Refusal → String
  | scale backend id s => s!"{backend.name} cannot scale {id} by {Decimal.plainText s}"
  | power backend mode id => s!"{backend.name} cannot set power mode {mode.label} of {id}"
  | form backend f id => s!"{backend.name} cannot set form factor {f.label} of {id}"
  | noMode id index => s!"{id} has no mode #{index}"
  | noFreeCrtc id => s!"no free CRTC for {id}"
  | position id value => s!"{id} position {value} is out of range"
  | layoutTooLarge => "layout is too large"
  | screenTooLarge => "screen is too large"
  | stated reason => reason

/-- What the hardware says that cannot be understood. -/
inductive Garble where
  /-- A report of xrandr is not UTF-8. -/
  | reportText (fault : Text.Utf8.Fault)
  /-- A number in a report of xrandr is out of range. -/
  | reportNumber (name text : String)
  /-- The EDID in a report of xrandr is not hexadecimal at this offset. -/
  | reportHex (offset : Nat)
  /-- The outputs that sway reports are not what they have to be. -/
  | swayOutputs
  /-- The X server names a mode it does not describe. -/
  | unknownMode (id : Nat)
  /-- The X server names a CRTC it does not describe. -/
  | unknownCrtc (id : Nat)
  deriving DecidableEq, Repr

/-- What cannot be understood. -/
def Garble.subject : Garble → String
  | reportText _ => "xrandr output"
  | reportNumber _ _ => "xrandr output"
  | reportHex _ => "xrandr EDID"
  | swayOutputs => "output of swaymsg -t get_outputs"
  | unknownMode _ => "randr screen resources"
  | unknownCrtc _ => "randr screen resources"

/-- Why it cannot be understood. -/
def Garble.reason : Garble → String
  | reportText fault => fault.message
  | reportNumber name text => s!"{name} {Text.quoted text} is out of range"
  | reportHex offset => s!"bad hex at offset {offset}"
  | swayOutputs => "unexpected JSON"
  | unknownMode id => s!"unknown mode id {id}"
  | unknownCrtc id => s!"unknown crtc id {id}"

/-- A fault of the hardware. -/
inductive HardwareFault where
  /-- A program could not be started. -/
  | spawn (program : String) (cause : IoFault)
  /-- A program failed. -/
  | failed (program : String) (status : ExitStatus) (stderr : String)
  /-- An answer cannot be understood. -/
  | garbled (what : Garble)
  /-- The hardware cannot do what is asked. -/
  | unsupported (reason : Refusal)
  /-- There is no X server, or it refuses the connection. -/
  | connect
  /-- The X server lacks the extension for outputs. -/
  | extensionMissing
  /-- The X server answers a request with an error. -/
  | request
  deriving DecidableEq, Repr

/-- The description of a fault; those of the X server are described by kind alone. -/
def HardwareFault.message : HardwareFault → String
  | spawn program cause => s!"failed to start {program}: {cause.message}"
  | failed program status stderr => s!"{program} exited with {status.message}: {stderr}"
  | garbled what => s!"unable to parse {what.subject}: {what.reason}"
  | unsupported reason => reason.message
  | connect => "X11 connection refused"
  | extensionMissing => "X11 extension missing"
  | request => "X11 error"

/-- A fault of a request to configure displays. -/
inductive ConfigFault where
  /-- No connected output has this name. -/
  | unknownOutput (id : OutputId)
  /-- The configuration is not valid. -/
  | invalid (defect : Defect)
  /-- The hardware does not accept the configuration. -/
  | rejected (source : HardwareFault)
  /-- The hardware cannot be read. -/
  | unavailable (source : HardwareFault)
  deriving DecidableEq, Repr

/-- The description of a fault. -/
def ConfigFault.message : ConfigFault → String
  | unknownOutput id => s!"unknown output {id}"
  | invalid defect => s!"invalid configuration: {defect.message}"
  | rejected _ => "configuration rejected by hardware"
  | unavailable _ => "hardware configuration unavailable"

/-- A fault of the file of remembered options. -/
inductive StorageFault where
  /-- The file at this path cannot be read or written. -/
  | io (path : String) (cause : IoFault)
  /-- The file at this path is not what it has to be. -/
  | format (path : String)
  deriving DecidableEq, Repr

/-- The description of a fault. -/
def StorageFault.message : StorageFault → String
  | io path cause => s!"unable to access {path}: {cause.message}"
  | format path => s!"malformed configuration file {path}: unexpected JSON"

/-- What succeeds in two steps succeeds in the first one. -/
theorem exists_of_bind_eq_ok {ε α β : Type} {x : Except ε α} {f : α → Except ε β} {b : β}
    (h : x >>= f = .ok b) : ∃ a, x = .ok a ∧ f a = .ok b := by
  cases x with
  | error fault => cases h
  | ok a => exact ⟨a, rfl, h⟩

/-- What fails in two steps fails in one of them. -/
theorem of_bind_eq_error {ε α β : Type} {x : Except ε α} {f : α → Except ε β} {fault : ε}
    (h : x >>= f = .error fault) : x = .error fault ∨ ∃ a, x = .ok a ∧ f a = .error fault := by
  cases x with
  | error fault' => exact .inl (congrArg _ (Except.error.inj h))
  | ok a => exact .inr ⟨a, rfl, h⟩

end Displays
