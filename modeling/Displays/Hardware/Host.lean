import Displays.Hardware.Held
import Displays.Randr.Submission
import Displays.Sway.Report
import Displays.Text.Scan
import Displays.Xrandr.Report

/-!
# Hosts

What a backend finds on the host on which it runs: the program of the window system, and an X
server. A program that is started with the words for a report prints one; with any other words it
configures the outputs. `Hosted` is hardware that is reached through a backend.
-/

namespace Displays

/-- The program ended without fault. -/
def ExitStatus.isSuccess (s : ExitStatus) : Bool :=
  s == .code 0

/-- How a run of a program ends. -/
structure Ending where
  /-- The status. -/
  status : ExitStatus := .code 0
  /-- The octets that it prints to its standard error. -/
  stderr : List UInt8 := []
  deriving DecidableEq, Repr

/-- A program that reports and configures outputs. -/
structure Program where
  /-- The octets of its report. -/
  report : List UInt8 := []
  /-- How a run that reports ends. -/
  reporting : Ending := {}
  /-- How a run that configures ends. -/
  configuring : Ending := {}
  /-- The octets of its report once it has configured outputs, if they are others. -/
  after : Option (List UInt8) := none
  deriving DecidableEq, Repr

namespace Program

/-- The words ask for a report. -/
def isReport (words : List String) : Bool :=
  words.head?.any fun w => Xrandr.reportWords.head? == some w || Sway.reportWords.head? == some w

/-- What a run prints, how it ends, and the program from then on. -/
def run (p : Program) (words : List String) : List UInt8 × Ending × Program :=
  if isReport words then (p.report, p.reporting, p)
  else if p.configuring.status.isSuccess then
    ([], p.configuring, { p with report := p.after.getD p.report })
  else ([], p.configuring, p)

end Program

/-- What stands under the name of a program. -/
inductive Executable where
  /-- Nothing. -/
  | missing
  /-- A file that may not be executed. -/
  | forbidden
  /-- A program. -/
  | program (p : Program)
  deriving DecidableEq, Repr

/-- A host. -/
structure Host where
  /-- What stands under the names of the programs. -/
  executable : Executable := .missing
  /-- The X server, if there is one. -/
  server : Option Randr.Server := none
  /-- The programs that were started, each with its words, oldest first. -/
  started : List (List String) := []
  deriving Repr

namespace Host

/-- What a run printed, or its fault. -/
def outcome (name : String) (stdout : List UInt8) (e : Ending) :
    Except HardwareFault (List UInt8) :=
  if e.status.isSuccess then .ok stdout
  else
    let stderr := String.ofList (Text.trim (Text.Utf8.decodeLossy e.stderr))
    .error (.failed name e.status stderr)

/-- Starts a program and waits for its end. -/
def start (name : String) (words : List String) (h : Host) :
    Except HardwareFault (List UInt8) × Host :=
  if words.any fun w => w.toList.contains '\x00' then (.error (.spawn name .nulInWord), h)
  else
    match h.executable with
    | .missing => (.error (.spawn name .notFound), h)
    | .forbidden => (.error (.spawn name .permissionDenied), h)
    | .program p =>
      let (stdout, ending, p) := p.run words
      (outcome name stdout ending,
        { h with executable := .program p, started := h.started ++ [name :: words] })

/-- Reads the report of a program. -/
def report (name : String) (words : List String)
    (read : List UInt8 → Except HardwareFault Configuration) (h : Host) :
    Except HardwareFault Configuration × Host :=
  match h.start name words with
  | (.ok stdout, h) => (read stdout, h)
  | (.error fault, h) => (.error fault, h)

/-- Starts a program with the words that request a configuration. -/
def configure (name : String) (words : Except HardwareFault (List String)) (h : Host) :
    Except HardwareFault Unit × Host :=
  match words with
  | .error fault => (.error fault, h)
  | .ok words =>
    let (stdout, h) := h.start name words
    (stdout.map fun _ => (), h)

/-- Submits a configuration to the X server. What no server can do is refused before that. -/
def submitToServer (c : Configuration) (h : Host) : Except HardwareFault Unit × Host :=
  match Randr.checkSupported c with
  | .error fault => (.error fault, h)
  | .ok () =>
    match h.server with
    | none => (.error .connect, h)
    | some server =>
      let (result, server) := server.submit (Randr.Table.ofList server.outputs).entries c
      (result, { h with server := some server })

end Host

/-- Reads the configuration of a host. -/
def Backend.read (b : Backend) (h : Host) : Except HardwareFault Configuration × Host :=
  match b with
  | xrandr => h.report "xrandr" Xrandr.reportWords Xrandr.readBytes
  | sway => h.report "swaymsg" Sway.reportWords Sway.readBytes
  | randr => (h.server.elim (.error .connect) Randr.Server.read, h)

/-- Submits a configuration to a host. -/
def Backend.submit (b : Backend) (c : Configuration) (h : Host) :
    Except HardwareFault Unit × Host :=
  match b with
  | xrandr => h.configure "xrandr" (Xrandr.words c)
  | sway => h.configure "swaymsg" (Sway.words c)
  | randr => h.submitToServer c

/-- Hardware that is reached through a backend. -/
structure Hosted where
  /-- The backend. -/
  backend : Backend
  /-- The host. -/
  host : Host
  deriving Repr

instance : Hardware Hosted where
  read h :=
    let (result, host) := h.backend.read h.host
    (result, { h with host })
  submit c h :=
    let (result, host) := h.backend.submit c h.host
    (result, { h with host })

end Displays
