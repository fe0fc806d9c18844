import Displays.Command.Execution
import Displays.Hardware.Host

/-!
# The program

A rehearsal of the command line: standard input holds the report of the window system, and the
programs that would configure outputs are named on standard error instead of being started. The
file of remembered options is not read; what would be written to it goes to standard output.
-/

namespace Displays.Rehearsal

/-- How the program is called. -/
def usage : String :=
  "Usage: display-sync --controller <xrandr|sway|randr> [--config-file <FILE>] <COMMAND>\n\n" ++
    "Commands: list, set, save, watch, help\n"

/-- The environment in which the program runs. -/
def environment : IO Environment := do
  return ⟨← IO.getEnv "DISPLAY_SYNC_CONTROLLER", ← IO.getEnv "DISPLAY_SYNC_CONFIG_FILE"⟩

/-- The octets of a stream up to its end, behind those that were read before. -/
partial def readToEnd (stream : IO.FS.Stream) (front : ByteArray) : IO ByteArray := do
  let chunk ← stream.read 65536
  if chunk.isEmpty then return front else readToEnd stream (front ++ chunk)

/-- What is shown of a program that would be started. -/
def startLine (words : List String) : String :=
  " ".intercalate words ++ "\n"

end Displays.Rehearsal

section

open Displays Displays.Rehearsal

/-- Carries out a command line. -/
def main (words : List String) : IO UInt32 := do
  let stdout ← IO.getStdout
  let stderr ← IO.getStderr
  match Invocation.read (← environment) words with
  | .error stop =>
    let text := if stop = .version then Command.versionLine else usage
    (if stop.status = 0 then stdout else stderr).putStr text
    return stop.status.toUInt32
  | .ok invocation =>
    let report ← readToEnd (← IO.getStdin) .empty
    let host : Host := { executable := .program { report := report.toList } }
    let outcome := invocation.execute .missing [] (⟨invocation.backend, host⟩ : Hosted)
    stdout.putStr outcome.printed
    if let .regular bytes := outcome.file then stdout.write ⟨bytes.toArray⟩
    for words in outcome.hardware.host.started do
      unless Program.isReport (words.drop 1) do stderr.putStr (startLine words)
    if let .error fault := outcome.result then stderr.putStr fault.report
    return outcome.status.toUInt32

end
