import ChainPoll.Json.Reader
import ChainPoll.Poll.Run
import ChainPoll.Transport.Notation

/-!
# The command line

A poll of a service whose answers are scripted.  The arguments are those of a poll; the standard
input holds a JSON object with the time of day and the script of the answers.
-/

namespace ChainPoll
namespace CommandLine

/-- The number of moves that each call may make. -/
def budget : Nat := 1000000

/-- The status of a process that was started with words that make no sense. -/
def usageStatus : UInt32 := 2

/-- The time of day and the script of a document. -/
def setting (document : String) : Int × Script :=
  match Json.ofText? Json.standardDepth document with
  | none => (0, silence)
  | some v =>
    (((v.get? "time").bind Notation.int?).getD 0,
      Notation.script (((v.get? "script").bind Notation.list?).getD []))

/-- Writes the report of a poll; a fault goes to the other output. -/
def present (outcome : Poll.Outcome) : IO UInt32 := do
  for line in outcome.lines do
    IO.println line
  match outcome.fault with
  | none => return 0
  | some fault =>
    IO.eprintln (fault.typeName ++ ": " ++ fault.message)
    return 1

/-- Runs a poll with the given words and document. -/
def run (words : List String) (document : String) : IO UInt32 := do
  match Arguments.ofWords words with
  | .error .help => return 0
  | .error .faulty => return usageStatus
  | .ok arguments =>
    let (time, script) := setting document
    match Poll.run budget arguments time script with
    | some outcome => present outcome
    | none => return 1

end CommandLine
end ChainPoll

/-- Polls with the arguments of the process and the document on its input. -/
def main (words : List String) : IO UInt32 := do
  let input ← (← IO.getStdin).readToEnd
  ChainPoll.CommandLine.run words input
