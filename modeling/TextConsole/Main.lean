import TextConsole.CommandLine

/-!
# The program

Connects the command line to the files and streams of the process.
-/

namespace TextConsole.Program

/-- The bytes of a file, if it can be read. -/
def readFile (path : String) : IO (Option ByteArray) := do
  try
    return some (← IO.FS.readBinFile path)
  catch _ =>
    return none

/-- The rest of a stream, after what has been read of it. -/
partial def readStream (stream : IO.FS.Stream) (before : ByteArray) : IO ByteArray := do
  let more ← stream.read 65536
  if more.isEmpty then return before
  else readStream stream (before ++ more)

/-- Tells standard error how a run went wrong. -/
def reportFailure (outcome : Outcome) : IO Unit := do
  if let some message := outcome.errorMessage? then
    IO.eprintln ("Error: " ++ message)
  if outcome = .refused .badUsage then
    IO.eprintln "Usage: vconsole [OPTIONS] [INPUT]"

def run (args : List String) : IO UInt32 := do
  let readInput := do readStream (← IO.getStdin) ByteArray.empty
  let outcome ← CommandLine.run readFile readInput args
  (← IO.getStdout).putStr outcome.output
  reportFailure outcome
  return outcome.exitCode.toUInt32

end TextConsole.Program

def main (args : List String) : IO UInt32 :=
  TextConsole.Program.run args
