import ReleaseLog.Program

/-!
# The command

The outer layer reads and prints, and decides nothing. What git answers to the three questions is
read from standard input, each answer ended by a NUL.
-/

namespace ReleaseLog.Command

/-- Reads a stream to its end. -/
partial def readToEnd (input : IO.FS.Stream) (read : ByteArray) : IO ByteArray := do
  let more ← input.read 65536
  if more.isEmpty then return read else readToEnd input (read ++ more)

/-- The replies of git to the questions, one an answer. -/
def replies (answers : List UInt8) : List Git.Reply :=
  (pieces 0 answers).dropLast.map fun answer => { output := answer }

def host (home workingDirectory : Text) : Host where
  tree := ⟨[([Host.git], .file true)]⟩
  home := home
  workingDirectory := workingDirectory
  searchPath := some ['/']

/-- Runs the program on the arguments and what standard input holds. Nothing is read if the
arguments start no run. -/
def run (arguments : List String) : IO UInt32 := do
  let arguments := arguments.map fun argument => Text.utf8 argument.toList
  let home := (← IO.getEnv "HOME").getD "/"
  let workingDirectory := (← IO.getEnv "PWD").getD "/"
  let answers ←
    if (CommandLine.judge arguments).isSome then pure .empty
    else readToEnd (← IO.getStdin) .empty
  let outcome := Program.run {
    arguments
    host := host home.toList workingDirectory.toList
    replies := replies answers.toList }
  (← IO.getStdout).write ⟨outcome.output.taken⟩
  (← IO.getStderr).putStr (String.ofList outcome.report)
  return UInt32.ofNat outcome.exitCode

end ReleaseLog.Command

def main (arguments : List String) : IO UInt32 := ReleaseLog.Command.run arguments
