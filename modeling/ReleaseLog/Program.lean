import ReleaseLog.CommandLine
import ReleaseLog.Publication
import ReleaseLog.Report

/-!
# The program

A run of the whole program on a host: the command line is judged first, then the working directory
is looked up, then the log is written. What is written, what is reported and the exit code are kept
apart.
-/

namespace ReleaseLog.Program

structure Invocation where
  arguments : List CommandLine.Argument
  host : Host
  replies : List Git.Reply
  output : Sink := Sink.unlimited
  directoryGone : Bool := false

structure Outcome where
  exitCode : Nat
  output : Sink
  report : Text := []
  calls : List (List Text) := []

/-- The outcome of a command line that starts no run. The message is printed as it is read, so a
layout character only suspends a sequence. Help that cannot be printed is not missed. -/
def refuse (i : Invocation) (v : CommandLine.Verdict) : Outcome :=
  let message := v.message .suspends CommandLine.defaultName
  if v.isHelp then ⟨v.exitCode, (i.output.write message.utf8).2, [], []⟩
  else ⟨v.exitCode, i.output, message, []⟩

def start (i : Invocation) : Session Git.Exchange := ⟨⟨i.replies, []⟩, i.output, [], []⟩

def publishThere (i : Invocation) : Outcome :=
  match publishFrom i.host i.host.workingDirectory (start i) with
  | .ok () s => ⟨0, s.sink, Report.warnings s.records, s.repository.calls⟩
  | .error f s =>
    ⟨1, s.sink, Report.warnings s.records ++ Report.failure (f.message :: f.causes),
      s.repository.calls⟩

def run (i : Invocation) : Outcome :=
  match CommandLine.judge i.arguments with
  | some v => refuse i v
  | none =>
    if i.directoryGone then
      ⟨1, i.output, Report.failure [Obstacle.missing.toFault.message], []⟩
    else publishThere i

end ReleaseLog.Program
