import ReleaseLog.Failure
import ReleaseLog.Text.Blank
import ReleaseLog.Text.Occurrence
import ReleaseLog.Text.Utf8

/-!
# Replies of git

A reply is what a run of git printed and how it ended. It counts only if git exited with status
zero; else what was printed as an error says why.
-/

namespace ReleaseLog.Git

inductive Ending
  | exited (status : UInt8)
  | killed (signal : Nat)
  deriving DecidableEq

/-- The exit code of a process; there is none after a signal, which counts as minus one. -/
def Ending.code : Ending → Int
  | .exited status => status.toNat
  | .killed _ => -1

structure Reply where
  output : List UInt8 := []
  complaint : List UInt8 := []
  ending : Ending := .exited 0
  deriving DecidableEq

def notARepository : Text := "not a git repository".toList

def Reply.read (r : Reply) : Except QueryFailure Text :=
  if r.ending = .exited 0 then .ok (Text.ofUtf8 r.output)
  else
    let complaint := (Text.ofUtf8 r.complaint).trim
    if Occurrence.contains notARepository complaint then .error .notARepository
    else .error (.commandFailed complaint r.ending.code)

theorem Reply.read_of_success {r : Reply} (h : r.ending = .exited 0) :
    r.read = .ok (Text.ofUtf8 r.output) := by simp [read, h]

end ReleaseLog.Git
