import ReleaseLog.Record
import ReleaseLog.Text.Split

/-!
# Reports

What is shown to the one who started a run: the warnings among the records, and the failure that
ended it with its causes, one numbered entry each.
-/

namespace ReleaseLog.Report

def numberWidth : Nat := 4

def margin : Text := List.replicate 6 ' '

/-- A further line of an entry. An empty one stays empty. -/
def furtherLine (line : Text) : Text := '\n' :: if line.isEmpty then [] else margin ++ line

def indented (message : Text) : Text :=
  match pieces '\n' message with
  | [] => []
  | first :: rest => first ++ rest.flatMap furtherLine

def entry (number : Nat) (message : Text) : Text :=
  let digits := Text.ofNat number
  '\n' :: List.replicate (numberWidth - digits.length) ' ' ++ digits ++ ": ".toList ++
    indented message

def entries : Nat → List Text → Text
  | _, [] => []
  | number, message :: rest => entry number message ++ entries (number + 1) rest

def failure (messages : List Text) : Text := "Error: ".toList ++ entries 0 messages

def warnings (records : List Record) : Text :=
  (records.filter (·.level = .warn)).flatMap fun r =>
    '[' :: r.level.name ++ "] ".toList ++ r.message.line

@[simp] theorem warnings_nil : warnings [] = [] := rfl

theorem warnings_append (rs ss : List Record) :
    warnings (rs ++ ss) = warnings rs ++ warnings ss := by
  simp [warnings]

end ReleaseLog.Report
