import ReleaseLog.Text.Basic

/-!
# Lines

A line ends at a line feed, which takes one carriage return directly before it along. What follows
the last line feed is a line of its own unless it is empty.
-/

namespace ReleaseLog.Text

/-- The lines of a text, without their ends. -/
def lines : Text → List Text
  | [] => []
  | '\n' :: r => [] :: lines r
  | '\r' :: '\n' :: r => [] :: lines r
  | c :: r =>
    match lines r with
    | [] => [[c]]
    | l :: ls => (c :: l) :: ls

@[simp] theorem lines_nil : lines [] = [] := rfl

@[simp] theorem lines_feed (r : Text) : lines ('\n' :: r) = [] :: lines r := by simp [lines]

@[simp] theorem lines_return_feed (r : Text) : lines ('\r' :: '\n' :: r) = [] :: lines r := by
  simp [lines]

end ReleaseLog.Text
