import ReleaseLog.Text.Blank
import ReleaseLog.Text.Lines

/-!
# The output of git

What git prints is read line by line, and blank lines say nothing.
-/

namespace ReleaseLog.Git

/-- The value that git prints on a line of its own: the first line that is not blank, trimmed. -/
def value? (output : Text) : Option Text :=
  (output.lines.map Text.trim).find? fun line => !line.isEmpty

/-- The subjects that git prints, one a line, as they are. A blank one cannot refer to anything. -/
def subjects (output : Text) : List Text := output.lines.filter fun line => !line.allBlank

@[simp] theorem value?_nil : value? [] = none := rfl

@[simp] theorem subjects_nil : subjects [] = [] := rfl

end ReleaseLog.Git
