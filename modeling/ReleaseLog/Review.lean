import ReleaseLog.Text.Basic
import ReleaseLog.Text.Occurrence

/-!
# Review pages

The address of a pull request is a base and its number. The base comes from the URL of the remote:
its first `.git` gives way to `/pull/`, wherever it stands.
-/

namespace ReleaseLog.Review

def suffix : Text := ".git".toList

def path : Text := "/pull/".toList

def hasSuffix (url : Text) : Bool := Occurrence.contains suffix url

/-- What stands before the number in the address of a pull request. -/
def base (url : Text) : Text := Occurrence.replaceFirst suffix path url

theorem hasSuffix_iff {url : Text} : hasSuffix url = true ↔ suffix <:+: url :=
  Occurrence.contains_iff

theorem base_of_not_hasSuffix {url : Text} (h : hasSuffix url = false) : base url = url :=
  Occurrence.replaceFirst_of_not_contains h path

/-- A base derived again and again: each URL, and whether it has the suffix, before the next. -/
def bases : Nat → Text → List (Bool × Text)
  | 0, _ => []
  | n + 1, url => (hasSuffix url, base url) :: bases n (base url)

@[simp] theorem length_bases (n : Nat) (url : Text) : (bases n url).length = n := by
  induction n generalizing url with
  | zero => rfl
  | succ n ih => simp [bases, ih]

end ReleaseLog.Review
