import ReleaseLog.Reference

/-!
# Bullets

One line of the log: the title of a merged pull request and a link to it, in Markdown.
-/

namespace ReleaseLog

structure Bullet where
  title : Text
  number : Text
  url : Text
  deriving DecidableEq

namespace Bullet

def ofReference (base : Text) (r : Reference) : Bullet := ⟨r.title, r.number, base ++ r.number⟩

def ofSubject? (base subject : Text) : Option Bullet :=
  (Reference.ofSubject? subject).map (ofReference base)

/-- The link to the pull request, with the blank that parts it from the title. -/
def link (b : Bullet) : Text := " ([#".toList ++ b.number ++ "](".toList ++ b.url ++ "))".toList

/-- The bullet in Markdown. Without a title the link follows the dash. -/
def render (b : Bullet) : Text :=
  if b.title.isEmpty then '-' :: b.link else "- ".toList ++ b.title ++ b.link

theorem render_of_title_nil {b : Bullet} (h : b.title = []) : b.render = '-' :: b.link := by
  simp [render, h]

theorem render_of_title_ne_nil {b : Bullet} (h : b.title ≠ []) :
    b.render = "- ".toList ++ b.title ++ b.link := by
  simp [render, h]

theorem ofSubject?_eq_none_iff {base subject : Text} :
    ofSubject? base subject = none ↔ Reference.ofSubject? subject = none := by
  simp [ofSubject?]

end Bullet

end ReleaseLog
