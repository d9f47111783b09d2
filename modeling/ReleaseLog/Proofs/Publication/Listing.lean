import Mathlib.Data.List.Forall2
import ReleaseLog.Proofs.Git.Subjects
import ReleaseLog.Proofs.Publication.Protocol

/-!
# What is listed

The bullets of a log are those of the lines that git printed with a marker at the end. Whether a
line has one can be told from its bytes, and nothing of the other lines bears on its bullet.
-/

namespace ReleaseLog

open Publication

namespace Reference

/-- A byte line that ends in the marker of a number. -/
def EndsIn (number : Text) (line : List UInt8) : Prop :=
  number ≠ [] ∧ (∀ c ∈ number, c.isDigit = true) ∧ (marker number).utf8 <:+ line

theorem ascii_marker {number : Text} (hd : ∀ c ∈ number, c.isDigit = true) :
    ∀ c ∈ marker number, c.toNat ≤ 0x7F := by
  have hn : ∀ c ∈ number, c.toNat ≤ 0x7F :=
    fun c hc => Nat.le_trans (toNat_of_isDigit (hd c hc)).2 (by decide)
  exact forall_mem_marker (by decide) (by decide) (by decide) hn

theorem trailingNumber?_ofUtf8_iff {line : List UInt8} {number : Text} :
    trailingNumber? (Text.ofUtf8 line) = some number ↔ EndsIn number line := by
  constructor
  · intro h
    obtain ⟨hne, hd, head, hhead⟩ := eq_append_marker_of_trailingNumber? h
    obtain ⟨l, hl, _⟩ := (Text.ofUtf8_eq_append_iff (ascii_marker hd)).mp hhead
    exact ⟨hne, hd, l, hl.symm⟩
  · rintro ⟨hne, hd, l, rfl⟩
    rw [(Text.ofUtf8_eq_append_iff (ascii_marker hd)).mpr ⟨l, rfl, rfl⟩]
    exact trailingNumber?_append_marker _ hne hd

def HasMarker (line : List UInt8) : Prop := ∃ number, EndsIn number line

theorem isSome_trailingNumber?_iff {line : List UInt8} :
    (trailingNumber? (Text.ofUtf8 line)).isSome = true ↔ HasMarker line := by
  simp only [HasMarker, Option.isSome_iff_exists, trailingNumber?_ofUtf8_iff]

instance (line : List UInt8) : Decidable (HasMarker line) :=
  decidable_of_iff _ isSome_trailingNumber?_iff

theorem trailingNumber?_of_ofSubject? {subject : Text} {r : Reference}
    (h : ofSubject? subject = some r) : trailingNumber? subject = some r.number := by
  obtain ⟨number, hn, rfl⟩ := Option.map_eq_some_iff.mp h
  exact hn

end Reference

/-- A bullet and the byte line it was made of. -/
structure Bullet.Lists (url : Text) (b : Bullet) (line : List UInt8) : Prop where
  marker : Reference.EndsIn b.number line
  reference : Reference.ofSubject? (Text.ofUtf8 line) = some ⟨b.title, b.number⟩
  url : b.url = Review.base url ++ b.number

theorem Bullet.lists_of_ofSubject? {url : Text} {b : Bullet} {line : List UInt8}
    (h : Bullet.ofSubject? (Review.base url) (Text.ofUtf8 line) = some b) : b.Lists url line := by
  obtain ⟨r, hr, rfl⟩ := Option.map_eq_some_iff.mp h
  have hn := Reference.trailingNumber?_of_ofSubject? hr
  exact ⟨Reference.trailingNumber?_ofUtf8_iff.mp hn, hr, rfl⟩

theorem Bullet.not_hasMarker_of_ofSubject? {base : Text} {line : List UInt8}
    (h : Bullet.ofSubject? base (Text.ofUtf8 line) = none) : ¬ Reference.HasMarker line := by
  have hn := Option.map_eq_none_iff.mp (Bullet.ofSubject?_eq_none_iff.mp h)
  rw [← Reference.isSome_trailingNumber?_iff, hn]
  exact Bool.false_ne_true

theorem forall₂_filterMap_filter {α β : Type} {f : α → Option β} {p : α → Prop} [DecidablePred p]
    {R : β → α → Prop} (hsome : ∀ {a b}, f a = some b → p a ∧ R b a)
    (hnone : ∀ {a}, f a = none → ¬ p a) (l : List α) :
    List.Forall₂ R (l.filterMap f) (l.filter (p ·)) := by
  induction l with
  | nil => exact .nil
  | cons a l ih =>
    cases h : f a with
    | none =>
      have hp := hnone h
      rw [List.filterMap_cons_none h, List.filter_cons_of_neg (by simpa using hp)]
      exact ih
    | some b =>
      obtain ⟨hp, hR⟩ := hsome h
      rw [List.filterMap_cons_some h, List.filter_cons_of_pos (by simpa using hp)]
      exact .cons hR ih

namespace Publication

/-- Neither the order of decoding and cutting nor the blank lines matter to the bullets. -/
theorem bullets_subjects_ofUtf8 (url : Text) (output : List UInt8) :
    Bullet.ofSubjects (Review.base url) (Git.subjects (Text.ofUtf8 output)) =
      (Text.byteLines output).filterMap fun line =>
        Bullet.ofSubject? (Review.base url) (Text.ofUtf8 line) := by
  have hblank : ∀ line : Text, line.allBlank = true →
      Bullet.ofSubject? (Review.base url) line = none := by
    intro line h
    exact Bullet.ofSubject?_eq_none_iff.mpr (Reference.ofSubject?_of_allBlank h)
  rw [Bullet.ofSubjects, Git.filterMap_subjects hblank, Text.filterMap_lines (hblank [] rfl),
    ← Text.map_ofUtf8_byteLines, List.filterMap_map]
  rfl

theorem forall₂_lists (url : Text) (output : List UInt8) :
    List.Forall₂ (Bullet.Lists url)
      (Bullet.ofSubjects (Review.base url) (Git.subjects (Text.ofUtf8 output)))
      ((Text.byteLines output).filter (Reference.HasMarker ·)) := by
  rw [bullets_subjects_ofUtf8]
  apply forall₂_filterMap_filter
  · intro line b h
    have hb := Bullet.lists_of_ofSubject? h
    exact ⟨⟨b.number, hb.marker⟩, hb⟩
  · intro line
    exact Bullet.not_hasMarker_of_ofSubject?

end Publication

namespace Protocol

section Listing

variable {h : Host} {program directory tag url : Text} {replies : List Git.Reply} {d : Device}

theorem subjectsQuery_of_logCall_mem {c : Git.Client} (ht : tagQuery c replies = .ok tag)
    (hlog : logCall directory tag ∈ callsMade c directory replies d)
    (hexit : (replies.getD 2 {}).ending = .exited 0) :
    subjectsQuery c replies tag = .ok (Git.subjects (Text.ofUtf8 (replies.getD 2 {}).output)) := by
  have hstarts := starts_of_logCall_mem ht hlog
  rw [subjectsQuery, Git.Client.received_of_starts hstarts, Git.Reply.read_of_success hexit]
  rfl

end Listing

/-- The replies of a git whose log has a character cut short before the marker of the first subject
and one before the return that ends the second one. -/
def brokenReplies : List Git.Reply :=
  [{ output := Text.utf8 "v1\n".toList },
    { output := Text.utf8 "u.git\n".toList },
    { output := Text.utf8 "Fix ".toList ++ [0xE2, 0x82] ++ Text.utf8 "(#1)\r\nAdd (#2)".toList ++
        [0xF0, 0x9F, 0x0D, 0x0A] ++ Text.utf8 "Tidy (#3)\r\n".toList }]

end Protocol

end ReleaseLog
