import Mathlib.Logic.Relation
import ReleaseLog.Git.Output
import ReleaseLog.Git.Reply
import ReleaseLog.Proofs.Text.BlankLines

/-!
# Edits of replies

Git prints more than is read of it. Where one value is expected, the blank lines before it and all
that follows its line are passed over; where subjects are expected, blank lines are. An edit changes
only what is passed over, so edited replies are read alike (`Reply.Alike.read_bind`).
-/

namespace ReleaseLog.Git

theorem value?_eq_none_iff {t : Text} : value? t = none ↔ t.allBlank = true := by
  rw [value?, List.find?_eq_none, List.forall_mem_map, Text.allBlank_iff_lines]
  simp [Text.trim_eq_nil_iff]

theorem subjects_of_allBlank {t : Text} (h : t.allBlank = true) : subjects t = [] := by
  apply List.filter_eq_nil_iff.mpr
  intro l hl
  simp [(Text.allBlank_iff_lines t).mp h l hl]

/-- The value of whole lines and what follows is that of the lines, if they have one. -/
theorem value?_append {a : List UInt8} (ha : Text.IsWhole a) (b : List UInt8) :
    value? (Text.ofUtf8 (a ++ b)) = (value? (Text.ofUtf8 a)).or (value? (Text.ofUtf8 b)) := by
  rw [value?, Text.lines_ofUtf8_append ha, List.map_append, List.find?_append]
  rfl

theorem subjects_append {a : List UInt8} (ha : Text.IsWhole a) (b : List UInt8) :
    subjects (Text.ofUtf8 (a ++ b)) = subjects (Text.ofUtf8 a) ++ subjects (Text.ofUtf8 b) := by
  rw [subjects, Text.lines_ofUtf8_append ha, List.filter_append]
  rfl

structure BlankLines (bs : List UInt8) : Prop where
  whole : Text.IsWhole bs
  blank : (Text.ofUtf8 bs).allBlank = true

theorem BlankLines.value?_append {a : List UInt8} (ha : BlankLines a) (b : List UInt8) :
    value? (Text.ofUtf8 (a ++ b)) = value? (Text.ofUtf8 b) := by
  rw [Git.value?_append ha.whole, value?_eq_none_iff.mpr ha.blank, Option.none_or]

theorem BlankLines.subjects_append {a : List UInt8} (ha : BlankLines a) (b : List UInt8) :
    subjects (Text.ofUtf8 (a ++ b)) = subjects (Text.ofUtf8 b) := by
  rw [Git.subjects_append ha.whole, subjects_of_allBlank ha.blank, List.nil_append]

/-- An edit of an output that one value is read from: blank lines are put in before the line of the
value, or what follows that line is exchanged. -/
inductive ValueEdit : List UInt8 → List UInt8 → Prop
  | lead (head ls rest : List UInt8) (hhead : BlankLines head) (hls : BlankLines ls) :
    ValueEdit (head ++ rest) (head ++ (ls ++ rest))
  | trail (head rest rest' : List UInt8) (hhead : Text.IsWhole head)
    (hvalue : (Text.ofUtf8 head).allBlank = false) : ValueEdit (head ++ rest) (head ++ rest')

/-- An edit of an output that subjects are read from: blank lines are put in where a line begins. -/
inductive SubjectsEdit : List UInt8 → List UInt8 → Prop
  | blank (head ls rest : List UInt8) (hhead : Text.IsWhole head) (hls : BlankLines ls) :
    SubjectsEdit (head ++ rest) (head ++ (ls ++ rest))

theorem ValueEdit.value?_eq {s t : List UInt8} (h : ValueEdit s t) :
    value? (Text.ofUtf8 s) = value? (Text.ofUtf8 t) := by
  cases h with
  | lead head ls rest hhead hls =>
    rw [hhead.value?_append, hhead.value?_append, hls.value?_append]
  | trail head rest rest' hhead hvalue =>
    have hne := mt value?_eq_none_iff.mp (Bool.eq_false_iff.mp hvalue)
    obtain ⟨v, hv⟩ := Option.ne_none_iff_exists'.mp hne
    rw [value?_append hhead, value?_append hhead, hv, Option.some_or, Option.some_or]

theorem SubjectsEdit.subjects_eq {s t : List UInt8} (h : SubjectsEdit s t) :
    subjects (Text.ofUtf8 s) = subjects (Text.ofUtf8 t) := by
  cases h with
  | blank head ls rest hhead hls =>
    rw [subjects_append hhead, subjects_append hhead, hls.subjects_append]

/-- Replies of which the same is read: they end alike, the output counts only after a success, and
then up to edits, and the complaint counts only after a failure. -/
structure Reply.Alike (edit : List UInt8 → List UInt8 → Prop) (r r' : Reply) : Prop where
  ending : r.ending = r'.ending
  output : r.ending = .exited 0 → Relation.EqvGen edit r.output r'.output
  complaint : r.ending ≠ .exited 0 → r.complaint = r'.complaint

theorem eq_of_eqvGen {α β : Type} {edit : α → α → Prop} {f : α → β}
    (hf : ∀ s t, edit s t → f s = f t) {s t : α} (h : Relation.EqvGen edit s t) : f s = f t := by
  induction h with
  | rel s t h => exact hf s t h
  | refl _ => rfl
  | symm _ _ _ ih => exact ih.symm
  | trans _ _ _ _ _ ih ih' => exact ih.trans ih'

/-- Replies are read alike by a reading that no edit changes. -/
theorem Reply.Alike.read_bind {edit : List UInt8 → List UInt8 → Prop} {r r' : Reply}
    (h : r.Alike edit r') {α : Type} {f : Text → Except QueryFailure α}
    (hf : ∀ s t, edit s t → f (Text.ofUtf8 s) = f (Text.ofUtf8 t)) :
    r.read.bind f = r'.read.bind f := by
  by_cases he : r.ending = .exited 0
  · rw [Reply.read_of_success he, Reply.read_of_success (h.ending ▸ he)]
    exact eq_of_eqvGen hf (h.output he)
  · have hread : r.read = r'.read := by
      have he' : r'.ending ≠ .exited 0 := h.ending ▸ he
      rw [read, read, if_neg he, if_neg he', h.complaint he, h.ending]
    rw [hread]

end ReleaseLog.Git
