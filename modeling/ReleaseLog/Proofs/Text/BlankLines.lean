import Mathlib.Data.List.TakeWhile
import ReleaseLog.Proofs.Text.ByteLines
import ReleaseLog.Text.Blank

/-!
# Blank lines

Bytes that end where a line does can be read apart from what follows them (`lines_ofUtf8_append`).
A text is made of blanks if its lines are, since the ends of lines are blanks too
(`allBlank_iff_lines`).
-/

namespace ReleaseLog

namespace Text

/-- Bytes that end where a line does: there are none, or a line feed is the last. -/
def IsWhole (bs : List UInt8) : Prop := bs = [] ∨ bs.getLast? = some 0x0A

instance (bs : List UInt8) : Decidable (IsWhole bs) :=
  inferInstanceAs (Decidable (bs = [] ∨ bs.getLast? = some 0x0A))

theorem lines_append_newline (t u : Text) :
    lines (t ++ '\n' :: u) = lines (t ++ ['\n']) ++ lines u := by
  induction t using cut_induction '\n' with
  | last l hl => rw [lines_append_feed hl, lines_append_feed hl, lines_nil, List.singleton_append]
  | cut l r hl ih =>
    rw [List.append_assoc, List.append_assoc, List.cons_append, List.cons_append,
      lines_append_feed hl, lines_append_feed hl, ih, List.cons_append]

theorem lines_ofUtf8_append {a : List UInt8} (ha : IsWhole a) (b : List UInt8) :
    (ofUtf8 (a ++ b)).lines = (ofUtf8 a).lines ++ (ofUtf8 b).lines := by
  rcases ha with rfl | ha
  · rfl
  · obtain ⟨l, rfl⟩ := List.getLast?_eq_some_iff.mp ha
    have hfeed : ∀ r, ofUtf8 (l ++ 0x0A :: r) = ofUtf8 l ++ '\n' :: ofUtf8 r :=
      ofUtf8_append_ascii l (by decide)
    rw [List.append_assoc, List.singleton_append, hfeed, hfeed, ofUtf8_nil, lines_append_newline]

theorem allBlank_dropReturn (t : Text) : allBlank (dropReturn '\r' t) = allBlank t := by
  by_cases h : t.getLast? = some '\r'
  · obtain ⟨u, rfl⟩ := List.getLast?_eq_some_iff.mp h
    have hreturn : allBlank ['\r'] = true := by decide
    rw [dropReturn_append_singleton, if_pos rfl, allBlank_append, hreturn, Bool.and_true]
  · rw [dropReturn, if_neg h]

theorem allBlank_iff_lines (t : Text) : allBlank t = true ↔ ∀ l ∈ t.lines, allBlank l = true := by
  induction t using cut_induction '\n' with
  | last l hl =>
    by_cases hne : l = []
    · rw [hne]
      exact iff_of_true rfl (by simp)
    · rw [lines_of_not_mem hl hne]
      simp
  | cut l r hl ih =>
    have hcut : allBlank (l ++ '\n' :: r) = (allBlank l && allBlank r) := allBlank_append l _
    rw [hcut, lines_append_feed hl, List.forall_mem_cons, allBlank_dropReturn, Bool.and_eq_true,
      ih]

theorem trim_eq_nil_iff {t : Text} : trim t = [] ↔ allBlank t = true := by
  constructor
  · intro h
    have hend : ∀ c ∈ trimStart t, isBlank c = true := by
      intro c hc
      have hdrop := List.reverse_eq_nil_iff.mp h
      exact List.dropWhile_eq_nil_iff.mp hdrop c (List.mem_reverse.mpr hc)
    apply List.all_eq_true.mpr
    intro c hc
    rw [← List.takeWhile_append_dropWhile (p := isBlank) (l := t)] at hc
    rcases List.mem_append.mp hc with hc | hc
    · exact List.all_eq_true.mp List.all_takeWhile c hc
    · exact hend c hc
  · exact trim_of_allBlank

theorem trim_ne_nil {t : Text} (h : allBlank t = false) : trim t ≠ [] :=
  mt trim_eq_nil_iff.mp (Bool.eq_false_iff.mp h)

end Text

end ReleaseLog
