import ReleaseLog.Proofs.Text.Ascii
import ReleaseLog.Text.Lines
import ReleaseLog.Text.Split

/-!
# Lines of bytes

Bytes can be cut into lines before or after they are decoded (`map_ofUtf8_feedLines`). Only what
follows the last line feed is seen differently: a text has no line there when nothing is left.
-/

namespace ReleaseLog

namespace Text

section Lines

variable {α : Type} [DecidableEq α]

def dropReturn (ret : α) (l : List α) : List α := if l.getLast? = some ret then l.dropLast else l

/-- Every line but the last one was ended by a line feed, which takes a carriage return along. -/
def dropReturns (ret : α) : List (List α) → List (List α)
  | [] => []
  | [l] => [l]
  | l :: k :: ls => dropReturn ret l :: dropReturns ret (k :: ls)

/-- What stands between line feeds, without the carriage returns directly before them. -/
def feedLines (feed ret : α) (s : List α) : List (List α) := dropReturns ret (pieces feed s)

theorem feedLines_of_not_mem {feed : α} {s : List α} (h : feed ∉ s) (ret : α) :
    feedLines feed ret s = [s] := by
  rw [feedLines, pieces_of_not_mem h, dropReturns]

theorem feedLines_append_cons {feed : α} {l : List α} (h : feed ∉ l) (ret : α) (r : List α) :
    feedLines feed ret (l ++ feed :: r) = dropReturn ret l :: feedLines feed ret r := by
  obtain ⟨k, ls, hk⟩ := List.exists_cons_of_ne_nil (pieces_ne_nil feed r)
  rw [feedLines, feedLines, pieces_append_cons h, hk, dropReturns]

theorem mem_of_mem_dropReturn {ret a : α} {l : List α} (h : a ∈ dropReturn ret l) : a ∈ l := by
  rw [dropReturn] at h
  split at h
  · exact (List.dropLast_sublist l).mem h
  · exact h

theorem dropReturn_append_singleton (ret a : α) (l : List α) :
    dropReturn ret (l ++ [a]) = if a = ret then l else l ++ [a] := by
  simp only [dropReturn, List.getLast?_concat, Option.some.injEq, List.dropLast_concat]

end Lines

def byteLines (bs : List UInt8) : List (List UInt8) := feedLines 0x0A 0x0D bs

theorem ofUtf8_dropReturn (l : List UInt8) :
    ofUtf8 (dropReturn 0x0D l) = dropReturn '\r' (ofUtf8 l) := by
  by_cases h : l.getLast? = some 0x0D
  · obtain ⟨k, rfl⟩ := List.getLast?_eq_some_iff.mp h
    have hk : ofUtf8 (k ++ [0x0D]) = ofUtf8 k ++ ['\r'] := ofUtf8_append_ascii k (by decide) []
    rw [hk, dropReturn_append_singleton, dropReturn_append_singleton, if_pos rfl, if_pos rfl]
  · have hne : ¬ (ofUtf8 l).getLast? = some '\r' := by
      intro hlast
      obtain ⟨u, hu⟩ := List.getLast?_eq_some_iff.mp hlast
      have hret : ∀ c ∈ ['\r'], c.toNat ≤ 0x7F := List.forall_mem_singleton.mpr (by decide)
      obtain ⟨k, rfl, _⟩ := (ofUtf8_eq_append_iff hret).mp hu
      exact h List.getLast?_concat
    rw [dropReturn, dropReturn, if_neg h, if_neg hne]

theorem map_ofUtf8_byteLines (bs : List UInt8) :
    (byteLines bs).map ofUtf8 = feedLines '\n' '\r' (ofUtf8 bs) := by
  have hfeed : ∀ {l : List UInt8}, 0x0A ∉ l → '\n' ∉ ofUtf8 l := by
    intro l hl hmem
    exact hl ((mem_ofUtf8_iff (by decide)).mp hmem)
  unfold byteLines
  induction bs using cut_induction (0x0A : UInt8) with
  | last l hl => rw [feedLines_of_not_mem hl, feedLines_of_not_mem (hfeed hl), List.map_singleton]
  | cut l r hl ih =>
    have hcut : ofUtf8 (l ++ 0x0A :: r) = ofUtf8 l ++ '\n' :: ofUtf8 r :=
      ofUtf8_append_ascii l (by decide) r
    rw [hcut, feedLines_append_cons hl, feedLines_append_cons (hfeed hl), List.map_cons,
      ofUtf8_dropReturn, ih]

theorem dropReturn_cons {c : Char} {l : Text} (hl : l ≠ []) :
    dropReturn '\r' (c :: l) = c :: dropReturn '\r' l := by
  obtain ⟨k, a, rfl⟩ : ∃ k a, l = k ++ [a] :=
    ⟨l.dropLast, l.getLast hl, (List.dropLast_concat_getLast hl).symm⟩
  rw [← List.cons_append, dropReturn_append_singleton, dropReturn_append_singleton]
  split <;> rfl

theorem lines_cons_of_ne {c : Char} {r l : Text} {ls : List Text} (hc : c ≠ '\n')
    (hret : ∀ k, c :: r ≠ '\r' :: '\n' :: k) (hr : lines r = l :: ls) :
    lines (c :: r) = (c :: l) :: ls := by
  rw [lines, hr]
  · exact hc
  · intro k hcr hk
    exact hret k (by rw [hcr, hk])

theorem lines_append_feed {l : Text} (hl : '\n' ∉ l) (r : Text) :
    lines (l ++ '\n' :: r) = dropReturn '\r' l :: lines r := by
  induction l with
  | nil => exact lines_feed r
  | cons c l ih =>
    have hc : c ≠ '\n' := fun e => hl (e ▸ List.mem_cons_self)
    have hl' : '\n' ∉ l := fun hm => hl (List.mem_cons_of_mem c hm)
    cases l with
    | nil =>
      by_cases hret : c = '\r'
      · rw [hret]
        exact lines_return_feed r
      · have hdrop : dropReturn '\r' [c] = [c] := by simp [dropReturn, hret]
        rw [hdrop]
        exact lines_cons_of_ne hc (by simp [hret]) (lines_feed r)
    | cons d l =>
      have hd : d ≠ '\n' := fun e => hl' (e ▸ List.mem_cons_self)
      rw [dropReturn_cons (by simp)]
      exact lines_cons_of_ne hc (by simp [hd]) (ih hl')

theorem lines_of_not_mem {l : Text} (hl : '\n' ∉ l) (hne : l ≠ []) : lines l = [l] := by
  induction l with
  | nil => exact absurd rfl hne
  | cons c l ih =>
    have hc : c ≠ '\n' := fun e => hl (e ▸ List.mem_cons_self)
    have hl' : '\n' ∉ l := fun hm => hl (List.mem_cons_of_mem c hm)
    cases l with
    | nil =>
      rw [lines]
      · rfl
      · exact hc
      · intro k _ hk
        cases hk
    | cons d l =>
      have hd : d ≠ '\n' := fun e => hl' (e ▸ List.mem_cons_self)
      exact lines_cons_of_ne hc (by simp [hd]) (ih hl' (by simp))

theorem newline_not_mem_of_mem_lines {t l : Text} (h : l ∈ t.lines) : '\n' ∉ l := by
  induction t using cut_induction '\n' with
  | last k hk =>
    by_cases hne : k = []
    · rw [hne] at h
      cases h
    · rw [lines_of_not_mem hk hne, List.mem_singleton] at h
      rw [h]
      exact hk
  | cut k r hk ih =>
    rw [lines_append_feed hk] at h
    rcases List.mem_cons.mp h with rfl | h
    · exact mt mem_of_mem_dropReturn hk
    · exact ih h

/-- If nothing is made of an empty line, the lines of a text are those between its feeds. -/
theorem filterMap_lines {β : Type} {f : Text → Option β} (hf : f [] = none) (t : Text) :
    t.lines.filterMap f = (feedLines '\n' '\r' t).filterMap f := by
  induction t using cut_induction '\n' with
  | last l hl =>
    rw [feedLines_of_not_mem hl]
    by_cases hne : l = []
    · rw [hne, lines_nil, List.filterMap_nil, List.filterMap_cons_none hf, List.filterMap_nil]
    · rw [lines_of_not_mem hl hne]
  | cut l r hl ih =>
    rw [lines_append_feed hl, feedLines_append_cons hl, List.filterMap_cons,
      List.filterMap_cons, ih]

end Text

end ReleaseLog
