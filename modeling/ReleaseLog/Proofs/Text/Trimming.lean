import Mathlib.Data.List.DropRight
import ReleaseLog.Text.Blank

/-!
# Trimming

A text has one part that is left when it is trimmed: what stands around it is blank, and it has no
blank at its ends (`trim_eq_iff`).
-/

namespace ReleaseLog

namespace Text

structure Trimmed (t : Text) : Prop where
  head : ∀ c ∈ t.head?, isBlank c = false
  last : ∀ c ∈ t.getLast?, isBlank c = false

theorem trimmed_nil : Trimmed [] := ⟨by simp, by simp⟩

theorem Trimmed.not_allBlank {t : Text} (h : t.Trimmed) (hne : t ≠ []) : t.allBlank = false := by
  obtain ⟨c, t, rfl⟩ := List.exists_cons_of_ne_nil hne
  have hc : isBlank c = false := h.head c rfl
  simp [allBlank, hc]

theorem isBlank_of_allBlank {t : Text} (h : allBlank t = true) : ∀ c ∈ t, isBlank c = true :=
  List.all_eq_true.mp h

theorem trimStart_append {a : Text} (ha : allBlank a = true) (t : Text) :
    trimStart (a ++ t) = trimStart t :=
  List.dropWhile_append_of_pos (isBlank_of_allBlank ha)

theorem trimEnd_append (t : Text) {b : Text} (hb : allBlank b = true) :
    trimEnd (t ++ b) = trimEnd t := by
  have hb' : ∀ c ∈ b.reverse, isBlank c = true :=
    fun c hc => isBlank_of_allBlank hb c (List.mem_reverse.mp hc)
  rw [trimEnd, List.reverse_append, List.dropWhile_append_of_pos hb', trimEnd]

theorem exists_eq_append_trimStart (t : Text) :
    ∃ a, t = a ++ trimStart t ∧ allBlank a = true :=
  ⟨t.takeWhile isBlank, List.takeWhile_append_dropWhile.symm, List.all_takeWhile⟩

theorem exists_eq_trimEnd_append (t : Text) : ∃ b, t = trimEnd t ++ b ∧ allBlank b = true := by
  refine ⟨t.rtakeWhile isBlank, List.rdropWhile_append_rtakeWhile.symm, ?_⟩
  apply List.all_eq_true.mpr
  intro c hc
  exact List.mem_rtakeWhile_imp hc

theorem head_trimStart (t : Text) : ∀ c ∈ (trimStart t).head?, isBlank c = false := by
  intro c hc
  have hnot := List.head?_dropWhile_not isBlank t
  rw [show (t.dropWhile isBlank).head? = some c from hc] at hnot
  simpa using hnot

theorem last_trimEnd (t : Text) : ∀ c ∈ (trimEnd t).getLast?, isBlank c = false := by
  intro c hc
  obtain ⟨hne, rfl⟩ := List.mem_getLast?_eq_getLast hc
  exact Bool.eq_false_iff.mpr (List.rdropWhile_last_not isBlank t hne)

theorem trimEnd_eq_self {t : Text} (h : ∀ c ∈ t.getLast?, isBlank c = false) : trimEnd t = t := by
  apply List.rdropWhile_eq_self_iff.mpr
  intro hne
  simpa using h _ (List.getLast_mem_getLast? hne)

theorem trimStart_eq_self {t : Text} (h : ∀ c ∈ t.head?, isBlank c = false) : trimStart t = t := by
  cases t with
  | nil => rfl
  | cons c t => exact List.dropWhile_cons_of_neg (by simpa using h c rfl)

theorem trimmed_trim (t : Text) : Trimmed (trim t) where
  head := by
    -- The end is cut off last, so it is the head of a beginning of what was left before.
    obtain ⟨b, hb, _⟩ := exists_eq_trimEnd_append (trimStart t)
    intro c hc
    apply head_trimStart t c
    rw [hb]
    exact List.mem_head?_append_of_mem_head? hc
  last := last_trimEnd _

/-- What is left of a text, and that nothing but blanks stood around it. -/
theorem trim_eq_iff {s t : Text} :
    trim s = t ↔ ∃ a b, s = a ++ t ++ b ∧ allBlank a = true ∧ allBlank b = true ∧ Trimmed t := by
  constructor
  · rintro rfl
    obtain ⟨a, ha, hablank⟩ := exists_eq_append_trimStart s
    obtain ⟨b, hb, hbblank⟩ := exists_eq_trimEnd_append (trimStart s)
    refine ⟨a, b, ?_, hablank, hbblank, trimmed_trim s⟩
    rw [trim, List.append_assoc, ← hb, ← ha]
  · rintro ⟨a, b, rfl, ha, hb, ht⟩
    rw [trim, List.append_assoc, trimStart_append ha]
    by_cases hne : t = []
    · rw [hne, List.nil_append, trimStart_of_allBlank hb, trimEnd_nil]
    · have hhead : (t ++ b).head? = t.head? := by
        rw [List.head?_append_of_ne_nil t hne]
      rw [trimStart_eq_self (hhead ▸ ht.head), trimEnd_append t hb, trimEnd_eq_self ht.last]

theorem trim_append_blank (s : Text) {b : Text} (hb : allBlank b = true) :
    trim (s ++ b) = trim s := by
  obtain ⟨lead, gap, hs, hlead, hgap, htrimmed⟩ := trim_eq_iff.mp (Eq.refl (trim s))
  have hblank : allBlank (gap ++ b) = true := by rw [allBlank_append, hgap, hb, Bool.and_self]
  refine trim_eq_iff.mpr ⟨lead, gap ++ b, ?_, hlead, hblank, htrimmed⟩
  conv => lhs; rw [hs]
  rw [List.append_assoc]

theorem infix_trimStart_iff {t s : Text} (ht : ∀ c ∈ t.head?, isBlank c = false) :
    t <:+: trimStart s ↔ t <:+: s := by
  induction s with
  | nil => rfl
  | cons c s ih =>
    cases hc : isBlank c with
    | false =>
      have hself : trimStart (c :: s) = c :: s := trimStart_eq_self (by simp [hc])
      rw [hself]
    | true =>
      have hdrop : trimStart (c :: s) = trimStart s := List.dropWhile_cons_of_pos hc
      rw [hdrop, ih, List.infix_cons_iff, iff_or_self]
      rintro ⟨r, hr⟩
      -- A text that begins with the blank is the empty one.
      cases t with
      | nil => exact List.nil_infix
      | cons d t =>
        obtain ⟨rfl, _⟩ := List.cons_eq_cons.mp hr
        have hd := ht d rfl
        rw [hc] at hd
        cases hd

theorem infix_trimEnd_iff {t s : Text} (ht : ∀ c ∈ t.getLast?, isBlank c = false) :
    t <:+: trimEnd s ↔ t <:+: s := by
  have hhead : ∀ c ∈ t.reverse.head?, isBlank c = false := by simpa using ht
  rw [← List.reverse_infix, trimEnd, List.reverse_reverse]
  exact (infix_trimStart_iff hhead).trans List.reverse_infix

/-- Trimming takes nothing away of what has no blank at its ends. -/
theorem infix_trim_iff {t s : Text} (ht : t.Trimmed) : t <:+: trim s ↔ t <:+: s :=
  (infix_trimEnd_iff ht.last).trans (infix_trimStart_iff ht.head)

end Text

end ReleaseLog
