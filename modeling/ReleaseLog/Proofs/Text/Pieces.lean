import Mathlib.Data.List.Infix
import Mathlib.Logic.Function.Iterate
import ReleaseLog.Text.Occurrence

/-!
# Pieces between occurrences

A pattern whose first letter does not come back in it cannot overlap itself, so a list falls into
pieces at all its occurrences in one way (`existsUnique_pieces`). To replace the first occurrence by
letters that are not in the pattern is to join the first two pieces, and no new occurrence comes of
it (`Pieces.replaceFirst`).
-/

namespace ReleaseLog.Occurrence

variable {α : Type}

/-- The pieces of a list between the occurrences of a pattern, which stands in none of them. -/
inductive Pieces (pattern : List α) : List α → List (List α) → Prop
  | last {s : List α} (hs : ¬ pattern <:+: s) : Pieces pattern s [s]
  | cut {before after : List α} {ps : List (List α)} (hb : ¬ pattern <:+: before)
    (h : Pieces pattern after ps) : Pieces pattern (before ++ pattern ++ after) (before :: ps)

namespace Pieces

variable {pattern s : List α} {ps : List (List α)}

theorem ne_nil (h : Pieces pattern s ps) : ps ≠ [] := by
  cases h <;> simp

theorem joined (h : Pieces pattern s ps) : pattern.intercalate ps = s := by
  induction h with
  | last hs => simp
  | cut hb h ih =>
    obtain ⟨q, qs, rfl⟩ := List.exists_cons_of_ne_nil h.ne_nil
    rw [List.intercalate_cons_cons, ih, List.append_assoc]

theorem not_infix_of_mem (h : Pieces pattern s ps) : ∀ q ∈ ps, ¬ pattern <:+: q := by
  induction h with
  | last hs => simpa using hs
  | cut hb h ih => exact List.forall_mem_cons.mpr ⟨hb, ih⟩

theorem of_intercalate (hne : ps ≠ []) (hfree : ∀ q ∈ ps, ¬ pattern <:+: q) :
    Pieces pattern (pattern.intercalate ps) ps := by
  induction ps with
  | nil => exact absurd rfl hne
  | cons q ps ih =>
    obtain ⟨hq, hps⟩ := List.forall_mem_cons.mp hfree
    cases ps with
    | nil =>
      rw [List.intercalate_singleton]
      exact .last hq
    | cons t ps =>
      rw [List.intercalate_cons_cons]
      exact .cut hq (ih (by simp) hps)

/-- A first piece that grows at the front without coming to hold the pattern stays one piece. -/
theorem append_left {q : List α} {qs : List (List α)} (h : Pieces pattern s (q :: qs))
    {l : List α} (hl : ¬ pattern <:+: q → ¬ pattern <:+: l ++ q) :
    Pieces pattern (l ++ s) ((l ++ q) :: qs) := by
  cases h with
  | last hs => exact .last (hl hs)
  | cut hb h =>
    rw [← List.append_assoc, ← List.append_assoc]
    exact .cut (hl hb) h

end Pieces

/-! ## Where an occurrence can be -/

section Letters

variable {l r pattern : List α} {c : α}

theorem prefix_of_prefix_append_cons (hc : c ∉ pattern) (h : pattern <+: l ++ c :: r) :
    pattern <+: l := by
  rcases List.prefix_or_prefix_of_prefix h (List.prefix_append l (c :: r)) with hl | ⟨m, rfl⟩
  · exact hl
  · rw [List.prefix_append_right_inj] at h
    cases m with
    | nil => simp
    | cons b m =>
      obtain ⟨rfl, _⟩ := List.cons_prefix_cons.mp h
      exact absurd (List.mem_append_right l List.mem_cons_self) hc

/-- No occurrence reaches over a letter that is not in the pattern. -/
theorem infix_append_cons_iff (hc : c ∉ pattern) (hne : pattern ≠ []) :
    pattern <:+: l ++ c :: r ↔ pattern <:+: l ∨ pattern <:+: r := by
  induction l with
  | nil =>
    have hbegins : ¬ pattern <+: c :: r := by
      intro h
      exact hne (List.prefix_nil.mp (prefix_of_prefix_append_cons (l := []) hc h))
    rw [List.nil_append, List.infix_cons_iff, List.infix_nil]
    simp only [hbegins, hne, false_or]
  | cons b l ih =>
    have hbegins : pattern <+: b :: l ++ c :: r ↔ pattern <+: b :: l :=
      ⟨prefix_of_prefix_append_cons hc, fun h => h.trans (List.prefix_append _ _)⟩
    rw [List.cons_append] at hbegins ⊢
    rw [List.infix_cons_iff, List.infix_cons_iff, hbegins, ih, or_assoc]

/-- Letters that are not in the pattern make no occurrence between two parts without one. -/
theorem not_infix_append_append {replacement : List α} (hne : replacement ≠ [])
    (hd : ∀ c ∈ replacement, c ∉ pattern) (hl : ¬ pattern <:+: l) (hr : ¬ pattern <:+: r) :
    ¬ pattern <:+: l ++ replacement ++ r := by
  have hpattern : pattern ≠ [] := fun h => hl (h ▸ List.nil_infix)
  induction replacement generalizing l with
  | nil => exact absurd rfl hne
  | cons c cs ih =>
    have hcs : ∀ c ∈ cs, c ∉ pattern := fun c' hc' => hd c' (List.mem_cons_of_mem c hc')
    rw [List.append_assoc, List.cons_append,
      infix_append_cons_iff (hd c List.mem_cons_self) hpattern]
    rintro (h | h)
    · exact hl h
    · cases cs with
      | nil => exact hr h
      | cons d ds =>
        have hnil : ¬ pattern <:+: ([] : List α) := fun h => hpattern (List.infix_nil.mp h)
        exact ih (by simp) hcs hnil h

theorem not_prefix_append_cons {a b : α} {p before : List α} (ha : a ∉ p)
    (hb : ¬ a :: p <:+: b :: before) : ¬ a :: p <+: b :: (before ++ a :: r) := by
  intro h
  obtain ⟨rfl, hp⟩ := List.cons_prefix_cons.mp h
  have hbefore := prefix_of_prefix_append_cons ha hp
  exact hb (List.cons_prefix_cons.mpr ⟨rfl, hbefore⟩).isInfix

end Letters

/-! ## All occurrences -/

variable [BEq α] [LawfulBEq α]

section Count

def count (pattern s : List α) : Nat := s.tails.countP pattern.isPrefixOf

variable {pattern s : List α}

theorem count_cons_of_begins {b : α} (h : pattern <+: b :: s) :
    count pattern (b :: s) = count pattern s + 1 := by
  rw [count, List.tails_cons, List.countP_cons_of_pos (List.isPrefixOf_iff_prefix.mpr h), count]

theorem count_cons_of_not_begins {b : α} (h : ¬ pattern <+: b :: s) :
    count pattern (b :: s) = count pattern s := by
  rw [count, List.tails_cons, List.countP_cons_of_neg (mt List.isPrefixOf_iff_prefix.mp h), count]

theorem count_eq_zero_iff : count pattern s = 0 ↔ ¬ pattern <:+: s := by
  simp only [count, List.countP_eq_zero, List.mem_tails, List.isPrefixOf_iff_prefix,
    List.infix_iff_prefix_suffix, not_exists, not_and]
  exact ⟨fun h t hp hs => h t hs hp, fun h t hs hp => h t hp hs⟩

theorem contains_iff_count_pos : contains pattern s = true ↔ 0 < count pattern s := by
  rw [contains_iff, Nat.pos_iff_ne_zero, ne_eq, count_eq_zero_iff, Classical.not_not]

end Count

section Headed

variable {a : α} {p : List α} (ha : a ∉ p)

theorem count_append_of_not_mem {l : List α} (hl : a ∉ l) (r : List α) :
    count (a :: p) (l ++ r) = count (a :: p) r := by
  induction l with
  | nil => rfl
  | cons b l ih =>
    have hb : a ≠ b := fun h => hl (h ▸ List.mem_cons_self)
    have hbegins : ¬ a :: p <+: b :: (l ++ r) := fun h => hb (List.cons_prefix_cons.mp h).1
    rw [List.cons_append, count_cons_of_not_begins hbegins,
      ih fun h => hl (List.mem_cons_of_mem b h)]

include ha

theorem cut?_append {before : List α} (hb : ¬ a :: p <:+: before) (after : List α) :
    cut? (a :: p) (before ++ (a :: p) ++ after) = some (before, after) := by
  induction before with
  | nil => simp [cut?]
  | cons b before ih =>
    have hbegins := not_prefix_append_cons ha hb (r := p ++ after)
    have hnot : (a :: p).isPrefixOf (b :: (before ++ a :: (p ++ after))) = false :=
      Bool.eq_false_iff.mpr (mt List.isPrefixOf_iff_prefix.mp hbegins)
    have ih := ih fun h => hb (List.infix_cons h)
    simp only [List.append_assoc, List.cons_append] at ih ⊢
    rw [cut?, hnot, ih]
    rfl

theorem count_append {before : List α} (hb : ¬ a :: p <:+: before) (after : List α) :
    count (a :: p) (before ++ (a :: p) ++ after) = count (a :: p) after + 1 := by
  induction before with
  | nil =>
    have hbegins : a :: p <+: a :: (p ++ after) := List.prefix_append (a :: p) after
    rw [List.nil_append, List.cons_append, count_cons_of_begins hbegins,
      count_append_of_not_mem ha]
  | cons b before ih =>
    have hbegins := not_prefix_append_cons ha hb (r := p ++ after)
    have ih := ih fun h => hb (List.infix_cons h)
    simp only [List.append_assoc, List.cons_append] at ih ⊢
    rw [count_cons_of_not_begins hbegins, ih]

theorem Pieces.length_eq {s : List α} {ps : List (List α)} (h : Pieces (a :: p) s ps) :
    ps.length = count (a :: p) s + 1 := by
  induction h with
  | last hs =>
    rw [count_eq_zero_iff.mpr hs]
    rfl
  | cut hb h ih => rw [count_append ha hb, List.length_cons, ih]

theorem Pieces.unique {s : List α} {ps ps' : List (List α)} (h : Pieces (a :: p) s ps)
    (h' : Pieces (a :: p) s ps') : ps = ps' := by
  induction h generalizing ps' with
  | last hs =>
    cases h' with
    | last _ => rfl
    | @cut before after _ _ _ => exact absurd ⟨before, after, rfl⟩ hs
  | @cut before after ps hb h ih =>
    generalize hs : before ++ a :: p ++ after = s at h'
    cases h' with
    | last hs' => exact absurd ⟨before, after, hs⟩ hs'
    | @cut before' after' ps' hb' h' =>
      -- Both lists of pieces begin with what stands before the first occurrence.
      have hcut := cut?_append ha hb after
      rw [hs, cut?_append ha hb' after'] at hcut
      obtain ⟨rfl, rfl⟩ := Prod.mk.inj (Option.some.inj hcut)
      rw [ih h']

/-- A list falls into pieces at all occurrences of a pattern, and in one way only. -/
theorem existsUnique_pieces (s : List α) : ∃! ps, Pieces (a :: p) s ps := by
  induction hn : s.length using Nat.strongRecOn generalizing s with
  | ind n ih =>
    cases hc : cut? (a :: p) s with
    | none =>
      have hlast : Pieces (a :: p) s [s] := .last (cut?_eq_none_iff.mp hc)
      exact ⟨[s], hlast, fun ps' h' => h'.unique ha hlast⟩
    | some parts =>
      obtain ⟨before, after⟩ := parts
      have hs := eq_append_of_cut? hc
      have hb := not_infix_of_cut? (List.cons_ne_nil a p) hc
      have hlt : after.length < n := by
        rw [← hn, hs]
        simp only [List.length_append, List.length_cons]
        omega
      obtain ⟨ps, hps, _⟩ := ih after.length hlt after rfl
      have hcut : Pieces (a :: p) s (before :: ps) := hs ▸ .cut hb hps
      exact ⟨before :: ps, hcut, fun ps' h' => h'.unique ha hcut⟩

end Headed

/-! ## Replacing the first occurrence -/

def joinFirst (replacement : List α) : List (List α) → List (List α)
  | s :: t :: ps => (s ++ replacement ++ t) :: ps
  | ps => ps

omit [BEq α] [LawfulBEq α] in
/-- To join the first two pieces over and over joins the first ones of the list. -/
theorem iterate_joinFirst (replacement : List α) (n : Nat) {ps : List (List α)} (h : ps ≠ []) :
    (joinFirst replacement)^[n] ps =
      replacement.intercalate (ps.take (n + 1)) :: ps.drop (n + 1) := by
  induction n generalizing ps with
  | zero =>
    obtain ⟨q, qs, rfl⟩ := List.exists_cons_of_ne_nil h
    simp
  | succ n ih =>
    rw [Function.iterate_succ_apply]
    match ps with
    | [] => exact absurd rfl h
    | [q] =>
      have hone : joinFirst replacement [q] = [q] := rfl
      rw [hone, ih (by simp)]
      simp
    | q :: t :: qs =>
      rw [joinFirst, ih (by simp)]
      cases hqs : qs.take n <;> simp [hqs, List.intercalate_cons_cons]

section Replacement

variable {a : α} {p replacement s : List α} {ps : List (List α)} (ha : a ∉ p)
  (hne : replacement ≠ []) (hd : ∀ c ∈ replacement, c ∉ a :: p)

include ha hne hd

/-- The first occurrence gives way to letters that are not in the pattern: the pieces around it
become one, and nothing else changes. -/
theorem Pieces.replaceFirst (h : Pieces (a :: p) s ps) :
    Pieces (a :: p) (Occurrence.replaceFirst (a :: p) replacement s)
      (joinFirst replacement ps) := by
  cases h with
  | last hs =>
    have hcontains : contains (a :: p) s = false := Bool.eq_false_iff.mpr (mt contains_iff.mp hs)
    rw [replaceFirst_of_not_contains hcontains]
    exact .last hs
  | @cut before after ps hb h =>
    obtain ⟨q, qs, rfl⟩ := List.exists_cons_of_ne_nil h.ne_nil
    rw [replaceFirst_of_cut? (cut?_append ha hb after)]
    exact h.append_left (not_infix_append_append hne hd hb)

theorem Pieces.iterate_replaceFirst (h : Pieces (a :: p) s ps) (n : Nat) :
    Pieces (a :: p) ((Occurrence.replaceFirst (a :: p) replacement)^[n] s)
      (replacement.intercalate (ps.take (n + 1)) :: ps.drop (n + 1)) := by
  rw [← iterate_joinFirst replacement n h.ne_nil]
  induction n with
  | zero => exact h
  | succ n ih =>
    rw [Function.iterate_succ_apply', Function.iterate_succ_apply']
    exact ih.replaceFirst ha hne hd

/-- Every replacement takes one occurrence away, as long as there is one. -/
theorem count_iterate_replaceFirst (n : Nat) :
    count (a :: p) ((Occurrence.replaceFirst (a :: p) replacement)^[n] s) =
      count (a :: p) s - n := by
  obtain ⟨ps, h, _⟩ := existsUnique_pieces ha s
  have hlength := (h.iterate_replaceFirst ha hne hd n).length_eq ha
  rw [List.length_cons, List.length_drop, h.length_eq ha] at hlength
  omega

end Replacement

end ReleaseLog.Occurrence
