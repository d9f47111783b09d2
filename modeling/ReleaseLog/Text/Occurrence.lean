/-!
# First occurrences

A list is cut at the first occurrence of a pattern. `contains` and `replaceFirst` are read off the
cut, so that both speak of the same occurrence.
-/

namespace ReleaseLog.Occurrence

variable {α : Type} [BEq α]

/-- What stands before and after the first occurrence of `pattern`. -/
def cut? (pattern : List α) : List α → Option (List α × List α)
  | [] => if pattern.isEmpty then some ([], []) else none
  | a :: r =>
    if pattern.isPrefixOf (a :: r) then some ([], (a :: r).drop pattern.length)
    else (cut? pattern r).map fun (before, after) => (a :: before, after)

/-- Whether `pattern` occurs, all in one piece. -/
def contains (pattern s : List α) : Bool := (cut? pattern s).isSome

/-- The first occurrence of `pattern` replaced; without one the list stays as it is. -/
def replaceFirst (pattern replacement s : List α) : List α :=
  match cut? pattern s with
  | some (before, after) => before ++ replacement ++ after
  | none => s

theorem replaceFirst_of_cut? {pattern s before after : List α}
    (h : cut? pattern s = some (before, after)) (replacement : List α) :
    replaceFirst pattern replacement s = before ++ replacement ++ after := by
  simp [replaceFirst, h]

theorem replaceFirst_of_not_contains {pattern s : List α} (h : contains pattern s = false)
    (replacement : List α) : replaceFirst pattern replacement s = s := by
  simp [replaceFirst, Option.not_isSome_iff_eq_none.mp (by simpa [contains] using h)]

variable [LawfulBEq α]

theorem eq_append_of_cut? {pattern s before after : List α}
    (h : cut? pattern s = some (before, after)) : s = before ++ pattern ++ after := by
  induction s generalizing before after with
  | nil =>
    simp only [cut?] at h
    split at h <;> simp_all
  | cons a r ih =>
    simp only [cut?] at h
    split at h
    · next hp =>
      obtain ⟨rest, hr⟩ := List.isPrefixOf_iff_prefix.mp hp
      simp only [Option.some.injEq, Prod.mk.injEq] at h
      obtain ⟨rfl, rfl⟩ := h
      simp [← hr]
    · obtain ⟨⟨b, c⟩, hc, he⟩ := Option.map_eq_some_iff.mp h
      simp only [Prod.mk.injEq] at he
      obtain ⟨rfl, rfl⟩ := he
      simp [ih hc]

/-- The cut is made at the first occurrence: there is none before it. -/
theorem not_infix_of_cut? {pattern s before after : List α} (hne : pattern ≠ [])
    (h : cut? pattern s = some (before, after)) : ¬ pattern <:+: before := by
  have hnil : ¬ pattern <:+: [] := fun hi => hne (List.infix_nil.mp hi)
  induction s generalizing before after with
  | nil => simp [cut?, hne] at h
  | cons a r ih =>
    simp only [cut?] at h
    split at h
    · obtain ⟨rfl, _⟩ := Prod.mk.inj (Option.some.inj h)
      exact hnil
    · next hp =>
      obtain ⟨⟨b, c⟩, hc, he⟩ := Option.map_eq_some_iff.mp h
      obtain ⟨rfl, rfl⟩ := Prod.mk.inj he
      rw [List.infix_cons_iff]
      rintro (hbegins | hinfix)
      · apply hp
        rw [eq_append_of_cut? hc, List.append_assoc, List.isPrefixOf_iff_prefix]
        exact hbegins.trans (List.prefix_append (a :: b) _)
      · exact ih hc hinfix

theorem mem_of_mem_replaceFirst {pattern replacement s : List α} {a : α}
    (h : a ∈ replaceFirst pattern replacement s) : a ∈ s ∨ a ∈ replacement := by
  unfold replaceFirst at h
  cases hc : cut? pattern s with
  | none =>
    rw [hc] at h
    exact .inl h
  | some parts =>
    obtain ⟨before, after⟩ := parts
    rw [hc] at h
    rw [eq_append_of_cut? hc]
    simp only [List.mem_append] at h ⊢
    rcases h with (h | h) | h
    · exact .inl (.inl (.inl h))
    · exact .inr h
    · exact .inl (.inr h)

theorem cut?_eq_none_iff {pattern s : List α} : cut? pattern s = none ↔ ¬ pattern <:+: s := by
  induction s with
  | nil => simp [cut?]
  | cons a r ih =>
    rw [cut?, List.infix_cons_iff]
    split
    · next hp => simp [List.isPrefixOf_iff_prefix.mp hp]
    · next hp => simp [ih, mt List.isPrefixOf_iff_prefix.mpr hp]

theorem contains_iff {pattern s : List α} : contains pattern s = true ↔ pattern <:+: s := by
  rw [contains, Option.isSome_iff_ne_none, ne_eq, cut?_eq_none_iff, Classical.not_not]

end ReleaseLog.Occurrence
