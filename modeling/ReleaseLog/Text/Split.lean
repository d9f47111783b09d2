/-!
# Pieces

A list is split at every occurrence of a separator. There is always one more piece than
separators, and the pieces joined by the separator are the list again.
-/

namespace ReleaseLog

variable {α : Type} [DecidableEq α]

def pieces (separator : α) : List α → List (List α)
  | [] => [[]]
  | a :: r =>
    if a = separator then [] :: pieces separator r
    else
      match pieces separator r with
      | [] => [[a]]
      | p :: ps => (a :: p) :: ps

theorem pieces_ne_nil (separator : α) (s : List α) : pieces separator s ≠ [] := by
  cases s with
  | nil => simp [pieces]
  | cons a r =>
    rw [pieces]
    split
    · simp
    · split <;> simp

theorem intercalate_pieces (separator : α) (s : List α) :
    List.intercalate [separator] (pieces separator s) = s := by
  induction s with
  | nil => simp [pieces]
  | cons a r ih =>
    rw [pieces]
    obtain ⟨p, ps, hp⟩ := List.exists_cons_of_ne_nil (pieces_ne_nil separator r)
    rw [hp] at ih ⊢
    split
    · next h => rw [List.intercalate_cons_cons, ih, h]; rfl
    · cases ps with
      | nil => simp_all
      | cons q qs => simp_all [List.intercalate_cons_cons]

theorem not_mem_of_mem_pieces {separator : α} {s p : List α} (h : p ∈ pieces separator s) :
    separator ∉ p := by
  induction s generalizing p with
  | nil => simp_all [pieces]
  | cons a r ih =>
    obtain ⟨q, qs, hq⟩ := List.exists_cons_of_ne_nil (pieces_ne_nil separator r)
    rw [pieces, hq] at h
    split at h
    · rcases List.mem_cons.mp h with rfl | h
      · simp
      · exact ih (hq ▸ h)
    · next ha =>
      rcases List.mem_cons.mp h with rfl | h
      · have hs := ih (p := q) (by simp [hq])
        exact List.not_mem_cons_of_ne_of_not_mem (fun e => ha e.symm) hs
      · exact ih (by simp [hq, h])

theorem pieces_of_not_mem {separator : α} {s : List α} (h : separator ∉ s) :
    pieces separator s = [s] := by
  induction s with
  | nil => rfl
  | cons a r ih =>
    have ha : a ≠ separator := fun e => h (e ▸ List.mem_cons_self)
    have hr : separator ∉ r := fun hm => h (List.mem_cons_of_mem a hm)
    rw [pieces, if_neg ha, ih hr]

theorem pieces_append_cons {separator : α} {s : List α} (h : separator ∉ s) (r : List α) :
    pieces separator (s ++ separator :: r) = s :: pieces separator r := by
  induction s with
  | nil => rw [List.nil_append, pieces, if_pos rfl]
  | cons a s ih =>
    have ha : a ≠ separator := fun e => h (e ▸ List.mem_cons_self)
    have hs : separator ∉ s := fun hm => h (List.mem_cons_of_mem a hm)
    rw [List.cons_append, pieces, if_neg ha, ih hs]

/-- A list either is free of the separator or is cut at its first occurrence. -/
@[elab_as_elim]
theorem cut_induction (separator : α) {P : List α → Prop}
    (last : ∀ l, separator ∉ l → P l)
    (cut : ∀ l r, separator ∉ l → P r → P (l ++ separator :: r)) (s : List α) : P s := by
  induction hn : s.length using Nat.strongRecOn generalizing s with
  | ind n ih =>
    by_cases h : separator ∈ s
    · obtain ⟨l, r, rfl, hl⟩ := List.eq_append_cons_of_mem h
      have hlt : r.length < n := by
        rw [← hn, List.length_append, List.length_cons]
        omega
      exact cut l r hl (ih r.length hlt r rfl)
    · exact last s h

/-- A separator parts the pieces before it from those after it. -/
theorem pieces_append_separator (separator : α) (s r : List α) :
    pieces separator (s ++ separator :: r) = pieces separator s ++ pieces separator r := by
  induction s using cut_induction separator with
  | last l hl => rw [pieces_append_cons hl, pieces_of_not_mem hl, List.singleton_append]
  | cut l k hl ih =>
    rw [List.append_assoc, List.cons_append, pieces_append_cons hl, pieces_append_cons hl, ih,
      List.cons_append]

end ReleaseLog
