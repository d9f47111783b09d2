import ReleaseLog.Text.Blank

/-!
# References

The subject of a merged commit ends in a marker, `(#` and the number of the pull request and `)`.
The marker has to be the very end of the subject. The title is what stands before the last blank,
trimmed; so a marker glued to a word takes the word with it.
-/

namespace ReleaseLog

/-- The pull request that a subject refers to. The number is kept as it is written. -/
structure Reference where
  title : Text
  number : Text
  deriving DecidableEq

namespace Reference

def marker (number : Text) : Text := '(' :: '#' :: (number ++ [')'])

def trailingNumber? (subject : Text) : Option Text :=
  match subject.reverse with
  | ')' :: r =>
    let digits := r.takeWhile Char.isDigit
    if !digits.isEmpty && ['#', '('].isPrefixOf (r.dropWhile Char.isDigit) then
      some digits.reverse
    else none
  | _ => none

/-- What stands before the last blank of a subject, trimmed; nothing if there is no blank. -/
def titleOf (subject : Text) : Text :=
  match subject.reverse.dropWhile fun c => !Text.isBlank c with
  | [] => []
  | _ :: head => Text.trim head.reverse

def ofSubject? (subject : Text) : Option Reference :=
  (trailingNumber? subject).map fun number => ⟨titleOf subject, number⟩

theorem toNat_of_isDigit {c : Char} (h : c.isDigit = true) : 0x30 ≤ c.toNat ∧ c.toNat ≤ 0x39 := by
  simp only [Char.isDigit, Bool.and_eq_true, decide_eq_true_eq, ge_iff_le,
    UInt32.le_iff_toNat_le] at h
  exact h

theorem forall_mem_marker {p : Char → Prop} {number : Text} (hopen : p '(') (hhash : p '#')
    (hclose : p ')') (hn : ∀ c ∈ number, p c) : ∀ c ∈ marker number, p c := by
  intro c hc
  simp only [marker, List.mem_cons, List.mem_append, List.not_mem_nil, or_false] at hc
  rcases hc with rfl | rfl | hc | rfl
  · exact hopen
  · exact hhash
  · exact hn c hc
  · exact hclose

theorem trailingNumber?_append_marker (head : Text) {number : Text} (hne : number ≠ [])
    (hd : ∀ c ∈ number, c.isDigit = true) :
    trailingNumber? (head ++ marker number) = some number := by
  have hr : (head ++ marker number).reverse =
      ')' :: (number.reverse ++ '#' :: '(' :: head.reverse) := by simp [marker]
  have hd' : ∀ c ∈ number.reverse, c.isDigit = true := by simpa using hd
  have ht : (number.reverse ++ '#' :: '(' :: head.reverse).takeWhile Char.isDigit =
      number.reverse := by
    rw [List.takeWhile_append_of_pos hd']
    simp [Char.isDigit]
  have hw : (number.reverse ++ '#' :: '(' :: head.reverse).dropWhile Char.isDigit =
      '#' :: '(' :: head.reverse := by
    rw [List.dropWhile_append_of_pos hd']
    simp [Char.isDigit]
  simp [trailingNumber?, hr, ht, hw, hne]

theorem eq_append_marker_of_trailingNumber? {subject number : Text}
    (h : trailingNumber? subject = some number) :
    number ≠ [] ∧ (∀ c ∈ number, c.isDigit = true) ∧ ∃ head, subject = head ++ marker number := by
  simp only [trailingNumber?] at h
  split at h
  · next r hr =>
    split at h
    · next hm =>
      obtain rfl := Option.some.inj h
      simp only [Bool.and_eq_true, Bool.not_eq_true', List.isEmpty_eq_false_iff] at hm
      obtain ⟨rest, hrest⟩ := List.isPrefixOf_iff_prefix.mp hm.2
      refine ⟨by simpa using hm.1, ?_, rest.reverse, ?_⟩
      · intro c hc
        exact List.all_eq_true.mp List.all_takeWhile c (List.mem_reverse.mp hc)
      · have hs : r = r.takeWhile Char.isDigit ++ (['#', '('] ++ rest) := by
          rw [hrest, List.takeWhile_append_dropWhile]
        have he : subject = (')' :: r).reverse := by rw [← hr, List.reverse_reverse]
        rw [he, List.reverse_cons]
        conv => lhs; rw [hs]
        simp [marker]
    · simp at h
  · simp at h

theorem ofSubject?_of_allBlank {subject : Text} (h : subject.allBlank = true) :
    ofSubject? subject = none := by
  cases hr : trailingNumber? subject with
  | none => rw [ofSubject?, hr, Option.map_none]
  | some number =>
    obtain ⟨_, _, head, rfl⟩ := eq_append_marker_of_trailingNumber? hr
    have hblank := List.all_eq_true.mp h ')' (by simp [marker])
    exact absurd hblank (by decide)

end Reference

end ReleaseLog
