import ReleaseLog.Bullet
import ReleaseLog.Review

/-!
# Rendered references

A rendered reference can be read back when the base is known, although the title and the base may
hold anything: the number stands at the end, and no bracket is part of a number.
-/

namespace ReleaseLog

section Ends

variable {α : Type} [DecidableEq α] {x : α}

/-- What follows `x :: c` holds an `x` unless it is empty. -/
theorem eq_nil_of_append_cons_eq {a a' c k : List α} (hk : x ∉ k)
    (h : a ++ x :: c = a' ++ x :: (c ++ k)) : k = [] := by
  apply List.eq_nil_of_length_eq_zero
  rcases List.append_eq_append_iff.mp h with ⟨m, _, hm⟩ | ⟨m, _, hm⟩
  · have hlen := congrArg List.length hm
    simp only [List.length_cons, List.length_append] at hlen
    omega
  · cases m with
    | nil =>
      have hlen := congrArg List.length hm
      simp only [List.nil_append, List.length_cons, List.length_append] at hlen
      omega
    | cons y m =>
      -- The `x` in front of `c` on the right has nothing to come from on the left.
      obtain ⟨rfl, hrest⟩ := List.cons_eq_cons.mp hm
      have hcount := congrArg (List.count x) hrest
      have hzero := List.count_eq_zero.mpr hk
      simp only [List.append_eq, List.count_append, List.count_cons_self] at hcount
      omega

theorem append_cons_append_inj {a a' c n n' : List α} (hn : x ∉ n) (hn' : x ∉ n')
    (h : a ++ x :: (c ++ n) = a' ++ x :: (c ++ n')) : a = a' ∧ n = n' := by
  have hsplit : (a ++ x :: c) ++ n = (a' ++ x :: c) ++ n' := by simpa using h
  have key : n = n' := by
    rcases List.append_eq_append_iff.mp hsplit with ⟨k, hk, rfl⟩ | ⟨k, hk, rfl⟩
    · have hx : x ∉ k := fun hm => hn (List.mem_append_left _ hm)
      rw [List.append_assoc, List.cons_append] at hk
      rw [eq_nil_of_append_cons_eq hx hk, List.nil_append]
    · have hx : x ∉ k := fun hm => hn' (List.mem_append_left _ hm)
      rw [List.append_assoc, List.cons_append] at hk
      rw [eq_nil_of_append_cons_eq hx hk, List.nil_append]
  subst key
  exact ⟨List.append_cancel_right h, rfl⟩

end Ends

namespace Bullet

def lead (title : Text) : Text := if title.isEmpty then [] else ' ' :: title

theorem lead_injective {t u : Text} (h : lead t = lead u) : t = u := by
  cases t with
  | nil =>
    cases u with
    | nil => rfl
    | cons c u => simp [lead] at h
  | cons b t =>
    cases u with
    | nil => simp [lead] at h
    | cons c u => exact List.cons_inj_right ' ' |>.mp h

theorem render_ofReference (base : Text) (r : Reference) :
    (ofReference base r).render =
      '-' :: lead r.title ++ " ([#".toList ++ r.number ++
        ']' :: ('(' :: base ++ r.number) ++ "))".toList := by
  have hopen : "](".toList = [']', '('] := rfl
  have hdash : "- ".toList = ['-', ' '] := rfl
  by_cases h : r.title = []
  · have hlead : lead r.title = [] := by simp only [lead, h, List.isEmpty_nil, if_true]
    rw [render_of_title_nil h, hlead]
    unfold link
    rw [hopen]
    simp only [ofReference, List.append_assoc, List.cons_append, List.nil_append]
  · have hlead : lead r.title = ' ' :: r.title := by
      simp only [lead, List.isEmpty_iff, h, if_false]
    rw [render_of_title_ne_nil h, hlead]
    unfold link
    rw [hopen, hdash]
    simp only [ofReference, List.append_assoc, List.cons_append, List.nil_append]

theorem render_injective {base : Text} {r s : Reference} (hr : ']' ∉ r.number)
    (hs : ']' ∉ s.number) (h : (ofReference base r).render = (ofReference base s).render) :
    r = s := by
  rw [render_ofReference, render_ofReference] at h
  obtain ⟨hhead, hnumber⟩ := append_cons_append_inj hr hs (List.append_cancel_right h)
  rw [hnumber] at hhead
  have hlead := List.append_cancel_right (List.append_cancel_right hhead)
  have htitle := lead_injective (List.cons_inj_right '-' |>.mp hlead)
  cases r
  cases s
  exact congr (congrArg Reference.mk htitle) hnumber

theorem bracket_not_mem_of_digits {number : Text} (h : ∀ c ∈ number, c.isDigit = true) :
    ']' ∉ number :=
  fun hm => absurd (h ']' hm) (by decide)

/-- Under one base no two references are rendered alike, whatever the base and the titles hold. So
no title can pass for none: the form without a title belongs to references that have none. -/
theorem render_eq_render_iff (base : Text) {title title' number number' : Text}
    (hd : ∀ c ∈ number, c.isDigit = true) (hd' : ∀ c ∈ number', c.isDigit = true) :
    ((ofReference base ⟨title, number⟩).render = (ofReference base ⟨title', number'⟩).render ↔
        title = title' ∧ number = number') ∧
      (title' ≠ [] →
        (ofReference base ⟨[], number⟩).render ≠ (ofReference base ⟨title', number'⟩).render) := by
  have hinj : ∀ {t : Text},
      (ofReference base ⟨t, number⟩).render = (ofReference base ⟨title', number'⟩).render →
        t = title' ∧ number = number' := by
    intro t h
    exact Reference.mk.inj <|
      render_injective (bracket_not_mem_of_digits hd) (bracket_not_mem_of_digits hd') h
  constructor
  · constructor
    · exact hinj
    · rintro ⟨rfl, rfl⟩
      rfl
  · intro hne h
    exact hne (hinj h).1.symm

/-- A base that ends like a number, and a title that ends like the link of one. -/
theorem render_eq_render_iff_self_similar :
    let base := "1](11".toList
    let title := "([#1](1](11".toList
    (∀ c ∈ "1".toList, c.isDigit = true) ∧ (∀ c ∈ "11".toList, c.isDigit = true) ∧
      ((ofReference base ⟨[], "1".toList⟩).render = (ofReference base ⟨title, "11".toList⟩).render ↔
        [] = title ∧ "1".toList = "11".toList) ∧
      (title ≠ [] →
        (ofReference base ⟨[], "1".toList⟩).render ≠
          (ofReference base ⟨title, "11".toList⟩).render) := by
  intro base title
  have hd : ∀ c ∈ "1".toList, c.isDigit = true := List.all_eq_true.mp (by decide)
  have hd' : ∀ c ∈ "11".toList, c.isDigit = true := List.all_eq_true.mp (by decide)
  exact ⟨hd, hd', render_eq_render_iff base hd hd'⟩

theorem map_render_injective {base : Text} {rs ss : List Reference}
    (hr : ∀ r ∈ rs, ']' ∉ r.number) (hs : ∀ s ∈ ss, ']' ∉ s.number)
    (h : rs.map (fun r => (ofReference base r).render) =
      ss.map fun s => (ofReference base s).render) : rs = ss := by
  induction rs generalizing ss with
  | nil => exact (List.map_eq_nil_iff.mp h.symm).symm
  | cons r rs ih =>
    cases ss with
    | nil => cases h
    | cons s ss =>
      rw [List.map_cons, List.map_cons] at h
      obtain ⟨hhead, htail⟩ := List.cons_eq_cons.mp h
      have hrs : ∀ r' ∈ rs, ']' ∉ r'.number := fun r' hm => hr r' (List.mem_cons_of_mem r hm)
      have hss : ∀ s' ∈ ss, ']' ∉ s'.number := fun s' hm => hs s' (List.mem_cons_of_mem s hm)
      rw [render_injective (hr r List.mem_cons_self) (hs s List.mem_cons_self) hhead,
        ih hrs hss htail]

end Bullet

end ReleaseLog
