import Mathlib.Data.List.TakeWhile
import ReleaseLog.Proofs.Bullet.Subjects
import ReleaseLog.Proofs.Feed.Pulls

/-!
# Closed forms of deliveries

A delivery ends at the subject that gives the last bullet asked for, or at the next pause. So it can
be read off the subjects before the next pause: which bullets come up, which subjects are skipped,
how many pulls are made and what is left (`closed_forms`).
-/

namespace ReleaseLog

open Bullet

namespace Feed

def ahead (q : List (Option Text)) : List Text := (q.takeWhile Option.isSome).filterMap id

def beyond (q : List (Option Text)) : List (Option Text) := (q.dropWhile Option.isSome).tail

def upcoming (f : Feed) : List Bullet := ofSubjects f.base (ahead f.queue)

/-- The delivery of something for which all subjects before the next pause are taken, and the pause
too if there is one. -/
def exhausting {α : Type} (f : Feed) (a : α) : Delivery α :=
  ⟨a, unreferenced f.base (ahead f.queue),
    ⟨f.base, beyond f.queue, f.pulled + (ahead f.queue).length + 1⟩⟩

/-- The delivery of something for which these subjects are taken and these elements are left. -/
def reaching {α : Type} (f : Feed) (taken : List Text) (left : List (Option Text)) (a : α) :
    Delivery α :=
  ⟨a, unreferenced f.base taken, ⟨f.base, left, f.pulled + taken.length⟩⟩

/-- Subjects of which so many refer to a pull request, the last one among them. -/
structure Reaches (base : Text) (n : Nat) (taken : List Text) : Prop where
  count : (ofSubjects base taken).length = n
  last : ∀ s ∈ taken.getLast?, (ofSubject? base s).isSome = true

section Equations

variable {base s : Text} {b : Bullet}

theorem ahead_subject (s : Text) (q : List (Option Text)) : ahead (some s :: q) = s :: ahead q :=
  rfl

theorem beyond_subject (s : Text) (q : List (Option Text)) :
    beyond (some s :: q) = beyond q := rfl

theorem beyond_eq_nil {q : List (Option Text)} (h : none ∉ q) : beyond q = [] := by
  have hall : ∀ a ∈ q, a.isSome = true :=
    fun a ha => Option.isSome_iff_ne_none.mpr fun hnone => h (hnone ▸ ha)
  rw [beyond, List.dropWhile_eq_nil_iff.mpr hall]
  rfl

theorem add_succ_length (p : Nat) (s : Text) (ss : List Text) :
    p + 1 + ss.length = p + (s :: ss).length := by
  rw [List.length_cons]
  omega

theorem ahead_append (ss : List Text) (q : List (Option Text)) :
    ahead (ss.map some ++ q) = ss ++ ahead q := by
  induction ss with
  | nil => rfl
  | cons s ss ih => exact congrArg (List.cons s) ih

theorem length_ofSubjects_ahead_le (base : Text) (q : List (Option Text)) :
    (ofSubjects base (ahead q)).length ≤ q.length := by
  have hbullets := List.length_filterMap_le (ofSubject? base) (ahead q)
  have hsubjects := List.length_filterMap_le id (q.takeWhile Option.isSome)
  have hahead := (List.takeWhile_sublist (l := q) Option.isSome).length_le
  exact Nat.le_trans hbullets (Nat.le_trans hsubjects hahead)

theorem take_bullet (hb : ofSubject? base s = some b) (n : Nat) (q : List (Option Text))
    (p : Nat) :
    take (n + 1) ⟨base, some s :: q, p⟩ = (take n ⟨base, q, p + 1⟩).map (b :: ·) := by
  rw [take_succ, next_subject, hb]
  rfl

theorem take_skip (hs : ofSubject? base s = none) (n : Nat) (q : List (Option Text))
    (p : Nat) :
    take (n + 1) ⟨base, some s :: q, p⟩ =
      let d := take (n + 1) ⟨base, q, p + 1⟩
      ⟨d.result, s :: d.skipped, d.feed⟩ := by
  rw [take_succ, take_succ, next_subject, hs]
  simp only [Delivery.andThen]
  cases (next ⟨base, q, p + 1⟩).result <;> rfl

end Equations

namespace Reaches

variable {base s : Text} {b : Bullet} {n : Nat} {ss : List Text}

theorem nil (base : Text) : Reaches base 0 [] := ⟨rfl, by simp⟩

theorem bullet (hb : ofSubject? base s = some b) (h : Reaches base n ss) :
    Reaches base (n + 1) (s :: ss) where
  count := by rw [ofSubjects_bullet hb, List.length_cons, h.count]
  last := by
    cases ss with
    | nil => simp [hb]
    | cons t ts => exact h.last

theorem skip (hs : ofSubject? base s = none) (h : Reaches base (n + 1) ss) :
    Reaches base (n + 1) (s :: ss) where
  count := by rw [ofSubjects_skip hs, h.count]
  last := by
    cases ss with
    | nil => cases h.count
    | cons t ts => exact h.last

end Reaches

/-- As long as there are enough bullets before the next pause, a delivery takes the subjects up to
the one that gives the last of them. -/
theorem exists_take_eq_reaching {base : Text} {n : Nat} {q : List (Option Text)}
    (h : n ≤ (ofSubjects base (ahead q)).length) (p : Nat) :
    ∃ taken left, q = taken.map some ++ left ∧ Reaches base n taken ∧
      take n ⟨base, q, p⟩ = reaching ⟨base, q, p⟩ taken left (ofSubjects base taken) := by
  induction q generalizing n p with
  | nil =>
    obtain rfl := Nat.le_zero.mp h
    exact ⟨[], [], rfl, .nil base, rfl⟩
  | cons a q ih =>
    cases n with
    | zero => exact ⟨[], a :: q, rfl, .nil base, rfl⟩
    | succ n =>
      cases a with
      | none => cases h
      | some s =>
        rw [ahead_subject] at h
        cases hb : ofSubject? base s with
        | some b =>
          rw [ofSubjects_bullet hb] at h
          obtain ⟨taken, left, rfl, hreaches, htake⟩ := ih (Nat.le_of_succ_le_succ h) (p + 1)
          refine ⟨s :: taken, left, rfl, hreaches.bullet hb, ?_⟩
          rw [take_bullet hb, htake]
          simp only [reaching, Delivery.map, ofSubjects_bullet hb, unreferenced_bullet hb,
            add_succ_length p s]
        | none =>
          rw [ofSubjects_skip hb] at h
          obtain ⟨taken, left, rfl, hreaches, htake⟩ := ih h (p + 1)
          refine ⟨s :: taken, left, rfl, hreaches.skip hb, ?_⟩
          rw [take_skip hb, htake]
          simp only [reaching, ofSubjects_skip hb, unreferenced_skip hb, add_succ_length p s]

/-- With fewer bullets before the next pause, a delivery takes all that there is up to it. -/
theorem take_eq_exhausting {base : Text} {n : Nat} {q : List (Option Text)}
    (h : (ofSubjects base (ahead q)).length < n) (p : Nat) :
    take n ⟨base, q, p⟩ = exhausting ⟨base, q, p⟩ (ofSubjects base (ahead q)) := by
  induction q generalizing n p with
  | nil =>
    cases n with
    | zero => cases h
    | succ n => rfl
  | cons a q ih =>
    cases n with
    | zero => cases h
    | succ n =>
      cases a with
      | none => rfl
      | some s =>
        rw [ahead_subject] at h
        cases hb : ofSubject? base s with
        | some b =>
          rw [ofSubjects_bullet hb] at h
          rw [take_bullet hb, ih (Nat.lt_of_succ_lt_succ h) (p + 1)]
          simp only [exhausting, Delivery.map, ahead_subject, beyond_subject, ofSubjects_bullet hb,
            unreferenced_bullet hb, add_succ_length p s]
        | none =>
          rw [ofSubjects_skip hb] at h
          rw [take_skip hb, ih h (p + 1)]
          simp only [exhausting, ahead_subject, beyond_subject, ofSubjects_skip hb,
            unreferenced_skip hb, add_succ_length p s]

section Closed

variable {f : Feed} {n : Nat}

theorem take_of_le (h : n ≤ f.upcoming.length) :
    ∃ taken left, f.queue = taken.map some ++ left ∧ Reaches f.base n taken ∧
      take n f = f.reaching taken left (f.upcoming.take n) := by
  obtain ⟨taken, left, hqueue, hreaches, htake⟩ := exists_take_eq_reaching h f.pulled
  have hbullets : f.upcoming.take n = ofSubjects f.base taken := by
    rw [upcoming, hqueue, ahead_append, ofSubjects_append, List.take_left' hreaches.count]
  rw [hbullets]
  exact ⟨taken, left, hqueue, hreaches, htake⟩

theorem take_of_lt (h : f.upcoming.length < n) : take n f = f.exhausting f.upcoming :=
  take_eq_exhausting h f.pulled

theorem rest_eq (f : Feed) : f.rest = f.exhausting f.upcoming :=
  take_of_lt (Nat.lt_succ_of_le (length_ofSubjects_ahead_le f.base f.queue))

theorem nth_of_lt (h : n < f.upcoming.length) :
    ∃ taken left, f.queue = taken.map some ++ left ∧ Reaches f.base (n + 1) taken ∧
      nth n f = f.reaching taken left (some f.upcoming[n]) := by
  obtain ⟨taken, left, hqueue, hreaches, htake⟩ := take_of_le (Nat.succ_le_of_lt h)
  have hbullet : (f.upcoming.take (n + 1))[n]? = some f.upcoming[n] := by
    rw [List.getElem?_take_of_lt (Nat.lt_succ_self n), List.getElem?_eq_getElem h]
  refine ⟨taken, left, hqueue, hreaches, ?_⟩
  rw [nth, htake, ← hbullet]
  rfl

theorem nth_of_le (h : f.upcoming.length ≤ n) : nth n f = f.exhausting none := by
  rw [nth, take_of_lt (Nat.lt_succ_of_le h), ← List.getElem?_eq_none h]
  rfl

theorem next_eq_nth (f : Feed) : f.next = nth 0 f := by
  have hhead : f.next.result.toList[0]? = f.next.result := by cases f.next.result <;> rfl
  rw [nth, take_one]
  simp only [Delivery.map, hhead]

end Closed

/-- Bullets that are asked for in two parts come up as when they are asked for at once, if the first
part is delivered in full. -/
theorem take_add {m : Nat} {f : Feed} (h : (take m f).result.length = m) (n : Nat) :
    take (m + n) f = (take m f).andThen fun bs g => (take n g).map (bs ++ ·) := by
  induction m generalizing f with
  | zero =>
    rw [Nat.zero_add]
    rfl
  | succ m ih =>
    rw [Nat.succ_add, take_succ, take_succ]
    rw [take_succ] at h
    simp only [Delivery.andThen] at h ⊢
    cases hb : f.next.result with
    | none =>
      rw [hb] at h
      cases h
    | some b =>
      rw [hb] at h
      have hrest : (take m f.next.feed).result.length = m := Nat.succ.inj h
      simp only [ih hrest, Delivery.andThen, Delivery.map, List.append_assoc, List.cons_append]

/-- What each request delivers, by the bullets up to the next pause. -/
structure ClosedForms (f : Feed) : Prop where
  rest : f.rest = f.exhausting f.upcoming
  count : f.count = f.exhausting f.upcoming.length
  last : f.last = f.exhausting f.upcoming.getLast?
  nth_of_lt : ∀ n (h : n < f.upcoming.length), ∃ taken left,
    f.queue = taken.map some ++ left ∧ Reaches f.base (n + 1) taken ∧
      nth n f = f.reaching taken left (some f.upcoming[n])
  nth_of_le : ∀ n, f.upcoming.length ≤ n → nth n f = f.exhausting none
  next : f.next = nth 0 f
  take_zero : take 0 f = done [] f
  take_of_le : ∀ n, 0 < n → n ≤ f.upcoming.length → ∃ taken left,
    f.queue = taken.map some ++ left ∧ Reaches f.base n taken ∧
      take n f = f.reaching taken left (f.upcoming.take n)
  take_of_lt : ∀ n, f.upcoming.length < n → take n f = f.rest
  take_add : ∀ m n, (take m f).result.length = m →
    take (m + n) f = (take m f).andThen fun bs g => (take n g).map (bs ++ ·)

/-- Every delivery has a closed form, whatever stands in the queue. -/
theorem closed_forms (f : Feed) : ClosedForms f where
  rest := f.rest_eq
  count := by rw [count, rest_eq]; rfl
  last := by rw [last, rest_eq]; rfl
  nth_of_lt _ h := nth_of_lt h
  nth_of_le _ h := nth_of_le h
  next := f.next_eq_nth
  take_zero := rfl
  take_of_le _ _ h := take_of_le h
  take_of_lt _ h := by rw [take_of_lt h, rest_eq]
  take_add _ n h := take_add h n

/-- What follows the last bullet asked for is left, and a pause is not met before it is reached. -/
example :
    let f : Feed := ⟨"u/".toList,
      [some "Tidy".toList, some "Fix (#1)".toList, some "Bump".toList, none, some "(#2)".toList], 0⟩
    (take 1 f).feed = ⟨f.base, f.queue.drop 2, 2⟩ ∧ (take 2 f).feed = ⟨f.base, f.queue.drop 4, 4⟩ ∧
      (take 2 f).skipped = ["Tidy".toList, "Bump".toList] := by decide

end Feed

end ReleaseLog
