import ReleaseLog.Feed
import ReleaseLog.Proofs.Bullet.Subjects

/-!
# Pulls

A feed takes its queue one pull at a time, and every delivery is made of pulls. The subjects they
take give the bullets and the skipped subjects of the delivery, and all of them but the last met a
subject (`exists_pulls_take`).
-/

namespace ReleaseLog

namespace Feed

/-- What a pull meets at the front of a queue. An empty one has nothing there. -/
inductive Pull
  | subject (s : Text)
  | pause
  | nothing
  deriving DecidableEq

namespace Pull

def element? : Pull → Option (Option Text)
  | .subject s => some (some s)
  | .pause => some none
  | .nothing => none

def subject? : Pull → Option Text
  | .subject s => some s
  | _ => none

def isStop : Pull → Bool
  | .subject _ => false
  | _ => true

end Pull

def consumed (ps : List Pull) : List (Option Text) := ps.filterMap Pull.element?

def subjects (ps : List Pull) : List Text := ps.filterMap Pull.subject?

@[simp] theorem consumed_subject (s : Text) (ps : List Pull) :
    consumed (.subject s :: ps) = some s :: consumed ps := rfl

@[simp] theorem consumed_pause (ps : List Pull) :
    consumed (.pause :: ps) = none :: consumed ps := rfl

@[simp] theorem consumed_nothing (ps : List Pull) :
    consumed (.nothing :: ps) = consumed ps := rfl

@[simp] theorem pulled_pull (f : Feed) (q : List (Option Text)) :
    (f.pull q).pulled = f.pulled + 1 := rfl

theorem subjects_append (ps qs : List Pull) :
    subjects (ps ++ qs) = subjects ps ++ subjects qs := List.filterMap_append

theorem subjects_eq (ps : List Pull) : subjects ps = (consumed ps).filterMap id := by
  rw [subjects, consumed, List.filterMap_filterMap]
  congr 1
  funext p
  cases p <;> rfl

/-- Pulls from a feed, one after another, and the feed that they leave. -/
inductive Pulls : Feed → List Pull → Feed → Prop
  | none (f : Feed) : Pulls f [] f
  | subject {f g : Feed} {s : Text} {q : List (Option Text)} {ps : List Pull}
    (hq : f.queue = some s :: q) (h : Pulls (f.pull q) ps g) : Pulls f (.subject s :: ps) g
  | pause {f g : Feed} {q : List (Option Text)} {ps : List Pull}
    (hq : f.queue = Option.none :: q) (h : Pulls (f.pull q) ps g) : Pulls f (.pause :: ps) g
  | nothing {f g : Feed} {ps : List Pull}
    (hq : f.queue = []) (h : Pulls (f.pull []) ps g) : Pulls f (.nothing :: ps) g

namespace Pulls

variable {f g h : Feed} {ps qs : List Pull}

theorem trans (hp : Pulls f ps g) (hq : Pulls g qs h) : Pulls f (ps ++ qs) h := by
  induction hp with
  | none f => exact hq
  | subject he _ ih => exact .subject he (ih hq)
  | pause he _ ih => exact .pause he (ih hq)
  | nothing he _ ih => exact .nothing he (ih hq)

theorem base_eq (hp : Pulls f ps g) : g.base = f.base := by
  induction hp with
  | none f => rfl
  | subject _ _ ih | pause _ _ ih | nothing _ _ ih => exact ih

theorem queue_eq (hp : Pulls f ps g) : f.queue = consumed ps ++ g.queue := by
  induction hp with
  | none f => rfl
  | subject he _ ih | pause he _ ih =>
    rw [he]
    exact congrArg (List.cons _) ih
  | nothing he _ ih =>
    rw [he]
    exact ih

/-- Every pull counts, and takes an element unless there is none. -/
theorem pulled_eq (hp : Pulls f ps g) :
    g.pulled = f.pulled + (consumed ps).length + ps.count .nothing := by
  induction hp with
  | none f => rfl
  | subject _ _ ih =>
    rw [ih, pulled_pull, consumed_subject, List.length_cons, List.count_cons_of_ne (by simp)]
    omega
  | pause _ _ ih =>
    rw [ih, pulled_pull, consumed_pause, List.length_cons, List.count_cons_of_ne (by simp)]
    omega
  | nothing _ _ ih =>
    rw [ih, pulled_pull, consumed_nothing, List.count_cons_self]
    omega

end Pulls

/-- What comes of the subjects that pulls take: the bullets of those that refer to a pull request,
and the others. -/
structure Yields (base : Text) (ps : List Pull) (bs : List Bullet) (skipped : List Text) :
    Prop where
  bullets : bs = Bullet.ofSubjects base (subjects ps)
  skipped : skipped = Bullet.unreferenced base (subjects ps)

namespace Yields

theorem nil (base : Text) : Yields base [] [] [] := ⟨rfl, rfl⟩

theorem append {base : Text} {ps qs : List Pull} {bs cs : List Bullet} {ss ts : List Text}
    (h : Yields base ps bs ss) (h' : Yields base qs cs ts) :
    Yields base (ps ++ qs) (bs ++ cs) (ss ++ ts) where
  bullets := by rw [h.bullets, h'.bullets, subjects_append, Bullet.ofSubjects_append]
  skipped := by rw [h.skipped, h'.skipped, subjects_append, Bullet.unreferenced_append]

theorem bullet {base s : Text} {b : Bullet} (h : Bullet.ofSubject? base s = some b) :
    Yields base [.subject s] [b] [] where
  bullets := (@Bullet.ofSubjects_bullet base s b [] h).symm
  skipped := (@Bullet.unreferenced_bullet base s b [] h).symm

theorem skip {base s : Text} (h : Bullet.ofSubject? base s = none) :
    Yields base [.subject s] [] [s] where
  bullets := (@Bullet.ofSubjects_skip base s [] h).symm
  skipped := (@Bullet.unreferenced_skip base s [] h).symm

end Yields

/-- The next bullet is the first that the pulls give, and they stop early if there is none. -/
theorem exists_pulls_nextFrom (f : Feed) (q : List (Option Text)) (hq : f.queue = q) :
    ∃ ps, Pulls f ps (nextFrom f q).feed ∧
      Yields f.base ps (nextFrom f q).result.toList (nextFrom f q).skipped ∧
      ps.countP Pull.isStop = 1 - (nextFrom f q).result.toList.length := by
  induction q generalizing f with
  | nil => exact ⟨[.nothing], .nothing hq (.none _), ⟨rfl, rfl⟩, rfl⟩
  | cons a q ih =>
    cases a with
    | none => exact ⟨[.pause], .pause hq (.none _), ⟨rfl, rfl⟩, rfl⟩
    | some s =>
      cases hb : Bullet.ofSubject? f.base s with
      | some b =>
        simp only [nextFrom, hb]
        exact ⟨[.subject s], .subject hq (.none _), .bullet hb, rfl⟩
      | none =>
        obtain ⟨ps, hps, hy, hstop⟩ := ih (f.pull q) rfl
        simp only [nextFrom, hb]
        exact ⟨.subject s :: ps, .subject hq hps, (Yields.skip hb).append hy, hstop⟩

theorem take_succ (n : Nat) (f : Feed) :
    take (n + 1) f = f.next.andThen fun
      | some b, g => (take n g).map (b :: ·)
      | none, g => done [] g := rfl

theorem take_one (f : Feed) : take 1 f = f.next.map Option.toList := by
  rw [take_succ, Delivery.andThen]
  cases h : f.next.result <;> simp [Delivery.map, take, done, h]

/-- A delivery is made of pulls. They give no more bullets than were asked for, and stop early
exactly if they give fewer. -/
theorem exists_pulls_take (n : Nat) (f : Feed) :
    ∃ ps, Pulls f ps (take n f).feed ∧ Yields f.base ps (take n f).result (take n f).skipped ∧
      (take n f).result.length ≤ n ∧
      ps.countP Pull.isStop = if (take n f).result.length < n then 1 else 0 := by
  induction n generalizing f with
  | zero => exact ⟨[], .none f, .nil f.base, Nat.le_refl 0, rfl⟩
  | succ n ih =>
    obtain ⟨ps, hps, hy, hstop⟩ := exists_pulls_nextFrom f f.queue rfl
    rw [take_succ, Delivery.andThen]
    change Pulls f ps f.next.feed at hps
    change Yields f.base ps f.next.result.toList f.next.skipped at hy
    change _ = 1 - f.next.result.toList.length at hstop
    cases hr : f.next.result with
    | none =>
      rw [hr] at hy hstop
      exact ⟨ps, hps, by simpa [done] using hy, Nat.zero_le _, by simpa [done] using hstop⟩
    | some b =>
      rw [hr] at hy hstop
      obtain ⟨qs, hqs, hy', hle, hstop'⟩ := ih f.next.feed
      rw [hps.base_eq] at hy'
      refine ⟨ps ++ qs, hps.trans hqs, hy.append hy', Nat.succ_le_succ hle, ?_⟩
      rw [List.countP_append, hstop, hstop']
      simp

end Feed

end ReleaseLog
