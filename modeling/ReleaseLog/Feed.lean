import ReleaseLog.Bullet

/-!
# Feeds

A feed delivers the bullets of a queue of subjects, one pull at a time, and skips the subjects that
refer to nothing. A pause in the queue, or its end, is the end of the delivery under way and of
that one only: the next delivery goes on with what follows or has been pushed since.
-/

namespace ReleaseLog

/-- A queue of subjects with pauses (`none`), the base their bullets are addressed under, and the
number of pulls so far. -/
structure Feed where
  base : Text
  queue : List (Option Text)
  pulled : Nat := 0
  deriving DecidableEq

/-- What a feed delivers, the subjects skipped on the way, and the feed that is left. -/
structure Delivery (α : Type) where
  result : α
  skipped : List Text
  feed : Feed

namespace Delivery

variable {α β : Type}

def map (f : α → β) (d : Delivery α) : Delivery β := ⟨f d.result, d.skipped, d.feed⟩

def andThen (d : Delivery α) (next : α → Feed → Delivery β) : Delivery β :=
  let e := next d.result d.feed
  ⟨e.result, d.skipped ++ e.skipped, e.feed⟩

@[simp] theorem map_result (f : α → β) (d : Delivery α) : (d.map f).result = f d.result := rfl

@[simp] theorem map_skipped (f : α → β) (d : Delivery α) : (d.map f).skipped = d.skipped := rfl

@[simp] theorem map_feed (f : α → β) (d : Delivery α) : (d.map f).feed = d.feed := rfl

end Delivery

namespace Feed

def done {α : Type} (a : α) (f : Feed) : Delivery α := ⟨a, [], f⟩

def pull (f : Feed) (rest : List (Option Text)) : Feed := ⟨f.base, rest, f.pulled + 1⟩

def nextFrom (f : Feed) : List (Option Text) → Delivery (Option Bullet)
  | [] => done none (f.pull [])
  | none :: q => done none (f.pull q)
  | some subject :: q =>
    match Bullet.ofSubject? f.base subject with
    | some b => done (some b) (f.pull q)
    | none =>
      let d := nextFrom (f.pull q) q
      { d with skipped := subject :: d.skipped }

/-- The next bullet, if there is one before the next pause. -/
def next (f : Feed) : Delivery (Option Bullet) := nextFrom f f.queue

theorem length_queue_nextFrom_lt {f : Feed} {q : List (Option Text)} {b : Bullet}
    (h : (nextFrom f q).result = some b) : (nextFrom f q).feed.queue.length < q.length := by
  induction q generalizing f with
  | nil => cases h
  | cons a q ih =>
    match a with
    | none => cases h
    | some subject =>
      unfold nextFrom at h ⊢
      cases hb : Bullet.ofSubject? f.base subject with
      | some b => exact Nat.lt_succ_self _
      | none =>
        simp only [hb] at h ⊢
        exact Nat.lt_succ_of_lt (ih h)

theorem length_queue_next_lt {f : Feed} {b : Bullet} (h : f.next.result = some b) :
    f.next.feed.queue.length < f.queue.length :=
  length_queue_nextFrom_lt h

/-- At most `n` bullets, up to the next pause. -/
def take : Nat → Feed → Delivery (List Bullet)
  | 0, f => done [] f
  | n + 1, f => f.next.andThen fun
    | some b, g => (take n g).map (b :: ·)
    | none, g => done [] g

/-- The bullet after `n` others, if there are as many before the next pause. -/
def nth (n : Nat) (f : Feed) : Delivery (Option Bullet) := (take (n + 1) f).map (·[n]?)

/-- All bullets up to the next pause. There are no more of them than subjects, so one more than
that is never reached. -/
def rest (f : Feed) : Delivery (List Bullet) := take (f.queue.length + 1) f

def count (f : Feed) : Delivery Nat := f.rest.map List.length

def last (f : Feed) : Delivery (Option Bullet) := f.rest.map List.getLast?

def push (items : List (Option Text)) (f : Feed) : Feed := { f with queue := f.queue ++ items }

inductive Request
  | push (items : List (Option Text))
  | next
  | nth (n : Nat)
  | take (n : Nat)
  | rest
  | count
  | last
  deriving DecidableEq

inductive Response
  | nothing
  | bullet (b : Option Bullet)
  | bullets (bs : List Bullet)
  | number (n : Nat)
  deriving DecidableEq

def answer (f : Feed) : Request → Delivery Response
  | .push items => done .nothing (f.push items)
  | .next => f.next.map .bullet
  | .nth n => (nth n f).map .bullet
  | .take n => (take n f).map .bullets
  | .rest => f.rest.map .bullets
  | .count => f.count.map .number
  | .last => f.last.map .bullet

/-- The answers to a list of requests, each asked of the feed that the one before left. -/
def answers : Feed → List Request → List (Delivery Response)
  | _, [] => []
  | f, r :: rs => f.answer r :: answers (f.answer r).feed rs

@[simp] theorem next_nil (base : Text) (n : Nat) :
    next ⟨base, [], n⟩ = ⟨none, [], ⟨base, [], n + 1⟩⟩ := rfl

@[simp] theorem next_pause (base : Text) (q : List (Option Text)) (n : Nat) :
    next ⟨base, none :: q, n⟩ = ⟨none, [], ⟨base, q, n + 1⟩⟩ := rfl

theorem next_subject (base subject : Text) (q : List (Option Text)) (n : Nat) :
    next ⟨base, some subject :: q, n⟩ =
      match Bullet.ofSubject? base subject with
      | some b => ⟨some b, [], ⟨base, q, n + 1⟩⟩
      | none =>
        let d := next ⟨base, q, n + 1⟩
        ⟨d.result, subject :: d.skipped, d.feed⟩ := rfl

@[simp] theorem length_answers (f : Feed) (rs : List Request) :
    (f.answers rs).length = rs.length := by
  induction rs generalizing f with
  | nil => rfl
  | cons r rs ih => simp [answers, ih]

end Feed

end ReleaseLog
