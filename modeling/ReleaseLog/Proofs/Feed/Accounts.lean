import ReleaseLog.Proofs.Feed.ClosedForms

/-!
# Accounts of a feed

Whatever is asked of a feed and in whatever order, all that it was given is accounted for after
every request: an element has been taken by one pull or is still in the queue, and a subject that
has been taken has come up as a bullet or has been skipped (`requests_accounted`). So no schedule of
requests loses a bullet.
-/

namespace ReleaseLog

namespace Feed

namespace Request

def items : Request → List (Option Text)
  | .push items => items
  | _ => []

/-- How many bullets come up for a request at most. -/
def limit (f : Feed) : Request → Nat
  | .push _ => 0
  | .next => 1
  | .nth n => n + 1
  | .take n => n
  | .rest | .count | .last => f.queue.length + 1

def response : Request → List Bullet → Response
  | .push _, _ => .nothing
  | .next, bs => .bullet bs.head?
  | .nth n, bs => .bullet bs[n]?
  | .take _, bs | .rest, bs => .bullets bs
  | .count, bs => .number bs.length
  | .last, bs => .bullet bs.getLast?

/-- Whether the answer to a request holds all the bullets that have come up for it. -/
def keepsAll : Request → Bool
  | .nth n => n = 0
  | .count | .last => false
  | _ => true

end Request

def Response.delivered : Response → List Bullet
  | .bullet b => b.toList
  | .bullets bs => bs
  | .nothing | .number _ => []

/-- The bullets that come up for a request, also those that its answer leaves out. -/
def drawn (f : Feed) (r : Request) : Delivery (List Bullet) := take (r.limit f) (f.push r.items)

def draws : Feed → List Request → List (Delivery (List Bullet))
  | _, [] => []
  | f, r :: rs => f.drawn r :: draws (f.answer r).feed rs

def after : Feed → List Request → Feed
  | f, [] => f
  | f, r :: rs => after (f.answer r).feed rs

@[simp] theorem push_nil (f : Feed) : f.push [] = f := by simp [push]

@[simp] theorem base_push (f : Feed) (items : List (Option Text)) :
    (f.push items).base = f.base := rfl

@[simp] theorem pulled_push (f : Feed) (items : List (Option Text)) :
    (f.push items).pulled = f.pulled := rfl

@[simp] theorem queue_push (f : Feed) (items : List (Option Text)) :
    (f.push items).queue = f.queue ++ items := rfl

theorem drawn_eq_take (f : Feed) {r : Request} (h : r.items = []) :
    f.drawn r = take (r.limit f) f := by rw [drawn, h, push_nil]

theorem flatMap_draws_rest (f : Feed) : (f.draws [.rest]).flatMap (·.result) = f.rest.result := by
  rw [draws, draws, List.flatMap_singleton, f.drawn_eq_take rfl]
  rfl

theorem answer_eq (f : Feed) (r : Request) : f.answer r = (f.drawn r).map r.response := by
  cases r with
  | push items => rfl
  | next =>
    rw [f.drawn_eq_take rfl, Request.limit, take_one]
    cases h : f.next.result <;> simp [answer, Delivery.map, Request.response, h]
  | nth n | take n | rest | count | last =>
    rw [f.drawn_eq_take rfl]
    rfl

theorem answers_eq (f : Feed) (rs : List Request) :
    f.answers rs = List.zipWith (fun r d => d.map r.response) rs (f.draws rs) := by
  induction rs generalizing f with
  | nil => rfl
  | cons r rs ih => rw [answers, draws, List.zipWith_cons_cons, ih, ← answer_eq]

theorem length_drawn_le (f : Feed) (r : Request) : (f.drawn r).result.length ≤ r.limit f := by
  obtain ⟨_, _, _, hle, _⟩ := exists_pulls_take (r.limit f) (f.push r.items)
  exact hle

theorem delivered_answer {f : Feed} {r : Request} (h : r.keepsAll = true) :
    (f.answer r).result.delivered = (f.drawn r).result := by
  have hle := f.length_drawn_le r
  rw [answer_eq, Delivery.map_result]
  generalize (f.drawn r).result = bs at hle ⊢
  cases r with
  | push items => exact (List.length_eq_zero_iff.mp (Nat.le_zero.mp hle)).symm
  | next =>
    cases bs with
    | nil => rfl
    | cons b bs => simp_all [Request.limit, Request.response, Response.delivered]
  | nth n =>
    obtain rfl : n = 0 := by simpa [Request.keepsAll] using h
    cases bs with
    | nil => rfl
    | cons b bs => simp_all [Request.limit, Request.response, Response.delivered]
  | take n | rest => rfl
  | count | last => cases h

/-- One request and the pulls it is answered by. At most one of them meets no subject. -/
structure Step (f : Feed) (r : Request) (ps : List Pull) : Prop where
  pulls : Pulls (f.push r.items) ps (f.answer r).feed
  yields : Yields f.base ps (f.drawn r).result (f.answer r).skipped
  stops : ps.countP Pull.isStop ≤ 1

theorem exists_step (f : Feed) (r : Request) : ∃ ps, Step f r ps := by
  obtain ⟨ps, hp, hy, _, hstop⟩ := exists_pulls_take (r.limit f) (f.push r.items)
  refine ⟨ps, ?_, ?_, ?_⟩
  · rw [answer_eq]
    exact hp
  · rw [answer_eq]
    exact hy
  · rw [hstop]
    split <;> omega

/-- A list of requests and the pulls that each of them is answered by. -/
inductive History : Feed → List Request → List (List Pull) → Prop
  | nil (f : Feed) : History f [] []
  | cons {f : Feed} {r : Request} {rs : List Request} {ps : List Pull} {hs : List (List Pull)}
    (step : Step f r ps) (rest : History (f.answer r).feed rs hs) : History f (r :: rs) (ps :: hs)

theorem exists_history (f : Feed) (rs : List Request) : ∃ hs, History f rs hs := by
  induction rs generalizing f with
  | nil => exact ⟨[], .nil f⟩
  | cons r rs ih =>
    obtain ⟨ps, hstep⟩ := exists_step f r
    obtain ⟨hs, hrest⟩ := ih (f.answer r).feed
    exact ⟨ps :: hs, .cons hstep hrest⟩

theorem History.take {f : Feed} {rs : List Request} {hs : List (List Pull)} (h : History f rs hs)
    (n : Nat) : History f (rs.take n) (hs.take n) := by
  induction h generalizing n with
  | nil f =>
    rw [List.take_nil, List.take_nil]
    exact .nil f
  | cons hstep _ ih =>
    cases n with
    | zero => exact .nil _
    | succ n => exact .cons hstep (ih n)

/-- What a list of requests has done to a queue, by the pulls they were answered by: where its
elements and those pushed have gone, what has come of the subjects taken, and how the pulls
count. -/
structure Account (f : Feed) (rs : List Request) (hs : List (List Pull)) : Prop where
  elements : f.queue ++ rs.flatMap Request.items = consumed hs.flatten ++ (f.after rs).queue
  bullets : (f.draws rs).flatMap (·.result) = Bullet.ofSubjects f.base (subjects hs.flatten)
  skipped : (f.answers rs).flatMap (·.skipped) = Bullet.unreferenced f.base (subjects hs.flatten)
  pulled : (f.after rs).pulled =
    f.pulled + (consumed hs.flatten).length + hs.flatten.count .nothing
  stops : ∀ ps ∈ hs, ps.countP Pull.isStop ≤ 1

theorem History.account {f : Feed} {rs : List Request} {hs : List (List Pull)}
    (h : History f rs hs) : Account f rs hs := by
  induction h with
  | nil f => exact ⟨by simp [consumed, after], rfl, rfl, rfl, by simp⟩
  | @cons f r rs ps hs hstep _ ih =>
    have hbase : (f.answer r).feed.base = f.base := hstep.pulls.base_eq
    have hqueue : f.queue ++ r.items = consumed ps ++ (f.answer r).feed.queue :=
      hstep.pulls.queue_eq
    have hpulled := hstep.pulls.pulled_eq
    rw [pulled_push] at hpulled
    have hbullets := ih.bullets
    have hskipped := ih.skipped
    rw [hbase] at hbullets hskipped
    constructor
    case elements =>
      rw [List.flatMap_cons, ← List.append_assoc, hqueue, List.append_assoc, ih.elements,
        ← List.append_assoc, after, consumed, consumed, consumed, List.flatten_cons,
        List.filterMap_append]
    case bullets =>
      rw [draws, List.flatMap_cons, hbullets, hstep.yields.bullets, List.flatten_cons,
        subjects_append, Bullet.ofSubjects_append]
    case skipped =>
      rw [answers, List.flatMap_cons, hskipped, hstep.yields.skipped, List.flatten_cons,
        subjects_append, Bullet.unreferenced_append]
    case pulled =>
      rw [after, ih.pulled, hpulled, List.flatten_cons, List.count_append, consumed, consumed,
        consumed, List.filterMap_append, List.length_append]
      omega
    case stops =>
      intro qs hqs
      rcases List.mem_cons.mp hqs with rfl | hqs
      · exact hstep.stops
      · exact ih.stops qs hqs

theorem flatMap_delivered_answers {f : Feed} {rs : List Request}
    (h : ∀ r ∈ rs, r.keepsAll = true) :
    (f.answers rs).flatMap (·.result.delivered) = (f.draws rs).flatMap (·.result) := by
  induction rs generalizing f with
  | nil => rfl
  | cons r rs ih =>
    rw [answers, draws, List.flatMap_cons, List.flatMap_cons, delivered_answer (h r (by simp)),
      ih fun r' hr' => h r' (List.mem_cons_of_mem r hr')]

theorem after_append (f : Feed) (rs ss : List Request) :
    f.after (rs ++ ss) = (f.after rs).after ss := by
  induction rs generalizing f with
  | nil => rfl
  | cons r rs ih => exact ih (f.answer r).feed

/-- Without pauses all that is there is taken when the rest is asked for. -/
theorem queue_rest_eq_nil {f : Feed} (h : none ∉ f.queue) : f.rest.feed.queue = [] := by
  rw [rest_eq]
  exact beyond_eq_nil h

/-- Without pauses the bullets that come up until nothing is left are those of all subjects. -/
theorem bullets_of_rest (f : Feed) (rs : List Request)
    (h : none ∉ f.queue ++ rs.flatMap Request.items) :
    (f.draws (rs ++ [.rest])).flatMap (·.result) =
      Bullet.ofSubjects f.base ((f.queue ++ rs.flatMap Request.items).filterMap id) := by
  obtain ⟨hs, hhistory⟩ := exists_history f (rs ++ [.rest])
  obtain ⟨ks, hbefore⟩ := exists_history f rs
  have hleft : none ∉ (f.after rs).queue := by
    rw [hbefore.account.elements] at h
    exact fun hm => h (List.mem_append_right _ hm)
  have hempty : (f.after (rs ++ [.rest])).queue = [] := by
    rw [after_append]
    exact queue_rest_eq_nil hleft
  have helements := hhistory.account.elements
  rw [hempty, List.append_nil, List.flatMap_append] at helements
  rw [hhistory.account.bullets, subjects_eq, ← helements]
  simp [Request.items]

end Feed

end ReleaseLog
