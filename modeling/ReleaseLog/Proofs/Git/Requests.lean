import ReleaseLog.Proofs.Git.Located

/-!
# Requests to a client

A request that git starts for uses up one reply, and a request that it does not start for uses up
none. So the replies go in order to the requests that git started for, whatever stands between them
(`requests_answered_in_turn`). A start can fail though no text is cut short: the system refuses an
argument that is too long for it (`long_request_leaves_its_reply`).
-/

namespace ReleaseLog

namespace Git

namespace Client

namespace Request

/-- What git is asked for a request, the directory left out. -/
def arguments (s : Settings) : Request → List Text
  | .latestTag | .describe => describeArguments s
  | .remoteUrl | .getUrl => remoteUrlArguments s
  | .subjects tag mainline => logArguments (tag ++ "..".toList ++ mainline)
  | .log range => logArguments range
  | .run arguments => arguments

def response : Request → Text → Except QueryFailure Response
  | .latestTag, output => (readValue "describe".toList output).bind fun t => .ok (.text t)
  | .remoteUrl, output => (readValue "remote get-url".toList output).bind fun t => .ok (.text t)
  | .subjects _ _, output => .ok (.texts (Git.subjects output))
  | .describe, output | .getUrl, output | .log _, output | .run _, output => .ok (.text output)

end Request

variable (c : Client) (e : Exchange) (r : Request) (rs : List Request)

def call : List Text := c.callArguments (r.arguments c.settings)

/-- Git is there to be started for a request, and no NUL cuts anything short. -/
structure Uncut : Prop where
  program : ∃ path, c.host.programFor c.program = .ok path
  program_uncut : '\x00' ∉ c.program
  directory_uncut : ∀ t ∈ c.directory, '\x00' ∉ t
  arguments_uncut : ∀ t ∈ r.arguments c.settings, '\x00' ∉ t

/-- Git starts for a request: nothing is cut short, and the system takes the arguments. -/
structure Starts : Prop extends c.Uncut r where
  taken : ∀ path, c.host.programFor c.program = .ok path →
    c.host.takes path (c.program :: c.call r) = true

theorem start_eq_ok_iff_starts : c.start (r.arguments c.settings) = .ok () ↔ c.Starts r := by
  rw [start_eq_ok_iff, Path.transferable_iff, all_transferable_callArguments_iff]
  constructor
  · rintro ⟨⟨path, hp, ht⟩, hcut, hd, ha⟩
    refine ⟨⟨⟨path, hp⟩, hcut, hd, ha⟩, fun path' hp' => ?_⟩
    obtain rfl : path = path' := Except.ok.inj (hp.symm.trans hp')
    exact ht
  · intro h
    obtain ⟨path, hp⟩ := h.program
    exact ⟨⟨path, hp, h.taken path hp⟩, h.program_uncut, h.directory_uncut, h.arguments_uncut⟩

instance : Decidable (c.Starts r) :=
  match hstart : c.start (r.arguments c.settings) with
  | .ok () => .isTrue ((c.start_eq_ok_iff_starts r).mp hstart)
  | .error _ => .isFalse (mt (c.start_eq_ok_iff_starts r).mpr (by simp [hstart]))

theorem start_of_long {path t : Text} (hu : c.Uncut r) (hp : c.host.programFor c.program = .ok path)
    (ht : t ∈ c.call r) (hlong : Host.maxArgument < t.length) :
    c.start (r.arguments c.settings) = .error (.fault .argumentsTooLong) := by
  have hprogram := Path.transferable_iff.mpr hu.program_uncut
  have hall : (c.call r).all Path.transferable = true :=
    all_transferable_callArguments_iff.mpr ⟨hu.directory_uncut, hu.arguments_uncut⟩
  have htakes : c.host.takes path (c.program :: c.call r) = false :=
    Host.not_takes_of_long (List.mem_cons_of_mem _ ht) hlong
  rw [start_of_programFor hprogram hp]
  unfold call at hall htakes
  simp only [hall, htakes, if_true, Bool.false_eq_true, if_false]

/-! ## One request -/

/-- Every request is one start of git, from whose reply the response is read. -/
theorem answer_eq : c.answer e r = (c.run (r.arguments c.settings) e).read r.response := by
  cases r with
  | latestTag | remoteUrl | subjects => exact Answer.read_read _ _ _
  | describe | getUrl | log | run => rfl

theorem records_answer : (c.answer e r).records = [.runningGit (r.arguments c.settings)] := by
  rw [answer_eq, Answer.read_records, run_records]

variable {r}

theorem state_answer_of_starts (h : c.Starts r) :
    (c.answer e r).state = ⟨e.replies.tail, e.calls ++ [c.call r]⟩ := by
  rw [answer_eq, Answer.read_state, run, (c.start_eq_ok_iff_starts r).mpr h]
  rfl

theorem result_answer_of_starts (h : c.Starts r) :
    (c.answer e r).result = (e.replies.headD {}).read.bind r.response := by
  rw [answer_eq, run, (c.start_eq_ok_iff_starts r).mpr h]
  rfl

theorem state_answer_of_not_starts (h : ¬ c.Starts r) : (c.answer e r).state = e := by
  rw [answer_eq, Answer.read_state]
  cases hstart : c.start (r.arguments c.settings) with
  | error cause => exact run_state_of_not_started hstart e
  | ok u => exact absurd ((c.start_eq_ok_iff_starts r).mp hstart) h

/-! ## A list of requests -/

theorem exchangeAfter_eq :
    c.exchangeAfter e rs =
      ⟨e.replies.drop (rs.countP fun r => c.Starts r),
        e.calls ++ (rs.filter fun r => c.Starts r).map c.call⟩ := by
  induction rs generalizing e with
  | nil => simp [exchangeAfter]
  | cons r rs ih =>
    rw [exchangeAfter, ih]
    by_cases h : c.Starts r
    · simp [state_answer_of_starts c e h, h]
    · simp [state_answer_of_not_starts c e h, h]

theorem length_answers : (c.answers e rs).length = rs.length := by
  induction rs generalizing e with
  | nil => rfl
  | cons r rs ih => exact congrArg (· + 1) (ih (c.answer e r).state)

theorem records_answers :
    (c.answers e rs).map (·.records) =
      rs.map fun r => [.runningGit (r.arguments c.settings)] := by
  induction rs generalizing e with
  | nil => rfl
  | cons r rs ih => rw [answers, List.map_cons, List.map_cons, records_answer, ih]

theorem results_of_starts (h : ∀ r ∈ rs, c.Starts r) :
    (c.answers e rs).map (·.result) =
      rs.mapIdx fun k r => (e.replies.getD k {}).read.bind r.response := by
  induction rs generalizing e with
  | nil => rfl
  | cons r rs ih =>
    obtain ⟨hr, hrs⟩ := List.forall_mem_cons.mp h
    rw [answers, List.map_cons, ih _ hrs, state_answer_of_starts c e hr,
      result_answer_of_starts c e hr, List.mapIdx_cons]
    simp [List.head?_eq_getElem?]

/-- The requests that git starts for and their answers are the same without the others. -/
theorem zip_answers_filter :
    (rs.filter fun r => c.Starts r).zip (c.answers e (rs.filter fun r => c.Starts r)) =
      (rs.zip (c.answers e rs)).filter fun p => c.Starts p.1 := by
  induction rs generalizing e with
  | nil => rfl
  | cons r rs ih =>
    rw [answers, List.zip_cons_cons]
    by_cases h : c.Starts r
    · rw [List.filter_cons_of_pos (by simpa using h), List.filter_cons_of_pos (by simpa using h),
        answers, List.zip_cons_cons, ih]
    · rw [List.filter_cons_of_neg (by simpa using h), List.filter_cons_of_neg (by simpa using h),
        ← ih, state_answer_of_not_starts c e h]

theorem exchangeAfter_filter :
    c.exchangeAfter e (rs.filter fun r => c.Starts r) = c.exchangeAfter e rs := by
  simp [exchangeAfter_eq, List.countP_eq_length_filter]

theorem calls_exchangeAfter (replies : List Reply) :
    (c.exchangeAfter ⟨replies, []⟩ rs).calls = (rs.filter fun r => c.Starts r).map c.call := by
  rw [exchangeAfter_eq, List.nil_append]

theorem call_eq : c.call = fun r =>
    (c.directory.toList.flatMap fun d => ["-C".toList, d]) ++ r.arguments c.settings := by
  funext r
  unfold call callArguments
  cases c.directory <;> rfl

/-- The calls are those of the requests that git starts for. The first of these is answered by the
first reply, the next by the next, and by an empty one when none is left; what git does not start
for might as well not have been asked, but for the record that every request leaves. -/
theorem requests_answered_in_turn (c : Client) (replies : List Reply) (rs : List Request) :
    let e : Exchange := ⟨replies, []⟩
    let started := rs.filter fun r => c.Starts r
    let answered := (rs.zip (c.answers e rs)).filter fun p => c.Starts p.1
    (c.exchangeAfter e rs).calls = started.map (fun r =>
        (c.directory.toList.flatMap fun d => ["-C".toList, d]) ++ r.arguments c.settings) ∧
      answered.map (·.1) = started ∧
      answered.map (·.2.result) =
        started.mapIdx (fun k r => (replies.getD k {}).read.bind r.response) ∧
      (c.answers e rs).map (·.records) =
        rs.map (fun r => [.runningGit (r.arguments c.settings)]) ∧
      c.exchangeAfter e started = c.exchangeAfter e rs ∧
      started.zip (c.answers e started) = answered := by
  intro e started answered
  have hanswered : started.zip (c.answers e started) = answered := c.zip_answers_filter e rs
  have hlength : (c.answers e started).length = started.length := c.length_answers e started
  have hrequests : (started.zip (c.answers e started)).map (·.1) = started :=
    List.map_fst_zip (Nat.le_of_eq hlength.symm)
  have hanswers : (started.zip (c.answers e started)).map (·.2) = c.answers e started :=
    List.map_snd_zip (Nat.le_of_eq hlength)
  rw [hanswered] at hrequests hanswers
  have hstarts : ∀ r ∈ started, c.Starts r := by
    intro r hr
    exact of_decide_eq_true (List.mem_filter.mp hr).2
  refine ⟨?_, hrequests, ?_, c.records_answers e rs, c.exchangeAfter_filter e rs, hanswered⟩
  · rw [calls_exchangeAfter, call_eq]
  · rw [← c.results_of_starts e started hstarts, ← hanswers, List.map_map]
    rfl

def rootClient : Client := ⟨"/git".toList, none, {}, rootHost⟩

def requestsWith (argument : Text) : List Request := [.run [argument], .run [['x']]]

theorem uncut_requestsWith {argument : Text} (hcut : '\x00' ∉ argument) :
    ∀ r ∈ requestsWith argument, rootClient.Uncut r := by
  have hprogram := Host.programFor_of_findGit findGit_rootHost
  intro r hr
  refine ⟨⟨_, hprogram⟩, by decide, by simp [rootClient], fun t ht => ?_⟩
  simp only [requestsWith, List.mem_cons, List.not_mem_nil, or_false] at hr
  rcases hr with rfl | rfl
  · obtain rfl := List.mem_singleton.mp ht
    exact hcut
  · obtain rfl := List.mem_singleton.mp ht
    decide

theorem run_rootClient_of_long {argument : Text} (hcut : '\x00' ∉ argument)
    (hlong : Host.maxArgument < argument.length) (e : Exchange) :
    rootClient.run [argument] e =
      ⟨.error (.fault .argumentsTooLong), e, [.runningGit [argument]]⟩ := by
  have huncut := uncut_requestsWith hcut (.run [argument]) List.mem_cons_self
  have hstart : rootClient.start [argument] = .error (.fault .argumentsTooLong) :=
    rootClient.start_of_long _ huncut (Host.programFor_of_findGit findGit_rootHost)
      List.mem_cons_self hlong
  rw [run, hstart]

/-- The first of two requests has an argument that is too long by a byte. It is no call, and it
leaves its reply to the second. -/
theorem long_request_leaves_its_reply :
    let rs := requestsWith (List.replicate 131072 'a')
    let e : Exchange := ⟨[{ output := Text.utf8 ['a'] }, { output := Text.utf8 ['b'] }], []⟩
    (∀ r ∈ rs, rootClient.Uncut r) ∧
      (rootClient.exchangeAfter e rs).calls ≠ rs.map rootClient.call ∧
      (rootClient.answers e rs).map (·.result) =
        [.error (.fault .argumentsTooLong), .ok (.text ['a'])] := by
  intro rs e
  have hcut : '\x00' ∉ List.replicate 131072 'a' := fun h =>
    absurd (List.eq_of_mem_replicate h) (by decide)
  have hlong : Host.maxArgument < (List.replicate 131072 'a').length := by
    rw [List.length_replicate]
    decide
  unfold rs
  generalize List.replicate 131072 'a' = argument at hcut hlong
  have hfirst := run_rootClient_of_long hcut hlong e
  have hsecond : rootClient.run [['x']] e = ⟨.ok ['a'], ⟨e.replies.tail, [[['x']]]⟩,
      [.runningGit [['x']]]⟩ := rfl
  refine ⟨uncut_requestsWith hcut, ?_, ?_⟩
  · simp [requestsWith, exchangeAfter, answer_eq, Request.arguments, hfirst, hsecond]
  · simp only [requestsWith, answers, answer_eq, Request.arguments, hfirst, Answer.read_state,
      hsecond]
    rfl

end Client

end Git

end ReleaseLog
