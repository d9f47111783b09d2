import ReleaseLog.Proofs.Git.Values
import ReleaseLog.Proofs.Publication.Outcome

/-!
# Questions to git

The three starts of git with their arguments, and what their replies come to. A git that starts for
the first question starts for the second one (`starts_remoteUrl`), and for the third one if it can
be handed the tag (`starts_log_iff`). It answers with its replies in order (`survey_client`).
-/

namespace ReleaseLog

open Publication

namespace Protocol

def describeCall (directory : Text) : List Text :=
  ["-C".toList, directory, "describe".toList, "--tags".toList, "--abbrev=0".toList,
    "--match".toList, "v[0-9]*".toList, "origin/master".toList]

def urlCall (directory : Text) : List Text :=
  ["-C".toList, directory, "remote".toList, "get-url".toList, "origin".toList]

def rangeFrom (tag : Text) : Text := tag ++ "..origin/master".toList

theorem append_append_eq_rangeFrom (tag : Text) :
    tag ++ "..".toList ++ "origin/master".toList = rangeFrom tag := by
  rw [List.append_assoc]
  rfl

def logCall (directory tag : Text) : List Text :=
  ["-C".toList, directory, "log".toList, "--format=%s".toList, rangeFrom tag]

def client (h : Host) (program directory : Text) : Git.Client :=
  ⟨program, some directory, {}, h⟩

def namedTag (replies : List Git.Reply) : Text :=
  (Git.value? (Text.ofUtf8 (replies.getD 0 {}).output)).getD []

/-- What the first reply tells when git is asked for the latest tag. -/
def tagQuery (c : Git.Client) (replies : List Git.Reply) : Except QueryFailure Text :=
  (c.received (Git.describeArguments {}) (replies.getD 0 {})).bind
    (Git.Client.readValue "describe".toList)

def urlQuery (c : Git.Client) (replies : List Git.Reply) : Except QueryFailure Text :=
  (c.received (Git.remoteUrlArguments {}) (replies.getD 1 {})).bind
    (Git.Client.readValue "remote get-url".toList)

def subjectsQuery (c : Git.Client) (replies : List Git.Reply) (tag : Text) :
    Except QueryFailure (List Text) :=
  (c.received (Git.logArguments (rangeFrom tag)) (replies.getD 2 {})).bind
    fun output => .ok (Git.subjects output)

def survey (c : Git.Client) (replies : List Git.Reply) : Survey :=
  ⟨tagQuery c replies, urlQuery c replies, subjectsQuery c replies⟩

/-- What is read from a start of git was printed by a git that exited with status zero. -/
theorem read_value_of_received {c : Git.Client} {arguments : List Text} {reply : Git.Reply}
    {command value : Text}
    (h : (c.received arguments reply).bind (Git.Client.readValue command) = .ok value) :
    c.starts arguments = true ∧ reply.ending = .exited 0 ∧
      Git.value? (Text.ofUtf8 reply.output) = some value := by
  cases hr : c.received arguments reply with
  | error cause => simp [hr, Except.bind] at h
  | ok output =>
    have hstarts := Git.Client.starts_of_received hr
    rw [hr] at h
    rw [Git.Client.received_of_starts hstarts] at hr
    obtain ⟨hending, hout⟩ := Git.Reply.read_eq_ok_iff.mp hr
    refine ⟨hstarts, hending, ?_⟩
    rw [hout]
    exact Git.Client.readValue_eq_ok_iff.mp h

theorem namedTag_of_tagQuery {c : Git.Client} {replies : List Git.Reply} {tag : Text}
    (h : tagQuery c replies = .ok tag) : namedTag replies = tag := by
  obtain ⟨_, _, hv⟩ := read_value_of_received h
  simp only [namedTag, hv, Option.getD_some]

theorem starts_describe_of_tagQuery {c : Git.Client} {replies : List Git.Reply} {tag : Text}
    (h : tagQuery c replies = .ok tag) : c.starts (Git.describeArguments {}) = true :=
  (read_value_of_received h).1

/-! ## What the three starts have in common -/

theorem all_transferable_describeCall (directory : Text) :
    (describeCall directory).all Path.transferable = Path.transferable directory := by
  simp only [describeCall, List.all_cons]
  cases Path.transferable directory <;> decide

theorem all_transferable_urlCall (directory : Text) :
    (urlCall directory).all Path.transferable = Path.transferable directory := by
  simp only [urlCall, List.all_cons]
  cases Path.transferable directory <;> decide

theorem transferable_rangeFrom (tag : Text) :
    Path.transferable (rangeFrom tag) = Path.transferable tag := by
  have hrest : ("..origin/master".toList).contains '\x00' = false := by decide
  unfold Path.transferable rangeFrom
  rw [List.contains_append, hrest, Bool.or_false]

theorem all_transferable_logCall (directory tag : Text) :
    (logCall directory tag).all Path.transferable =
      (Path.transferable directory && Path.transferable tag) := by
  simp only [logCall, List.all_cons, transferable_rangeFrom]
  cases Path.transferable directory <;> cases Path.transferable tag <;> decide

/-- Who is handed the question for the tag can be handed the one for the URL, which is shorter. -/
theorem takes_urlCall {h : Host} {path program directory : Text}
    (ht : h.takes path (program :: describeCall directory) = true) :
    h.takes path (program :: urlCall directory) = true := by
  have hlength : ∀ t ∈ Git.remoteUrlArguments {}, (Text.utf8 t).length ≤ Host.maxArgument :=
    List.forall_iff_forall_mem.mp (by decide)
  have hsize : Host.size (Git.remoteUrlArguments {}) ≤ Host.size (Git.describeArguments {}) := by
    decide
  exact Host.takes_append_of_size_le [program, "-C".toList, directory] ht hlength hsize

section Starts

variable {h : Host} {program directory : Text}
  (hs : (client h program directory).starts (Git.describeArguments {}) = true)

include hs

theorem starts_remoteUrl :
    (client h program directory).starts (Git.remoteUrlArguments {}) = true := by
  obtain ⟨⟨path, hp, ht⟩, hprogram, hcut⟩ :=
    Git.Client.start_eq_ok_iff.mp (Git.Client.starts_iff.mp hs)
  have hurl : (urlCall directory).all Path.transferable = true := by
    rw [all_transferable_urlCall, ← all_transferable_describeCall]
    exact hcut
  exact (Git.Client.starts_iff_of_programFor hp).mpr ⟨takes_urlCall ht, hprogram, hurl⟩

/-- A git that started for the tag starts for the log, unless the tag is in the way. -/
theorem starts_log_iff (hp : h.programFor program = .ok program) {tag : Text} :
    (client h program directory).starts (Git.logArguments (rangeFrom tag)) = true ↔
      '\x00' ∉ tag ∧ h.takes program (program :: logCall directory tag) = true := by
  obtain ⟨_, hprogram, hcut⟩ := (Git.Client.starts_iff_of_programFor hp).mp hs
  have hdirectory : Path.transferable directory = true :=
    (all_transferable_describeCall directory).symm.trans hcut
  have hlog : (logCall directory tag).all Path.transferable = true ↔ '\x00' ∉ tag := by
    rw [all_transferable_logCall, hdirectory, Bool.true_and, Path.transferable_iff]
  rw [Git.Client.starts_iff_of_programFor hp, ← hlog]
  exact ⟨fun ⟨ht, _, hall⟩ => ⟨hall, ht⟩, fun ⟨hall, ht⟩ => ⟨ht, hprogram, hall⟩⟩

end Starts

/-! ## The replies in order -/

section Answers

variable (h : Host) (program directory : Text) (e : Git.Exchange)

theorem latestTag_client :
    ((client h program directory).latestTag e).result =
        ((client h program directory).received (Git.describeArguments {})
          (e.replies.headD {})).bind (Git.Client.readValue "describe".toList) ∧
      ((client h program directory).latestTag e).state =
        (client h program directory).leaves (Git.describeArguments {}) e :=
  (client h program directory).read_run (Git.describeArguments {}) e _

theorem remoteUrl_client :
    ((client h program directory).remoteUrl e).result =
        ((client h program directory).received (Git.remoteUrlArguments {})
          (e.replies.headD {})).bind (Git.Client.readValue "remote get-url".toList) ∧
      ((client h program directory).remoteUrl e).state =
        (client h program directory).leaves (Git.remoteUrlArguments {}) e :=
  (client h program directory).read_run (Git.remoteUrlArguments {}) e _

theorem subjectsBetween_client (tag : Text) :
    ((client h program directory).subjectsBetween tag "origin/master".toList e).result =
        ((client h program directory).received (Git.logArguments (rangeFrom tag))
          (e.replies.headD {})).bind (fun output => .ok (Git.subjects output)) ∧
      ((client h program directory).subjectsBetween tag "origin/master".toList e).state =
        (client h program directory).leaves (Git.logArguments (rangeFrom tag)) e := by
  unfold Git.Client.subjectsBetween Git.Client.log
  rw [append_append_eq_rangeFrom]
  exact (client h program directory).read_run (Git.logArguments (rangeFrom tag)) e _

end Answers

section Replies

variable (h : Host) (program directory : Text) (replies : List Git.Reply)

def before (replies : List Git.Reply) : Git.Exchange := ⟨replies, []⟩

def afterDescribe : Git.Exchange :=
  ((client h program directory).latestTag (before replies)).state

def afterGetUrl : Git.Exchange :=
  ((client h program directory).remoteUrl (afterDescribe h program directory replies)).state

variable {h program directory}

theorem calls_afterDescribe :
    (afterDescribe h program directory replies).calls =
      if (client h program directory).starts (Git.describeArguments {}) then
        [describeCall directory] else [] := by
  rw [afterDescribe, (latestTag_client h program directory _).2, Git.Client.leaves]
  split <;> rfl

variable (hs : (client h program directory).starts (Git.describeArguments {}) = true)

include hs

theorem afterDescribe_eq :
    afterDescribe h program directory replies = ⟨replies.drop 1, [describeCall directory]⟩ := by
  rw [afterDescribe, (latestTag_client h program directory _).2, Git.Client.leaves, if_pos hs,
    List.drop_one]
  rfl

theorem afterGetUrl_eq :
    afterGetUrl h program directory replies =
      ⟨replies.drop 2, [describeCall directory, urlCall directory]⟩ := by
  rw [afterGetUrl, (remoteUrl_client h program directory _).2, afterDescribe_eq replies hs,
    Git.Client.leaves, if_pos (starts_remoteUrl hs), List.tail_drop]
  rfl

theorem calls_afterLog (tag : Text) :
    ((client h program directory).subjectsBetween tag "origin/master".toList
        (afterGetUrl h program directory replies)).state.calls =
      [describeCall directory, urlCall directory] ++
        if (client h program directory).starts (Git.logArguments (rangeFrom tag)) then
          [logCall directory tag] else [] := by
  rw [(subjectsBetween_client h program directory _ tag).2, afterGetUrl_eq replies hs,
    Git.Client.leaves]
  split <;> rfl

end Replies

theorem survey_client (h : Host) (program directory : Text) (replies : List Git.Reply) :
    ((client h program directory).repository.survey {} (before replies)).Agrees
      (survey (client h program directory) replies) where
  tag := by
    have hread := (latestTag_client h program directory (before replies)).1
    rw [show (before replies).replies = replies.drop 0 from rfl, Git.headD_drop] at hread
    exact hread
  url := by
    intro tag ht
    have hs := starts_describe_of_tagQuery ht
    have hread :=
      (remoteUrl_client h program directory (afterDescribe h program directory replies)).1
    rw [afterDescribe_eq replies hs, Git.headD_drop, ← afterDescribe_eq replies hs] at hread
    exact hread
  subjects := by
    intro tag url ht _
    have hs := starts_describe_of_tagQuery ht
    have hread := (subjectsBetween_client h program directory
      (afterGetUrl h program directory replies) tag).1
    rw [afterGetUrl_eq replies hs, Git.headD_drop, ← afterGetUrl_eq replies hs] at hread
    exact hread

end Protocol

end ReleaseLog
