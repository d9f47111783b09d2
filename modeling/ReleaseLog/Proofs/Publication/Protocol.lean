import ReleaseLog.Proofs.Host.Search
import ReleaseLog.Proofs.Publication.Queries

/-!
# The query protocol

A run on a host starts git three times at most, in a fixed order, and each start waits for what
came before it: the tag has to be known and its line written before anything else is asked. The tag
that git names first is the one that is written, asked for and reported.
-/

namespace ReleaseLog

open Publication

namespace Protocol

/-- The second question is asked when the first one names a tag and its line is taken in full. -/
def AsksUrl (c : Git.Client) (replies : List Git.Reply) (d : Device) (tag : Text) : Prop :=
  tagQuery c replies = .ok tag ∧ d.HasRoomFor (tagText tag).utf8

/-- The third question is asked when the second one tells the URL, too. -/
def AsksSubjects (c : Git.Client) (replies : List Git.Reply) (d : Device) (tag url : Text) :
    Prop :=
  AsksUrl c replies d tag ∧ urlQuery c replies = .ok url

section CallsMade

variable (c : Git.Client) (directory : Text) (replies : List Git.Reply) (d : Device)

def callsMade : List (List Text) :=
  if c.starts (Git.describeArguments {}) then
    describeCall directory ::
      match tagQuery c replies with
      | .error _ => []
      | .ok tag =>
        if d.HasRoomFor (tagText tag).utf8 then
          urlCall directory ::
            match urlQuery c replies with
            | .error _ => []
            | .ok _ =>
              if c.starts (Git.logArguments (rangeFrom tag)) then [logCall directory tag] else []
        else []
  else []

theorem callsMade_prefix :
    callsMade c directory replies d <+:
      [describeCall directory, urlCall directory, logCall directory (namedTag replies)] := by
  unfold callsMade
  split
  · apply List.prefix_cons_inj _ |>.mpr
    cases ht : tagQuery c replies with
    | error cause => exact List.nil_prefix
    | ok tag =>
      rw [namedTag_of_tagQuery ht]
      dsimp only
      split
      · apply List.prefix_cons_inj _ |>.mpr
        cases urlQuery c replies with
        | error cause => exact List.nil_prefix
        | ok url =>
          dsimp only
          split
          · exact List.prefix_rfl
          · exact List.nil_prefix
      · exact List.nil_prefix
  · exact List.nil_prefix

variable {c directory replies d}

theorem two_le_length_callsMade_iff :
    2 ≤ (callsMade c directory replies d).length ↔ ∃ tag, AsksUrl c replies d tag := by
  unfold callsMade AsksUrl
  cases ht : tagQuery c replies with
  | error cause => split <;> simp
  | ok tag =>
    have hs := starts_describe_of_tagQuery ht
    simp only [hs, if_true]
    by_cases hroom : d.HasRoomFor (tagText tag).utf8
    · refine iff_of_true ?_ ⟨tag, rfl, hroom⟩
      simp only [hroom, if_true, List.length_cons]
      omega
    · simp [hroom]

theorem three_le_length_callsMade_iff :
    3 ≤ (callsMade c directory replies d).length ↔
      ∃ tag url, AsksSubjects c replies d tag url ∧
        c.starts (Git.logArguments (rangeFrom tag)) = true := by
  unfold callsMade AsksSubjects AsksUrl
  cases ht : tagQuery c replies with
  | error cause => split <;> simp
  | ok tag =>
    have hs := starts_describe_of_tagQuery ht
    simp only [hs, if_true]
    by_cases hroom : d.HasRoomFor (tagText tag).utf8
    · cases hu : urlQuery c replies with
      | error cause => simp [hroom]
      | ok url =>
        simp only [hroom, if_true, List.length_cons]
        constructor
        · intro hlength
          split at hlength
          · next hl => exact ⟨tag, url, ⟨⟨rfl, hroom⟩, rfl⟩, hl⟩
          · exact absurd hlength (by decide)
        · rintro ⟨tag', _, ⟨⟨htag, _⟩, _⟩, hl⟩
          rw [if_pos (Except.ok.inj htag ▸ hl), List.length_singleton]
    · simp [hroom]

theorem starts_of_logCall_mem {tag : Text} (ht : tagQuery c replies = .ok tag)
    (hmem : logCall directory tag ∈ callsMade c directory replies d) :
    c.starts (Git.logArguments (rangeFrom tag)) = true := by
  have hdescribe : logCall directory tag ≠ describeCall directory := by simp [logCall, describeCall]
  have hurl : logCall directory tag ≠ urlCall directory := by simp [logCall, urlCall]
  have hs := starts_describe_of_tagQuery ht
  by_cases hl : c.starts (Git.logArguments (rangeFrom tag)) = true
  · exact hl
  · simp only [callsMade, hs, ht, hl, if_true] at hmem
    split at hmem
    · cases hu : urlQuery c replies <;> simp [hdescribe, hurl, hu] at hmem
    · simp [hdescribe] at hmem

end CallsMade

/-- A run looks for git first, and it is over if there is none. -/
theorem publishFrom_eq_locate (h : Host) (directory : Text) (s : Session Git.Exchange) :
    publishFrom h directory s =
      let s := { s with records := s.records ++ (Git.locate h).records }
      match (Git.locate h).result with
      | .ok program => publish (client h program directory).repository {} s
      | .error _ => .error .missingTool s := by
  unfold publishFrom
  cases hg : h.findGit with
  | none =>
    rw [Git.locate_of_not_findGit hg]
    simp only [List.append_nil]
    rfl
  | some program =>
    rw [Git.locate_of_findGit hg]
    rfl

theorem publishFrom_of_findGit {h : Host} {program : Text} (hg : h.findGit = some program)
    (directory : Text) (s : Session Git.Exchange) :
    publishFrom h directory s =
      publish (client h program directory).repository {} (s.noting (.usingGit program)) := by
  rw [publishFrom_eq_locate, Git.locate_of_findGit hg]
  rfl

theorem publishFrom_of_not_findGit {h : Host} (hg : h.findGit = none) (directory : Text)
    (s : Session Git.Exchange) : publishFrom h directory s = .error .missingTool s := by
  rw [publishFrom_eq_locate, Git.locate_of_not_findGit hg]
  simp only [List.append_nil]

section Calls

variable {h : Host} {program directory : Text} {replies : List Git.Reply}
  {s : Session Git.Exchange} (hs : s.repository = before replies)

include hs

theorem repository_tagAsked :
    (tagAsked (client h program directory).repository s).repository =
      afterDescribe h program directory replies := by
  simp only [tagAsked, Session.asking, hs]
  rfl

theorem repository_tagWritten (tag : Text) :
    (tagWritten (client h program directory).repository s tag).repository =
      afterDescribe h program directory replies :=
  repository_tagAsked hs

theorem repository_urlAsked (tag : Text) :
    (urlAsked (client h program directory).repository s tag).repository =
      afterGetUrl h program directory replies := by
  simp only [urlAsked, Session.asking, repository_tagWritten hs]
  rfl

theorem repository_subjectsAsked (tag url : Text) :
    (subjectsAsked (client h program directory).repository {} s tag url).repository =
      ((client h program directory).subjectsBetween tag "origin/master".toList
        (afterGetUrl h program directory replies)).state := by
  have hrep : (urlKnown (client h program directory).repository s tag url).repository =
      afterGetUrl h program directory replies := repository_urlAsked hs tag
  simp only [subjectsAsked, Session.asking, hrep]
  rfl

theorem calls_publish {d : Device} (hd : s.sink = .ofDevice d) :
    (Run.after (publish (client h program directory).repository {}) s).repository.calls =
      callsMade (client h program directory) directory replies d := by
  have hroom := Sink.fit_eq_self_iff hd
  have hagree := survey_client h program directory replies
  have hc := course_publish (client h program directory).repository {} s
  rw [hs] at hc
  generalize Run.result (publish (client h program directory).repository {}) s = result at hc
  generalize Run.after (publish (client h program directory).repository {}) s = final at hc ⊢
  cases hc with
  | tagFailed ht =>
    have htag : tagQuery (client h program directory) replies = .error _ :=
      hagree.tag.symm.trans ht
    rw [repository_tagAsked hs, calls_afterDescribe, callsMade, htag]
  | tagRefused ht hfit =>
    have htag : tagQuery (client h program directory) replies = .ok _ := hagree.tag.symm.trans ht
    have hno := mt (hroom _).mpr hfit
    rw [repository_tagWritten hs, calls_afterDescribe]
    simp only [callsMade, htag, hno, if_false]
  | urlFailed ht hfit hu =>
    have htag : tagQuery (client h program directory) replies = .ok _ := hagree.tag.symm.trans ht
    have hurl : urlQuery (client h program directory) replies = .error _ :=
      (hagree.url htag).symm.trans hu
    have hyes := (hroom _).mp hfit
    have hstarts := starts_describe_of_tagQuery htag
    rw [repository_urlAsked hs, afterGetUrl_eq replies hstarts]
    simp only [callsMade, hstarts, htag, hyes, hurl, if_true]
  | subjectsFailed ht hfit hu hs' =>
    have htag : tagQuery (client h program directory) replies = .ok _ := hagree.tag.symm.trans ht
    have hurl : urlQuery (client h program directory) replies = .ok _ :=
      (hagree.url htag).symm.trans hu
    have hyes := (hroom _).mp hfit
    have hstarts := starts_describe_of_tagQuery htag
    rw [repository_subjectsAsked hs, calls_afterLog replies hstarts]
    simp only [callsMade, hstarts, htag, hyes, hurl, if_true]
    rfl
  | answered ht hfit hu hs' =>
    have htag : tagQuery (client h program directory) replies = .ok _ := hagree.tag.symm.trans ht
    have hurl : urlQuery (client h program directory) replies = .ok _ :=
      (hagree.url htag).symm.trans hu
    have hyes := (hroom _).mp hfit
    have hstarts := starts_describe_of_tagQuery htag
    rw [repository_answered, repository_subjectsAsked hs, calls_afterLog replies hstarts]
    simp only [callsMade, hstarts, htag, hyes, hurl, if_true]
    rfl

end Calls

section Located

variable {h : Host} {program : Text} (hg : h.findGit = some program) (directory : Text)
  (replies : List Git.Reply) (d : Device)

include hg

theorem result_publishFrom :
    Run.result (publishFrom h directory) (.start (before replies) d) =
      (survey (client h program directory) replies).outcome {} d := by
  rw [Run.result, publishFrom_of_findGit hg]
  refine (result_publish _ {} rfl).trans ?_
  exact (survey_client h program directory replies).outcome_eq {} d

theorem bytes_publishFrom :
    (Run.after (publishFrom h directory) (.start (before replies) d)).sink.bytes =
      d.portion (survey (client h program directory) replies).text.utf8 := by
  rw [Run.after, publishFrom_of_findGit hg]
  refine (bytes_publish _ {} rfl).trans ?_
  exact congrArg (fun t : Text => d.portion t.utf8)
    (survey_client h program directory replies).text_eq

theorem calls_publishFrom :
    (Run.after (publishFrom h directory) (.start (before replies) d)).repository.calls =
      callsMade (client h program directory) directory replies d := by
  rw [Run.after, publishFrom_of_findGit hg]
  exact calls_publish rfl rfl

end Located

/-- What holds of a run with a located git: of its calls, of what it leaves on the device and of
its result. -/
structure Obeyed (h : Host) (program directory : Text) (replies : List Git.Reply) (d : Device)
    (result : Except Failure Unit) (final : Session Git.Exchange) : Prop where
  calls_prefix : final.repository.calls <+:
    [describeCall directory, urlCall directory, logCall directory (namedTag replies)]
  second_call : 2 ≤ final.repository.calls.length ↔
    ∃ tag, AsksUrl (client h program directory) replies d tag
  third_call : 3 ≤ final.repository.calls.length ↔
    ∃ tag url, AsksSubjects (client h program directory) replies d tag url ∧
      '\x00' ∉ tag ∧ h.takes program (program :: logCall directory tag) = true
  bytes : final.sink.bytes = d.portion (survey (client h program directory) replies).text.utf8
  tag : ∀ tag, tagQuery (client h program directory) replies = .ok tag →
    (replies.getD 0 {}).ending = .exited 0 ∧ namedTag replies = tag ∧
      ∃ rest, final.sink.bytes = d.portion (tagText tag ++ rest).utf8
  tagResolution : ∀ pattern reference cause,
    result = .error (.tagResolution pattern reference cause) ↔
      "v[0-9]*".toList = pattern ∧ "origin/master".toList = reference ∧
        tagQuery (client h program directory) replies = .error cause
  remoteConfig : ∀ remote cause, result = .error (.remoteConfig remote cause) ↔
    "origin".toList = remote ∧
      ∃ tag, AsksUrl (client h program directory) replies d tag ∧
        urlQuery (client h program directory) replies = .error cause
  logFetch : ∀ range cause, result = .error (.logFetch range cause) ↔
    ∃ tag url, AsksSubjects (client h program directory) replies d tag url ∧
      rangeFrom tag = range ∧ subjectsQuery (client h program directory) replies tag = .error cause
  output : ∀ fault, result = .error (.output fault) ↔
    d.refused = .output fault ∧
      final.sink.bytes ≠ (survey (client h program directory) replies).text.utf8
  ok : result = .ok () ↔
    (∃ tag url subjects, tagQuery (client h program directory) replies = .ok tag ∧
      urlQuery (client h program directory) replies = .ok url ∧
        subjectsQuery (client h program directory) replies tag = .ok subjects) ∧
      final.sink.bytes = (survey (client h program directory) replies).text.utf8

theorem obeyed_publishFrom {h : Host} {program : Text} (hg : h.findGit = some program)
    (directory : Text) (replies : List Git.Reply) (d : Device) :
    Obeyed h program directory replies d
      (Run.result (publishFrom h directory) (.start (before replies) d))
      (Run.after (publishFrom h directory) (.start (before replies) d)) := by
  have hresult := result_publishFrom hg directory replies d
  have hbytes := bytes_publishFrom hg directory replies d
  have hcalls := calls_publishFrom hg directory replies d
  generalize hclient : client h program directory = c at hresult hbytes
  have hall : d.portion (survey c replies).text.utf8 = (survey c replies).text.utf8 ↔
      d.HasRoomFor _ := Device.portion_eq_self_iff
  constructor
  case calls_prefix =>
    rw [hcalls]
    exact callsMade_prefix (client h program directory) directory replies d
  case second_call =>
    rw [hcalls]
    exact two_le_length_callsMade_iff
  case third_call =>
    rw [hcalls, three_le_length_callsMade_iff]
    refine exists_congr fun tag => exists_congr fun url => and_congr_right fun hasks => ?_
    exact starts_log_iff (starts_describe_of_tagQuery hasks.1.1) (Host.programFor_of_findGit hg)
  case bytes => rw [hclient, hbytes]
  case tag =>
    intro tag ht
    rw [hclient] at ht
    obtain ⟨_, hending, _⟩ := read_value_of_received ht
    obtain ⟨rest, htext⟩ := Survey.exists_text_eq_append (a := survey c replies) ht
    exact ⟨hending, namedTag_of_tagQuery ht, rest, by rw [hbytes, htext]⟩
  case tagResolution =>
    intro pattern reference cause
    rw [hclient, hresult]
    exact Survey.outcome_eq_tagResolution_iff
  case remoteConfig =>
    intro remote cause
    rw [hclient, hresult]
    exact Survey.outcome_eq_remoteConfig_iff
  case logFetch =>
    intro range cause
    simp only [← append_append_eq_rangeFrom]
    rw [hclient, hresult]
    exact Survey.outcome_eq_logFetch_iff
  case output =>
    intro fault
    rw [hclient, hresult, hbytes, Ne, hall]
    exact Survey.outcome_eq_output_iff
  case ok =>
    rw [hclient, hresult, hbytes, hall]
    exact Survey.outcome_eq_ok_iff

/-- Without git nothing is written and nothing is started; with it a run obeys the protocol. -/
theorem publishFrom_query_protocol (h : Host) (directory : Text) (replies : List Git.Reply)
    (d : Device) :
    let result := Run.result (publishFrom h directory) (.start (before replies) d)
    let final := Run.after (publishFrom h directory) (.start (before replies) d)
    match h.findGit with
    | none =>
      result = .error .missingTool ∧ final.sink.bytes = [] ∧ final.repository = before replies
    | some program => Obeyed h program directory replies d result final := by
  intro result final
  cases hg : h.findGit with
  | none =>
    have hrun : publishFrom h directory (.start (before replies) d) =
        .error .missingTool (.start (before replies) d) := by
      simp only [publishFrom, hg]
      rfl
    have hresult : result = .error .missingTool := by simp only [result, Run.result, hrun]
    have hfinal : final = .start (before replies) d := by simp only [final, Run.after, hrun]
    rw [hfinal]
    exact ⟨hresult, rfl, rfl⟩
  | some program => exact obeyed_publishFrom hg directory replies d

end Protocol

end ReleaseLog
