import ReleaseLog.Proofs.Publication.Listing

/-!
# Causes of failure

What is found on the search path can be started by every client that sees the same files, unless a
NUL is handed to it or more bytes than the system takes (`startsUnlessRefused_of_holds`). So a run
that has found git never reports a stage that failed for want of it, and a fault under a stage says
what was handed to git: the directory under the first question, the tag that git itself has printed
under the third. The second question is shorter than the first, and no fault comes under it.
-/

namespace ReleaseLog

open Publication

theorem FileTree.resolve_of_isAbsolute {path : Text} (ha : Path.isAbsolute path = true)
    (t : FileTree) (a b : Location) : t.resolve a path = t.resolve b path := by
  simp only [resolve, ha, if_true]

namespace Host

/-- Two hosts on which a path names the same thing: they have the same files, and a relative path
is seen from the same directory. -/
structure Shares (g h : Host) (path : Text) : Prop where
  tree : g.tree = h.tree
  place : Path.isAbsolute path = true ∨ g.workingDirectory = h.workingDirectory

theorem Shares.node_eq {g h : Host} {path : Text} (hs : g.Shares h path) :
    g.node path = h.node path := by
  unfold node FileTree.node
  rw [hs.tree]
  rcases hs.place with habsolute | hplace
  · rw [FileTree.resolve_of_isAbsolute habsolute]
  · rw [hplace]

theorem Shares.programFor_eq {g h : Host} {path : Text} (hs : g.Shares h path)
    (hslash : '/' ∈ path) : g.programFor path = h.programFor path := by
  rw [programFor_of_slash_mem g hslash, programFor_of_slash_mem h hslash]
  simp only [programAt, hs.node_eq]

end Host

namespace Git

namespace Client

/-- A client of the git that is found on a host, with the files of that host at hand. -/
structure Holds (c : Client) (h : Host) : Prop where
  found : h.findGit = some c.program
  files : c.host.Shares h c.program

/-- A client whose starts succeed exactly if no NUL stands in its directory or an argument, and the
system takes them. -/
def StartsUnlessRefused (c : Client) : Prop :=
  ∀ arguments, c.start arguments = .ok () ↔
    (∀ t ∈ c.directory, '\x00' ∉ t) ∧ (∀ t ∈ arguments, '\x00' ∉ t) ∧
      c.host.takes c.program (c.program :: c.callArguments arguments) = true

/-- What one host finds is started on every host with the same files. -/
theorem startsUnlessRefused_of_holds {c : Client} {h : Host} (hc : c.Holds h) :
    c.StartsUnlessRefused := by
  intro arguments
  have hprogram : Path.transferable c.program = true :=
    Host.transferable_of_isProgram (Host.isProgram_of_findGit hc.found)
  have hp : c.host.programFor c.program = .ok c.program :=
    (hc.files.programFor_eq (Host.slash_mem_of_findGit hc.found)).trans
      (Host.programFor_of_findGit hc.found)
  rw [start_of_programFor hprogram hp, ← and_assoc, ← all_transferable_callArguments_iff]
  cases (c.callArguments arguments).all Path.transferable with
  | false => simp
  | true => simp

end Client

/-- What keeps a git that is there from being started, one of whose arguments is some text. -/
inductive Hindered (h : Host) (program text : Text) (call : List Text) : Fault → Prop
  | cut (hnul : '\x00' ∈ text) : Hindered h program text call .nulByte
  | tooLong (hnul : '\x00' ∉ text) (htakes : h.takes program (program :: call) = false) :
    Hindered h program text call .argumentsTooLong

/-- A NUL can stand in one of the arguments only, so it is there that one is looked for. -/
theorem start_eq_fault_iff {c : Client} {arguments : List Text} {text : Text} {fault : Fault}
    (hg : c.host.findGit = some c.program)
    (hall : (c.callArguments arguments).all Path.transferable = Path.transferable text) :
    c.start arguments = .error (.fault fault) ↔
      Hindered c.host c.program text (c.callArguments arguments) fault := by
  rw [Client.start_of_findGit hg, hall]
  by_cases hnul : '\x00' ∈ text
  · have hcut : Path.transferable text = false := Bool.eq_false_iff.mpr fun h =>
      Path.transferable_iff.mp h hnul
    simp only [hcut, Bool.false_eq_true, if_false]
    constructor
    · rintro ⟨⟩
      exact .cut hnul
    · rintro (_ | hno)
      · rfl
      · exact absurd hnul hno
  · have hwhole := Path.transferable_iff.mpr hnul
    simp only [hwhole, if_true]
    constructor
    · intro h
      split at h
      · cases h
      · next htakes =>
        cases h
        exact .tooLong hnul (Bool.eq_false_iff.mpr htakes)
    · rintro (hyes | ⟨_, htakes⟩)
      · exact absurd hyes hnul
      · rw [htakes, if_neg Bool.false_ne_true]

/-- Why nothing that git prints counts: it is not started, or its reply tells of a failure. -/
inductive Rejected : QueryFailure → Prop
  | cut : Rejected (.fault .nulByte)
  | tooLong : Rejected (.fault .argumentsTooLong)
  | outside : Rejected .notARepository
  | failed {complaint : Text} {code : Int} : Rejected (.commandFailed complaint code)

theorem rejected_of_start {c : Client} {arguments : List Text} {cause : QueryFailure}
    (hg : c.host.findGit = some c.program) (h : c.start arguments = .error cause) :
    Rejected cause := by
  rw [Client.start_of_findGit hg] at h
  split at h
  · split at h
    · cases h
    · cases h
      exact .tooLong
  · cases h
    exact .cut

theorem Reply.read_eq_error {reply : Reply} {cause : QueryFailure} (h : reply.read = .error cause) :
    cause = .notARepository ∨ ∃ complaint code, cause = .commandFailed complaint code := by
  unfold Reply.read at h
  split at h
  · cases h
  · dsimp only at h
    split at h
    · cases h
      exact .inl rfl
    · cases h
      exact .inr ⟨_, _, rfl⟩

theorem rejected_of_received {c : Client} {arguments : List Text} {reply : Reply}
    {cause : QueryFailure} (hg : c.host.findGit = some c.program)
    (h : c.received arguments reply = .error cause) : Rejected cause := by
  unfold Client.received at h
  cases hs : c.start arguments with
  | error e =>
    obtain rfl : e = cause := by simpa [hs, Except.bind] using h
    exact rejected_of_start hg hs
  | ok u =>
    rw [hs] at h
    rcases Reply.read_eq_error h with rfl | ⟨_, _, rfl⟩
    · exact .outside
    · exact .failed

/-- A question fails because nothing counts that git prints, or because it cannot be read. -/
theorem rejected_or_unread {α : Type} {c : Client} {arguments : List Text} {reply : Reply}
    {f : Text → Except QueryFailure α} {cause : QueryFailure}
    (hg : c.host.findGit = some c.program)
    (h : (c.received arguments reply).bind f = .error cause) :
    Rejected cause ∨ ∃ output, f output = .error cause := by
  cases hr : c.received arguments reply with
  | error e =>
    obtain rfl : e = cause := by simpa [hr, Except.bind] using h
    exact .inl (rejected_of_received hg hr)
  | ok output =>
    rw [hr] at h
    exact .inr ⟨output, h⟩

theorem received_eq_fault_iff {α : Type} {c : Client} {arguments : List Text} {reply : Reply}
    {f : Text → Except QueryFailure α} {fault : Fault}
    (hf : ∀ output, f output ≠ .error (.fault fault)) :
    (c.received arguments reply).bind f = .error (.fault fault) ↔
      c.start arguments = .error (.fault fault) := by
  unfold Client.received
  cases hs : c.start arguments with
  | error e => simp [Except.bind]
  | ok u =>
    refine iff_of_false ?_ (fun h => nomatch h)
    intro h
    cases hr : reply.read with
    | error e =>
      have he : e = .fault fault := by simpa [hr, Except.bind] using h
      rcases Reply.read_eq_error hr with rfl | ⟨_, _, rfl⟩ <;> cases he
    | ok output =>
      simp only [hr, Except.bind] at h
      exact hf output h

theorem rejected_or_noOutput {c : Client} {arguments : List Text} {reply : Reply} {command : Text}
    {cause : QueryFailure} (hg : c.host.findGit = some c.program)
    (h : (c.received arguments reply).bind (Client.readValue command) = .error cause) :
    Rejected cause ∨ .noOutput command = cause := by
  rcases rejected_or_unread hg h with hrejected | ⟨output, hread⟩
  · exact .inl hrejected
  · exact .inr (Client.readValue_eq_error_iff.mp hread).1

theorem readValue_ne_fault (command output : Text) (fault : Fault) :
    Client.readValue command output ≠ .error (.fault fault) :=
  fun h => QueryFailure.noConfusion (Client.readValue_eq_error_iff.mp h).1

end Git

namespace Survey

/-- The questions that are asked, in order: each one waits for what comes before it. -/
def questions (a : Survey) (settings : Settings) (d : Device) : List Query :=
  .latestTag ::
    match a.tag with
    | .error _ => []
    | .ok tag =>
      if d.HasRoomFor (tagText tag).utf8 then
        .remoteUrl ::
          match a.url with
          | .error _ => []
          | .ok _ => [.subjects tag settings.mainline]
      else []

theorem subjects_mem_questions_iff {a : Survey} {settings : Settings} {d : Device}
    {tag mainline : Text} :
    .subjects tag mainline ∈ a.questions settings d ↔
      settings.mainline = mainline ∧ (a.tag = .ok tag ∧ d.HasRoomFor (tagText tag).utf8) ∧
        ∃ url, a.url = .ok url := by
  cases a.stage d with
  | tagFailed ht => simp [questions, ht]
  | tagRefused ht hroom => grind [questions]
  | urlFailed ht hroom hu => simp [questions, ht, hroom, hu]
  | subjectsFailed ht hroom hu hs => grind [questions]
  | answered ht hroom hu hs => grind [questions]

theorem Agrees.questions_eq {a b : Survey} (h : a.Agrees b) (settings : Settings) (d : Device) :
    a.questions settings d = b.questions settings d := by
  cases ht : b.tag with
  | error cause => simp only [questions, h.tag, ht]
  | ok tag => simp only [questions, h.tag, ht, h.url ht]

end Survey

section Asked

variable {σ : Type} (r : Repository σ) (settings : Settings) (s : Session σ) (tag url : Text)

theorem asked_tagAsked :
    (tagAsked r s).asked.map Prod.fst = s.asked.map Prod.fst ++ [.latestTag] := List.map_append

theorem asked_urlAsked :
    (urlAsked r s tag).asked.map Prod.fst =
      s.asked.map Prod.fst ++ [.latestTag, .remoteUrl] := by
  have hlast : (urlAsked r s tag).asked.map Prod.fst =
      (tagAsked r s).asked.map Prod.fst ++ [.remoteUrl] := List.map_append
  rw [hlast, asked_tagAsked, List.append_assoc]
  rfl

theorem asked_subjectsAsked :
    (subjectsAsked r settings s tag url).asked.map Prod.fst =
      s.asked.map Prod.fst ++ [.latestTag, .remoteUrl, .subjects tag settings.mainline] := by
  have hlast : (subjectsAsked r settings s tag url).asked.map Prod.fst =
      (urlAsked r s tag).asked.map Prod.fst ++ [.subjects tag settings.mainline] :=
    List.map_append
  rw [hlast, asked_urlAsked, List.append_assoc]
  rfl

variable {s}

theorem asked_publish {d : Device} (hd : s.sink = .ofDevice d) :
    (Run.after (publish r settings) s).asked.map Prod.fst =
      s.asked.map Prod.fst ++ (r.survey settings s.repository).questions settings d := by
  have hroom := Sink.fit_eq_self_iff hd
  have hc := course_publish r settings s
  generalize Run.result (publish r settings) s = result at hc
  generalize Run.after (publish r settings) s = final at hc ⊢
  generalize r.survey settings s.repository = a at hc ⊢
  cases hc with
  | tagFailed ht => simp only [Survey.questions, ht, asked_tagAsked]
  | tagRefused ht hfit =>
    have hno := mt (hroom _).mpr hfit
    simp only [Survey.questions, ht, hno, if_false]
    exact asked_tagAsked r s
  | urlFailed ht hfit hu =>
    have hyes := (hroom _).mp hfit
    simp only [Survey.questions, ht, hyes, hu, if_true, asked_urlAsked]
  | subjectsFailed ht hfit hu hs =>
    have hyes := (hroom _).mp hfit
    simp only [Survey.questions, ht, hyes, hu, if_true, asked_subjectsAsked]
  | answered ht hfit hu hs =>
    have hyes := (hroom _).mp hfit
    rw [(writes_writeTail _ _).asked]
    simp only [Survey.questions, ht, hyes, hu, if_true]
    exact asked_subjectsAsked r settings s _ _

end Asked

def Session.Asked {σ : Type} (s : Session σ) (q : Query) : Prop := q ∈ s.asked.map Prod.fst

namespace Protocol

section Questions

variable {h : Host} {program directory tag : Text} {replies : List Git.Reply} {fault : Fault}

theorem start_describe_eq_fault_iff (hg : h.findGit = some program) :
    (client h program directory).start (Git.describeArguments {}) = .error (.fault fault) ↔
      Git.Hindered h program directory (describeCall directory) fault :=
  Git.start_eq_fault_iff hg (all_transferable_describeCall directory)

theorem tagQuery_eq_fault_iff (hg : h.findGit = some program) :
    tagQuery (client h program directory) replies = .error (.fault fault) ↔
      Git.Hindered h program directory (describeCall directory) fault := by
  rw [tagQuery, Git.received_eq_fault_iff fun _ => Git.readValue_ne_fault _ _ _]
  exact start_describe_eq_fault_iff hg

/-- What keeps the second question from being asked kept the first one from it already. -/
theorem urlQuery_ne_fault (ht : tagQuery (client h program directory) replies = .ok tag) :
    urlQuery (client h program directory) replies ≠ .error (.fault fault) := by
  have hstart := Git.Client.starts_iff.mp (starts_remoteUrl (starts_describe_of_tagQuery ht))
  rw [urlQuery, Ne, Git.received_eq_fault_iff fun _ => Git.readValue_ne_fault _ _ _, hstart]
  exact fun h => nomatch h

theorem subjectsQuery_eq_fault_iff (hg : h.findGit = some program)
    (ht : tagQuery (client h program directory) replies = .ok tag) :
    subjectsQuery (client h program directory) replies tag = .error (.fault fault) ↔
      Git.Hindered h program tag (logCall directory tag) fault := by
  -- a tag that git names was asked for in a directory that could be handed to it
  have hdirectory : Path.transferable directory = true := by
    obtain ⟨_, _, hall⟩ :=
      Git.Client.start_eq_ok_iff.mp (Git.Client.starts_iff.mp (starts_describe_of_tagQuery ht))
    exact (all_transferable_describeCall directory).symm.trans hall
  have hall : (logCall directory tag).all Path.transferable = Path.transferable tag := by
    rw [all_transferable_logCall, hdirectory, Bool.true_and]
  rw [subjectsQuery, Git.received_eq_fault_iff (by simp)]
  exact Git.start_eq_fault_iff hg hall

theorem subjectsQuery_ne_noOutput (hg : h.findGit = some program) {command : Text} :
    subjectsQuery (client h program directory) replies tag ≠ .error (.noOutput command) := by
  intro hq
  rcases Git.rejected_or_unread hg hq with hrejected | ⟨output, hread⟩
  · cases hrejected
  · cases hread

end Questions

/-- When the tag keeps the third start from being made, the first two have been made. -/
theorem callsMade_of_subjectsQuery_fault {c : Git.Client} {directory tag url : Text}
    {replies : List Git.Reply} {d : Device} {fault : Fault}
    (hasks : AsksSubjects c replies d tag url)
    (hfault : subjectsQuery c replies tag = .error (.fault fault)) :
    callsMade c directory replies d = [describeCall directory, urlCall directory] := by
  obtain ⟨⟨ht, hroom⟩, hu⟩ := hasks
  have hstart := (Git.received_eq_fault_iff (by simp)).mp hfault
  have hlog : c.starts (Git.logArguments (rangeFrom tag)) = false := by
    rw [Git.Client.starts, hstart]
    rfl
  have hs := starts_describe_of_tagQuery ht
  simp only [callsMade, hs, ht, hroom, hu, hlog, Bool.false_eq_true, if_true, if_false]

/-- What holds of the causes of a run's failure and of what a failed start leaves. -/
structure Attributed (h : Host) (directory : Text) (result : Except Failure Unit)
    (final : Session Git.Exchange) : Prop where
  ne_gitNotFound : ∀ failure, result = .error failure → failure.query? ≠ some .gitNotFound
  fault : ∀ failure fault, result = .error failure → failure.query? = some (.fault fault) →
    fault = .nulByte ∨ fault = .argumentsTooLong
  tagResolution : ∀ fault,
    (∃ pattern reference, result = .error (.tagResolution pattern reference (.fault fault))) ↔
      ∃ program, h.findGit = some program ∧
        Git.Hindered h program directory (describeCall directory) fault
  remoteConfig : ∀ remote fault, result ≠ .error (.remoteConfig remote (.fault fault))
  logFetch : ∀ fault,
    (∃ range, result = .error (.logFetch range (.fault fault))) ↔
      ∃ program tag mainline, h.findGit = some program ∧ final.Asked (.subjects tag mainline) ∧
        Git.Hindered h program tag (logCall directory tag) fault
  hindered_log : ∀ program tag mainline fault, h.findGit = some program →
    final.Asked (.subjects tag mainline) →
    Git.Hindered h program tag (logCall directory tag) fault →
      result = .error (.logFetch (rangeFrom tag) (.fault fault)) ∧
        final.repository.calls = [describeCall directory, urlCall directory] ∧
          final.sink.bytes = (tagText tag).utf8
  ne_noOutput : ∀ range command, result ≠ .error (.logFetch range (.noOutput command))

theorem attributed_missingTool {h : Host} (hg : h.findGit = none) (directory : Text)
    (replies : List Git.Reply) (d : Device) :
    Attributed h directory (.error .missingTool) (.start (before replies) d) := by
  constructor
  case ne_gitNotFound => simp [Failure.query?]
  case fault =>
    rintro _ fault ⟨⟩ hcause
    cases hcause
  case tagResolution => simp [hg]
  case remoteConfig => simp
  case logFetch => simp [hg]
  case hindered_log => simp [hg]
  case ne_noOutput => simp

section Located

variable {h : Host} {program : Text} (hg : h.findGit = some program) (directory : Text)
  (replies : List Git.Reply) (d : Device)

include hg

theorem asked_subjects_publishFrom_iff {tag mainline : Text} :
    (Run.after (publishFrom h directory) (.start (before replies) d)).Asked
        (.subjects tag mainline) ↔
      "origin/master".toList = mainline ∧
        ∃ url, AsksSubjects (client h program directory) replies d tag url := by
  have hasked : (Run.after (publishFrom h directory) (.start (before replies) d)).asked.map
      Prod.fst = (survey (client h program directory) replies).questions {} d := by
    rw [Run.after, publishFrom_of_findGit hg]
    refine (asked_publish _ {} rfl).trans ?_
    exact (survey_client h program directory replies).questions_eq {} d
  rw [Session.Asked, hasked, Survey.subjects_mem_questions_iff]
  unfold AsksSubjects AsksUrl
  simp only [exists_and_left]
  rfl

/-- What a run reports that has found git: an answer that does not count, or none. -/
theorem cause_of_failed {failure : Failure} {cause : QueryFailure}
    (hfailed : Run.result (publishFrom h directory) (.start (before replies) d) = .error failure)
    (hcause : failure.query? = some cause) :
    Git.Rejected cause ∨ ∃ command, .noOutput command = cause := by
  have ho := obeyed_publishFrom hg directory replies d
  cases failure with
  | missingTool => cases hcause
  | tagResolution pattern reference e =>
    cases hcause
    obtain ⟨_, _, ht⟩ := (ho.tagResolution pattern reference cause).mp hfailed
    exact (Git.rejected_or_noOutput hg ht).imp_right fun h => ⟨_, h⟩
  | remoteConfig remote e =>
    cases hcause
    obtain ⟨_, _, _, hu⟩ := (ho.remoteConfig remote cause).mp hfailed
    exact (Git.rejected_or_noOutput hg hu).imp_right fun h => ⟨_, h⟩
  | logFetch range e =>
    cases hcause
    obtain ⟨_, _, _, _, hs⟩ := (ho.logFetch range cause).mp hfailed
    rcases Git.rejected_or_unread hg hs with hrejected | ⟨output, hread⟩
    · exact .inl hrejected
    · cases hread
  | output fault => cases hcause

theorem result_eq_logFetch_fault_iff {tag url : Text}
    (hasks : AsksSubjects (client h program directory) replies d tag url) {range : Text}
    {fault : Fault} :
    Run.result (publishFrom h directory) (.start (before replies) d) =
        .error (.logFetch range (.fault fault)) ↔
      rangeFrom tag = range ∧ Git.Hindered h program tag (logCall directory tag) fault := by
  have ho := obeyed_publishFrom hg directory replies d
  rw [ho.logFetch, ← subjectsQuery_eq_fault_iff hg hasks.1.1]
  constructor
  · rintro ⟨tag', _, hasks', hrange, hs⟩
    obtain rfl : tag = tag' := Except.ok.inj (hasks.1.1.symm.trans hasks'.1.1)
    exact ⟨hrange, hs⟩
  · rintro ⟨hrange, hs⟩
    exact ⟨tag, url, hasks, hrange, hs⟩

theorem bytes_of_hindered {tag url : Text} {fault : Fault}
    (hasks : AsksSubjects (client h program directory) replies d tag url)
    (hhindered : Git.Hindered h program tag (logCall directory tag) fault) :
    (Run.after (publishFrom h directory) (.start (before replies) d)).sink.bytes =
      (tagText tag).utf8 := by
  have hs := (subjectsQuery_eq_fault_iff hg hasks.1.1).mpr hhindered
  have htext : (survey (client h program directory) replies).text = tagText tag :=
    Survey.text_of_subjects_error hasks.1.1 hs
  rw [bytes_publishFrom hg, htext]
  exact Device.portion_eq_self_iff.mpr hasks.1.2

theorem attributed_publishFrom :
    Attributed h directory (Run.result (publishFrom h directory) (.start (before replies) d))
      (Run.after (publishFrom h directory) (.start (before replies) d)) := by
  have ho := obeyed_publishFrom hg directory replies d
  constructor
  case ne_gitNotFound =>
    intro failure hfailed hcause
    rcases cause_of_failed hg directory replies d hfailed hcause with h | ⟨_, h⟩
    · cases h
    · cases h
  case fault =>
    intro failure fault hfailed hcause
    rcases cause_of_failed hg directory replies d hfailed hcause with h | ⟨_, h⟩
    · cases h with
      | cut => exact .inl rfl
      | tooLong => exact .inr rfl
    · cases h
  case tagResolution =>
    intro fault
    simp only [ho.tagResolution, tagQuery_eq_fault_iff hg]
    constructor
    · rintro ⟨_, _, _, _, hhindered⟩
      exact ⟨program, hg, hhindered⟩
    · rintro ⟨_, hg', hhindered⟩
      obtain rfl := Option.some.inj (hg.symm.trans hg')
      exact ⟨_, _, rfl, rfl, hhindered⟩
  case remoteConfig =>
    intro remote fault hfailed
    obtain ⟨_, tag, ⟨ht, _⟩, hu⟩ := (ho.remoteConfig remote _).mp hfailed
    exact urlQuery_ne_fault ht hu
  case logFetch =>
    intro fault
    simp only [asked_subjects_publishFrom_iff hg]
    constructor
    · rintro ⟨range, hfailed⟩
      obtain ⟨tag, url, hasks, _⟩ := (ho.logFetch range _).mp hfailed
      obtain ⟨_, hhindered⟩ :=
        (result_eq_logFetch_fault_iff hg directory replies d hasks).mp hfailed
      exact ⟨program, tag, _, hg, ⟨rfl, url, hasks⟩, hhindered⟩
    · rintro ⟨_, tag, _, hg', ⟨_, url, hasks⟩, hhindered⟩
      obtain rfl := Option.some.inj (hg.symm.trans hg')
      exact ⟨_, (result_eq_logFetch_fault_iff hg directory replies d hasks).mpr
        ⟨rfl, hhindered⟩⟩
  case hindered_log =>
    intro _ tag mainline fault hg' hasked hhindered
    obtain rfl := Option.some.inj (hg.symm.trans hg')
    obtain ⟨_, url, hasks⟩ := (asked_subjects_publishFrom_iff hg directory replies d).mp hasked
    refine ⟨?_, ?_, bytes_of_hindered hg directory replies d hasks hhindered⟩
    · exact (result_eq_logFetch_fault_iff hg directory replies d hasks).mpr ⟨rfl, hhindered⟩
    · have hfault := (subjectsQuery_eq_fault_iff hg hasks.1.1).mpr hhindered
      rw [calls_publishFrom hg, callsMade_of_subjectsQuery_fault hasks hfault]
  case ne_noOutput =>
    intro range command hfailed
    obtain ⟨tag, _, _, _, hs⟩ := (ho.logFetch range _).mp hfailed
    exact subjectsQuery_ne_noOutput hg hs

end Located

/-- Who sees the files of a host can start the git that is found there, unless a NUL is handed to
it or more than the system takes. A run that has found it never misses it later, and a fault under
one of its stages comes from the directory or from the tag that git has printed. -/
theorem publishFrom_attributes_faults (h : Host) (directory : Text) (replies : List Git.Reply)
    (d : Device) :
    (∀ c : Git.Client, c.Holds h → c.StartsUnlessRefused) ∧
      Attributed h directory (Run.result (publishFrom h directory) (.start (before replies) d))
        (Run.after (publishFrom h directory) (.start (before replies) d)) := by
  refine ⟨fun c hc => Git.Client.startsUnlessRefused_of_holds hc, ?_⟩
  cases hg : h.findGit with
  | none =>
    rw [Run.result, Run.after, publishFrom_of_not_findGit hg]
    exact attributed_missingTool hg directory replies d
  | some program => exact attributed_publishFrom hg directory replies d

theorem tooLong_of_long {h : Host} {program directory : Text} (hcut : '\x00' ∉ directory)
    (hlong : Host.maxArgument < directory.length) :
    Git.Hindered h program directory (describeCall directory) .argumentsTooLong :=
  .tooLong hcut (Host.not_takes_of_long (by simp [describeCall]) hlong)

/-- Git is found and no NUL stands in the directory, which is too long by a byte to be handed on. -/
theorem long_directory_hinders_located_git :
    let directory := List.replicate 131072 'a'
    let start := Session.start (before brokenReplies) Sink.unlimited.device
    rootHost.findGit = some "/git".toList ∧ '\x00' ∉ directory ∧
      (client rootHost "/git".toList directory).start (Git.describeArguments {}) ≠ .ok () ∧
        ∃ pattern reference, Run.result (publishFrom rootHost directory) start =
          .error (.tagResolution pattern reference (.fault .argumentsTooLong)) := by
  intro directory start
  have hg := findGit_rootHost
  have hcut : '\x00' ∉ directory := fun h => absurd (List.eq_of_mem_replicate h) (by decide)
  have hlong : Host.maxArgument < directory.length := by
    rw [List.length_replicate]
    decide
  generalize directory = directory at hcut hlong
  have hhindered : Git.Hindered rootHost "/git".toList directory (describeCall directory)
      .argumentsTooLong := tooLong_of_long hcut hlong
  have hstart : (client rootHost "/git".toList directory).start (Git.describeArguments {}) =
      .error (.fault .argumentsTooLong) :=
    (start_describe_eq_fault_iff hg).mpr hhindered
  have hattributed := attributed_publishFrom hg directory brokenReplies Sink.unlimited.device
  refine ⟨hg, hcut, ?_, (hattributed.tagResolution _).mpr ⟨_, hg, hhindered⟩⟩
  rw [hstart]
  exact fun h => nomatch h

def cutReplies : List Git.Reply :=
  [{ output := Text.utf8 "v\x001\n".toList }, { output := Text.utf8 "u.git\n".toList }]

theorem publishFrom_attributes_cut_log :
    let start := Session.start (before cutReplies) Sink.unlimited.device
    let final := Run.after (publishFrom rootHost []) start
    (client { rootHost with searchPath := none } "/git".toList []).StartsUnlessRefused ∧
      Run.result (publishFrom rootHost []) start =
          .error (.logFetch (rangeFrom "v\x001".toList) (.fault .nulByte)) ∧
        final.repository.calls = [describeCall [], urlCall []] ∧
          final.sink.bytes = (tagText "v\x001".toList).utf8 := by
  intro start final
  have hg := findGit_rootHost
  have hasks : AsksSubjects (client rootHost "/git".toList []) cutReplies Sink.unlimited.device
      "v\x001".toList "u.git".toList :=
    ⟨⟨rfl, Device.hasRoomFor_of_unlimited rfl _⟩, rfl⟩
  have hasked : final.Asked (.subjects "v\x001".toList "origin/master".toList) :=
    (asked_subjects_publishFrom_iff hg [] cutReplies _).mpr ⟨rfl, _, hasks⟩
  have hattributed := publishFrom_attributes_faults rootHost [] cutReplies Sink.unlimited.device
  constructor
  · exact hattributed.1 _ ⟨hg, rfl, .inl (by decide)⟩
  · exact hattributed.2.hindered_log _ _ _ _ hg hasked (.cut (by decide))

end Protocol

end ReleaseLog
