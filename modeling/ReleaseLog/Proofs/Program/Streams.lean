import ReleaseLog.Program
import ReleaseLog.Proofs.CommandLine.Messages
import ReleaseLog.Proofs.Publication.Listing
import ReleaseLog.Proofs.Publication.Simulation
import ReleaseLog.Proofs.Report.Layout

/-!
# What is seen of a run

A command line that starts no run is answered without a look at the host. Any other shows what
writing the log comes to: the output holds what that writes and nothing else, and what goes wrong
is only reported, by its messages and after the warnings (`run_streams`).
-/

namespace ReleaseLog

open Publication Protocol

namespace Protocol

/-- The stages that fail although the device takes all, and what has been written before each. -/
inductive FailsAfter (h : Host) (directory : Text) (settings : Settings)
    (replies : List Git.Reply) : Failure → Text → Prop
  | missingTool (hg : h.findGit = none) : FailsAfter h directory settings replies .missingTool []
  | tagResolution {program : Text} {cause : QueryFailure} (hg : h.findGit = some program)
    (ht : tagQuery (client h program directory) replies = .error cause) :
    FailsAfter h directory settings replies
      (.tagResolution settings.tagPattern settings.mainline cause) []
  | remoteConfig {program tag : Text} {cause : QueryFailure} (hg : h.findGit = some program)
    (ht : tagQuery (client h program directory) replies = .ok tag)
    (hu : urlQuery (client h program directory) replies = .error cause) :
    FailsAfter h directory settings replies (.remoteConfig settings.remote cause) (tagText tag)
  | logFetch {program tag url : Text} {cause : QueryFailure} (hg : h.findGit = some program)
    (ht : tagQuery (client h program directory) replies = .ok tag)
    (hu : urlQuery (client h program directory) replies = .ok url)
    (hs : subjectsQuery (client h program directory) replies tag = .error cause) :
    FailsAfter h directory settings replies
      (.logFetch (tag ++ "..".toList ++ settings.mainline) cause) (tagText tag)

section Unlimited

variable {h : Host} {directory : Text} {replies : List Git.Reply} {d : Device}
  (hd : d.capacity = none) {settings : Settings} {f : Failure}

include hd

theorem failsAfter_of_outcome {program : Text} (hg : h.findGit = some program)
    (hf : (survey (client h program directory) replies).outcome settings d = .error f) :
    FailsAfter h directory settings replies f
      (survey (client h program directory) replies).text := by
  have hroom := Device.hasRoomFor_of_unlimited hd
  cases (survey (client h program directory) replies).stage d with
  | tagFailed ht =>
    have htext : (survey (client h program directory) replies).text = [] := by
      simp only [Survey.text, ht]
    simp only [Survey.outcome, ht, Except.error.injEq] at hf
    rw [htext, ← hf]
    exact .tagResolution hg ht
  | tagRefused ht hno => exact absurd (hroom _) hno
  | urlFailed ht _ hu =>
    simp only [Survey.outcome, ht, hroom, hu, not_true_eq_false, if_false, Except.error.injEq] at hf
    rw [Survey.text_of_url_error ht hu, ← hf]
    exact .remoteConfig hg ht hu
  | subjectsFailed ht _ hu hs =>
    simp only [Survey.outcome, ht, hroom, hu, hs, not_true_eq_false, if_false,
      Except.error.injEq] at hf
    rw [Survey.text_of_subjects_error ht hs, ← hf]
    exact .logFetch hg ht hu hs
  | answered ht _ hu hs =>
    rw [Survey.outcome_of_answers ht (hroom _) hu hs, if_pos (hroom _)] at hf
    cases hf

/-- A run that fails on a device that takes all leaves what it wrote before the failing stage. -/
theorem failsAfter_publishFrom
    (hf : Run.result (publishFrom h directory) (.start (before replies) d) = .error f) :
    ∃ text, FailsAfter h directory {} replies f text ∧
      (Run.after (publishFrom h directory) (.start (before replies) d)).sink.bytes = text.utf8 := by
  cases hg : h.findGit with
  | none =>
    have hrun := publishFrom_of_not_findGit hg directory (.start (before replies) d)
    simp only [Run.result, hrun, Except.error.injEq] at hf
    subst hf
    refine ⟨[], .missingTool hg, ?_⟩
    simp only [Run.after, hrun]
    rfl
  | some program =>
    rw [result_publishFrom hg] at hf
    refine ⟨_, failsAfter_of_outcome hd hg hf, ?_⟩
    rw [bytes_publishFrom hg]
    exact Device.portion_eq_self_iff.mpr (Device.hasRoomFor_of_unlimited hd _)

end Unlimited

end Protocol

namespace Program

/-- An invocation with an empty output that takes all and with a directory to work in. -/
structure Invocation.Working (i : Invocation) : Prop where
  output : ∃ d : Device, d.capacity = none ∧ i.output = .ofDevice d
  directory : i.directoryGone = false

def Invocation.log (i : Invocation) : Run Git.Exchange Unit :=
  publishFrom i.host i.host.workingDirectory

/-- What is seen of a command line that starts no run. -/
structure Refuses (i : Invocation) (v : CommandLine.Verdict) (o : Outcome) : Prop where
  calls : o.calls = []
  elsewhere : ∀ (host : Host) (replies : List Git.Reply),
    run { i with host := host, replies := replies } = o
  help : v.isHelp = true → o.exitCode = 0 ∧ o.report = [] ∧
    ∃ text, v.Says "prlog".toList text ∧ o.output.bytes = text.utf8
  rejected : v.isHelp = false → o.exitCode = 2 ∧ o.output.bytes = [] ∧
    o.report = v.message .suspends CommandLine.defaultName ∧
      v.Says "prlog".toList o.report ∧ o.report.all Text.Mode.plain.shows = true

/-- What is seen of a run, by what writing the log comes to and the session it leaves. -/
structure Shows (i : Invocation) (o : Outcome) (result : Except Failure Unit)
    (final : Session Git.Exchange) : Prop where
  output : o.output.bytes = final.sink.bytes
  calls : o.calls = final.repository.calls
  exitCode : o.exitCode = 0 ↔ result = .ok ()
  succeeded : result = .ok () → Report.Warns final.records o.report
  failed : ∀ f, result = .error f → o.exitCode = 1 ∧
    (∃ warnings report, o.report = warnings ++ report ∧ Report.Warns final.records warnings ∧
      f.Told report) ∧
    ∃ text, FailsAfter i.host i.host.workingDirectory {} i.replies f text ∧
      o.output.bytes = text.utf8

theorem says_message_suspends (v : CommandLine.Verdict) :
    v.Says "prlog".toList (v.message .suspends CommandLine.defaultName) := by
  have hname : CommandLine.defaultName.printable .suspends = "prlog".toList :=
    Text.printable_of_shown .suspends (by decide)
  have hsays := CommandLine.Verdict.says_message .suspends CommandLine.defaultName v
  rw [hname] at hsays
  exact hsays

theorem refuses_run {i : Invocation} (hi : i.Working) {v : CommandLine.Verdict}
    (hv : CommandLine.judge i.arguments = some v) : Refuses i v (run i) := by
  obtain ⟨d, hd, hout⟩ := hi.output
  have hrun : ∀ (host : Host) (replies : List Git.Reply),
      run { i with host := host, replies := replies } = refuse i v := by
    intro host replies
    simp only [run, hv]
    rfl
  have hself : run i = refuse i v := hrun i.host i.replies
  rw [hself]
  constructor
  case calls =>
    unfold refuse
    split <;> rfl
  case elsewhere => exact hrun
  case help =>
    intro hhelp
    have hfit := Sink.fit_of_unlimited (s := i.output) (by rw [hout]; exact hd)
    refine ⟨?_, ?_, _, says_message_suspends v, ?_⟩
    · simp only [refuse, hhelp, if_true, CommandLine.Verdict.exitCode]
    · simp only [refuse, hhelp, if_true]
    · simp only [refuse, hhelp, if_true, Sink.bytes_write, hfit]
      simp only [hout, Sink.bytes_ofDevice, List.nil_append]
  case rejected =>
    intro hhelp
    have hreport : (refuse i v).report = v.message .suspends CommandLine.defaultName := by
      simp only [refuse, hhelp, Bool.false_eq_true, if_false]
    have hsays := says_message_suspends v
    rw [hreport]
    refine ⟨?_, ?_, rfl, hsays, hsays.shows hhelp (by decide)⟩
    · simp only [refuse, hhelp, Bool.false_eq_true, if_false, CommandLine.Verdict.exitCode]
    · simp only [refuse, hhelp, Bool.false_eq_true, if_false, hout]
      rfl

/-- An output that is empty and never full is as good as any other such. -/
theorem start_alike {i : Invocation} (hi : i.Working) :
    (start i).Alike Sink.Alike Eq (.start (before i.replies) Sink.unlimited.device) := by
  obtain ⟨d, hd, hout⟩ := hi.output
  constructor
  case repository => rfl
  case sink =>
    simp only [start, hout]
    exact ⟨rfl, hd, fun h => absurd hd h⟩
  case records => rfl
  case asked => rfl

theorem shows_run {i : Invocation} (hi : i.Working) (hj : CommandLine.judge i.arguments = none) :
    let s := Session.start (before i.replies) Sink.unlimited.device
    Shows i (run i) (Run.result i.log s) (Run.after i.log s) := by
  intro s
  have hrun : run i = publishThere i := by simp [run, hj, hi.directory]
  obtain ⟨hresult, hfinal⟩ : Run.result i.log (start i) = Run.result i.log s ∧
      (Run.after i.log (start i)).Alike Sink.Alike Eq (Run.after i.log s) :=
    (Run.respects_publishFrom Sink.congruence_alike _ _ _ _ (start_alike hi)).alike
  have hcalls := congrArg Git.Exchange.calls hfinal.repository
  rw [hrun]
  cases hr : Run.result i.log s with
  | ok u =>
    have hlog : publishFrom i.host i.host.workingDirectory (start i) =
        .ok u (Run.after i.log (start i)) := Run.eq_ok_of_result (hresult.trans hr)
    simp only [publishThere, hlog, hfinal.records, hcalls]
    constructor
    case output => exact hfinal.sink.bytes
    case calls => rfl
    case exitCode => exact ⟨fun _ => rfl, fun _ => rfl⟩
    case succeeded => exact fun _ => Report.warns_iff.mpr rfl
    case failed => rintro f ⟨⟩
  | error f =>
    have hlog : publishFrom i.host i.host.workingDirectory (start i) =
        .error f (Run.after i.log (start i)) := Run.eq_error_of_result (hresult.trans hr)
    obtain ⟨text, hfails, htext⟩ := failsAfter_publishFrom (d := Sink.unlimited.device) rfl hr
    have hbytes := hfinal.sink.bytes
    simp only [publishThere, hlog, hfinal.records, hcalls]
    constructor
    case output => exact hbytes
    case calls => rfl
    case exitCode => exact ⟨fun h => absurd h Nat.one_ne_zero, fun h => nomatch h⟩
    case succeeded => rintro ⟨⟩
    case failed =>
      rintro _ ⟨⟩
      refine ⟨rfl, ⟨_, _, rfl, Report.warns_iff.mpr rfl, f.told_failure⟩, ?_⟩
      exact ⟨text, hfails, hbytes.trans htext⟩

/-- A run is refused, by its command line alone, or it shows what writing the log comes to. -/
theorem run_streams (i : Invocation) (hi : i.Working) :
    let s := Session.start (before i.replies) Sink.unlimited.device
    match CommandLine.judge i.arguments with
    | some v => Refuses i v (run i)
    | none => Shows i (run i) (Run.result i.log s) (Run.after i.log s) := by
  intro s
  cases hj : CommandLine.judge i.arguments with
  | some v => exact refuses_run hi hj
  | none => exact shows_run hi hj

/-- A run whose output takes one byte at a time, from a git that knows a tag and no remote. -/
def remotelessCall : Invocation where
  arguments := [CommandLine.escape]
  host := rootHost
  replies := [{ output := Text.utf8 "v1\n".toList }, { ending := .exited 2 }]
  output := .ofDevice
    { Sink.unlimited.device with
      bite := some 1
      bite_pos := fun _ hn => Option.some.inj hn ▸ Nat.one_pos }

def helpCall : Invocation := { remotelessCall with arguments := [CommandLine.helpFlag] }

theorem run_streams_remoteless :
    let s := Session.start (before remotelessCall.replies) Sink.unlimited.device
    (remotelessCall.Working ∧ Shows remotelessCall (run remotelessCall)
        (Run.result remotelessCall.log s) (Run.after remotelessCall.log s)) ∧
      helpCall.Working ∧ Refuses helpCall .longHelp (run helpCall) := by
  intro s
  have hremoteless : remotelessCall.Working := ⟨⟨_, rfl, rfl⟩, rfl⟩
  have hhelp : helpCall.Working := ⟨⟨_, rfl, rfl⟩, rfl⟩
  exact ⟨⟨hremoteless, run_streams remotelessCall hremoteless⟩,
    hhelp, run_streams helpCall hhelp⟩

end Program

end ReleaseLog
