import ReleaseLog.Proofs.Git.Edits
import ReleaseLog.Proofs.Publication.Listing
import ReleaseLog.Proofs.Publication.Simulation

/-!
# What git prints beside its answers

A value is read of the first line that is not blank, and subjects of the lines that are not blank.
So two runs whose replies differ in nothing else ask the same, write the same and note the same
(`publishFrom_ignores_edits`).
-/

namespace ReleaseLog

namespace Git

/-- Exchanges with the same calls so far whose next replies are alike, each up to edits of its
own. -/
structure Exchange.Alike (edits : List (List UInt8 → List UInt8 → Prop)) (e e' : Exchange) :
    Prop where
  calls : e.calls = e'.calls
  replies : ∀ i edit, edits[i]? = some edit →
    (e.replies.getD i {}).Alike edit (e'.replies.getD i {})

section Exchange

variable {edit : List UInt8 → List UInt8 → Prop} {edits : List (List UInt8 → List UInt8 → Prop)}
  {e e' : Exchange}

theorem Exchange.Alike.calls_only (h : e.Alike edits e') : e.Alike [] e' where
  calls := h.calls
  replies i edit hi := by simp at hi

theorem Exchange.Alike.head (h : e.Alike (edit :: edits) e') :
    (e.replies.headD {}).Alike edit (e'.replies.headD {}) := by
  have hhead := h.replies 0 edit rfl
  rw [← Git.headD_drop, ← Git.headD_drop] at hhead
  exact hhead

theorem getD_tail {α : Type} (l : List α) (i : Nat) (a : α) :
    l.tail.getD i a = l.getD (i + 1) a := by
  rw [List.getD_eq_getElem?_getD, List.getD_eq_getElem?_getD, List.getElem?_tail]

theorem Exchange.Alike.tail (h : e.Alike (edit :: edits) e') (arguments : List Text) :
    Exchange.Alike edits ⟨e.replies.tail, e.calls ++ [arguments]⟩
      ⟨e'.replies.tail, e'.calls ++ [arguments]⟩ where
  calls := congrArg (· ++ [arguments]) h.calls
  replies i edit' hi := by
    rw [getD_tail, getD_tail]
    exact h.replies (i + 1) edit' hi

/-- A start of git is answered alike, if what is read of the answer is changed by no edit. -/
theorem Client.run_alike (c : Client) (arguments : List Text) (h : e.Alike (edit :: edits) e')
    {α : Type} {f : Text → Except QueryFailure α}
    (hf : ∀ s t, edit s t → f (Text.ofUtf8 s) = f (Text.ofUtf8 t)) :
    ((c.run arguments e).read f).Alike (Exchange.Alike edits) (Exchange.Alike [])
      ((c.run arguments e').read f) := by
  cases hs : c.start arguments with
  | error cause =>
    have hrun : ∀ e, c.run arguments e = ⟨.error cause, e, [.runningGit arguments]⟩ := by
      intro e
      simp only [run, hs]
    rw [hrun, hrun]
    exact ⟨rfl, rfl, by rintro _ ⟨⟩, fun _ _ => h.calls_only⟩
  | ok _ =>
    have hrun : ∀ e, c.run arguments e = ⟨(e.replies.headD {}).read,
        ⟨e.replies.tail, e.calls ++ [c.callArguments arguments]⟩, [.runningGit arguments]⟩ := by
      intro e
      simp only [run, hs]
    have htail := h.tail (c.callArguments arguments)
    rw [hrun, hrun]
    exact ⟨h.head.read_bind hf, rfl, fun _ _ => htail, fun _ _ => htail.calls_only⟩

end Exchange

end Git

namespace Protocol

/-- Replies of which the same is read: the first two tell a value, the third one tells subjects,
and no other is looked at. -/
structure ReadAlike (replies replies' : List Git.Reply) : Prop where
  tag : (replies.getD 0 {}).Alike Git.ValueEdit (replies'.getD 0 {})
  url : (replies.getD 1 {}).Alike Git.ValueEdit (replies'.getD 1 {})
  subjects : (replies.getD 2 {}).Alike Git.SubjectsEdit (replies'.getD 2 {})

theorem ReadAlike.before {replies replies' : List Git.Reply} (h : ReadAlike replies replies') :
    (before replies).Alike [Git.ValueEdit, Git.ValueEdit, Git.SubjectsEdit] (before replies') where
  calls := rfl
  replies i edit hi := by
    match i with
    | 0 => exact Option.some.inj hi ▸ h.tag
    | 1 => exact Option.some.inj hi ▸ h.url
    | 2 => exact Option.some.inj hi ▸ h.subjects
    | i + 3 => simp at hi

theorem readValue_eq_of_edit (command : Text) (s t : List UInt8) (h : Git.ValueEdit s t) :
    Git.Client.readValue command (Text.ofUtf8 s) =
      Git.Client.readValue command (Text.ofUtf8 t) := by
  rw [Git.Client.readValue, Git.Client.readValue, h.value?_eq]

theorem respects_publish_client (c : Git.Client) (settings : Settings) :
    Run.Respects Eq (Git.Exchange.Alike [Git.ValueEdit, Git.ValueEdit, Git.SubjectsEdit])
      (Git.Exchange.Alike []) (Git.Exchange.Alike []) (publish c.repository settings) := by
  refine Run.respects_publish Sink.congruence_eq settings
    (S := Git.Exchange.Alike [Git.ValueEdit, Git.SubjectsEdit])
    (T := Git.Exchange.Alike [Git.SubjectsEdit]) ?_ ?_ ?_ ?_ ?_
  · exact fun e e' h => c.run_alike _ h (readValue_eq_of_edit _)
  · exact fun e e' h => c.run_alike _ h (readValue_eq_of_edit _)
  · intro tag mainline e e' h
    exact c.run_alike _ h fun s t hedit => congrArg Except.ok hedit.subjects_eq
  · exact fun e e' h => h.calls_only
  · exact fun e e' h => h

/-- Two runs whose replies are read alike come to the same, leave the same on the device, start git
with the same arguments and note the same. -/
theorem publishFrom_ignores_edits (h : Host) (directory : Text) (d : Device)
    {replies replies' : List Git.Reply} (hread : ReadAlike replies replies') :
    let run := publishFrom h directory
    let final := Run.after run (.start (before replies) d)
    let final' := Run.after run (.start (before replies') d)
    Run.result run (.start (before replies) d) = Run.result run (.start (before replies') d) ∧
      final.sink = final'.sink ∧ final.repository.calls = final'.repository.calls ∧
      final.records = final'.records ∧ final.asked = final'.asked := by
  have hsame : Run.SameResult Eq (Git.Exchange.Alike []) (Git.Exchange.Alike [])
      (publishFrom h directory (.start (before replies) d))
      (publishFrom h directory (.start (before replies') d)) := by
    cases hg : h.findGit with
    | none =>
      rw [publishFrom_of_not_findGit hg, publishFrom_of_not_findGit hg]
      exact .error _ ⟨hread.before.calls_only, rfl, rfl, rfl⟩
    | some program =>
      rw [publishFrom_of_findGit hg, publishFrom_of_findGit hg]
      exact respects_publish_client _ _ _ _ ⟨hread.before, rfl, rfl, rfl⟩
  obtain ⟨hresult, hfinal⟩ := hsame.alike
  exact ⟨hresult, hfinal.sink, hfinal.repository.calls, hfinal.records, hfinal.asked⟩

def plainReplies : List Git.Reply :=
  [{ output := Text.utf8 "v1\n".toList },
    { output := Text.utf8 "u.git\n".toList },
    { output := Text.utf8 "Fix (#1)\nTidy\n".toList }]

/-- The same answers with blank lines, hints and broken characters around them. -/
def wordyReplies : List Git.Reply :=
  [{ output := Text.utf8 "\n \t\nv1\n".toList ++ [0xFF], complaint := Text.utf8 "hint".toList },
    { output := Text.utf8 "u.git\nv.git\n".toList },
    { output := Text.utf8 "Fix (#1)\n \r\nTidy\n".toList, complaint := [0xE2, 0x82] },
    { output := Text.utf8 "Add (#2)\n".toList, ending := .killed 9 }]

theorem publishFrom_ignores_wordy_replies :
    let run := publishFrom rootHost []
    let d := Sink.unlimited.device
    let final := Run.after run (.start (before plainReplies) d)
    let final' := Run.after run (.start (before wordyReplies) d)
    ReadAlike plainReplies wordyReplies ∧
      Run.result run (.start (before plainReplies) d) =
        Run.result run (.start (before wordyReplies) d) ∧
      final.sink = final'.sink ∧ final.repository.calls = final'.repository.calls ∧
      final.records = final'.records ∧ final.asked = final'.asked := by
  intro run d final final'
  have hlead : Git.ValueEdit (Text.utf8 "v1\n".toList) (Text.utf8 "\n \t\nv1\n".toList) :=
    .lead [] (Text.utf8 "\n \t\n".toList) _ ⟨.inl rfl, rfl⟩ ⟨.inr rfl, rfl⟩
  have htrail : Git.ValueEdit (Text.utf8 "\n \t\nv1\n".toList)
      (Text.utf8 "\n \t\nv1\n".toList ++ [0xFF]) :=
    .trail (Text.utf8 "\n \t\nv1\n".toList) [] [0xFF] (.inr rfl) rfl
  have hurl : Git.ValueEdit (Text.utf8 "u.git\n".toList) (Text.utf8 "u.git\nv.git\n".toList) :=
    .trail (Text.utf8 "u.git\n".toList) [] (Text.utf8 "v.git\n".toList) (.inr rfl) rfl
  have hblank : Git.SubjectsEdit (Text.utf8 "Fix (#1)\nTidy\n".toList)
      (Text.utf8 "Fix (#1)\n \r\nTidy\n".toList) :=
    .blank (Text.utf8 "Fix (#1)\n".toList) (Text.utf8 " \r\n".toList) _ (.inr rfl) ⟨.inr rfl, rfl⟩
  have hread : ReadAlike plainReplies wordyReplies := by
    constructor
    case tag =>
      exact ⟨rfl, fun _ => .trans _ _ _ (.rel _ _ hlead) (.rel _ _ htrail), fun h => absurd rfl h⟩
    case url => exact ⟨rfl, fun _ => .rel _ _ hurl, fun _ => rfl⟩
    case subjects => exact ⟨rfl, fun _ => .rel _ _ hblank, fun h => absurd rfl h⟩
  exact ⟨hread, publishFrom_ignores_edits rootHost [] d hread⟩

end Protocol

end ReleaseLog
