import ReleaseLog.Proofs.Publication.Course

/-!
# Outcomes

What a run writes and how it ends, said by the answers of the repository and the room on the device
alone. What is written is the beginning of one text, and of all that can go wrong the first thing in
the order of the questions and the lines is reported (`publish_outcome`).
-/

namespace ReleaseLog

open Publication

def Device.refused (d : Device) : Failure :=
  .output <|
    match d.refusal with
    | .nothing => .described "failed to write whole buffer".toList
    | .fault f => f

theorem Device.refused_eq (d : Device) : d.refused = .output d.refusal.toFault := by
  unfold refused
  cases d.refusal <;> rfl

namespace Survey

/-- All there is to write: nothing without a tag, and only the tag line unless all is known. -/
def text (a : Survey) : Text :=
  match a.tag with
  | .error _ => []
  | .ok tag =>
    match a.url, a.subjects tag with
    | .ok url, .ok subjects => logText tag (Bullet.ofSubjects (Review.base url) subjects)
    | _, _ => tagText tag

/-- The first thing that goes wrong. -/
def outcome (a : Survey) (settings : Settings) (d : Device) : Except Failure Unit :=
  match a.tag with
  | .error cause => .error (.tagResolution settings.tagPattern settings.mainline cause)
  | .ok tag =>
    if ¬ d.HasRoomFor (tagText tag).utf8 then .error d.refused
    else
      match a.url with
      | .error cause => .error (.remoteConfig settings.remote cause)
      | .ok _ =>
        match a.subjects tag with
        | .error cause => .error (.logFetch (tag ++ "..".toList ++ settings.mainline) cause)
        | .ok _ => if ¬ d.HasRoomFor a.text.utf8 then .error d.refused else .ok ()

theorem text_of_url_error {a : Survey} {tag : Text} {cause : QueryFailure} (ht : a.tag = .ok tag)
    (hu : a.url = .error cause) : a.text = tagText tag := by
  simp only [text, ht, hu]

theorem text_of_subjects_error {a : Survey} {tag : Text} {cause : QueryFailure}
    (ht : a.tag = .ok tag) (hs : a.subjects tag = .error cause) : a.text = tagText tag := by
  cases hu : a.url <;> simp only [text, ht, hu, hs]

theorem text_of_answers {a : Survey} {tag url : Text} {subjects : List Text}
    (ht : a.tag = .ok tag) (hu : a.url = .ok url) (hs : a.subjects tag = .ok subjects) :
    a.text = logText tag (Bullet.ofSubjects (Review.base url) subjects) := by
  simp only [text, ht, hu, hs]

theorem exists_text_eq_append {a : Survey} {tag : Text} (ht : a.tag = .ok tag) :
    ∃ rest, a.text = tagText tag ++ rest := by
  cases hu : a.url with
  | error cause => exact ⟨[], by rw [text_of_url_error ht hu, List.append_nil]⟩
  | ok url =>
    cases hs : a.subjects tag with
    | error cause => exact ⟨[], by rw [text_of_subjects_error ht hs, List.append_nil]⟩
    | ok subjects => exact ⟨_, text_of_answers ht hu hs⟩

theorem not_hasRoomFor_text {a : Survey} {d : Device} {tag : Text} (ht : a.tag = .ok tag)
    (hroom : ¬ d.HasRoomFor (tagText tag).utf8) : ¬ d.HasRoomFor a.text.utf8 := by
  obtain ⟨rest, htext⟩ := exists_text_eq_append ht
  rw [htext, Text.utf8_append]
  exact mt Device.hasRoomFor_of_append hroom

inductive Stage (a : Survey) (d : Device) : Prop
  | tagFailed {cause : QueryFailure} (ht : a.tag = .error cause)
  | tagRefused {tag : Text} (ht : a.tag = .ok tag) (hroom : ¬ d.HasRoomFor (tagText tag).utf8)
  | urlFailed {tag : Text} {cause : QueryFailure} (ht : a.tag = .ok tag)
    (hroom : d.HasRoomFor (tagText tag).utf8) (hu : a.url = .error cause)
  | subjectsFailed {tag url : Text} {cause : QueryFailure} (ht : a.tag = .ok tag)
    (hroom : d.HasRoomFor (tagText tag).utf8) (hu : a.url = .ok url)
    (hs : a.subjects tag = .error cause)
  | answered {tag url : Text} {subjects : List Text} (ht : a.tag = .ok tag)
    (hroom : d.HasRoomFor (tagText tag).utf8) (hu : a.url = .ok url)
    (hs : a.subjects tag = .ok subjects)

theorem stage (a : Survey) (d : Device) : a.Stage d := by
  cases ht : a.tag with
  | error cause => exact .tagFailed ht
  | ok tag =>
    by_cases hroom : d.HasRoomFor (tagText tag).utf8
    · cases hu : a.url with
      | error cause => exact .urlFailed ht hroom hu
      | ok url =>
        cases hs : a.subjects tag with
        | error cause => exact .subjectsFailed ht hroom hu hs
        | ok subjects => exact .answered ht hroom hu hs
    · exact .tagRefused ht hroom

section Outcome

variable {a : Survey} {settings : Settings} {d : Device}

theorem outcome_of_answers {tag url : Text} {subjects : List Text} (ht : a.tag = .ok tag)
    (hroom : d.HasRoomFor (tagText tag).utf8) (hu : a.url = .ok url)
    (hs : a.subjects tag = .ok subjects) :
    a.outcome settings d = if d.HasRoomFor a.text.utf8 then .ok () else .error d.refused := by
  simp only [outcome, ht, hroom, hu, hs, not_true_eq_false, if_false, ite_not]

theorem outcome_eq_tagResolution_iff {pattern reference : Text} {cause : QueryFailure} :
    a.outcome settings d = .error (.tagResolution pattern reference cause) ↔
      settings.tagPattern = pattern ∧ settings.mainline = reference ∧ a.tag = .error cause := by
  cases a.stage d with
  | tagFailed ht => simp [outcome, ht]
  | tagRefused ht hroom => simp [outcome, ht, hroom, Device.refused_eq]
  | urlFailed ht hroom hu => simp [outcome, ht, hroom, hu]
  | subjectsFailed ht hroom hu hs => simp [outcome, ht, hroom, hu, hs]
  | answered ht hroom hu hs =>
    rw [outcome_of_answers ht hroom hu hs]
    by_cases hall : d.HasRoomFor a.text.utf8 <;> simp [hall, ht, Device.refused_eq]

theorem outcome_eq_remoteConfig_iff {remote : Text} {cause : QueryFailure} :
    a.outcome settings d = .error (.remoteConfig remote cause) ↔
      settings.remote = remote ∧
        ∃ tag, (a.tag = .ok tag ∧ d.HasRoomFor (tagText tag).utf8) ∧ a.url = .error cause := by
  cases a.stage d with
  | tagFailed ht => simp [outcome, ht]
  | tagRefused ht hroom => simp [outcome, ht, hroom, Device.refused_eq]
  | urlFailed ht hroom hu => simp [outcome, ht, hroom, hu]
  | subjectsFailed ht hroom hu hs => simp [outcome, ht, hroom, hu, hs]
  | answered ht hroom hu hs =>
    rw [outcome_of_answers ht hroom hu hs]
    by_cases hall : d.HasRoomFor a.text.utf8 <;> simp [hall, hu, Device.refused_eq]

theorem outcome_eq_logFetch_iff {range : Text} {cause : QueryFailure} :
    a.outcome settings d = .error (.logFetch range cause) ↔
      ∃ tag url, ((a.tag = .ok tag ∧ d.HasRoomFor (tagText tag).utf8) ∧ a.url = .ok url) ∧
        tag ++ "..".toList ++ settings.mainline = range ∧ a.subjects tag = .error cause := by
  cases a.stage d with
  | tagFailed ht => simp [outcome, ht]
  | tagRefused ht hroom => simp [outcome, ht, hroom, Device.refused_eq]
  | urlFailed ht hroom hu => simp [outcome, ht, hroom, hu]
  | @subjectsFailed tag url c ht hroom hu hs =>
    have hout : a.outcome settings d =
        .error (.logFetch (tag ++ "..".toList ++ settings.mainline) c) := by
      simp only [outcome, ht, hroom, hu, hs, not_true_eq_false, if_false]
    rw [hout, Except.error.injEq, Failure.logFetch.injEq]
    constructor
    · rintro ⟨hrange, rfl⟩
      exact ⟨tag, url, ⟨⟨ht, hroom⟩, hu⟩, hrange, hs⟩
    · rintro ⟨tag', url', ⟨⟨ht', _⟩, _⟩, hrange, hs'⟩
      obtain rfl : tag = tag' := Except.ok.inj (ht.symm.trans ht')
      exact ⟨hrange, Except.error.inj (hs.symm.trans hs')⟩
  | answered ht hroom hu hs =>
    rw [outcome_of_answers ht hroom hu hs]
    by_cases hall : d.HasRoomFor a.text.utf8 <;> simp [hall, hs, ht, hu, Device.refused_eq]

/-- The device is what fails exactly if it has no room for the text there is to write. -/
theorem outcome_eq_output_iff {fault : Fault} :
    a.outcome settings d = .error (.output fault) ↔
      d.refused = .output fault ∧ ¬ d.HasRoomFor a.text.utf8 := by
  cases a.stage d with
  | tagFailed ht =>
    have htext : d.HasRoomFor a.text.utf8 := by simp [Device.HasRoomFor, text, ht]
    simp [outcome, ht, htext]
  | tagRefused ht hroom =>
    have hno := not_hasRoomFor_text ht hroom
    simp [outcome, ht, hroom, hno]
  | urlFailed ht hroom hu => simp [outcome, ht, hroom, hu, text_of_url_error ht hu]
  | subjectsFailed ht hroom hu hs =>
    simp [outcome, ht, hroom, hu, hs, text_of_subjects_error ht hs]
  | answered ht hroom hu hs =>
    rw [outcome_of_answers ht hroom hu hs]
    by_cases hall : d.HasRoomFor a.text.utf8 <;> simp [hall]

theorem outcome_eq_ok_iff :
    a.outcome settings d = .ok () ↔
      (∃ tag url subjects, a.tag = .ok tag ∧ a.url = .ok url ∧ a.subjects tag = .ok subjects) ∧
        d.HasRoomFor a.text.utf8 := by
  cases a.stage d with
  | tagFailed ht => simp [outcome, ht]
  | tagRefused ht hroom =>
    have hno := not_hasRoomFor_text ht hroom
    simp [outcome, ht, hroom, hno]
  | urlFailed ht hroom hu => simp [outcome, ht, hroom, hu]
  | subjectsFailed ht hroom hu hs => simp [outcome, ht, hroom, hu, hs]
  | answered ht hroom hu hs =>
    rw [outcome_of_answers ht hroom hu hs]
    by_cases hall : d.HasRoomFor a.text.utf8 <;> simp [hall, ht, hu, hs]

end Outcome

structure Answers (a : Survey) (t u : Text) (ss : List Text) : Prop where
  tag : a.tag = .ok t
  url : a.url = .ok u
  subjects : a.subjects t = .ok ss

section Unlimited

variable {a : Survey} {tag url : Text} {subjects : List Text} (h : a.Answers tag url subjects)
  {d : Device} (hd : d.capacity = none)

include h hd

theorem Answers.outcome_eq_ok (settings : Settings) : a.outcome settings d = .ok () := by
  have hroom := Device.hasRoomFor_of_unlimited hd a.text.utf8
  exact outcome_eq_ok_iff.mpr ⟨⟨tag, url, subjects, h.tag, h.url, h.subjects⟩, hroom⟩

theorem Answers.portion_text :
    d.portion a.text.utf8 = (logText tag (Bullet.ofSubjects (Review.base url) subjects)).utf8 := by
  have hroom := Device.hasRoomFor_of_unlimited hd a.text.utf8
  rw [Device.portion_eq_self_iff.mpr hroom, text_of_answers h.tag h.url h.subjects]

end Unlimited

/-- Two surveys that differ at most in what is not asked after a failure. -/
structure Agrees (a b : Survey) : Prop where
  tag : a.tag = b.tag
  url : ∀ {tag}, b.tag = .ok tag → a.url = b.url
  subjects : ∀ {tag url}, b.tag = .ok tag → b.url = .ok url → a.subjects tag = b.subjects tag

theorem Agrees.text_eq {a b : Survey} (h : a.Agrees b) : a.text = b.text := by
  cases ht : b.tag with
  | error cause => simp only [text, h.tag, ht]
  | ok tag =>
    cases hu : b.url with
    | error cause => simp only [text, h.tag, ht, h.url ht, hu]
    | ok url => simp only [text, h.tag, ht, h.url ht, hu, h.subjects ht hu]

theorem Agrees.outcome_eq {a b : Survey} (h : a.Agrees b) (settings : Settings) (d : Device) :
    a.outcome settings d = b.outcome settings d := by
  have htext := h.text_eq
  cases ht : b.tag with
  | error cause => simp only [outcome, h.tag, ht]
  | ok tag =>
    cases hu : b.url with
    | error cause => simp only [outcome, h.tag, ht, h.url ht, hu]
    | ok url => simp only [outcome, h.tag, ht, h.url ht, hu, h.subjects ht hu, htext]

end Survey

/-- A run offers the text there is to write, whatever course it takes. -/
theorem took_publish {σ : Type} (r : Repository σ) (settings : Settings) (s : Session σ) :
    s.sink.Took (r.survey settings s.repository).text.utf8
      (Run.after (publish r settings) s).sink := by
  have hc := course_publish r settings s
  generalize Run.result (publish r settings) s = result at hc
  generalize Run.after (publish r settings) s = final at hc ⊢
  generalize r.survey settings s.repository = a at hc ⊢
  cases hc with
  | tagFailed ht =>
    have htext : a.text = [] := by simp only [Survey.text, ht]
    rw [htext]
    exact s.sink.took_nil
  | tagRefused ht hfit =>
    obtain ⟨rest, htext⟩ := Survey.exists_text_eq_append ht
    rw [htext, Text.utf8_append]
    exact (took_tagWritten r s _).append_of_ne hfit _
  | urlFailed ht hfit hu =>
    rw [Survey.text_of_url_error ht hu]
    exact took_tagWritten r s _
  | subjectsFailed ht hfit hu hs =>
    rw [Survey.text_of_subjects_error ht hs]
    exact took_tagWritten r s _
  | answered ht hfit hu hs =>
    rw [Survey.text_of_answers ht hu hs]
    exact took_answered r settings s _ _ _ _

theorem bytes_publish {σ : Type} (r : Repository σ) (settings : Settings) {s : Session σ}
    {d : Device} (hd : s.sink = .ofDevice d) :
    (Run.after (publish r settings) s).sink.bytes =
      d.portion (r.survey settings s.repository).text.utf8 := by
  have htook := took_publish r settings s
  rw [htook.bytes, hd, Sink.fit_ofDevice, Sink.bytes_ofDevice, List.nil_append]

/-- A run reports the first thing that goes wrong. -/
theorem result_publish {σ : Type} (r : Repository σ) (settings : Settings) {s : Session σ}
    {d : Device} (hd : s.sink = .ofDevice d) :
    Run.result (publish r settings) s = (r.survey settings s.repository).outcome settings d := by
  have hroom := Sink.fit_eq_self_iff hd
  have hdev : s.sink.device = d := by rw [hd, Sink.device_ofDevice]
  have hc := course_publish r settings s
  generalize Run.result (publish r settings) s = result at hc ⊢
  generalize Run.after (publish r settings) s = final at hc
  generalize r.survey settings s.repository = a at hc ⊢
  cases hc with
  | tagFailed ht => simp only [Survey.outcome, ht]
  | tagRefused ht hfit =>
    have hno := mt (hroom _).mpr hfit
    simp only [Survey.outcome, ht, hno, not_false_eq_true, if_true, Device.refused_eq, hdev]
  | urlFailed ht hfit hu =>
    have hyes := (hroom _).mp hfit
    simp only [Survey.outcome, ht, hu, hyes, not_true_eq_false, if_false]
  | subjectsFailed ht hfit hu hs =>
    have hyes := (hroom _).mp hfit
    simp only [Survey.outcome, ht, hu, hs, hyes, not_true_eq_false, if_false, Settings.range]
  | answered ht hfit hu hs =>
    have hyes := (hroom _).mp hfit
    rw [result_answered r settings s _ _ _ _ hfit]
    simp only [hroom, Survey.outcome, ht, hu, hs, hyes, not_true_eq_false, if_false,
      Survey.text_of_answers ht hu hs, Device.refused_eq, hdev, ite_not]

/-- A run leaves the beginning of the text there is to write, as much of it as the device has room
for, and fails with the first thing that goes wrong. How the device bites and how often it is
interrupted does not show. -/
theorem publish_outcome {σ : Type} (r : Repository σ) (settings : Settings) (q : σ) (d : Device) :
    (Run.after (publish r settings) (.start q d)).sink.bytes =
        d.portion (r.survey settings q).text.utf8 ∧
      Run.result (publish r settings) (.start q d) = (r.survey settings q).outcome settings d := by
  have hd : (Session.start q d).sink = .ofDevice d := rfl
  constructor
  · exact bytes_publish r settings hd
  · exact result_publish r settings hd

end ReleaseLog
