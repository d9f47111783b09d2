import ReleaseLog.Proofs.Publication.Writing

/-!
# Courses of a run

A run asks three questions and writes between them. It takes one of five courses: a question fails,
the tag line is refused, or all is known and the rest of the log is written as far as there is room
(`course_publish`).
-/

namespace ReleaseLog

namespace Publication

section Course

variable {σ : Type} (r : Repository σ) (settings : Settings) (s : Session σ)

def tagAsked : Session σ := s.asking .latestTag (r.latestTag s.repository)

def tagWritten (tag : Text) : Session σ := (tagAsked r s).offering (tagText tag)

def urlAsked (tag : Text) : Session σ :=
  (tagWritten r s tag).asking .remoteUrl (r.remoteUrl (tagWritten r s tag).repository)

def urlKnown (tag url : Text) : Session σ :=
  { urlAsked r s tag with
    records := (urlAsked r s tag).records ++
      if Review.hasSuffix url then [] else [.noSuffix url] }

def subjectsAsked (tag url : Text) : Session σ :=
  (urlKnown r s tag url).asking (.subjects tag settings.mainline)
    (r.subjects tag settings.mainline (urlKnown r s tag url).repository)

def subjectsKnown (tag url : Text) (subjects : List Text) : Session σ :=
  (subjectsAsked r settings s tag url).noting (.counted subjects.length tag)

end Course

end Publication

open Publication

/-- What a repository answers to the three questions when they are asked in order. The subjects are
those after a tag. -/
structure Survey where
  tag : Except QueryFailure Text
  url : Except QueryFailure Text
  subjects : Text → Except QueryFailure (List Text)

def Repository.survey {σ : Type} (r : Repository σ) (settings : Settings) (q : σ) : Survey where
  tag := (r.latestTag q).result
  url := (r.remoteUrl (r.latestTag q).state).result
  subjects tag :=
    (r.subjects tag settings.mainline (r.remoteUrl (r.latestTag q).state).state).result

/-- The courses of a run: what it comes to, and the session it leaves. -/
inductive Course {σ : Type} (r : Repository σ) (settings : Settings) (s : Session σ)
    (a : Survey) : Except Failure Unit → Session σ → Prop
  | tagFailed {cause : QueryFailure} (ht : a.tag = .error cause) :
    Course r settings s a (.error (.tagResolution settings.tagPattern settings.mainline cause))
      (tagAsked r s)
  | tagRefused {tag : Text} (ht : a.tag = .ok tag)
    (hfit : s.sink.fit (tagText tag).utf8 ≠ (tagText tag).utf8) :
    Course r settings s a (.error (.output s.sink.device.refusal.toFault)) (tagWritten r s tag)
  | urlFailed {tag : Text} {cause : QueryFailure}
    (ht : a.tag = .ok tag)
    (hfit : s.sink.fit (tagText tag).utf8 = (tagText tag).utf8)
    (hu : a.url = .error cause) :
    Course r settings s a (.error (.remoteConfig settings.remote cause)) (urlAsked r s tag)
  | subjectsFailed {tag url : Text} {cause : QueryFailure}
    (ht : a.tag = .ok tag)
    (hfit : s.sink.fit (tagText tag).utf8 = (tagText tag).utf8)
    (hu : a.url = .ok url)
    (hs : a.subjects tag = .error cause) :
    Course r settings s a (.error (.logFetch (settings.range tag) cause))
      (subjectsAsked r settings s tag url)
  | answered {tag url : Text} {subjects : List Text}
    (ht : a.tag = .ok tag)
    (hfit : s.sink.fit (tagText tag).utf8 = (tagText tag).utf8)
    (hu : a.url = .ok url)
    (hs : a.subjects tag = .ok subjects) :
    Course r settings s a
      (Run.result (writeTail (Review.base url) subjects)
        (subjectsKnown r settings s tag url subjects))
      (Run.after (writeTail (Review.base url) subjects)
        (subjectsKnown r settings s tag url subjects))

def afterTag {σ : Type} (r : Repository σ) (settings : Settings) (tag : Text) : Run σ Unit := do
  let url ← ask .remoteUrl r.remoteUrl (.remoteConfig settings.remote)
  unless Review.hasSuffix url do
    note (.noSuffix url)
  let subjects ← ask (.subjects tag settings.mainline) (r.subjects tag settings.mainline)
    (.logFetch (settings.range tag))
  note (.counted subjects.length tag)
  writeTail (Review.base url) subjects

def afterUrl {σ : Type} (r : Repository σ) (settings : Settings) (tag url : Text) :
    Run σ Unit := do
  let subjects ← ask (.subjects tag settings.mainline) (r.subjects tag settings.mainline)
    (.logFetch (settings.range tag))
  note (.counted subjects.length tag)
  writeTail (Review.base url) subjects

theorem publish_of_tag {σ : Type} {r : Repository σ} {s : Session σ} {tag : Text}
    (ht : (r.latestTag s.repository).result = .ok tag)
    (hfit : s.sink.fit (tagText tag).utf8 = (tagText tag).utf8) (settings : Settings) :
    publish r settings s = afterTag r settings tag (tagWritten r s tag) := by
  have hask := ask_of_ok .latestTag ht
    (.tagResolution settings.tagPattern settings.mainline)
  have hwrite : writeLine (tagLine tag) (tagAsked r s) = .ok () (tagWritten r s tag) :=
    writeLine_of_fit hfit
  exact (Run.bind_of_ok hask _).trans (Run.bind_of_ok hwrite _)

theorem afterTag_of_url {σ : Type} {r : Repository σ} {s : Session σ} {tag url : Text}
    (hu : (r.remoteUrl (tagWritten r s tag).repository).result = .ok url) (settings : Settings) :
    afterTag r settings tag (tagWritten r s tag) =
      afterUrl r settings tag url (urlKnown r s tag url) := by
  have hask := ask_of_ok .remoteUrl hu (.remoteConfig settings.remote)
  refine (Run.bind_of_ok hask _).trans ?_
  by_cases h : Review.hasSuffix url = true
  · have hknown : urlKnown r s tag url = urlAsked r s tag := by simp [urlKnown, h]
    simp only [h, if_true, hknown]
    rfl
  · have hknown : urlKnown r s tag url = (urlAsked r s tag).noting (.noSuffix url) := by
      simp [urlKnown, h, Session.noting]
    simp only [h, hknown]
    exact Run.bind_of_ok rfl _

theorem afterUrl_of_subjects {σ : Type} {r : Repository σ} {settings : Settings} {s : Session σ}
    {tag url : Text} {subjects : List Text}
    (hs : (r.subjects tag settings.mainline (urlKnown r s tag url).repository).result =
      .ok subjects) :
    afterUrl r settings tag url (urlKnown r s tag url) =
      writeTail (Review.base url) subjects (subjectsKnown r settings s tag url subjects) := by
  have hask := ask_of_ok (.subjects tag settings.mainline) hs
    (.logFetch (settings.range tag))
  have hnote : (note (.counted subjects.length tag) : Run σ Unit)
      (subjectsAsked r settings s tag url) =
      .ok () (subjectsKnown r settings s tag url subjects) := rfl
  exact (Run.bind_of_ok hask _).trans (Run.bind_of_ok hnote _)

theorem Course.of_error {σ : Type} {r : Repository σ} {settings : Settings} {s t : Session σ}
    {a : Survey} {e : Failure} (h : publish r settings s = .error e t)
    (hc : Course r settings s a (.error e) t) :
    Course r settings s a (Run.result (publish r settings) s)
      (Run.after (publish r settings) s) := by
  simpa only [Run.result, Run.after, h] using hc

/-- Every run takes one of the courses. -/
theorem course_publish {σ : Type} (r : Repository σ) (settings : Settings) (s : Session σ) :
    Course r settings s (r.survey settings s.repository) (Run.result (publish r settings) s)
      (Run.after (publish r settings) s) := by
  cases ht : (r.latestTag s.repository).result with
  | error cause =>
    have h : publish r settings s = .error _ (tagAsked r s) :=
      Run.bind_of_error (ask_of_error _ ht _) _
    exact .of_error h (.tagFailed ht)
  | ok tag =>
    by_cases hfit : s.sink.fit (tagText tag).utf8 = (tagText tag).utf8
    · have htag := publish_of_tag ht hfit settings
      cases hu : (r.remoteUrl (tagWritten r s tag).repository).result with
      | error cause =>
        have hurl : afterTag r settings tag (tagWritten r s tag) = .error _ (urlAsked r s tag) :=
          Run.bind_of_error (ask_of_error _ hu _) _
        exact .of_error (htag.trans hurl) (.urlFailed ht hfit hu)
      | ok url =>
        have hurl := htag.trans (afterTag_of_url hu settings)
        cases hs : (r.subjects tag settings.mainline (urlKnown r s tag url).repository).result with
        | error cause =>
          have hsub : afterUrl r settings tag url (urlKnown r s tag url) =
              .error _ (subjectsAsked r settings s tag url) :=
            Run.bind_of_error (ask_of_error _ hs _) _
          exact .of_error (hurl.trans hsub) (.subjectsFailed ht hfit hu hs)
        | ok subjects =>
          have hall := hurl.trans (afterUrl_of_subjects hs)
          have hc : Course r settings s (r.survey settings s.repository) _ _ :=
            .answered ht hfit hu hs
          simpa only [Run.result, Run.after, hall] using hc
    · have hwrite : writeLine (tagLine tag) (tagAsked r s) = .error _ (tagWritten r s tag) :=
        writeLine_of_not_fit hfit
      have h : publish r settings s = .error _ (tagWritten r s tag) :=
        (Run.bind_of_ok (ask_of_ok _ ht _) _).trans (Run.bind_of_error hwrite _)
      exact .of_error h (.tagRefused ht hfit)

theorem took_tagWritten {σ : Type} (r : Repository σ) (s : Session σ) (tag : Text) :
    s.sink.Took (tagText tag).utf8 (tagWritten r s tag).sink := s.sink.took_write _

section Answered

variable {σ : Type} (r : Repository σ) (settings : Settings) (s : Session σ) (tag url base : Text)
  (subjects : List Text)

theorem took_answered :
    s.sink.Took (logText tag (Bullet.ofSubjects base subjects)).utf8
      (Run.after (writeTail base subjects)
        (subjectsKnown r settings s tag url subjects)).sink := by
  have htag := took_tagWritten r s tag
  have htail := (writes_writeTail base subjects).took
    (subjectsKnown r settings s tag url subjects)
  rw [logText, Text.utf8_append]
  exact htag.trans htail

theorem result_answered (hfit : s.sink.fit (tagText tag).utf8 = (tagText tag).utf8) :
    Run.result (writeTail base subjects) (subjectsKnown r settings s tag url subjects) =
      if s.sink.fit (logText tag (Bullet.ofSubjects base subjects)).utf8 =
          (logText tag (Bullet.ofSubjects base subjects)).utf8 then .ok ()
      else .error (.output s.sink.device.refusal.toFault) := by
  have htag := took_tagWritten r s tag
  have hiff := htag.fit_append_eq_iff (logTail (Bullet.ofSubjects base subjects)).utf8
  have hdev : (subjectsKnown r settings s tag url subjects).sink.device = s.sink.device :=
    htag.device
  rw [(writes_writeTail base subjects).result, hdev, logText, Text.utf8_append]
  simp only [hiff, hfit, true_and]
  rfl

theorem repository_answered :
    (Run.after (writeTail base subjects)
        (subjectsKnown r settings s tag url subjects)).repository =
      (subjectsAsked r settings s tag url).repository :=
  (writes_writeTail base subjects).repository _

end Answered

end ReleaseLog
