import Mathlib.Data.List.Infix
import ReleaseLog.Proofs.Bullet.Subjects
import ReleaseLog.Proofs.Publication.Turns

/-!
# Records of a run

A subject that refers to nothing is noted when its turn comes. Turns end with the first bullet that
there is no room for, so what a run notes is said by the answers of the repository and the room on
the device, as what it writes is (`publish_records`).
-/

namespace ReleaseLog

namespace Publication

section Run

variable {σ : Type}

theorem records_writeLine (t : Text) (s : Session σ) :
    (Run.after (writeLine t) s).records = s.records := by
  unfold Run.after
  by_cases h : s.sink.fit t.line.utf8 = t.line.utf8
  · rw [writeLine_of_fit h]
    rfl
  · rw [writeLine_of_not_fit h]
    rfl

theorem records_writeBullets {base : Text} {subjects : List Text} {s : Session σ}
    (h : s.sink.fit (bulletText (Bullet.ofSubjects base subjects)).utf8 =
      (bulletText (Bullet.ofSubjects base subjects)).utf8) :
    (Run.after (writeBullets base subjects) s).records =
      s.records ++ (Bullet.unreferenced base subjects).map .skipped := by
  induction subjects generalizing s with
  | nil =>
    rw [writeBullets_nil]
    exact (List.append_nil _).symm
  | cons subject rest ih =>
    cases hb : Bullet.ofSubject? base subject with
    | some b =>
      have hline := writes_writeLine (σ := σ) b.render
      have htext : bulletText (Bullet.ofSubjects base (subject :: rest)) =
          b.render.line ++ bulletText (Bullet.ofSubjects base rest) := by
        rw [Bullet.ofSubjects_bullet hb]
        rfl
      rw [htext, Text.utf8_append, (hline.took s).fit_append_eq_iff] at h
      rw [Bullet.unreferenced_bullet hb, writeBullets_bullet hb, hline.after_seq_of_fit h.1,
        ih h.2, records_writeLine]
    | none =>
      rw [Bullet.ofSubjects_skip hb] at h
      rw [Bullet.unreferenced_skip hb, writeBullets_skip hb]
      exact (ih (s := s.noting (.skipped subject)) h).trans (List.append_assoc ..)

theorem records_writeBullets_of_refused {base subject : Text} {b : Bullet} {s : Session σ}
    (hb : Bullet.ofSubject? base subject = some b)
    (h : s.sink.fit b.render.line.utf8 ≠ b.render.line.utf8) (after : List Text) :
    (Run.after (writeBullets base (subject :: after)) s).records = s.records := by
  rw [writeBullets_bullet hb, (writes_writeLine b.render).after_seq_of_not_fit h,
    records_writeLine]

theorem writeBullets_append (base : Text) (before after : List Text) :
    (writeBullets base (before ++ after) : Run σ Unit) =
      writeBullets base before >>= fun _ => writeBullets base after := by
  induction before with
  | nil => rw [List.nil_append, writeBullets_nil, pure_bind]
  | cons subject rest ih =>
    rw [List.cons_append]
    cases hb : Bullet.ofSubject? base subject with
    | some b => rw [writeBullets_bullet hb, writeBullets_bullet hb, ih, bind_assoc]
    | none => rw [writeBullets_skip hb, writeBullets_skip hb, ih, bind_assoc]

def writeHeadings : Run σ Unit := do
  writeLine heading
  writeLine []

theorem writes_writeHeadings : Writes (writeHeadings : Run σ Unit) (logTail []) :=
  (writes_writeLine heading).seq (writes_writeLine [])

theorem records_writeHeadings (s : Session σ) :
    (Run.after writeHeadings s).records = s.records := by
  unfold writeHeadings
  rw [Run.after_seq]
  cases Run.result (writeLine heading) s with
  | ok _ => rw [records_writeLine, records_writeLine]
  | error _ => rw [records_writeLine]

theorem writeTail_eq (base : Text) (subjects : List Text) :
    (writeTail base subjects : Run σ Unit) =
      writeHeadings >>= fun _ => writeBullets base subjects := by
  simp only [writeTail, writeHeadings, bind_assoc]

theorem writeTail_append (base : Text) (before after : List Text) :
    (writeTail base (before ++ after) : Run σ Unit) =
      writeTail base before >>= fun _ => writeBullets base after := by
  simp only [writeTail_eq, writeBullets_append, bind_assoc]

theorem records_writeTail_of_fit {base : Text} {subjects : List Text} {s : Session σ}
    (h : s.sink.fit (logTail (Bullet.ofSubjects base subjects)).utf8 =
      (logTail (Bullet.ofSubjects base subjects)).utf8) :
    (Run.after (writeTail base subjects) s).records =
      s.records ++ (Bullet.unreferenced base subjects).map .skipped := by
  have hhead := writes_writeHeadings (σ := σ)
  rw [← List.nil_append (Bullet.ofSubjects base subjects), logTail_append, Text.utf8_append,
    (hhead.took s).fit_append_eq_iff] at h
  rw [writeTail_eq, hhead.after_seq_of_fit h.1, records_writeBullets h.2, records_writeHeadings]

theorem records_writeTail {base : Text} {subjects hs : List Text} {s : Session σ}
    (h : Heard base (fun bs => s.sink.fit (logTail bs).utf8 = (logTail bs).utf8) subjects hs) :
    (Run.after (writeTail base subjects) s).records =
      s.records ++ (Bullet.unreferenced base hs).map .skipped := by
  cases h with
  | all h => exact records_writeTail_of_fit h
  | none h =>
    rw [writeTail_eq, writes_writeHeadings.after_seq_of_not_fit h, records_writeHeadings]
    exact (List.append_nil _).symm
  | @before _ after subject b hb h hno =>
    -- All up to the cut fits in, so what is refused is the one bullet behind it.
    have htail := writes_writeTail (σ := σ) base hs
    rw [logTail_append, Text.utf8_append, (htail.took s).fit_append_eq_iff, bulletText,
      List.flatMap_singleton] at hno
    have hrefused := mt (And.intro h) hno
    rw [writeTail_append, htail.after_seq_of_fit h, records_writeBullets_of_refused hb hrefused,
      records_writeTail_of_fit h]

end Run

end Publication

open Publication

structure Notes where
  tag : List Record
  url : List Record
  subjects : Text → List Record

def Repository.notes {σ : Type} (r : Repository σ) (settings : Settings) (q : σ) : Notes where
  tag := (r.latestTag q).records
  url := (r.remoteUrl (r.latestTag q).state).records
  subjects tag :=
    (r.subjects tag settings.mainline (r.remoteUrl (r.latestTag q).state).state).records

def warning (url : Text) : List Record :=
  if Review.suffix <:+: url then [] else [.noSuffix url]

/-- All that is noted, among it what the repository notes of its own. -/
def Survey.noted (a : Survey) (own : Notes) (d : Device) : List Record :=
  match a.tag with
  | .error _ => own.tag
  | .ok tag =>
    if ¬ d.HasRoomFor (tagText tag).utf8 then own.tag
    else
      match a.url with
      | .error _ => own.tag ++ own.url
      | .ok url =>
        own.tag ++ own.url ++ warning url ++ own.subjects tag ++
          match a.subjects tag with
          | .error _ => []
          | .ok subjects =>
            .counted subjects.length tag ::
              (Bullet.unreferenced (Review.base url)
                (heard d tag (Review.base url) subjects)).map .skipped

theorem warning_eq (url : Text) :
    warning url = if Review.hasSuffix url then [] else [.noSuffix url] := by
  simp only [warning, Review.hasSuffix_iff]

section Records

variable {σ : Type} (r : Repository σ) (settings : Settings) (q : σ) {d : Device} {tag : Text}

theorem records_urlKnown (tag url : Text) :
    (urlKnown r (.start q d) tag url).records =
      (r.notes settings q).tag ++ (r.notes settings q).url ++ warning url := by
  rw [warning_eq]
  rfl

theorem records_answered
    (hfit : (Session.start q d).sink.fit (tagText tag).utf8 = (tagText tag).utf8) (url base : Text)
    (subjects : List Text) :
    (Run.after (writeTail base subjects)
        (subjectsKnown r settings (.start q d) tag url subjects)).records =
      (subjectsKnown r settings (.start q d) tag url subjects).records ++
        (Bullet.unreferenced base (heard d tag base subjects)).map .skipped := by
  apply records_writeTail
  have htag := took_tagWritten r (.start q d) tag
  have hroom : ∀ bs, d.HasRoomFor (logText tag bs).utf8 ↔
      (subjectsKnown r settings (.start q d) tag url subjects).sink.fit (logTail bs).utf8 =
        (logTail bs).utf8 := by
    intro bs
    rw [← Sink.fit_eq_self_iff (s := (Session.start q d).sink) rfl, logText, Text.utf8_append,
      htag.fit_append_eq_iff]
    exact and_iff_right hfit
  simpa only [hroom] using heard_iff.mpr (rfl : _ = heard d tag base subjects)

end Records

theorem records_publish {σ : Type} (r : Repository σ) (settings : Settings) (q : σ) (d : Device) :
    (Run.after (publish r settings) (.start q d)).records =
      (r.survey settings q).noted (r.notes settings q) d := by
  have hroom := Sink.fit_eq_self_iff (s := (Session.start q d).sink) rfl
  have hc := course_publish r settings (.start q d)
  generalize Run.result (publish r settings) (.start q d) = result at hc
  generalize Run.after (publish r settings) (.start q d) = final at hc ⊢
  change Course r settings (.start q d) (r.survey settings q) result final at hc
  generalize r.survey settings q = a at hc ⊢
  cases hc with
  | tagFailed ht =>
    simp only [Survey.noted, ht]
    rfl
  | tagRefused ht hfit =>
    have hno := mt (hroom _).mpr hfit
    simp only [Survey.noted, ht, hno, not_false_eq_true, if_true]
    rfl
  | urlFailed ht hfit hu =>
    have hyes := (hroom _).mp hfit
    simp only [Survey.noted, ht, hu, hyes, not_true_eq_false, if_false]
    rfl
  | @subjectsFailed tag url _ ht hfit hu hs =>
    have hyes := (hroom _).mp hfit
    simp only [Survey.noted, ht, hu, hs, hyes, not_true_eq_false, if_false, List.append_nil]
    rw [← records_urlKnown r settings q (d := d) tag url]
    rfl
  | @answered tag url subjects ht hfit hu hs =>
    have hyes := (hroom _).mp hfit
    simp only [Survey.noted, ht, hu, hs, hyes, not_true_eq_false, if_false]
    rw [records_answered r settings q hfit, ← records_urlKnown r settings q (d := d) tag url]
    exact List.append_assoc _ [_] _

theorem Survey.Answers.noted {a : Survey} {tag url : Text} {subjects : List Text}
    (h : a.Answers tag url subjects) {d : Device} (hroom : d.HasRoomFor a.text.utf8)
    (own : Notes) :
    a.noted own d = own.tag ++ own.url ++ warning url ++ own.subjects tag ++
      .counted subjects.length tag ::
        (Bullet.unreferenced (Review.base url) subjects).map .skipped := by
  obtain ⟨rest, htext⟩ := Survey.exists_text_eq_append h.tag
  have htag : d.HasRoomFor (tagText tag).utf8 := by
    rw [htext, Text.utf8_append] at hroom
    exact Device.hasRoomFor_of_append hroom
  rw [Survey.text_of_answers h.tag h.url h.subjects] at hroom
  simp only [Survey.noted, h.tag, h.url, h.subjects, htag, not_true_eq_false, if_false,
    heard_of_hasRoomFor hroom]

end ReleaseLog
