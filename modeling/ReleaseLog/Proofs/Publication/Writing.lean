import ReleaseLog.Proofs.Bullet.Subjects
import ReleaseLog.Proofs.Sink.Room
import ReleaseLog.Publication

/-!
# Writing

The parts of a run that ask nothing. Each offers one text to the sink, and parts that follow one
another offer their texts one after another (`Writes.seq`), so all that follows the tag line is one
text (`writes_writeTail`).
-/

namespace ReleaseLog

namespace Run

def result {σ α : Type} (m : Run σ α) (s : Session σ) : Except Failure α :=
  match m s with
  | .ok a _ => .ok a
  | .error f _ => .error f

/-- The session that a part of a run leaves, whatever it comes to. -/
def after {σ α : Type} (m : Run σ α) (s : Session σ) : Session σ :=
  match m s with
  | .ok _ t => t
  | .error _ t => t

theorem eq_ok_of_result {σ α : Type} {m : Run σ α} {s : Session σ} {a : α}
    (h : result m s = .ok a) : m s = .ok a (after m s) := by
  unfold result at h
  unfold after
  cases hm : m s <;> simp_all

theorem eq_error_of_result {σ α : Type} {m : Run σ α} {s : Session σ} {e : Failure}
    (h : result m s = .error e) : m s = .error e (after m s) := by
  unfold result at h
  unfold after
  cases hm : m s <;> simp_all

theorem bind_of_ok {σ α β : Type} {m : Run σ α} {s t : Session σ} {a : α} (h : m s = .ok a t)
    (f : α → Run σ β) : (m >>= f) s = f a t := by
  simp only [bind, EStateM.bind, h]

theorem bind_of_error {σ α β : Type} {m : Run σ α} {s t : Session σ} {e : Failure}
    (h : m s = .error e t) (f : α → Run σ β) : (m >>= f) s = .error e t := by
  simp only [bind, EStateM.bind, h]

theorem after_seq {σ : Type} (m n : Run σ Unit) (s : Session σ) :
    after (m >>= fun _ => n) s =
      match result m s with
      | .ok _ => after n (after m s)
      | .error _ => after m s := by
  cases h : m s with
  | ok a t => simp only [after, result, bind_of_ok h, h]
  | error e t => simp only [after, result, bind_of_error h, h]

theorem result_seq {σ : Type} (m n : Run σ Unit) (s : Session σ) :
    result (m >>= fun _ => n) s =
      match result m s with
      | .ok _ => result n (after m s)
      | .error e => .error e := by
  cases h : m s with
  | ok a t => simp only [after, result, bind_of_ok h, h]
  | error e t => simp only [result, bind_of_error h, h]

end Run

namespace Session

def start {σ : Type} (q : σ) (d : Device) : Session σ := { repository := q, sink := .ofDevice d }

def asking {σ α : Type} (s : Session σ) (q : Query) (a : Answer σ α) : Session σ :=
  { s with
    repository := a.state
    records := s.records ++ a.records
    asked := s.asked ++ [(q, s.sink.taken.size)] }

def noting {σ : Type} (s : Session σ) (r : Record) : Session σ :=
  { s with records := s.records ++ [r] }

def offering {σ : Type} (s : Session σ) (t : Text) : Session σ :=
  { s with sink := (s.sink.write t.utf8).2 }

end Session

namespace Publication

theorem ask_of_ok {σ α : Type} (query : Query) {question : σ → Answer σ α} {s : Session σ}
    {value : α} (h : (question s.repository).result = .ok value)
    (stage : QueryFailure → Failure) :
    ask query question stage s = .ok value (s.asking query (question s.repository)) := by
  simp only [ask, h]
  rfl

theorem ask_of_error {σ α : Type} (query : Query) {question : σ → Answer σ α} {s : Session σ}
    {cause : QueryFailure} (h : (question s.repository).result = .error cause)
    (stage : QueryFailure → Failure) :
    ask query question stage s = .error (stage cause) (s.asking query (question s.repository)) := by
  simp only [ask, h]
  rfl

theorem writeLine_of_fit {σ : Type} {s : Session σ} {t : Text}
    (h : s.sink.fit t.line.utf8 = t.line.utf8) : writeLine t s = .ok () (s.offering t.line) := by
  have hw := s.sink.fault_write t.line.utf8
  rw [if_pos h] at hw
  unfold writeLine Session.offering
  split
  · next sink hs => simp [hs]
  · next fault sink hs => simp [hs] at hw

theorem writeLine_of_not_fit {σ : Type} {s : Session σ} {t : Text}
    (h : s.sink.fit t.line.utf8 ≠ t.line.utf8) :
    writeLine t s = .error (.output s.sink.device.refusal.toFault) (s.offering t.line) := by
  have hw := s.sink.fault_write t.line.utf8
  rw [if_neg h] at hw
  unfold writeLine Session.offering
  split
  · next sink hs => simp [hs] at hw
  · next fault sink hs =>
    have hf : fault = s.sink.device.refusal.toFault := by simpa [hs] using hw
    simp [hs, hf]

/-- A part of a run that asks nothing and writes a text: the sink keeps as much of it as there is
room for, and the part fails exactly if that is not all. -/
structure Writes {σ : Type} (m : Run σ Unit) (t : Text) : Prop where
  took : ∀ s : Session σ, s.sink.Took t.utf8 (Run.after m s).sink
  result : ∀ s, Run.result m s =
    if s.sink.fit t.utf8 = t.utf8 then .ok () else .error (.output s.sink.device.refusal.toFault)
  repository : ∀ s, (Run.after m s).repository = s.repository
  asked : ∀ s, (Run.after m s).asked = s.asked

theorem writes_pure {σ : Type} : Writes (pure () : Run σ Unit) [] where
  took s := s.sink.took_nil
  result s := by simp [Run.result, pure, EStateM.pure]
  repository _ := rfl
  asked _ := rfl

theorem writes_note {σ : Type} (r : Record) : Writes (note r : Run σ Unit) [] where
  took s := s.sink.took_nil
  result s := by simp [Run.result, note]
  repository _ := rfl
  asked _ := rfl

theorem writes_writeLine {σ : Type} (t : Text) : Writes (writeLine t : Run σ Unit) t.line := by
  have key : ∀ s : Session σ, Run.after (writeLine t) s = s.offering t.line := by
    intro s
    unfold Run.after
    by_cases h : s.sink.fit t.line.utf8 = t.line.utf8
    · rw [writeLine_of_fit h]
    · rw [writeLine_of_not_fit h]
  constructor
  case took =>
    intro s
    rw [key]
    exact s.sink.took_write _
  case result =>
    intro s
    unfold Run.result
    by_cases h : s.sink.fit t.line.utf8 = t.line.utf8
    · rw [writeLine_of_fit h, if_pos h]
    · rw [writeLine_of_not_fit h, if_neg h]
  case repository => intro s; rw [key]; rfl
  case asked => intro s; rw [key]; rfl

theorem Writes.after_seq_of_fit {σ : Type} {m n : Run σ Unit} {t : Text} (hm : Writes m t)
    {s : Session σ} (h : s.sink.fit t.utf8 = t.utf8) :
    Run.after (m >>= fun _ => n) s = Run.after n (Run.after m s) := by
  rw [Run.after_seq, hm.result, if_pos h]

theorem Writes.after_seq_of_not_fit {σ : Type} {m n : Run σ Unit} {t : Text} (hm : Writes m t)
    {s : Session σ} (h : s.sink.fit t.utf8 ≠ t.utf8) :
    Run.after (m >>= fun _ => n) s = Run.after m s := by
  rw [Run.after_seq, hm.result, if_neg h]

theorem Writes.seq {σ : Type} {m n : Run σ Unit} {t u : Text} (hm : Writes m t)
    (hn : Writes n u) : Writes (m >>= fun _ => n) (t ++ u) := by
  constructor
  case took =>
    intro s
    rw [Text.utf8_append]
    by_cases h : s.sink.fit t.utf8 = t.utf8
    · rw [hm.after_seq_of_fit h]
      exact (hm.took s).trans (hn.took _)
    · rw [hm.after_seq_of_not_fit h]
      exact (hm.took s).append_of_ne h _
  case result =>
    intro s
    have hiff := (hm.took s).fit_append_eq_iff u.utf8
    rw [Text.utf8_append, Run.result_seq, hm.result]
    by_cases h : s.sink.fit t.utf8 = t.utf8
    · rw [if_pos h]
      simp only [hn.result, (hm.took s).device, hiff, h, true_and]
    · rw [if_neg h, if_neg (fun hab => h (hiff.mp hab).1)]
  case repository =>
    intro s
    rw [Run.after_seq]
    cases Run.result m s with
    | ok a => exact (hn.repository _).trans (hm.repository s)
    | error e => exact hm.repository s
  case asked =>
    intro s
    rw [Run.after_seq]
    cases Run.result m s with
    | ok a => exact (hn.asked _).trans (hm.asked s)
    | error e => exact hm.asked s

def bulletText (bs : List Bullet) : Text := bs.flatMap fun b => b.render.line

theorem bulletText_append (as bs : List Bullet) :
    bulletText (as ++ bs) = bulletText as ++ bulletText bs := List.flatMap_append

theorem writes_writeBullets {σ : Type} (base : Text) (subjects : List Text) :
    Writes (writeBullets base subjects : Run σ Unit)
      (bulletText (Bullet.ofSubjects base subjects)) := by
  induction subjects with
  | nil =>
    rw [writeBullets_nil]
    exact writes_pure
  | cons subject rest ih =>
    cases h : Bullet.ofSubject? base subject with
    | some b =>
      rw [writeBullets_bullet h, Bullet.ofSubjects_bullet h]
      exact (writes_writeLine b.render).seq ih
    | none =>
      rw [writeBullets_skip h, Bullet.ofSubjects_skip h]
      exact (writes_note _).seq ih

def logTail (bs : List Bullet) : Text := "[+] Changelog\n\n".toList ++ bulletText bs

def tagText (tag : Text) : Text := "[+] Latest release tag: ".toList ++ tag ++ ['\n']

def logText (tag : Text) (bs : List Bullet) : Text := tagText tag ++ logTail bs

theorem logTail_append (as bs : List Bullet) :
    logTail (as ++ bs) = logTail as ++ bulletText bs := by
  unfold logTail
  rw [bulletText_append, List.append_assoc]

theorem logText_append (tag : Text) (as bs : List Bullet) :
    logText tag (as ++ bs) = logText tag as ++ bulletText bs := by
  unfold logText
  rw [logTail_append, List.append_assoc]

def writeTail {σ : Type} (base : Text) (subjects : List Text) : Run σ Unit := do
  writeLine heading
  writeLine []
  writeBullets base subjects

theorem writes_writeTail {σ : Type} (base : Text) (subjects : List Text) :
    Writes (writeTail base subjects : Run σ Unit) (logTail (Bullet.ofSubjects base subjects)) :=
  (writes_writeLine heading).seq ((writes_writeLine []).seq (writes_writeBullets base subjects))

end Publication

end ReleaseLog
