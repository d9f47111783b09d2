import ReleaseLog.Proofs.Publication.Course

/-!
# Runs that cannot be told apart

A run is started twice, from sessions that differ at most in their repositories and their sinks. A
part of it respects a relation between the repositories if it comes to the same both times, notes
the same, and leaves related repositories (`Run.Respects`); parts that respect relations can follow
one another (`Run.Respects.bind`). Of a sink only the bytes in it show, and the room for more
(`Sink.congruence_alike`).
-/

namespace ReleaseLog

open Publication

namespace Sink

/-- A relation of sinks that no write can tell apart. -/
structure Congruence (K : Sink → Sink → Prop) : Prop where
  bytes : ∀ {s s'}, K s s' → s.bytes = s'.bytes
  fault : ∀ {s s'}, K s s' → ∀ bs, (s.write bs).1 = (s'.write bs).1
  write : ∀ {s s'}, K s s' → ∀ bs, K (s.write bs).2 (s'.write bs).2

theorem Congruence.size {K : Sink → Sink → Prop} (hK : Congruence K) {s s' : Sink} (h : K s s') :
    s.taken.size = s'.taken.size := congrArg List.length (hK.bytes h)

theorem congruence_eq : Congruence Eq where
  bytes h := congrArg bytes h
  fault h bs := congrArg (fun s => (s.write bs).1) h
  write h bs := congrArg (fun s => (s.write bs).2) h

/-- Sinks with the same bytes in them and the same room for more. How the devices bite and when
they are interrupted is left open, and so is how they refuse if they never do. -/
structure Alike (s s' : Sink) : Prop where
  bytes : s.bytes = s'.bytes
  capacity : s.device.capacity = s'.device.capacity
  refusal : s.device.capacity ≠ none → s.device.refusal = s'.device.refusal

theorem Alike.fit_eq {s s' : Sink} (h : s.Alike s') (bs : List UInt8) : s.fit bs = s'.fit bs := by
  have hsize : s.taken.size = s'.taken.size := congrArg List.length h.bytes
  simp only [fit, h.capacity, hsize]

theorem fit_of_unlimited {s : Sink} (h : s.device.capacity = none) (bs : List UInt8) :
    s.fit bs = bs := by
  simp only [fit, h]

theorem congruence_alike : Congruence Alike where
  bytes h := h.bytes
  fault := by
    intro s s' h bs
    rw [fault_write, fault_write, h.fit_eq]
    by_cases hcap : s.device.capacity = none
    · have hfit : s'.fit bs = bs := fit_of_unlimited (h.capacity.symm.trans hcap) bs
      rw [if_pos hfit, if_pos hfit]
    · rw [h.refusal hcap]
  write := by
    intro s s' h bs
    constructor
    case bytes => rw [bytes_write, bytes_write, h.bytes, h.fit_eq]
    case capacity => rw [device_write, device_write, h.capacity]
    case refusal => rw [device_write, device_write]; exact h.refusal

end Sink

structure Session.Alike {σ : Type} (K : Sink → Sink → Prop) (R : σ → σ → Prop)
    (s s' : Session σ) : Prop where
  repository : R s.repository s'.repository
  sink : K s.sink s'.sink
  records : s.records = s'.records
  asked : s.asked = s'.asked

/-- Answers that say the same, with related states: by `S` if there is an answer, else by `E`. -/
structure Answer.Alike {σ α : Type} (S E : σ → σ → Prop) (a a' : Answer σ α) : Prop where
  result : a.result = a'.result
  records : a.records = a'.records
  ok : ∀ value, a.result = .ok value → S a.state a'.state
  error : ∀ cause, a.result = .error cause → E a.state a'.state

theorem Answer.alike_refl {σ α : Type} (a : Answer σ α) : a.Alike Eq Eq a :=
  ⟨rfl, rfl, fun _ _ => rfl, fun _ _ => rfl⟩

namespace Run

variable {σ α β : Type} {K : Sink → Sink → Prop} {R S T E : σ → σ → Prop}

/-- Results that come to the same, with sessions that are alike: by `S` after a success, by `E`
after a failure. -/
inductive SameResult (K : Sink → Sink → Prop) (S E : σ → σ → Prop) :
    EStateM.Result Failure (Session σ) α → EStateM.Result Failure (Session σ) α → Prop
  | ok {t t' : Session σ} (a : α) (h : t.Alike K S t') : SameResult K S E (.ok a t) (.ok a t')
  | error {t t' : Session σ} (e : Failure) (h : t.Alike K E t') :
    SameResult K S E (.error e t) (.error e t')

theorem SameResult.alike {m : Run σ α} {s s' : Session σ} (h : SameResult K S S (m s) (m s')) :
    result m s = result m s' ∧ (after m s).Alike K S (after m s') := by
  unfold result after
  generalize m s = r at h ⊢
  generalize m s' = r' at h ⊢
  cases h with
  | ok a ht => exact ⟨rfl, ht⟩
  | error e ht => exact ⟨rfl, ht⟩

/-- A part of a run that cannot tell sessions apart that are alike by `K` and `R`. -/
def Respects (K : Sink → Sink → Prop) (R S E : σ → σ → Prop) (m : Run σ α) : Prop :=
  ∀ s s' : Session σ, s.Alike K R s' → SameResult K S E (m s) (m s')

theorem respects_pure (a : α) : Respects K R R E (pure a : Run σ α) := fun _ _ hs => .ok a hs

theorem Respects.bind {m : Run σ α} {f : α → Run σ β} (hm : Respects K R S E m)
    (hf : ∀ a, Respects K S T E (f a)) : Respects K R T E (m >>= f) := by
  intro s s' hs
  have h := hm s s' hs
  generalize hr : m s = r at h
  generalize hr' : m s' = r' at h
  cases h with
  | ok a ht =>
    rw [bind_of_ok hr, bind_of_ok hr']
    exact hf a _ _ ht
  | error e ht =>
    rw [bind_of_error hr, bind_of_error hr']
    exact .error e ht

theorem respects_note (r : Record) : Respects K R R E (note r : Run σ Unit) := by
  intro s s' hs
  exact .ok () ⟨hs.repository, hs.sink, congrArg (· ++ [r]) hs.records, hs.asked⟩

section Sinks

variable (hK : Sink.Congruence K)

include hK

theorem respects_ask {query : Query} {question : σ → Answer σ α} {stage : QueryFailure → Failure}
    (hq : ∀ q q', R q q' → (question q).Alike S E (question q')) :
    Respects K R S E (ask query question stage) := by
  intro s s' hs
  have ha := hq _ _ hs.repository
  have hrecords : s.records ++ (question s.repository).records =
      s'.records ++ (question s'.repository).records := by rw [hs.records, ha.records]
  have hasked : s.asked ++ [(query, s.sink.taken.size)] =
      s'.asked ++ [(query, s'.sink.taken.size)] := by rw [hs.asked, hK.size hs.sink]
  cases hr : (question s.repository).result with
  | ok value =>
    rw [ask_of_ok query hr stage, ask_of_ok query (ha.result ▸ hr) stage]
    exact .ok value ⟨ha.ok value hr, hs.sink, hrecords, hasked⟩
  | error cause =>
    rw [ask_of_error query hr stage, ask_of_error query (ha.result ▸ hr) stage]
    exact .error _ ⟨ha.error cause hr, hs.sink, hrecords, hasked⟩

theorem respects_writeLine (hE : ∀ q q', R q q' → E q q') (t : Text) :
    Respects K R R E (writeLine t : Run σ Unit) := by
  intro s s' hs
  have hfault := hK.fault hs.sink t.line.utf8
  have hsink := hK.write hs.sink t.line.utf8
  unfold writeLine
  generalize s.sink.write t.line.utf8 = w at hfault hsink
  generalize s'.sink.write t.line.utf8 = w' at hfault hsink
  obtain ⟨fault, sink⟩ := w
  obtain ⟨fault', sink'⟩ := w'
  obtain rfl : fault = fault' := hfault
  cases fault with
  | none => exact .ok () ⟨hs.repository, hsink, hs.records, hs.asked⟩
  | some f => exact .error _ ⟨hE _ _ hs.repository, hsink, hs.records, hs.asked⟩

theorem respects_writeBullets (hE : ∀ q q', R q q' → E q q') (base : Text)
    (subjects : List Text) : Respects K R R E (writeBullets base subjects : Run σ Unit) := by
  induction subjects with
  | nil =>
    rw [writeBullets_nil]
    exact respects_pure ()
  | cons subject rest ih =>
    cases hb : Bullet.ofSubject? base subject with
    | some b =>
      rw [writeBullets_bullet hb]
      exact (respects_writeLine hK hE b.render).bind fun _ => ih
    | none =>
      rw [writeBullets_skip hb]
      exact (respects_note _).bind fun _ => ih

theorem respects_writeTail (hE : ∀ q q', R q q' → E q q') (base : Text) (subjects : List Text) :
    Respects K R R E (writeTail base subjects : Run σ Unit) :=
  (respects_writeLine hK hE heading).bind fun _ =>
    (respects_writeLine hK hE []).bind fun _ => respects_writeBullets hK hE _ subjects

/-- A run respects what the three questions respect one after another. -/
theorem respects_publish {r : Repository σ} {U : σ → σ → Prop} (settings : Settings)
    (htag : ∀ q q', R q q' → (r.latestTag q).Alike S E (r.latestTag q'))
    (hurl : ∀ q q', S q q' → (r.remoteUrl q).Alike T E (r.remoteUrl q'))
    (hsubjects : ∀ tag mainline q q', T q q' →
      (r.subjects tag mainline q).Alike U E (r.subjects tag mainline q'))
    (hS : ∀ q q', S q q' → E q q') (hU : ∀ q q', U q q' → E q q') :
    Respects K R U E (publish r settings) := by
  have hafter : ∀ tag url, Respects K T U E (afterUrl r settings tag url) := fun tag url =>
    (respects_ask hK (hsubjects tag _)).bind fun subjects =>
      (respects_note _).bind fun _ => respects_writeTail hK hU _ subjects
  refine (respects_ask hK htag).bind fun tag => (respects_writeLine hK hS _).bind fun _ => ?_
  refine (respects_ask hK hurl).bind fun url => ?_
  by_cases h : Review.hasSuffix url = true
  · simp only [h, if_true]
    exact hafter tag url
  · simp only [h]
    exact (respects_note _).bind fun _ => hafter tag url

/-- Of the sink of a run only what is in it shows, and the room for more. -/
theorem respects_publishFrom (h : Host) (directory : Text) :
    Respects K Eq Eq Eq (publishFrom h directory) := by
  unfold publishFrom
  cases h.findGit with
  | none => exact fun s s' hs => .error _ hs
  | some program =>
    have hanswer : ∀ {α : Type} (question : Git.Exchange → Answer Git.Exchange α) q q',
        q = q' → (question q).Alike Eq Eq (question q') := by
      rintro α question q q' rfl
      exact Answer.alike_refl _
    exact (respects_note _).bind fun _ => respects_publish hK {} (hanswer _) (hanswer _)
      (fun _ _ => hanswer _) (fun _ _ h => h) (fun _ _ h => h)

end Sinks

end Run

end ReleaseLog
