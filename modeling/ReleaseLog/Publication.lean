import ReleaseLog.Feed
import ReleaseLog.Git.Client
import ReleaseLog.Repository
import ReleaseLog.Review
import ReleaseLog.Settings
import ReleaseLog.Sink
import ReleaseLog.Text.Utf8

/-!
# Publication

The log of a repository is written line by line. Each line is written as soon as it is known, so
what stands before a failing stage stays written; a skipped subject is noted when its turn comes.
-/

namespace ReleaseLog

/-- What a run has done so far: the state of the repository, the sink, the records, and each query
with the number of bytes written before it. -/
structure Session (σ : Type) where
  repository : σ
  sink : Sink
  records : List Record := []
  asked : List (Query × Nat) := []

/-- A part of a run; a failure keeps what has been done. -/
abbrev Run (σ α : Type) := EStateM Failure (Session σ) α

namespace Publication

variable {σ α : Type}

/-- A question to the repository; its failure is the failure of the stage it belongs to. -/
def ask (query : Query) (question : σ → Answer σ α) (stage : QueryFailure → Failure) : Run σ α :=
  fun s =>
    let a := question s.repository
    let s := { s with
      repository := a.state
      records := s.records ++ a.records
      asked := s.asked ++ [(query, s.sink.taken.size)] }
    match a.result with
    | .ok value => .ok value s
    | .error cause => .error (stage cause) s

def note (r : Record) : Run σ Unit := fun s => .ok () { s with records := s.records ++ [r] }

def writeLine (t : Text) : Run σ Unit := fun s =>
  match s.sink.write t.line.utf8 with
  | (none, sink) => .ok () { s with sink }
  | (some fault, sink) => .error (.output fault) { s with sink }

def tagLine (tag : Text) : Text := "[+] Latest release tag: ".toList ++ tag

def heading : Text := "[+] Changelog".toList

/-- What a feed delivers, one bullet a line. The subjects it skips are noted before the bullet that
they were skipped for. -/
def writeFeed (f : Feed) : Run σ Unit := do
  forM f.next.skipped fun subject => note (.skipped subject)
  match _h : f.next.result with
  | some b => do
    writeLine b.render
    writeFeed f.next.feed
  | none => pure ()
termination_by f.queue.length
decreasing_by exact Feed.length_queue_next_lt _h

/-- One bullet a line for the subjects that refer to a pull request; the others are noted. -/
def writeBullets (base : Text) (subjects : List Text) : Run σ Unit :=
  writeFeed { base, queue := subjects.map some }

theorem writeFeed_eq (f : Feed) :
    (writeFeed f : Run σ Unit) =
      (forM f.next.skipped fun subject => note (.skipped subject)) >>= fun _ =>
        match f.next.result with
        | some b => writeLine b.render >>= fun _ => writeFeed f.next.feed
        | none => pure () := by
  rw [writeFeed]
  congr 1
  funext _
  split <;> simp_all

theorem writeFeed_bullet {base subject : Text} {b : Bullet}
    (hb : Bullet.ofSubject? base subject = some b) (q : List (Option Text)) (n : Nat) :
    (writeFeed ⟨base, some subject :: q, n⟩ : Run σ Unit) =
      writeLine b.render >>= fun _ => writeFeed ⟨base, q, n + 1⟩ := by
  rw [writeFeed_eq, Feed.next_subject, hb]
  rfl

theorem writeFeed_skip {base subject : Text} (hb : Bullet.ofSubject? base subject = none)
    (q : List (Option Text)) (n : Nat) :
    (writeFeed ⟨base, some subject :: q, n⟩ : Run σ Unit) =
      note (.skipped subject) >>= fun _ => writeFeed ⟨base, q, n + 1⟩ := by
  rw [writeFeed_eq, writeFeed_eq ⟨base, q, n + 1⟩, Feed.next_subject, hb]
  simp only [List.forM_cons, bind_assoc]

theorem writeFeed_nil (base : Text) (n : Nat) :
    (writeFeed ⟨base, [], n⟩ : Run σ Unit) = pure () := by
  rw [writeFeed_eq]
  rfl

theorem writeFeed_pause (base : Text) (q : List (Option Text)) (n : Nat) :
    (writeFeed ⟨base, none :: q, n⟩ : Run σ Unit) = pure () := by
  rw [writeFeed_eq]
  rfl

/-- How often a feed has been pulled does not show. -/
theorem writeFeed_pulled (base : Text) (q : List (Option Text)) (m n : Nat) :
    (writeFeed ⟨base, q, m⟩ : Run σ Unit) = writeFeed ⟨base, q, n⟩ := by
  induction q generalizing m n with
  | nil => rw [writeFeed_nil, writeFeed_nil]
  | cons a q ih =>
    match a with
    | none => rw [writeFeed_pause, writeFeed_pause]
    | some subject =>
      cases hb : Bullet.ofSubject? base subject with
      | some b => rw [writeFeed_bullet hb, writeFeed_bullet hb, ih]
      | none => rw [writeFeed_skip hb, writeFeed_skip hb, ih]

theorem writeBullets_nil (base : Text) : (writeBullets base [] : Run σ Unit) = pure () :=
  writeFeed_nil base 0

theorem writeBullets_bullet {base subject : Text} {b : Bullet}
    (hb : Bullet.ofSubject? base subject = some b) (rest : List Text) :
    (writeBullets base (subject :: rest) : Run σ Unit) =
      writeLine b.render >>= fun _ => writeBullets base rest := by
  refine (writeFeed_bullet hb _ 0).trans ?_
  rw [writeFeed_pulled base _ _ 0]
  rfl

theorem writeBullets_skip {base subject : Text} (hb : Bullet.ofSubject? base subject = none)
    (rest : List Text) :
    (writeBullets base (subject :: rest) : Run σ Unit) =
      note (.skipped subject) >>= fun _ => writeBullets base rest := by
  refine (writeFeed_skip hb _ 0).trans ?_
  rw [writeFeed_pulled base _ _ 0]
  rfl

end Publication

open Publication

def publish {σ : Type} (r : Repository σ) (settings : Settings) : Run σ Unit := do
  let tag ← ask .latestTag r.latestTag (.tagResolution settings.tagPattern settings.mainline)
  writeLine (tagLine tag)
  let url ← ask .remoteUrl r.remoteUrl (.remoteConfig settings.remote)
  unless Review.hasSuffix url do
    note (.noSuffix url)
  let subjects ← ask (.subjects tag settings.mainline) (r.subjects tag settings.mainline)
    (.logFetch (settings.range tag))
  note (.counted subjects.length tag)
  writeLine heading
  writeLine []
  writeBullets (Review.base url) subjects

def publishFrom (h : Host) (directory : Text) : Run Git.Exchange Unit :=
  match h.findGit with
  | none => throw .missingTool
  | some program => do
    note (.usingGit program)
    publish (Git.Client.repository ⟨program, some directory, {}, h⟩) {}

end ReleaseLog
