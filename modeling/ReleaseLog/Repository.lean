import ReleaseLog.Failure
import ReleaseLog.Record

/-!
# Repositories

What has to be known of a repository to write its log: three questions. Asking one changes a state
and leaves records.
-/

namespace ReleaseLog

/-- The answer to a question, the state it leaves and what was noted on the way. -/
structure Answer (σ α : Type) where
  result : Except QueryFailure α
  state : σ
  records : List Record := []

namespace Answer

variable {σ α β : Type}

def read (f : α → Except QueryFailure β) (a : Answer σ α) : Answer σ β :=
  ⟨a.result.bind f, a.state, a.records⟩

@[simp] theorem read_state (f : α → Except QueryFailure β) (a : Answer σ α) :
    (a.read f).state = a.state := rfl

@[simp] theorem read_records (f : α → Except QueryFailure β) (a : Answer σ α) :
    (a.read f).records = a.records := rfl

theorem result_read_eq_iff {a : Answer σ α} {f : α → Except QueryFailure β}
    {result : Except QueryFailure β} :
    (a.read f).result = result ↔
      (∃ value, a.result = .ok value ∧ f value = result) ∨
        ∃ cause, a.result = .error cause ∧ result = .error cause := by
  cases h : a.result <;> simp [read, h, Except.bind, eq_comm]

theorem read_read {γ : Type} (a : Answer σ α) (f : α → Except QueryFailure β)
    (g : β → Except QueryFailure γ) : (a.read f).read g = a.read fun x => (f x).bind g := by
  unfold read
  cases a.result <;> rfl

end Answer

inductive Query
  | latestTag
  | remoteUrl
  | subjects (tag mainline : Text)
  deriving DecidableEq

/-- The latest release tag on the mainline, the URL of the remote, and the subjects of the commits
between a tag and the mainline, newest first. -/
structure Repository (σ : Type) where
  latestTag : σ → Answer σ Text
  remoteUrl : σ → Answer σ Text
  subjects : Text → Text → σ → Answer σ (List Text)

/-- A repository whose answers are known beforehand. -/
def Repository.known (tag url : Except QueryFailure Text)
    (subjects : Except QueryFailure (List Text)) : Repository PUnit where
  latestTag _ := ⟨tag, ⟨⟩, []⟩
  remoteUrl _ := ⟨url, ⟨⟩, []⟩
  subjects _ _ _ := ⟨subjects, ⟨⟩, []⟩

end ReleaseLog
