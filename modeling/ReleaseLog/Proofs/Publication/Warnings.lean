import ReleaseLog.Proofs.Publication.Records

/-!
# Warnings

A run warns of nothing but the URL of the remote, and of that as soon as it is known. What is
skipped or counted later is no warning (`warnings_publish`).
-/

namespace ReleaseLog

open Publication

def warningsAmong (rs : List Record) : List Record := rs.filter (·.level = .warn)

@[simp] theorem warningsAmong_append (rs ss : List Record) :
    warningsAmong (rs ++ ss) = warningsAmong rs ++ warningsAmong ss := List.filter_append ..

structure Repository.Quiet {σ : Type} (r : Repository σ) : Prop where
  latestTag : ∀ q, warningsAmong (r.latestTag q).records = []
  remoteUrl : ∀ q, warningsAmong (r.remoteUrl q).records = []
  subjects : ∀ tag mainline q, warningsAmong (r.subjects tag mainline q).records = []

theorem Git.Client.quiet_repository (c : Git.Client) : c.repository.Quiet where
  latestTag q := by
    change warningsAmong (c.run _ q).records = []
    rw [run_records]
    rfl
  remoteUrl q := by
    change warningsAmong (c.run _ q).records = []
    rw [run_records]
    rfl
  subjects tag mainline q := by
    change warningsAmong (c.run _ q).records = []
    rw [run_records]
    rfl

namespace Publication

theorem warningsAmong_warning (url : Text) : warningsAmong (warning url) = warning url := by
  unfold warning
  split <;> rfl

theorem warningsAmong_skipped (subjects : List Text) :
    warningsAmong (subjects.map .skipped) = [] := by
  simp [warningsAmong, Record.level]

/-- Once the URL is known, the run warns of it unless it has the suffix, and of nothing else. -/
theorem warnings_publish {σ : Type} {r : Repository σ} (hr : r.Quiet) (settings : Settings) (q : σ)
    {d : Device} {tag url : Text} (ht : (r.survey settings q).tag = .ok tag)
    (hroom : d.HasRoomFor (tagText tag).utf8) (hu : (r.survey settings q).url = .ok url) :
    warningsAmong (Run.after (publish r settings) (.start q d)).records =
      if Review.hasSuffix url then [] else [.noSuffix url] := by
  have htag : warningsAmong (r.notes settings q).tag = [] := hr.latestTag _
  have hurl : warningsAmong (r.notes settings q).url = [] := hr.remoteUrl _
  have hsubjects : warningsAmong ((r.notes settings q).subjects tag) = [] := hr.subjects ..
  rw [records_publish, ← warning_eq]
  simp only [Survey.noted, ht, hroom, hu, not_true_eq_false, if_false, warningsAmong_append, htag,
    hurl, hsubjects, warningsAmong_warning, List.nil_append, List.append_nil]
  cases (r.survey settings q).subjects tag with
  | error _ => exact List.append_nil _
  | ok subjects =>
    have hcounted : ∀ skipped : List Text,
        warningsAmong (.counted subjects.length tag :: skipped.map .skipped) = [] :=
      warningsAmong_skipped
    rw [hcounted, List.append_nil]

end Publication

end ReleaseLog
