import Mathlib.Data.Nat.Find
import ReleaseLog.Proofs.Publication.Outcome

/-!
# Turns

The subjects of a log come up one after another, and the first bullet that there is no room for is
the end. So there are three ways: all subjects have their turn, or none, or those before a bullet
that is refused (`heard_iff`).
-/

namespace ReleaseLog

namespace Publication

/-- The subjects whose turn comes when there is `room` for the headings and some bullets only: all,
none, or those before the first one whose bullet is refused. -/
inductive Heard (base : Text) (room : List Bullet → Prop) : List Text → List Text → Prop
  | all {subjects : List Text} (h : room (Bullet.ofSubjects base subjects)) :
    Heard base room subjects subjects
  | none {subjects : List Text} (h : ¬ room []) : Heard base room subjects []
  | before {before after : List Text} {subject : Text} {b : Bullet}
    (hb : Bullet.ofSubject? base subject = some b)
    (h : room (Bullet.ofSubjects base before))
    (hno : ¬ room (Bullet.ofSubjects base before ++ [b])) :
    Heard base room (before ++ subject :: after) before

/-- As many of the subjects as there is room for the bullets of. -/
def heard (d : Device) (tag base : Text) (subjects : List Text) : List Text :=
  subjects.take <|
    Nat.findGreatest
      (fun n => d.HasRoomFor (logText tag (Bullet.ofSubjects base (subjects.take n))).utf8)
      subjects.length

section Heard

variable {d : Device} {tag base : Text} {subjects : List Text}

theorem heard_of_hasRoomFor
    (h : d.HasRoomFor (logText tag (Bullet.ofSubjects base subjects)).utf8) :
    heard d tag base subjects = subjects := by
  have hgreatest := Nat.findGreatest_eq
    (P := fun n => d.HasRoomFor (logText tag (Bullet.ofSubjects base (subjects.take n))).utf8)
    (n := subjects.length) (by rwa [List.take_length])
  rw [heard, hgreatest, List.take_length]

theorem heard_of_not_hasRoomFor (h : ¬ d.HasRoomFor (logText tag []).utf8) :
    heard d tag base subjects = [] := by
  have hzero : Nat.findGreatest
      (fun n => d.HasRoomFor (logText tag (Bullet.ofSubjects base (subjects.take n))).utf8)
      subjects.length = 0 := by
    apply Nat.findGreatest_eq_zero_iff.mpr
    intro n _ _ hroom
    rw [← List.nil_append (Bullet.ofSubjects _ _), logText_append, Text.utf8_append] at hroom
    exact h (Device.hasRoomFor_of_append hroom)
  rw [heard, hzero, List.take_zero]

theorem heard_of_before {before after : List Text} {subject : Text} {b : Bullet}
    (hb : Bullet.ofSubject? base subject = some b)
    (h : d.HasRoomFor (logText tag (Bullet.ofSubjects base before)).utf8)
    (hno : ¬ d.HasRoomFor (logText tag (Bullet.ofSubjects base before ++ [b])).utf8) :
    heard d tag base (before ++ subject :: after) = before := by
  have hgreatest : Nat.findGreatest (fun n => d.HasRoomFor
      (logText tag (Bullet.ofSubjects base ((before ++ subject :: after).take n))).utf8)
      (before ++ subject :: after).length = before.length := by
    refine Nat.findGreatest_eq_iff.mpr ⟨by simp, fun _ => by rwa [List.take_left], ?_⟩
    intro n hlt _ hroom
    obtain ⟨k, rfl⟩ : ∃ k, n = before.length + (k + 1) := ⟨n - before.length - 1, by omega⟩
    have hbullets : Bullet.ofSubjects base (subject :: after.take k) =
        [b] ++ Bullet.ofSubjects base (after.take k) :=
      Bullet.ofSubjects_bullet hb
    rw [List.take_length_add_append, List.take_succ_cons, Bullet.ofSubjects_append, hbullets,
      ← List.append_assoc, logText_append, Text.utf8_append] at hroom
    exact hno (Device.hasRoomFor_of_append hroom)
  rw [heard, hgreatest, List.take_left]

end Heard

/-- However many subjects have had their turn, those behind them can be gone through one by one. -/
theorem exists_heard_append {base : Text} {room : List Bullet → Prop} (before after : List Text)
    (h : room (Bullet.ofSubjects base before)) : ∃ hs, Heard base room (before ++ after) hs := by
  -- A subject goes over from `after` to `before` as long as there is room for its bullet.
  induction after generalizing before with
  | nil => exact ⟨_, .all (by rwa [List.append_nil])⟩
  | cons subject rest ih =>
    cases hb : Bullet.ofSubject? base subject with
    | none =>
      have hskip : Bullet.ofSubjects base (before ++ [subject]) =
          Bullet.ofSubjects base before := by
        rw [Bullet.ofSubjects_append, Bullet.ofSubjects_skip hb]
        exact List.append_nil _
      rw [List.append_cons]
      exact ih _ (hskip ▸ h)
    | some b =>
      have hbullet : Bullet.ofSubjects base (before ++ [subject]) =
          Bullet.ofSubjects base before ++ [b] := by
        rw [Bullet.ofSubjects_append, Bullet.ofSubjects_bullet hb]
        rfl
      by_cases hroom : room (Bullet.ofSubjects base before ++ [b])
      · rw [List.append_cons]
        exact ih _ (hbullet ▸ hroom)
      · exact ⟨before, .before hb h hroom⟩

theorem exists_heard (base : Text) (room : List Bullet → Prop) (subjects : List Text) :
    ∃ hs, Heard base room subjects hs := by
  by_cases h : room []
  · exact exists_heard_append [] subjects h
  · exact ⟨[], .none h⟩

theorem eq_heard {d : Device} {tag base : Text} {subjects hs : List Text}
    (h : Heard base (fun bs => d.HasRoomFor (logText tag bs).utf8) subjects hs) :
    hs = heard d tag base subjects := by
  cases h with
  | all h => exact (heard_of_hasRoomFor h).symm
  | none h => exact (heard_of_not_hasRoomFor h).symm
  | before hb h hno => exact (heard_of_before hb h hno).symm

theorem heard_iff {d : Device} {tag base : Text} {subjects hs : List Text} :
    Heard base (fun bs => d.HasRoomFor (logText tag bs).utf8) subjects hs ↔
      hs = heard d tag base subjects := by
  constructor
  · exact eq_heard
  · rintro rfl
    obtain ⟨hs, h⟩ := exists_heard base (fun bs => d.HasRoomFor (logText tag bs).utf8) subjects
    exact eq_heard h ▸ h

/-- The third bullet is refused, so the subject behind it has no turn. -/
example :
    heard { capacity := some 80 } "v1".toList "u/".toList
      ["Tidy".toList, "Fix (#1)".toList, "Bump".toList, "Add (#2)".toList, "Trim".toList,
        "Drop (#3)".toList, "Sort".toList] =
      ["Tidy".toList, "Fix (#1)".toList, "Bump".toList, "Add (#2)".toList, "Trim".toList] := by
  decide +kernel

end Publication

end ReleaseLog
