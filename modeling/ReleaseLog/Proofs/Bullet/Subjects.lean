import ReleaseLog.Bullet

/-!
# Subjects and their bullets

A list of subjects gives the bullets of those that refer to a pull request and leaves the others,
and each subject is in one of the two (`accounted`).
-/

namespace ReleaseLog

namespace Bullet

def ofSubjects (base : Text) (ss : List Text) : List Bullet := ss.filterMap (ofSubject? base)

def unreferenced (base : Text) (ss : List Text) : List Text :=
  ss.filter fun s => (ofSubject? base s).isNone

/-- Subjects, the bullets of some of them and the others, each in order. -/
inductive Accounted (base : Text) : List Text → List Bullet → List Text → Prop
  | nil : Accounted base [] [] []
  | bullet {s : Text} {b : Bullet} {ss skipped : List Text} {bs : List Bullet}
    (hb : ofSubject? base s = some b) (h : Accounted base ss bs skipped) :
    Accounted base (s :: ss) (b :: bs) skipped
  | skip {s : Text} {ss skipped : List Text} {bs : List Bullet}
    (hs : ofSubject? base s = none) (h : Accounted base ss bs skipped) :
    Accounted base (s :: ss) bs (s :: skipped)

section Equations

variable {base s : Text} {b : Bullet} {ss : List Text}

theorem ofSubjects_bullet (hb : ofSubject? base s = some b) :
    ofSubjects base (s :: ss) = b :: ofSubjects base ss := List.filterMap_cons_some hb

theorem ofSubjects_skip (hs : ofSubject? base s = none) :
    ofSubjects base (s :: ss) = ofSubjects base ss := List.filterMap_cons_none hs

theorem unreferenced_bullet (hb : ofSubject? base s = some b) :
    unreferenced base (s :: ss) = unreferenced base ss := List.filter_cons_of_neg (by simp [hb])

theorem unreferenced_skip (hs : ofSubject? base s = none) :
    unreferenced base (s :: ss) = s :: unreferenced base ss :=
  List.filter_cons_of_pos (by simp [hs])

theorem ofSubjects_append (base : Text) (ss ts : List Text) :
    ofSubjects base (ss ++ ts) = ofSubjects base ss ++ ofSubjects base ts := List.filterMap_append

theorem unreferenced_append (base : Text) (ss ts : List Text) :
    unreferenced base (ss ++ ts) = unreferenced base ss ++ unreferenced base ts :=
  List.filter_append ..

end Equations

theorem accounted (base : Text) (ss : List Text) :
    Accounted base ss (ofSubjects base ss) (unreferenced base ss) := by
  induction ss with
  | nil => exact .nil
  | cons s ss ih =>
    cases h : ofSubject? base s with
    | some b =>
      rw [ofSubjects_bullet h, unreferenced_bullet h]
      exact .bullet h ih
    | none =>
      rw [ofSubjects_skip h, unreferenced_skip h]
      exact .skip h ih

end Bullet

end ReleaseLog
