import ReleaseLog.Text.Basic

/-!
# Similarity

How similar two words are: the mean of three shares, those of the characters of either word that
have a partner in the other and that of the partners that stand in the same order. A partner is an
equal character that stands not much farther along or back. Similarity is compared exactly, as a
fraction.
-/

namespace ReleaseLog.Text

/-- How far apart partners may stand. -/
def partnerRange (a b : Text) : Nat := max a.length b.length / 2 - 1

/-- The first index from `low` on and below `high` at which `c` stands free in `b`; an index is
free when it is not among `taken`. -/
def freeIndex? (c : Char) (low high : Nat) (taken : List Nat) (b : Text) : Option Nat :=
  (List.range (min high b.length)).find? fun j => low ≤ j && b[j]? == some c && !taken.contains j

/-- The partners in `b` of the characters of a word, taken from the left: for each character from
index `i` on that finds one, itself and the index of its partner. -/
def partners (range : Nat) (b : Text) : Nat → List Nat → Text → List (Char × Nat)
  | _, _, [] => []
  | i, taken, c :: r =>
    match freeIndex? c (i - range) (i + range + 1) taken b with
    | some j => (c, j) :: partners range b (i + 1) (j :: taken) r
    | none => partners range b (i + 1) taken r

def similarAtLeast (num den : Nat) (a b : Text) : Bool :=
  if a.isEmpty && b.isEmpty then num ≤ den
  else
    let found := partners (partnerRange a b) b 0 [] a
    let inOrder := (List.range b.length).filter fun j => found.any fun p => p.2 == j
    let m := found.length
    let moved := ((found.map Prod.fst).zip inOrder).countP fun (c, j) => b[j]? != some c
    let kept := m - moved / 2
    -- The similarity is (m / |a| + m / |b| + kept / m) / 3.
    m != 0 &&
      num * (3 * a.length * b.length * m) ≤
        den * (m * b.length * m + m * a.length * m + kept * a.length * b.length)

end ReleaseLog.Text
