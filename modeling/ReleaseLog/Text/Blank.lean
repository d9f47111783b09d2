import ReleaseLog.Text.Basic

/-!
# Blanks

The characters with the property `White_Space`, and texts trimmed of them. A zero width space, a
byte order mark and the information separators are no blanks.
-/

namespace ReleaseLog.Text

/-- The ranges of the code points with the property `White_Space`, ends included. -/
def blankRanges : List (Nat × Nat) :=
  [(0x0009, 0x000D), (0x0020, 0x0020), (0x0085, 0x0085), (0x00A0, 0x00A0), (0x1680, 0x1680),
    (0x2000, 0x200A), (0x2028, 0x2029), (0x202F, 0x202F), (0x205F, 0x205F), (0x3000, 0x3000)]

def isBlank (c : Char) : Bool := blankRanges.any fun (low, high) => low ≤ c.toNat && c.toNat ≤ high

/-- A text of blanks only; the empty one is among them. -/
def allBlank (t : Text) : Bool := t.all isBlank

def trimStart (t : Text) : Text := t.dropWhile isBlank

def trimEnd (t : Text) : Text := (t.reverse.dropWhile isBlank).reverse

def trim (t : Text) : Text := trimEnd (trimStart t)

@[simp] theorem trimStart_nil : trimStart [] = [] := rfl

@[simp] theorem trimEnd_nil : trimEnd [] = [] := rfl

@[simp] theorem trim_nil : trim [] = [] := rfl

theorem allBlank_append (t u : Text) : allBlank (t ++ u) = (allBlank t && allBlank u) :=
  List.all_append

theorem allBlank_concat_iff {t : Text} {c : Char} :
    allBlank (t ++ [c]) = true ↔ allBlank t = true ∧ isBlank c = true := by
  simp [allBlank]

theorem trimStart_of_allBlank {t : Text} (h : allBlank t = true) : trimStart t = [] := by
  induction t with
  | nil => rfl
  | cons c r ih => simp_all [trimStart, allBlank]

theorem trim_of_allBlank {t : Text} (h : allBlank t = true) : trim t = [] := by
  simp [trim, trimStart_of_allBlank h]

theorem mem_of_mem_trim {c : Char} {t : Text} (h : c ∈ trim t) : c ∈ t := by
  have hend : c ∈ (trimStart t).reverse.dropWhile isBlank := List.mem_reverse.mp h
  have hstart := List.mem_reverse.mp ((List.dropWhile_sublist _).mem hend)
  exact (List.dropWhile_sublist _).mem hstart

end ReleaseLog.Text
