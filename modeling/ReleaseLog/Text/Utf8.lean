import ReleaseLog.Text.Basic

/-!
# UTF-8

Bytes are read one at a time. What they hold is a list of items, each a character or an ill-formed
part, and an ill-formed part is as long as it can be while some character still begins with it.
`ofUtf8` puts U+FFFD for each ill-formed part, `ofUtf8?` refuses them. ASCII bytes stand for
themselves wherever they are (`itemsFrom_ascii`) and nothing else gives an ASCII character
(`ascii_of_mem_step`).
-/

namespace ReleaseLog

namespace Utf8

/-- The code point reached from these bits if the next byte is `next` and zeros follow. -/
def reach (bits next : Nat) : Nat → Nat
  | 0 => bits * 64 + (next - 0x80)
  | more + 1 => reach bits next more * 64

theorem reach_zero (bits next : Nat) : reach bits next 0 = bits * 64 + (next - 0x80) := rfl

theorem reach_succ (bits next more : Nat) :
    reach bits next (more + 1) = reach bits next more * 64 := rfl

/-- A character of which some bytes have been read: their bits, the range of the byte that has to
follow, and how many more follow after that one. Every way to end it gives a character that is not
ASCII. -/
structure Begun where
  bits : Nat
  low : Nat
  high : Nat
  more : Nat
  low_ge : 0x80 ≤ low
  not_ascii : 0x80 ≤ reach bits low more
  scalar : reach bits (high + 1) more ≤ 0xD800 ∨
    0xE000 ≤ reach bits low more ∧ reach bits (high + 1) more ≤ 0x110000

/-- An item of a byte string: a character, or `none` for an ill-formed part. -/
abbrev Item := Option Char

def first (b : UInt8) : List Item × Option Begun :=
  let n := b.toNat
  if n ≤ 0x7F then ([some (Char.ofNat n)], none)
  else if _ : n < 0xC2 then ([none], none)
  else if _ : n ≤ 0xDF then
    ([], some (.mk (n - 0xC0) 0x80 0xBF 0 (by decide) (by simp only [reach_zero]; omega)
      (by simp only [reach_zero]; omega)))
  else if _ : n = 0xE0 then
    ([], some (.mk 0 0xA0 0xBF 1 (by decide) (by decide) (by decide)))
  else if _ : n = 0xED then
    ([], some (.mk 0xD 0x80 0x9F 1 (by decide) (by decide) (by decide)))
  else if _ : n ≤ 0xEF then
    ([], some (.mk (n - 0xE0) 0x80 0xBF 1 (by decide)
      (by simp only [reach_succ, reach_zero]; omega)
      (by simp only [reach_succ, reach_zero]; omega)))
  else if _ : n = 0xF0 then
    ([], some (.mk 0 0x90 0xBF 2 (by decide) (by decide) (by decide)))
  else if _ : n ≤ 0xF3 then
    ([], some (.mk (n - 0xF0) 0x80 0xBF 2 (by decide)
      (by simp only [reach_succ, reach_zero]; omega)
      (by simp only [reach_succ, reach_zero]; omega)))
  else if _ : n = 0xF4 then
    ([], some (.mk 4 0x80 0x8F 2 (by decide) (by decide) (by decide)))
  else ([none], none)

theorem reach_low_le (bits low n more : Nat) (h : low ≤ n) :
    reach bits low (more + 1) ≤ reach (bits * 64 + (n - 0x80)) 0x80 more := by
  induction more with
  | zero =>
    simp only [reach_succ, reach_zero]
    omega
  | succ more ih => exact Nat.mul_le_mul_right 64 ih

theorem reach_le_high (bits n high more : Nat) (hn : 0x80 ≤ n) (h : n ≤ high) :
    reach (bits * 64 + (n - 0x80)) (0xBF + 1) more ≤ reach bits (high + 1) (more + 1) := by
  induction more with
  | zero =>
    simp only [reach_succ, reach_zero]
    omega
  | succ more ih => exact Nat.mul_le_mul_right 64 ih

def Begun.next (p : Begun) (n more : Nat) (hm : p.more = more + 1) (hl : p.low ≤ n)
    (hh : n ≤ p.high) : Begun where
  bits := p.bits * 64 + (n - 0x80)
  low := 0x80
  high := 0xBF
  more := more
  low_ge := by decide
  not_ascii := Nat.le_trans (hm ▸ p.not_ascii) (reach_low_le p.bits p.low n more hl)
  scalar := by
    have h1 := reach_low_le p.bits p.low n more hl
    have h2 := reach_le_high p.bits n p.high more (Nat.le_trans p.low_ge hl) hh
    have h3 := p.scalar
    rw [hm] at h3
    omega

/-- A byte that can follow takes the character on; any other ends it as an ill-formed part and is
read where a character begins. -/
def step : Option Begun → UInt8 → List Item × Option Begun
  | none, b => first b
  | some p, b =>
    if h : p.low ≤ b.toNat ∧ b.toNat ≤ p.high then
      match hm : p.more with
      | 0 => ([some (Char.ofNat (p.bits * 64 + (b.toNat - 0x80)))], none)
      | more + 1 => ([], some (p.next b.toNat more hm h.1 h.2))
    else (none :: (first b).1, (first b).2)

/-- A character begun and never ended is an ill-formed part. -/
def flush : Option Begun → List Item
  | none => []
  | some _ => [none]

def itemsFrom : Option Begun → List UInt8 → List Item
  | s, [] => flush s
  | s, b :: r => (step s b).1 ++ itemsFrom (step s b).2 r

def items (bytes : List UInt8) : List Item := itemsFrom none bytes

@[simp] theorem items_nil : items [] = [] := rfl

theorem first_ascii {b : UInt8} (h : b.toNat ≤ 0x7F) :
    first b = ([some (Char.ofNat b.toNat)], none) := by simp [first, h]

/-- An ASCII byte ends what was begun and is a character of its own. -/
theorem itemsFrom_ascii (s : Option Begun) {b : UInt8} (h : b.toNat ≤ 0x7F) (r : List UInt8) :
    itemsFrom s (b :: r) = flush s ++ some (Char.ofNat b.toNat) :: items r := by
  cases s with
  | none => simp [itemsFrom, step, first_ascii h, flush, items]
  | some p =>
    have hn : ¬ (p.low ≤ b.toNat ∧ b.toNat ≤ p.high) := by have := p.low_ge; omega
    simp [itemsFrom, step, hn, first_ascii h, flush, items]

theorem ascii_of_mem_first {b : UInt8} {c : Char} (h : some c ∈ (first b).1) :
    b.toNat ≤ 0x7F ∧ c = Char.ofNat b.toNat := by
  by_cases hb : b.toNat ≤ 0x7F
  · rw [first_ascii hb] at h
    exact ⟨hb, by simpa using h⟩
  · exfalso
    simp only [first, hb, if_false] at h
    repeat' split at h
    all_goals simp at h

theorem toNat_ofNat {n : Nat} (h : n.isValidChar) : (Char.ofNat n).toNat = n := by
  unfold Char.ofNat
  rw [dif_pos h]
  rfl

theorem finish_isValidChar (p : Begun) {n : Nat} (hm : p.more = 0) (hl : p.low ≤ n)
    (hh : n ≤ p.high) :
    (p.bits * 64 + (n - 0x80)).isValidChar ∧ 0x80 ≤ p.bits * 64 + (n - 0x80) := by
  have h1 := p.not_ascii
  have h2 := p.scalar
  have h3 := p.low_ge
  simp only [hm, reach_zero] at h1 h2
  refine ⟨?_, by omega⟩
  simp only [Nat.isValidChar]
  omega

/-- An ASCII character comes from the byte that it is, and from no other. -/
theorem ascii_of_mem_step {s : Option Begun} {b : UInt8} {c : Char} (h : some c ∈ (step s b).1)
    (hc : c.toNat ≤ 0x7F) : b.toNat ≤ 0x7F ∧ c = Char.ofNat b.toNat := by
  cases s with
  | none => exact ascii_of_mem_first h
  | some p =>
    simp only [step] at h
    split at h
    · next hr =>
      split at h
      · next hm =>
        obtain ⟨hv, hg⟩ := finish_isValidChar p hm hr.1 hr.2
        simp only [List.mem_singleton, Option.some.injEq] at h
        rw [h, toNat_ofNat hv] at hc
        omega
      · simp at h
    · exact ascii_of_mem_first (by simpa using h)

end Utf8

namespace Text

def replacement : Char := '\uFFFD'

/-- The text of a byte string, with U+FFFD for each ill-formed part. -/
def ofUtf8 (bytes : List UInt8) : Text := (Utf8.items bytes).map fun item => item.getD replacement

/-- The text of a byte string without ill-formed parts. -/
def ofUtf8? (bytes : List UInt8) : Option Text := (Utf8.items bytes).mapM id

@[simp] theorem ofUtf8_nil : ofUtf8 [] = [] := rfl

end Text

end ReleaseLog
