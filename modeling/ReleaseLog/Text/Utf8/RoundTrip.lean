import ReleaseLog.Text.Utf8

/-!
# Reading back UTF-8

What is written for a text is read as that text (`ofUtf8_utf8`). So texts that are written alike are
the same (`utf8_injective`).
-/

namespace ReleaseLog

namespace Utf8

theorem itemsFrom_last (p : Begun) (hm : p.more = 0) {b : UInt8} (hl : p.low ≤ b.toNat)
    (hh : b.toNat ≤ p.high) (r : List UInt8) :
    itemsFrom (some p) (b :: r) =
      some (Char.ofNat (p.bits * 64 + (b.toNat - 0x80))) :: items r := by
  have : step (some p) b = ([some (Char.ofNat (p.bits * 64 + (b.toNat - 0x80)))], none) := by
    simp only [step, hl, hh, and_self, dite_true]
    split
    · rfl
    · next h => rw [hm] at h; cases h
  rw [itemsFrom, this]
  rfl

theorem itemsFrom_next (p : Begun) {more : Nat} (hm : p.more = more + 1) {b : UInt8}
    (hl : p.low ≤ b.toNat) (hh : b.toNat ≤ p.high) (r : List UInt8) :
    ∃ q, itemsFrom (some p) (b :: r) = itemsFrom (some q) r ∧
      q.bits = p.bits * 64 + (b.toNat - 0x80) ∧ q.low = 0x80 ∧ q.high = 0xBF ∧ q.more = more := by
  refine ⟨p.next b.toNat more hm hl hh, ?_, rfl, rfl, rfl, rfl⟩
  have : step (some p) b = ([], some (p.next b.toNat more hm hl hh)) := by
    simp only [step, hl, hh, and_self, dite_true]
    split
    · next h => rw [hm] at h; cases h
    · next m h =>
      obtain rfl : m = more := by omega
      rfl
  rw [itemsFrom, this]
  rfl

theorem itemsFrom_first {b : UInt8} {p : Begun} (h : first b = ([], some p)) (r : List UInt8) :
    itemsFrom none (b :: r) = itemsFrom (some p) r := by
  rw [itemsFrom, step, h]
  rfl

/-- The lead bytes of characters of two, three and four bytes. -/
theorem first_two {b : UInt8} (hl : 0xC2 ≤ b.toNat) (hh : b.toNat ≤ 0xDF) :
    ∃ p, first b = ([], some p) ∧ p.bits = b.toNat - 0xC0 ∧ p.low = 0x80 ∧ p.high = 0xBF ∧
      p.more = 0 := by
  have h1 : ¬ b.toNat ≤ 0x7F := by omega
  have h2 : ¬ b.toNat < 0xC2 := by omega
  simp only [first, h1, h2, hh, if_false, dite_true, dite_false]
  exact ⟨_, rfl, rfl, rfl, rfl, rfl⟩

theorem first_three {b : UInt8} (hl : 0xE0 ≤ b.toNat) (hh : b.toNat ≤ 0xEF) :
    ∃ p, first b = ([], some p) ∧ p.bits = b.toNat - 0xE0 ∧
      p.low = (if b.toNat = 0xE0 then 0xA0 else 0x80) ∧
      p.high = (if b.toNat = 0xED then 0x9F else 0xBF) ∧ p.more = 1 := by
  have h1 : ¬ b.toNat ≤ 0x7F := by omega
  have h2 : ¬ b.toNat < 0xC2 := by omega
  have h3 : ¬ b.toNat ≤ 0xDF := by omega
  simp only [first, h1, h2, h3, hh, if_false, dite_true, dite_false]
  split
  · next h => exact ⟨_, rfl, by simp [h]⟩
  · split
    · next h => exact ⟨_, rfl, by simp [h]⟩
    · exact ⟨_, rfl, rfl, rfl, rfl, rfl⟩

theorem first_four {b : UInt8} (hl : 0xF0 ≤ b.toNat) (hh : b.toNat ≤ 0xF4) :
    ∃ p, first b = ([], some p) ∧ p.bits = b.toNat - 0xF0 ∧
      p.low = (if b.toNat = 0xF0 then 0x90 else 0x80) ∧
      p.high = (if b.toNat = 0xF4 then 0x8F else 0xBF) ∧ p.more = 2 := by
  have h1 : ¬ b.toNat ≤ 0x7F := by omega
  have h2 : ¬ b.toNat < 0xC2 := by omega
  have h3 : ¬ b.toNat ≤ 0xDF := by omega
  have h4 : ¬ b.toNat = 0xE0 := by omega
  have h5 : ¬ b.toNat = 0xED := by omega
  have h6 : ¬ b.toNat ≤ 0xEF := by omega
  simp only [first, h1, h2, h3, h4, h5, h6, if_false, dite_false]
  split
  · next h => exact ⟨_, rfl, by simp [h]⟩
  · split
    · exact ⟨_, rfl, rfl, rfl, by rw [if_neg (by omega)], rfl⟩
    · next h h' =>
      have h'' : b.toNat = 0xF4 := by omega
      rw [dif_pos h'']
      exact ⟨_, rfl, by simp [h'']⟩

theorem itemsFrom_utf8EncodeChar (c : Char) (r : List UInt8) :
    itemsFrom none (String.utf8EncodeChar c ++ r) = some c :: items r := by
  have hc : Char.ofNat c.toNat = c := Char.ofNat_toNat c
  have hb : c.toNat < 0xD800 ∨ 0xDFFF < c.toNat ∧ c.toNat < 0x110000 := c.valid
  have byte : ∀ n, n < 256 → (UInt8.ofNat n).toNat = n := fun n h => by
    simp [Nat.mod_eq_of_lt h]
  simp only [String.utf8EncodeChar]
  change itemsFrom none ((if c.toNat ≤ 127 then _ else _) ++ r) = _
  generalize hv : c.val.toNat = v at *
  replace hv : c.toNat = v := hv
  rw [hv] at hb hc ⊢
  split
  · next h =>
    have h1 := byte v (by omega)
    rw [List.singleton_append, itemsFrom_ascii none (by omega), h1, hc]
    rfl
  · split
    · next h0 h =>
      have h1 := byte (v / 64 % 32 + 192) (by omega)
      have h2 := byte (v % 64 + 128) (by omega)
      obtain ⟨p, hp, hbits, hlow, hhigh, hm⟩ :=
        first_two (b := UInt8.ofNat (v / 64 % 32 + 192)) (by omega) (by omega)
      simp only [List.cons_append, List.nil_append]
      rw [itemsFrom_first hp, itemsFrom_last p hm (by omega) (by omega), hbits, h1, h2,
        show (v / 64 % 32 + 192 - 192) * 64 + (v % 64 + 128 - 128) = v by omega, hc]
    · split
      · next h0 h' h =>
        have h1 := byte (v / 4096 % 16 + 224) (by omega)
        have h2 := byte (v / 64 % 64 + 128) (by omega)
        have h3 := byte (v % 64 + 128) (by omega)
        obtain ⟨p, hp, hbits, hlow, hhigh, hm⟩ :=
          first_three (b := UInt8.ofNat (v / 4096 % 16 + 224)) (by omega) (by omega)
        have hl : p.low ≤ (UInt8.ofNat (v / 64 % 64 + 128)).toNat := by
          rw [hlow, h1, h2]; split <;> omega
        have hh : (UInt8.ofNat (v / 64 % 64 + 128)).toNat ≤ p.high := by
          rw [hhigh, h1, h2]; split <;> omega
        obtain ⟨q, hq, qbits, qlow, qhigh, qm⟩ :=
          itemsFrom_next p hm hl hh (UInt8.ofNat (v % 64 + 128) :: r)
        have hlast := itemsFrom_last q qm (b := UInt8.ofNat (v % 64 + 128)) (by omega) (by omega) r
        rw [qbits, hbits, h1, h2, h3,
          show ((v / 4096 % 16 + 224 - 224) * 64 + (v / 64 % 64 + 128 - 128)) * 64 +
            (v % 64 + 128 - 128) = v by omega, hc] at hlast
        exact (itemsFrom_first hp _).trans (hq.trans hlast)
      · next h0 h' h'' =>
        have h1 := byte (v / 262144 % 8 + 240) (by omega)
        have h2 := byte (v / 4096 % 64 + 128) (by omega)
        have h3 := byte (v / 64 % 64 + 128) (by omega)
        have h4 := byte (v % 64 + 128) (by omega)
        obtain ⟨p, hp, hbits, hlow, hhigh, hm⟩ :=
          first_four (b := UInt8.ofNat (v / 262144 % 8 + 240)) (by omega) (by omega)
        have hl : p.low ≤ (UInt8.ofNat (v / 4096 % 64 + 128)).toNat := by
          rw [hlow, h1, h2]; split <;> omega
        have hh : (UInt8.ofNat (v / 4096 % 64 + 128)).toNat ≤ p.high := by
          rw [hhigh, h1, h2]; split <;> omega
        obtain ⟨q, hq, qbits, qlow, qhigh, qm⟩ := itemsFrom_next p hm hl hh
          (UInt8.ofNat (v / 64 % 64 + 128) :: UInt8.ofNat (v % 64 + 128) :: r)
        obtain ⟨s, hs, sbits, slow, shigh, sm⟩ := itemsFrom_next q qm
          (b := UInt8.ofNat (v / 64 % 64 + 128)) (by omega) (by omega)
          (UInt8.ofNat (v % 64 + 128) :: r)
        have hlast := itemsFrom_last s sm (b := UInt8.ofNat (v % 64 + 128)) (by omega) (by omega) r
        rw [sbits, qbits, hbits, h1, h2, h3, h4,
          show (((v / 262144 % 8 + 240 - 240) * 64 + (v / 4096 % 64 + 128 - 128)) * 64 +
            (v / 64 % 64 + 128 - 128)) * 64 + (v % 64 + 128 - 128) = v by omega, hc] at hlast
        exact (itemsFrom_first hp _).trans (hq.trans (hs.trans hlast))

theorem items_utf8 (t : Text) : items t.utf8 = t.map some := by
  induction t with
  | nil => rfl
  | cons c r ih =>
    rw [Text.utf8_cons, items, itemsFrom_utf8EncodeChar, ih]
    rfl

end Utf8

namespace Text

@[simp] theorem ofUtf8_utf8 (t : Text) : ofUtf8 t.utf8 = t := by
  simp [ofUtf8, Utf8.items_utf8, Function.comp_def]

theorem utf8_injective {s t : Text} (h : s.utf8 = t.utf8) : s = t := by
  rw [← ofUtf8_utf8 s, h, ofUtf8_utf8]

end Text

end ReleaseLog
