import ReleaseLog.Text.Utf8.RoundTrip

/-!
# ASCII in decoded bytes

An ASCII byte cuts a byte string where its character cuts the decoded text, whatever stands on
either side of it. So an ASCII text stands at the end of what is decoded exactly if its bytes stand
at the end of what was read (`ofUtf8_eq_append_iff`).
-/

namespace ReleaseLog

namespace Utf8

theorem itemsFrom_append_ascii (s : Option Begun) (l : List UInt8) {b : UInt8}
    (hb : b.toNat ≤ 0x7F) (r : List UInt8) :
    itemsFrom s (l ++ b :: r) = itemsFrom s l ++ some (Char.ofNat b.toNat) :: items r := by
  induction l generalizing s with
  | nil => exact itemsFrom_ascii s hb r
  | cons a l ih =>
    rw [List.cons_append, itemsFrom, itemsFrom, ih, List.append_assoc]

theorem itemsFrom_some_ne_nil (p : Begun) (r : List UInt8) : itemsFrom (some p) r ≠ [] := by
  induction r generalizing p with
  | nil => simp [itemsFrom, flush]
  | cons b r ih =>
    simp only [itemsFrom, step]
    split
    · split
      · simp
      · exact ih _
    · simp

theorem exists_begun_of_first {b : UInt8} (h : (first b).1 = []) :
    ∃ p, first b = ([], some p) := by
  by_cases hascii : b.toNat ≤ 0x7F
  · rw [first_ascii hascii] at h
    cases h
  by_cases hlow : b.toNat < 0xC2
  · simp [first, hascii, hlow] at h
  by_cases htwo : b.toNat ≤ 0xDF
  · obtain ⟨p, hp, _⟩ := first_two (by omega) htwo
    exact ⟨p, hp⟩
  by_cases hthree : b.toNat ≤ 0xEF
  · obtain ⟨p, hp, _⟩ := first_three (by omega) hthree
    exact ⟨p, hp⟩
  by_cases hfour : b.toNat ≤ 0xF4
  · obtain ⟨p, hp, _⟩ := first_four (by omega) hfour
    exact ⟨p, hp⟩
  -- Above 0xF4 no byte begins a character.
  have hne : b.toNat ≠ 0xE0 ∧ b.toNat ≠ 0xED ∧ b.toNat ≠ 0xF0 ∧ b.toNat ≠ 0xF4 := by omega
  have hle : ¬ b.toNat ≤ 0xF3 := by omega
  simp [first, hascii, hlow, htwo, hthree, hne, hle] at h

theorem items_eq_nil_iff {bs : List UInt8} : items bs = [] ↔ bs = [] := by
  constructor
  · intro h
    cases bs with
    | nil => rfl
    | cons b r =>
      have hb : (first b).1 ++ itemsFrom (first b).2 r = [] := h
      obtain ⟨p, hp⟩ := exists_begun_of_first (List.append_eq_nil_iff.mp hb).1
      rw [hp] at hb
      exact absurd hb (itemsFrom_some_ne_nil p r)
  · rintro rfl
    rfl

theorem some_notMem_flush (s : Option Begun) (c : Char) : some c ∉ flush s := by
  cases s <;> simp [flush]

theorem exists_append_of_append_eq {α : Type} {a k u v : List α} {x : α} (hx : x ∉ a)
    (h : a ++ k = u ++ x :: v) : ∃ w, u = a ++ w ∧ k = w ++ x :: v := by
  rcases List.append_eq_append_iff.mp h with ⟨w, hu, hk⟩ | ⟨w, ha, hk⟩
  · exact ⟨w, hu, hk⟩
  · cases w with
    | nil => exact ⟨[], by simpa using ha.symm, hk.symm⟩
    | cons y w =>
      obtain ⟨rfl, _⟩ := List.cons_eq_cons.mp hk
      exact absurd (ha ▸ by simp) hx

/-- An ASCII character comes from its byte, and what is read on either side of it comes from the
bytes on that side. -/
theorem exists_of_itemsFrom_eq_append {s : Option Begun} {bs : List UInt8} {u v : List Item}
    {c : Char} (hc : c.toNat ≤ 0x7F) (h : itemsFrom s bs = u ++ some c :: v) :
    ∃ l b r, bs = l ++ b :: r ∧ b.toNat ≤ 0x7F ∧ Char.ofNat b.toNat = c ∧
      itemsFrom s l = u ∧ items r = v := by
  induction bs generalizing s u with
  | nil =>
    have hmem : some c ∈ flush s := by
      rw [show flush s = u ++ some c :: v from h]
      simp
    exact absurd hmem (some_notMem_flush s c)
  | cons a bs ih =>
    by_cases ha : a.toNat ≤ 0x7F
    · rw [itemsFrom_ascii s ha] at h
      obtain ⟨w, rfl, hw⟩ := exists_append_of_append_eq (some_notMem_flush s c) h
      cases w with
      | nil =>
        obtain ⟨hac, hv⟩ := List.cons_eq_cons.mp hw
        exact ⟨[], a, bs, rfl, ha, Option.some.inj hac, (List.append_nil _).symm, hv⟩
      | cons x w =>
        obtain ⟨rfl, hrest⟩ := List.cons_eq_cons.mp hw
        obtain ⟨l, b, r, rfl, hb, hbc, hl, hr⟩ := ih hrest
        refine ⟨a :: l, b, r, rfl, hb, hbc, ?_, hr⟩
        rw [itemsFrom_ascii s ha, items, hl]
    · rw [itemsFrom] at h
      have hx : some c ∉ (step s a).1 := fun hmem => ha (ascii_of_mem_step hmem hc).1
      obtain ⟨w, rfl, hw⟩ := exists_append_of_append_eq hx h
      obtain ⟨l, b, r, rfl, hb, hbc, hl, hr⟩ := ih hw
      exact ⟨a :: l, b, r, rfl, hb, hbc, by rw [itemsFrom, hl], hr⟩

end Utf8

namespace Text

theorem utf8_cons_of_ascii {c : Char} (hc : c.toNat ≤ 0x7F) (t : Text) :
    utf8 (c :: t) = UInt8.ofNat c.toNat :: utf8 t := by
  rw [utf8_cons, String.utf8EncodeChar]
  simp [hc]

theorem toNat_ofNat_ascii {n : Nat} (hn : n ≤ 0x7F) : (UInt8.ofNat n).toNat = n := by
  rw [UInt8.toNat_ofNat']
  omega

theorem ofUtf8_append_ascii (l : List UInt8) {b : UInt8} (hb : b.toNat ≤ 0x7F) (r : List UInt8) :
    ofUtf8 (l ++ b :: r) = ofUtf8 l ++ Char.ofNat b.toNat :: ofUtf8 r := by
  simp only [ofUtf8, Utf8.items, Utf8.itemsFrom_append_ascii none l hb r, List.map_append,
    List.map_cons, Option.getD_some]

theorem ofUtf8_append_of_ascii (l : List UInt8) {c : Char} (hc : c.toNat ≤ 0x7F)
    (r : List UInt8) : ofUtf8 (l ++ UInt8.ofNat c.toNat :: r) = ofUtf8 l ++ c :: ofUtf8 r := by
  have hb := toNat_ofNat_ascii hc
  rw [ofUtf8_append_ascii l (by omega), hb, Char.ofNat_toNat]

theorem ofUtf8_cons_ascii {c : Char} (hc : c.toNat ≤ 0x7F) (r : List UInt8) :
    ofUtf8 (UInt8.ofNat c.toNat :: r) = c :: ofUtf8 r := ofUtf8_append_of_ascii [] hc r

@[simp] theorem ofUtf8_eq_nil_iff {bs : List UInt8} : ofUtf8 bs = [] ↔ bs = [] := by
  rw [ofUtf8, List.map_eq_nil_iff, Utf8.items_eq_nil_iff]

theorem ofNat_toNat_ascii {b : UInt8} (hb : b.toNat ≤ 0x7F) :
    (Char.ofNat b.toNat).toNat = b.toNat :=
  Utf8.toNat_ofNat (Or.inl (by omega))

/-- An ASCII character of a decoded text comes from its byte. -/
theorem exists_of_ofUtf8_eq_append {bs : List UInt8} {u v : Text} {c : Char}
    (hc : c.toNat ≤ 0x7F) (h : ofUtf8 bs = u ++ c :: v) :
    ∃ l r, bs = l ++ UInt8.ofNat c.toNat :: r ∧ ofUtf8 l = u ∧ ofUtf8 r = v := by
  obtain ⟨us, vs, hitems, rfl, hvs⟩ := List.map_eq_append_iff.mp h
  obtain ⟨x, vs, rfl, hx, rfl⟩ := List.map_eq_cons_iff.mp hvs
  cases x with
  | none =>
    -- What stands for an ill-formed part is no ASCII character.
    obtain rfl : replacement = c := hx
    exact absurd hc (by decide)
  | some d =>
    obtain rfl : d = c := hx
    obtain ⟨l, b, r, rfl, hb, rfl, hl, hr⟩ := Utf8.exists_of_itemsFrom_eq_append hc hitems
    rw [ofNat_toNat_ascii hb, UInt8.ofNat_toNat]
    exact ⟨l, r, rfl, congrArg _ hl, congrArg _ hr⟩

theorem mem_ofUtf8_iff {bs : List UInt8} {c : Char} (hc : c.toNat ≤ 0x7F) :
    c ∈ ofUtf8 bs ↔ UInt8.ofNat c.toNat ∈ bs := by
  constructor
  · intro h
    obtain ⟨u, v, huv⟩ := List.append_of_mem h
    obtain ⟨l, r, rfl, _, _⟩ := exists_of_ofUtf8_eq_append hc huv
    simp
  · intro h
    obtain ⟨l, r, rfl⟩ := List.append_of_mem h
    rw [ofUtf8_append_of_ascii l hc]
    simp

/-- What is decoded ends in an ASCII text exactly if its bytes are the end of what was read. -/
theorem ofUtf8_eq_append_iff {bs : List UInt8} {u t : Text} (ht : ∀ c ∈ t, c.toNat ≤ 0x7F) :
    ofUtf8 bs = u ++ t ↔ ∃ l, bs = l ++ t.utf8 ∧ ofUtf8 l = u := by
  induction t generalizing bs u with
  | nil => simp
  | cons c t ih =>
    have hc := ht c List.mem_cons_self
    have ht' : ∀ c ∈ t, c.toNat ≤ 0x7F := fun d hd => ht d (List.mem_cons_of_mem c hd)
    rw [utf8_cons_of_ascii hc]
    constructor
    · intro h
      obtain ⟨l, r, rfl, hl, hr⟩ := exists_of_ofUtf8_eq_append hc h
      obtain ⟨m, rfl, hm⟩ := (ih ht' (u := [])).mp hr
      obtain rfl := ofUtf8_eq_nil_iff.mp hm
      exact ⟨l, rfl, hl⟩
    · rintro ⟨l, rfl, rfl⟩
      rw [ofUtf8_append_of_ascii l hc, ofUtf8_utf8]

theorem prefix_ofUtf8_iff {t : Text} (ht : ∀ c ∈ t, c.toNat ≤ 0x7F) {bs : List UInt8} :
    t <+: ofUtf8 bs ↔ t.utf8 <+: bs := by
  induction t generalizing bs with
  | nil => simp
  | cons c t ih =>
    have hc := ht c List.mem_cons_self
    have hrest := @ih fun d hd => ht d (List.mem_cons_of_mem c hd)
    rw [utf8_cons_of_ascii hc]
    constructor
    · rintro ⟨v, hv⟩
      obtain ⟨l, r, rfl, hl, hr⟩ := exists_of_ofUtf8_eq_append (u := []) hc hv.symm
      obtain rfl := ofUtf8_eq_nil_iff.mp hl
      exact (List.prefix_cons_inj _).mpr (hrest.mp ⟨v, hr.symm⟩)
    · rintro ⟨r, rfl⟩
      rw [List.cons_append, ofUtf8_cons_ascii hc, List.prefix_cons_inj]
      exact hrest.mpr (List.prefix_append _ r)

/-- An ASCII text occurs in what is decoded exactly if its bytes occur in what was read. -/
theorem infix_ofUtf8_iff {t : Text} (ht : ∀ c ∈ t, c.toNat ≤ 0x7F) {bs : List UInt8} :
    t <:+: ofUtf8 bs ↔ t.utf8 <:+: bs := by
  cases t with
  | nil => simp
  | cons c t =>
    have hc := ht c List.mem_cons_self
    have hrest := @prefix_ofUtf8_iff t fun d hd => ht d (List.mem_cons_of_mem c hd)
    rw [utf8_cons_of_ascii hc]
    constructor
    · rintro ⟨u, v, huv⟩
      -- Where the first character stands, its byte stands, and the others follow.
      rw [List.append_assoc, List.cons_append] at huv
      obtain ⟨l, r, rfl, _, hr⟩ := exists_of_ofUtf8_eq_append hc huv.symm
      obtain ⟨k, rfl⟩ := hrest.mp ⟨v, hr.symm⟩
      exact ⟨l, k, by simp⟩
    · rintro ⟨l, r, rfl⟩
      obtain ⟨v, hv⟩ := hrest.mpr (List.prefix_append (utf8 t) r)
      refine ⟨ofUtf8 l, v, ?_⟩
      rw [List.append_assoc, List.append_assoc, List.cons_append, List.cons_append,
        ofUtf8_append_of_ascii l hc, hv]

end Text

theorem Utf8.head?_items_iff {bs : List UInt8} {c : Char} (hc : c.toNat ≤ 0x7F) :
    (items bs).head? = some (some c) ↔ bs.head? = some (UInt8.ofNat c.toNat) := by
  constructor
  · intro h
    obtain ⟨v, hv⟩ := List.head?_eq_some_iff.mp h
    obtain ⟨l, b, r, rfl, hb, rfl, hl, _⟩ := exists_of_itemsFrom_eq_append (u := []) hc hv
    obtain rfl := items_eq_nil_iff.mp hl
    rw [Text.ofNat_toNat_ascii hb, UInt8.ofNat_toNat]
    rfl
  · intro h
    obtain ⟨r, rfl⟩ := List.head?_eq_some_iff.mp h
    have hb := Text.toNat_ofNat_ascii hc
    rw [items, itemsFrom_ascii none (by omega), hb, Char.ofNat_toNat]
    rfl

end ReleaseLog
