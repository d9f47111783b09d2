import ReleaseLog.Sink.Lemmas

/-!
# Room

Bytes offered in two parts leave what they leave when they are offered at once. So a text may be
written in any number of parts, and what is kept of it is its beginning (`Took.trans`).
-/

namespace ReleaseLog

namespace Device

/-- The beginning of some bytes that an empty device keeps. -/
def portion (d : Device) (bs : List UInt8) : List UInt8 :=
  match d.capacity with
  | none => bs
  | some c => bs.take c

def HasRoomFor (d : Device) (bs : List UInt8) : Prop := ∀ c ∈ d.capacity, bs.length ≤ c

instance (d : Device) (bs : List UInt8) : Decidable (d.HasRoomFor bs) :=
  inferInstanceAs (Decidable (∀ c ∈ d.capacity, bs.length ≤ c))

theorem portion_eq_self_iff {d : Device} {bs : List UInt8} :
    d.portion bs = bs ↔ d.HasRoomFor bs := by
  unfold portion HasRoomFor
  cases d.capacity with
  | none => simp
  | some c =>
    simp only [Option.mem_def, Option.some.injEq, forall_eq']
    constructor
    · intro h
      have hlen := congrArg List.length h
      rw [List.length_take] at hlen
      omega
    · exact List.take_of_length_le

theorem hasRoomFor_of_unlimited {d : Device} (h : d.capacity = none) (bs : List UInt8) :
    d.HasRoomFor bs := by
  intro c hc
  rw [h] at hc
  cases hc

theorem hasRoomFor_of_append {d : Device} {a b : List UInt8} (h : d.HasRoomFor (a ++ b)) :
    d.HasRoomFor a := by
  intro c hc
  have hle := h c hc
  rw [List.length_append] at hle
  omega

end Device

namespace Sink

def ofDevice (d : Device) : Sink := { device := d }

@[simp] theorem bytes_ofDevice (d : Device) : (ofDevice d).bytes = [] := rfl

@[simp] theorem device_ofDevice (d : Device) : (ofDevice d).device = d := rfl

@[simp] theorem fit_ofDevice (d : Device) (bs : List UInt8) :
    (ofDevice d).fit bs = d.portion bs := by
  unfold fit Device.portion
  cases hc : d.capacity <;> simp [ofDevice, hc]

theorem fit_eq_self_iff {s : Sink} {d : Device} (hs : s = .ofDevice d) (bs : List UInt8) :
    s.fit bs = bs ↔ d.HasRoomFor bs := by
  rw [hs, fit_ofDevice, Device.portion_eq_self_iff]

theorem length_fit_le (s : Sink) (bs : List UInt8) : (s.fit bs).length ≤ bs.length := by
  unfold fit
  split
  · exact Nat.le_refl _
  · rw [List.length_take]
    exact Nat.min_le_right _ _

/-- A sink before and after some bytes have been offered to it. -/
structure Took (s : Sink) (bs : List UInt8) (t : Sink) : Prop where
  device : t.device = s.device
  bytes : t.bytes = s.bytes ++ s.fit bs

theorem took_write (s : Sink) (bs : List UInt8) : s.Took bs (s.write bs).2 :=
  ⟨device_write s bs, bytes_write s bs⟩

theorem took_nil (s : Sink) : s.Took [] s := ⟨rfl, by simp⟩

theorem Took.size {s t : Sink} {bs : List UInt8} (h : s.Took bs t) :
    t.taken.size = s.taken.size + (s.fit bs).length := by
  have hlen := congrArg List.length h.bytes
  simpa [Sink.bytes] using hlen

theorem Took.fit_append {s t : Sink} {a : List UInt8} (h : s.Took a t) (b : List UInt8) :
    s.fit (a ++ b) = s.fit a ++ t.fit b := by
  have hsize := h.size
  unfold fit at hsize ⊢
  rw [h.device]
  cases hc : s.device.capacity with
  | none => rfl
  | some c =>
    simp only [hc, List.length_take] at hsize
    have hroom : c - t.taken.size = c - s.taken.size - a.length := by omega
    simp only [hroom, List.take_append]

theorem Took.trans {s t u : Sink} {a b : List UInt8} (h : s.Took a t) (h' : t.Took b u) :
    s.Took (a ++ b) u where
  device := h'.device.trans h.device
  bytes := by rw [h'.bytes, h.bytes, h.fit_append, List.append_assoc]

/-- After a part that does not fit in there is no room for any other. -/
theorem Took.fit_eq_nil {s t : Sink} {a : List UInt8} (h : s.Took a t) (hne : s.fit a ≠ a)
    (b : List UInt8) : t.fit b = [] := by
  have hsize := h.size
  unfold fit at hsize hne ⊢
  rw [h.device]
  cases hc : s.device.capacity with
  | none => simp [hc] at hne
  | some c =>
    simp only [hc, List.length_take] at hsize hne ⊢
    have hlt : c - s.taken.size < a.length := by
      apply Nat.lt_of_not_le
      intro hle
      exact hne (List.take_of_length_le hle)
    have hroom : c - t.taken.size = 0 := by omega
    rw [hroom, List.take_zero]

theorem Took.append_of_ne {s t : Sink} {a : List UInt8} (h : s.Took a t) (hne : s.fit a ≠ a)
    (b : List UInt8) : s.Took (a ++ b) t where
  device := h.device
  bytes := by rw [h.fit_append, h.fit_eq_nil hne, List.append_nil, h.bytes]

/-- Both parts fit in exactly if the whole does. -/
theorem Took.fit_append_eq_iff {s t : Sink} {a : List UInt8} (h : s.Took a t) (b : List UInt8) :
    s.fit (a ++ b) = a ++ b ↔ s.fit a = a ∧ t.fit b = b := by
  rw [h.fit_append]
  constructor
  · intro hab
    have hle := s.length_fit_le a
    have hle' := t.length_fit_le b
    have hlen := congrArg List.length hab
    simp only [List.length_append] at hlen
    exact List.append_inj hab (by omega)
  · rintro ⟨ha, hb⟩
    rw [ha, hb]

end Sink

end ReleaseLog
