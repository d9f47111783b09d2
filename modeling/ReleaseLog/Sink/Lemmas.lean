import ReleaseLog.Sink

/-!
# What a write leaves

However a device bites and however often it is interrupted, a write leaves the beginning of its
bytes that there is room for (`bytes_write`), and it ends in a fault exactly if that is not all of
them (`fault_write`).
-/

namespace ReleaseLog.Sink

/-- The part of some bytes that there is room for. -/
def fit (s : Sink) (bs : List UInt8) : List UInt8 :=
  match s.device.capacity with
  | none => bs
  | some c => bs.take (c - s.taken.size)

@[simp] theorem size_advance (s : Sink) (bs : List UInt8) :
    (s.advance bs).taken.size = s.taken.size + bs.length := by
  rw [← Array.length_toList, ← bytes, bytes_advance, List.length_append, bytes,
    Array.length_toList]

@[simp] theorem fit_nil (s : Sink) : s.fit [] = [] := by
  unfold fit
  split <;> simp

@[simp] theorem fit_advance_nil (s : Sink) (bs : List UInt8) :
    (s.advance []).fit bs = s.fit bs := by
  simp [fit]

theorem grant_le (s : Sink) (n : Nat) : s.grant n ≤ n := by
  unfold grant
  dsimp only
  split <;> split <;> omega

/-- What is taken at once is the beginning of what there is room for. -/
theorem fit_eq_take_append (s : Sink) (bs : List UInt8) :
    s.fit bs = bs.take (s.grant bs.length) ++
      (s.advance (bs.take (s.grant bs.length))).fit (bs.drop (s.grant bs.length)) := by
  have hg := s.grant_le bs.length
  cases hc : s.device.capacity with
  | none => simp [fit, hc]
  | some c =>
    have hle : s.grant bs.length ≤ c - s.taken.size := by
      unfold grant
      simp only [hc]
      split <;> omega
    simp only [fit, hc, device_advance, size_advance, List.length_take]
    rw [Nat.min_eq_left hg,
      show c - (s.taken.size + s.grant bs.length) = c - s.taken.size - s.grant bs.length by omega,
      ← List.take_add, Nat.add_sub_cancel' hle]

/-- Nothing is taken at once only if there is no room. -/
theorem fit_eq_nil_of_grant {s : Sink} {bs : List UInt8} (h : s.grant bs.length = 0) :
    s.fit bs = [] := by
  unfold grant at h
  unfold fit
  cases hc : s.device.capacity with
  | none =>
    simp only [hc] at h ⊢
    cases hb : s.device.bite with
    | none => simpa [hb] using h
    | some b =>
      have := s.device.bite_pos b hb
      simp only [hb] at h
      exact List.length_eq_zero_iff.mp (by omega)
  | some c =>
    simp only [hc] at h ⊢
    cases hb : s.device.bite with
    | none =>
      simp only [hb] at h
      exact List.length_eq_zero_iff.mp (by rw [List.length_take]; omega)
    | some b =>
      have := s.device.bite_pos b hb
      simp only [hb] at h
      exact List.length_eq_zero_iff.mp (by rw [List.length_take]; omega)

@[simp] theorem device_write (s : Sink) (bs : List UInt8) : (s.write bs).2.device = s.device := by
  fun_induction write s bs with
  | case1 => rfl
  | case2 _ _ _ _ ih => simpa using ih
  | case3 => rfl
  | case4 _ _ _ _ _ ih => simpa using ih

/-- A write leaves what there is room for. -/
@[simp] theorem bytes_write (s : Sink) (bs : List UInt8) :
    (s.write bs).2.bytes = s.bytes ++ s.fit bs := by
  fun_induction write s bs with
  | case1 => simp
  | case2 _ _ _ _ ih => simpa using ih
  | case3 s bs _ _ h => simp [fit_eq_nil_of_grant h]
  | case4 s bs _ _ _ ih => rw [ih, bytes_advance, s.fit_eq_take_append bs, List.append_assoc]

/-- A write is refused exactly if there is no room for all of it. -/
theorem fault_write (s : Sink) (bs : List UInt8) :
    (s.write bs).1 = if s.fit bs = bs then none else some s.device.refusal.toFault := by
  fun_induction write s bs with
  | case1 => simp
  | case2 _ _ _ _ ih => simpa using ih
  | case3 s bs hne _ h => simp [fit_eq_nil_of_grant h, Ne.symm hne]
  | case4 s bs _ _ _ ih =>
    rw [ih, device_advance]
    have key := s.fit_eq_take_append bs
    have hsplit : s.fit bs = bs ↔ (s.advance (bs.take (s.grant bs.length))).fit
        (bs.drop (s.grant bs.length)) = bs.drop (s.grant bs.length) := by
      constructor
      · intro h
        exact List.append_cancel_left (key.symm.trans (h.trans (List.take_append_drop _ _).symm))
      · intro h
        rw [key, h, List.take_append_drop]
    simp only [hsplit]

end ReleaseLog.Sink
