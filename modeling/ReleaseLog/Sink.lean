import ReleaseLog.Fault

/-!
# Sinks

A sink takes bytes until its device is full. A write offers bytes again and again: the device may
take only some of them, or be interrupted and take none, and both are made good by another offer.
Only a refusal ends a write early.
-/

namespace ReleaseLog

/-- How a full device answers: it takes nothing, or it reports a fault. -/
inductive Refusal
  | nothing
  | fault (f : Fault)
  deriving DecidableEq

def Refusal.toFault : Refusal → Fault
  | .nothing => .nothingTaken
  | .fault f => f

/-- How much a device takes in all and at once, how often it is interrupted, and how it refuses.
A device makes progress: a bite is never empty, no two offers in a row are interrupted, and a
refusal is no interruption. -/
structure Device where
  capacity : Option Nat := none
  bite : Option Nat := none
  interruptEvery : Option Nat := none
  refusal : Refusal := .fault (.general .other)
  bite_pos : ∀ n ∈ bite, 0 < n := by simp
  two_le_interruptEvery : ∀ n ∈ interruptEvery, 2 ≤ n := by simp
  refusal_final : refusal ≠ .fault .interrupted := by decide

structure Sink where
  device : Device := {}
  taken : Array UInt8 := #[]
  offers : Nat := 0

namespace Sink

def bytes (s : Sink) : List UInt8 := s.taken.toList

/-- How many of `n` bytes a device with so many in it takes at once. -/
def grant (s : Sink) (n : Nat) : Nat :=
  let room := match s.device.capacity with
    | none => n
    | some c => min n (c - s.taken.size)
  match s.device.bite with
  | none => room
  | some b => min room b

def interruptsNext (s : Sink) : Bool :=
  match s.device.interruptEvery with
  | none => false
  | some n => (s.offers + 1) % n == 0

def advance (s : Sink) (bytes : List UInt8) : Sink :=
  { s with taken := s.taken ++ bytes, offers := s.offers + 1 }

/-- Twice the bytes still to be taken, and one if the next offer takes none of them. -/
def effort (s : Sink) (bytes : List UInt8) : Nat :=
  2 * bytes.length + if s.interruptsNext then 1 else 0

theorem interruptsNext_advance {s : Sink} (h : s.interruptsNext = true) (bytes : List UInt8) :
    (s.advance bytes).interruptsNext = false := by
  unfold interruptsNext at h ⊢
  simp only [advance]
  cases hn : s.device.interruptEvery with
  | none => rfl
  | some n =>
    have h2 : 2 ≤ n := s.device.two_le_interruptEvery n hn
    simp only [hn, beq_iff_eq, beq_eq_false_iff_ne] at h ⊢
    intro h'
    have h1 : (1 : Nat) % n = 0 := by rw [Nat.add_mod, h, Nat.zero_add, Nat.mod_mod] at h'; exact h'
    rw [Nat.mod_eq_of_lt h2] at h1
    exact absurd h1 (by decide)

/-- Offers bytes until all are taken or the device refuses; the fault of a refusal and the sink
after it. -/
def write (s : Sink) (bytes : List UInt8) : Option Fault × Sink :=
  if bytes = [] then (none, s)
  else if s.interruptsNext then write (s.advance []) bytes
  else if s.grant bytes.length = 0 then (some s.device.refusal.toFault, s.advance [])
  else write (s.advance (bytes.take (s.grant bytes.length))) (bytes.drop (s.grant bytes.length))
termination_by s.effort bytes
decreasing_by
  · next h =>
    simp [effort, interruptsNext_advance h, h]
  · next hne _ hg =>
    have := List.length_pos_iff.mpr hne
    unfold effort
    simp only [List.length_drop]
    split <;> omega

@[simp] theorem write_nil (s : Sink) : s.write [] = (none, s) := by
  rw [write]
  simp

@[simp] theorem bytes_advance (s : Sink) (bs : List UInt8) :
    (s.advance bs).bytes = s.bytes ++ bs := by simp [advance, bytes]

@[simp] theorem device_advance (s : Sink) (bs : List UInt8) :
    (s.advance bs).device = s.device := rfl

def unlimited : Sink := {}

end Sink

end ReleaseLog
