import Pacing.Proofs.Stream.Track

/-!
# One poll of a stream

What a poll reports and logs is a matter of how many items it hands over, whatever the generator
makes of them. Without failures that many are the slots that have come, or a full batch of them.

* `poll_log` and `poll_outcome_of_reliable` are a poll in terms of the number of its items, and
  `poll_length_of_reliable` is that number.
* `poll_slot` says where the slots go on.
-/

namespace Pacing

variable {ε α : Type}

namespace ItemStream

section Slot

variable (s : ItemStream ε α) (r : Reading)

/-- However far behind a stream is, it owes a number of items. -/
theorem exists_owed (hperiod : 0 < s.period) : ∃ due, Owed (s.slot r) r.monotonic due :=
  ⟨_, owed_dueCount hperiod (s.schedule.getD r.monotonic)⟩

/-- No poll changes the period. -/
theorem after_period (rs : List Reading) : (Paced.after s rs).period = s.period := by
  induction rs generalizing s with
  | nil => rfl
  | cons r rs ih => exact ih (s.poll r).source

/-- A poll logs how far the schedule is behind if it is behind after a full batch. -/
theorem poll_log : (s.poll r).log =
    if (s.poll r).added.length = maxBatchSize ∧ s.slot r maxBatchSize ≤ r.monotonic then
      [.batchCapReached (r.monotonic - s.slot r maxBatchSize)]
    else [] := by
  have hlog : (s.poll r).log =
      if (s.poll r).added.length = maxBatchSize ∧ (s.emission r).due ≤ r.monotonic then
        [.batchCapReached (r.monotonic - (s.emission r).due)]
      else [] := rfl
  rw [hlog, emission_due_eq]
  by_cases hfull : (s.poll r).added.length = maxBatchSize
  · rw [hfull]
  · simp [hfull]

end Slot

/-! ### Without failures -/

section Reliable

variable (s : ItemStream Empty α) (r : Reading)

/-- Without failures a poll reports its items, or how long the next one will be. -/
theorem poll_outcome_of_reliable : (s.poll r).outcome =
    .ok (if (s.poll r).added.length = 0 then .pendingUntil r.monotonic (s.slot r 0)
      else .ready (s.poll r).added.length) := by
  rw [poll_outcome]
  split
  case h_1 failure _ => exact failure.elim
  case h_2 =>
    rw [emission_due_eq]
    split
    case isTrue hnone => rw [hnone]
    case isFalse => rfl

variable {s r}

/-- Without failures a poll hands over what is owed, or a full batch. -/
theorem poll_length_of_reliable {due : Nat} (h : Owed (s.slot r) r.monotonic due) :
    (s.poll r).added.length = min maxBatchSize due := by
  have hloop : (s.emission r).Sound s.generate s.period (bucketMillis r.wall s.period) r.monotonic
      maxBatchSize s.sequence (s.schedule.getD r.monotonic) := emitDue_sound ..
  apply h.taken_eq (s.poll_added_length_le r) hloop.slots
  intro hroom
  rw [← emission_due_eq]
  refine hloop.drained ?_ hroom
  cases hfailure : (s.emission r).failure with
  | none => rfl
  | some failure => exact failure.elim

end Reliable

end ItemStream

end Pacing
