import Pacing.Proofs.Long.Cluster

/-!
# Output follows configuration

What an instance of a replicated integer source hands over is a matter of its configuration. When it
is polled decides how much of it a poll hands over, and nothing else; what the wall clock shows at a
poll decides nothing.

* `Scheduled.batch` says what one poll of a run hands over, `Scheduled.mem_added` what the items of
  a run are.
* `added_eq_of_caughtUp` compares two runs.
* `output_follows_configuration` says all of it of every new instance.
-/

namespace Pacing

variable {π : Type}

namespace LongStream

/-! ### Two runs of one instance -/

/-- The run ends at an instant that no reading is after, with a poll that has room left. -/
structure CaughtUp (s : LongStream π) (rs : List Reading) (stop : Int) : Prop where
  endsAt : EndsAt rs stop
  le_stop : ∀ r ∈ rs, r.monotonic ≤ stop
  uncapped : Paced.EndsUncapped s rs

section TwoRuns

variable {s : LongStream π} {rs rs' : List Reading} {stop : Int}

/-- A run that has caught up with an instant has handed over at least as much as any run up to it. -/
theorem CaughtUp.length_le (h : s.CaughtUp rs stop) (hbound : ∀ r ∈ rs', r.monotonic ≤ stop) :
    (Paced.added s rs').length ≤ (Paced.added s rs).length := by
  apply Nat.le_of_not_lt
  intro hlt
  -- The other run would have handed over the value that is not due yet after this one.
  have hnext := next_slot_after h.endsAt h.uncapped
  have hdue := run_slots hbound hlt
  omega

/-- **Two runs.** Runs that have caught up with the same instant have handed over the same items. -/
theorem added_eq_of_caughtUp (h : s.CaughtUp rs stop) (h' : s.CaughtUp rs' stop) :
    Paced.added s rs = Paced.added s rs' := by
  have hlength := Nat.le_antisymm (h'.length_le h.le_stop) (h.length_le h'.le_stop)
  rw [added_eq_progression s rs, added_eq_progression s rs', hlength]

end TwoRuns

/-! ### A scheduled instance -/

/-- Where a value is below a bound, so are the ones taken before it. -/
theorem value_lt_of_le {i n bound count j : Nat} (hbound : i + count * n < bound) (hj : j ≤ count) :
    i + j * n < bound := by
  have := Nat.mul_le_mul_right n hj
  omega

section Scheduled

variable {s : LongStream π} {startMillis offset period : Int} {i n bound : Nat}

/-- **Count.** A poll hands over the values that are due, but no more than a batch has room for. -/
theorem Scheduled.poll_length_eq (h : s.Scheduled startMillis offset period i n bound)
    (hperiod : 0 < period) (hn : 0 < n) {r : Reading}
    (hbound : i + (s.poll r).added.length * n < bound) :
    ∃ due : Nat, (∀ j : Nat, j < due ↔
        startMillis * nanosPerMilli - offset + (s.next + j * n) * period ≤ r.monotonic) ∧
      (s.poll r).added.length = min maxBatchSize due := by
  have hpace : 0 < n * period := Int.mul_pos (by omega) hperiod
  let first := startMillis * nanosPerMilli - offset + s.next * period
  have hslot : ∀ j : Nat, first + j * (n * period) =
      startMillis * nanosPerMilli - offset + (s.next + j * n) * period := by
    intro j
    rw [Int.add_mul, Int.mul_assoc]
    omega
  -- All values of the batch and the one after it are on the schedule.
  have hdueAt : ∀ j : Nat, j ≤ (s.poll r).added.length →
      s.dueAt (s.next + j * s.stride) = first + j * (n * period) := by
    intro j hj
    have hbelow := value_lt_of_le hbound hj
    have hvalue : ((i + j * n : Nat) : Int) = s.next + j * n := by
      rw [← h.value_eq, h.stride_eq]
    rw [h.value_eq, h.dueAt_eq _ hbelow, hvalue, hslot]
  refine ⟨dueCount (n * period) r.monotonic first, ?_, ?_⟩
  · intro j
    rw [lt_dueCount_iff hpace, hslot]
  · apply (owed_dueCount hpace first).taken_eq (s.poll_added_length_le r)
    · intro j hj
      rw [← hdueAt j (Nat.le_of_lt hj)]
      exact s.poll_slots r hj
    · intro hroom
      rw [← hdueAt _ (Nat.le_refl _)]
      exact poll_uncapped (poll_uncapped_iff.mpr hroom)

/-- Nothing is handed over before it is due. -/
theorem Scheduled.poll_slots (h : s.Scheduled startMillis offset period i n bound) {r : Reading}
    (hbound : i + (s.poll r).added.length * n < bound) {t : Timestamped Int}
    (ht : t ∈ (s.poll r).added) :
    startMillis * nanosPerMilli - offset + t.item * period ≤ r.monotonic := by
  rw [(s.poll_progression r).1] at ht
  obtain ⟨j, hj, rfl⟩ := List.mem_map.mp ht
  have hj := List.mem_range.mp hj
  have hbelow := value_lt_of_le hbound (Nat.le_of_lt hj)
  have hdue := LongStream.poll_slots s r hj
  rwa [h.value_eq, h.dueAt_eq _ hbelow, ← h.value_eq] at hdue

/-- **Batch.** What a poll hands over in the course of a run: the next values that are due. -/
theorem Scheduled.batch (h : s.Scheduled startMillis offset period i n bound)
    (hperiod : 0 < period) (hn : 0 < n) {earlier later : List Reading} {r : Reading}
    (hbound : i + (Paced.added s (earlier ++ r :: later)).length * n < bound) :
    let next := (Paced.after s earlier).next
    let batch := (Paced.poll (Paced.after s earlier) r).added
    (∃ due : Nat, (∀ j : Nat, j < due ↔
        startMillis * nanosPerMilli - offset + (next + j * n) * period ≤ r.monotonic) ∧
      batch.length = min maxBatchSize due) ∧
    (batch.map Timestamped.item = (List.range batch.length).map fun j : Nat => next + j * n) ∧
    (batch.Pairwise fun a b => a.item < b.item) ∧
    ∀ t ∈ batch, startMillis * nanosPerMilli - offset + t.item * period ≤ r.monotonic := by
  intro next batch
  -- What has been handed over before the poll moves the instance on along its schedule.
  have hlater := h.advanced (Paced.added s earlier).length
  rw [← (s.run_progression earlier).2] at hlater
  have hbatch : batch = (Paced.after s earlier).progression next batch.length :=
    ((Paced.after s earlier).poll_progression r).1
  have hbelow : i + (Paced.added s earlier).length * n + batch.length * n < bound := by
    rw [Paced.added_append, Paced.added_cons, List.length_append, List.length_append, Nat.add_mul,
      Nat.add_mul] at hbound
    change _ + (_ + (batch.length * n + _)) < _ at hbound
    omega
  refine ⟨hlater.poll_length_eq hperiod hn hbelow, ?_, ?_, ?_⟩
  · rw [congrArg (List.map Timestamped.item) hbatch, progression_values, hlater.stride_eq]
  · rw [hbatch]
    apply progression_increasing
    rw [hlater.stride_eq]
    omega
  · intro t ht
    exact hlater.poll_slots hbelow ht

/-- The items of a run are those of the schedule. -/
theorem Scheduled.mem_added (h : s.Scheduled startMillis offset period i n bound)
    {rs : List Reading} (hbound : i + (Paced.added s rs).length * n < bound) {t : Timestamped Int}
    (ht : t ∈ Paced.added s rs) :
    ∃ j < (Paced.added s rs).length, t = scheduledItem startMillis period (i + j * n) := by
  rw [added_eq_progression] at ht
  obtain ⟨j, hj, rfl⟩ := List.mem_map.mp ht
  have hj := List.mem_range.mp hj
  refine ⟨j, hj, ?_⟩
  rw [h.value_eq, h.item_eq _ (value_lt_of_le hbound (Nat.le_of_lt hj))]

end Scheduled

/-- An item is dated the start and as many periods as its value says, in milliseconds. -/
theorem scheduledItem_timestamp (startMillis period : Int) (value : Nat) :
    (scheduledItem startMillis period value).timestamp =
      startMillis + value * period / nanosPerMilli := by
  have : (nanosPerMilli : Int) ≠ 0 := by decide
  exact Int.mul_add_ediv_right _ _ this

/-! ### New instances -/

section Create

variable (config : InstanceConfig π) (r₀ : Reading)

/-- An instance knows of the reading it was made at only the offset of the two clocks. -/
theorem create_eq_of_offset {r₁ : Reading} (h : r₁.offset = r₀.offset) :
    create config r₁ = create config r₀ := by
  simp [create, h]

/-- A new instance keeps to the schedule up to a value for which nothing saturates. -/
theorem create_scheduled_upTo
    (hrate : 1 ≤ config.itemsPerSecond ∧ config.itemsPerSecond ≤ maxItemsPerSecond)
    (htotal : (config.total : Int) ≤ Word.highest) {value : Nat} (hindex : config.index ≤ value)
    (hexact : Unsaturated config.startMillis r₀.offset (nanosPerSecond / config.itemsPerSecond)
      value) :
    (create config r₀).Scheduled config.startMillis r₀.offset
      (nanosPerSecond / config.itemsPerSecond) config.index (max config.total 1) (value + 1) := by
  have hperiod := period_pos hrate
  have hvalue : (value : Int) ≤ Word.highest := by
    have hle : (value : Int) * 1 ≤ value * (nanosPerSecond / config.itemsPerSecond) :=
      Int.mul_le_mul_of_nonneg_left hperiod (Int.natCast_nonneg value)
    have := hexact.elapsed.2
    omega
  apply create_config_scheduled _ _ (by omega) htotal hrate.1
  intro v hv
  exact hexact.of_le (Int.le_of_lt hperiod) (Nat.le_of_lt_succ hv)

end Create

end LongStream

/-- **Configuration.** An instance of any configuration with a rate in its range, made at any reading
and polled at any readings, as long as nothing saturates up to the value after the last one:

* a poll hands over the next values that are due, as many as a batch has room for, in increasing
  order and none before it is due;
* every value is stamped with the start and as many periods as the value says, rounded down to
  milliseconds;
* a second instance, made at the same offset of the clocks and polled at other readings, hands over
  the same items once both have caught up with the same instant.

A number of instances of zero counts as one. -/
theorem output_follows_configuration (config : InstanceConfig π)
    (hrate : 1 ≤ config.itemsPerSecond ∧ config.itemsPerSecond ≤ maxItemsPerSecond)
    (htotal : (config.total : Int) ≤ Word.highest) (r₀ : Reading) (rs : List Reading) :
    let s := LongStream.create config r₀
    let period : Int := nanosPerSecond / config.itemsPerSecond
    let n := max config.total 1
    Unsaturated config.startMillis r₀.offset period
      (config.index + (Paced.added s rs).length * n : Nat) →
    (∀ earlier r later, rs = earlier ++ r :: later →
      let next := (Paced.after s earlier).next
      let batch := (Paced.poll (Paced.after s earlier) r).added
      (∃ due : Nat, (∀ j : Nat, j < due ↔ s.start + (next + j * n) * period ≤ r.monotonic) ∧
        batch.length = min maxBatchSize due) ∧
      (batch.map Timestamped.item = (List.range batch.length).map fun j : Nat => next + j * n) ∧
      (batch.Pairwise fun a b => a.item < b.item) ∧
      ∀ t ∈ batch, s.start + t.item * period ≤ r.monotonic) ∧
    (∀ t ∈ Paced.added s rs,
      t.timestamp = config.startMillis + t.item * period / nanosPerMilli) ∧
    ∀ (r₁ : Reading) (rs₁ : List Reading) (stop : Int), r₁.offset = r₀.offset →
      s.CaughtUp rs stop → (LongStream.create config r₁).CaughtUp rs₁ stop →
      Paced.added (LongStream.create config r₁) rs₁ = Paced.added s rs := by
  intro s period n hexact
  have hperiod : 0 < period := period_pos hrate
  have hn : 0 < n := Nat.lt_of_lt_of_le Nat.one_pos (Nat.le_max_right _ _)
  have hscheduled := LongStream.create_scheduled_upTo config r₀ hrate htotal (Nat.le_add_right _ _)
    hexact
  have hstart : s.start = config.startMillis * nanosPerMilli - r₀.offset :=
    LongStream.create_start config r₀ hexact.started hexact.shifted
  refine ⟨?_, ?_, ?_⟩
  · rintro earlier r later rfl
    rw [hstart]
    exact hscheduled.batch hperiod hn (Nat.lt_succ_self _)
  · intro t ht
    obtain ⟨j, -, rfl⟩ := hscheduled.mem_added (Nat.lt_succ_self _) ht
    exact LongStream.scheduledItem_timestamp ..
  · intro r₁ rs₁ stop hoffset hcaught hcaught₁
    rw [LongStream.create_eq_of_offset config r₀ hoffset] at hcaught₁ ⊢
    exact LongStream.added_eq_of_caughtUp hcaught₁ hcaught

/-- The second of two instances at three values a second, made when a second has passed on the wall
clock. One run looks at the clocks twice while the wall clock is set back, the other one three
times; both hand over the values 1, 3 and 5. -/
theorem output_follows_configuration_of_second_instance :
    (1 ≤ (3 : Int) ∧ 3 ≤ maxItemsPerSecond) ∧ ((2 : Nat) : Int) ≤ Word.highest ∧
      Unsaturated 1000 1000000000 (nanosPerSecond / 3) (1 + 3 * max 2 1 : Nat) ∧
      Paced.added (LongStream.create ⟨1000, 3, (), 1, 2⟩ ⟨7, 1000000007⟩)
          [⟨1000000000, 0⟩, ⟨700000000, 9⟩, ⟨2000000000, 0⟩] =
        Paced.added (LongStream.create ⟨1000, 3, (), 1, 2⟩ ⟨0, 1000000000⟩)
          [⟨500000000, 5⟩, ⟨2000000000, -3⟩] ∧
      Paced.added (LongStream.create ⟨1000, 3, (), 1, 2⟩ ⟨0, 1000000000⟩)
          [⟨500000000, 5⟩, ⟨2000000000, -3⟩] = [⟨1, 1333⟩, ⟨3, 1999⟩, ⟨5, 2666⟩] := by
  have hrate : 1 ≤ (3 : Int) ∧ 3 ≤ maxItemsPerSecond := by decide
  have htotal : ((2 : Nat) : Int) ≤ Word.highest := by decide
  have hexact : Unsaturated 1000 1000000000 (nanosPerSecond / 3) (1 + 3 * max 2 1 : Nat) := by
    decide
  have hcaught : (LongStream.create ⟨1000, 3, (), 1, 2⟩ ⟨0, 1000000000⟩).CaughtUp
      [⟨500000000, 5⟩, ⟨2000000000, -3⟩] 2000000000 :=
    ⟨by decide, by decide, _, rfl, .ready 2, by rfl, by decide⟩
  have hcaught₁ : (LongStream.create ⟨1000, 3, (), 1, 2⟩ ⟨7, 1000000007⟩).CaughtUp
      [⟨1000000000, 0⟩, ⟨700000000, 9⟩, ⟨2000000000, 0⟩] 2000000000 :=
    ⟨by decide, by decide, _, rfl, .ready 1, by rfl, by decide⟩
  obtain ⟨-, -, hsame⟩ := output_follows_configuration ⟨1000, 3, (), 1, 2⟩ hrate htotal
    ⟨0, 1000000000⟩ [⟨500000000, 5⟩, ⟨2000000000, -3⟩] hexact
  exact ⟨hrate, htotal, hexact,
    hsame ⟨7, 1000000007⟩ _ 2000000000 (by decide) hcaught hcaught₁, by rfl⟩

end Pacing
