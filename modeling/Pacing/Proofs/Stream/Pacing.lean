import Pacing.Proofs.Stream.Track

/-!
# The pacing law of a stream

How many items a stream with a generator that cannot fail has emitted after any run of polls, in
terms of the poll times alone. A poll emits everything due, or a full batch when more is due; the
total is therefore the least of what each poll on the way leaves room for.

* `OnTrack.poll_total` is one poll, `OnTrack.run_total` a run of them.
* `whole_run_pacing` is the law for a new stream of any accepted rate.
-/

namespace Pacing

variable {α : Type}

/-- For every poll of a run, how many items there would be in the end if that poll emitted
everything due at it and every later one a full batch. -/
def allowances (period start : Int) : List Reading → List Int
  | [] => []
  | r :: later =>
    ((r.monotonic - start) / period + 1 + maxBatchSize * later.length)
      :: allowances period start later

namespace ItemStream

section Total

variable {generate : Generator Empty α} {period start : Int} {s : ItemStream Empty α}
  {items : List (Timestamped α)}

/-- A poll of a stream that cannot fail is uncapped unless it hands over a full batch. -/
theorem poll_uncapped_of_lt {r : Reading} (h : (s.poll r).added.length < maxBatchSize) :
    (s.poll r).Uncapped := by
  cases houtcome : (s.poll r).outcome with
  | error failure => exact failure.elim
  | ok report => exact ⟨report, houtcome, (poll_report houtcome).symm ▸ h⟩

/-- **Step.** A poll brings the total up to what is due, by one batch at most. -/
theorem OnTrack.poll_total (h : OnTrack generate period start s items) (hperiod : 0 < period)
    {r : Reading} (hearlier : ∀ i : Nat, i < items.length → start + i * period ≤ r.monotonic) :
    (items ++ (s.poll r).added).length =
      min (items.length + maxBatchSize) (dueCount period r.monotonic start) := by
  have hcome : items.length ≤ dueCount period r.monotonic start := le_dueCount hperiod hearlier
  have howed : Owed (fun j : Nat => start + (items.length + j : Nat) * period) r.monotonic
      (dueCount period r.monotonic start - items.length) :=
    (owed_dueCount hperiod start).drop items.length
  have hbatch : (s.poll r).added.length =
      min maxBatchSize (dueCount period r.monotonic start - items.length) := by
    apply howed.taken_eq (s.poll_added_length_le r)
    · intro j hj
      exact h.poll_slots r (by omega) (by omega)
    · intro hroom
      have hnext := h.poll_uncapped (poll_uncapped_of_lt hroom)
      rwa [List.length_append] at hnext
  rw [List.length_append, hbatch]
  omega

/-- **Run.** The total after a run is the least of the allowances of its polls, and of a full
batch for each of them on top of what there was. -/
theorem OnTrack.run_total (h : OnTrack generate period start s items) (hperiod : 0 < period)
    {rs : List Reading} (hsteady : Steady rs)
    (hearlier : ∀ r ∈ rs, ∀ i : Nat, i < items.length → start + i * period ≤ r.monotonic)
    (hstart : ∀ r ∈ rs, start ≤ r.monotonic) :
    ((items.length + maxBatchSize * rs.length : Int) :: allowances period start rs).min? =
      some ((items ++ Paced.added s rs).length : Int) := by
  induction rs generalizing s items with
  | nil => simp [allowances]
  | cons r later ih =>
    obtain ⟨hfirst, hlater⟩ := List.pairwise_cons.mp hsteady
    have htotal := h.poll_total hperiod (hearlier r (by simp))
    have hcount := dueCount_of_le hperiod (hstart r (by simp))
    -- Items of this poll and of earlier ones have their slots before every later poll.
    have hslots : ∀ r' ∈ later, ∀ i : Nat, i < (items ++ (s.poll r).added).length →
        start + i * period ≤ r'.monotonic := by
      intro r' hr' i hi
      have hdue : i < dueCount period r.monotonic start := by omega
      have := (lt_dueCount_iff hperiod).mp hdue
      have := hfirst r' hr'
      omega
    have hrest := ih (h.poll r) hlater hslots fun r' hr' => hstart r' (by simp [hr'])
    rw [List.append_assoc] at hrest
    rw [Paced.added_cons]
    refine Eq.trans ?_ hrest
    have hleast : min (items.length + maxBatchSize * (r :: later).length : Int)
        ((r.monotonic - start) / period + 1 + maxBatchSize * later.length) =
          (items ++ (s.poll r).added).length + maxBatchSize * later.length := by
      rw [htotal, List.length_cons]
      unfold maxBatchSize
      omega
    rw [← hleast]
    simp only [allowances, List.min?_cons', List.foldl_cons]

end Total

/-- The first poll of a new stream emits one item. -/
theorem first_poll (generate : Generator Empty α) {period : Int} (hperiod : 0 < period)
    (r : Reading) : ((ofPeriod period generate).poll r).added.length = 1 := by
  have h := (onTrack_anchored generate period r.monotonic).poll_total hperiod (r := r) (by simp)
  rw [poll_ofPeriod]
  simpa [dueCount_self, maxBatchSize] using h

/-- The total of a new stream after a run is the least allowance of its polls. -/
theorem total_eq_least_allowance (generate : Generator Empty α) {period start : Int}
    (hperiod : 0 < period) {rs : List Reading} (hsteady : Steady rs) (hstart : StartsAt rs start) :
    (allowances period start rs).min? =
      some ((Paced.added (ofPeriod period generate) rs).length : Int) := by
  rw [added_ofPeriod hstart]
  cases rs with
  | nil => simp [StartsAt] at hstart
  | cons r later =>
    rw [startsAt_cons] at hstart
    subst hstart
    have hall : ∀ r' ∈ r :: later, r.monotonic ≤ r'.monotonic := by
      intro r' hr'
      rcases List.mem_cons.mp hr' with rfl | hr'
      · exact Int.le_refl _
      · exact (List.pairwise_cons.mp hsteady).1 r' hr'
    have h := (onTrack_anchored generate period r.monotonic).run_total hperiod hsteady
      (by simp) hall
    rw [List.nil_append] at h
    rw [← h]
    -- The first poll's allowance is one batch per later poll and one item.
    simp only [allowances, List.min?_cons', List.foldl_cons, List.length_cons, List.length_nil]
    congr 2
    simp [maxBatchSize]
    omega

/-- Four polls at a billion items a second, the last three at one late instant: two full batches
after the first item, and then the rest. -/
example : (allowances 1 0 [⟨0, 0⟩, ⟨3000, 0⟩, ⟨3000, 0⟩, ⟨3000, 0⟩]).min? = some 3001 := by decide

/-- **Whole-run pacing.** A new stream of any accepted rate and any generator that cannot fail,
polled at readings whose monotonic clock does not go back, has emitted the least allowance of its
polls: exactly one item at the first poll, no item before its slot, no more than a full batch in
one poll, and everything due once a poll has room left. Runs that start and end together with
room left have emitted the same numbers, however they were polled in between. -/
theorem whole_run_pacing (generate : Generator Empty α) {rate : Int}
    (hrate : 1 ≤ rate ∧ rate ≤ maxItemsPerSecond) :
    ∃ s, ofRate rate generate = .ok s ∧
      ∀ (rs : List Reading) (start stop : Int),
        Steady rs → StartsAt rs start → EndsAt rs stop →
        (allowances (nanosPerSecond / rate) start rs).min? =
            some ((Paced.added s rs).length : Int) ∧
          (Paced.polls s rs).head?.map (fun p => p.added.length) = some 1 ∧
          (∀ p ∈ Paced.polls s rs, p.added.length ≤ maxBatchSize) ∧
          NumberedFrom generate 0 (Paced.added s rs) ∧
          (∀ i : Nat, i < (Paced.added s rs).length →
            start + i * (nanosPerSecond / rate) ≤ stop) ∧
          (Paced.EndsUncapped s rs → ∀ i : Nat, start + i * (nanosPerSecond / rate) ≤ stop →
            i < (Paced.added s rs).length) ∧
          (Paced.EndsUncapped s rs → ∀ rs' : List Reading,
            Steady rs' → StartsAt rs' start → EndsAt rs' stop → Paced.EndsUncapped s rs' →
            (Paced.added s rs').length = (Paced.added s rs).length ∧
              NumberedFrom generate 0 (Paced.added s rs')) := by
  have hperiod := period_pos hrate
  refine ⟨_, ofRate_eq_ok hrate generate, ?_⟩
  intro rs start stop hsteady hstart hstop
  refine ⟨total_eq_least_allowance generate hperiod hsteady hstart, ?_, ?_, ?_, ?_, ?_, ?_⟩
  · cases rs with
    | nil => simp [StartsAt] at hstart
    | cons r later => simpa using first_poll generate hperiod r
  · exact Paced.forall_polls (fun s r => poll_added_length_le s r) _ rs
  · exact (onTrack_after hstart).numbered
  · exact fun i hi => slots_by hstart (hsteady.le_stop hstop) hi
  · intro huncapped i hi
    rw [caughtUp_length hperiod hsteady hstart hstop huncapped]
    exact (lt_dueCount_iff hperiod).mpr hi
  · intro huncapped rs' hsteady' hstart' hstop' huncapped'
    rw [caughtUp_length hperiod hsteady hstart hstop huncapped,
      caughtUp_length hperiod hsteady' hstart' hstop' huncapped']
    exact ⟨rfl, (onTrack_after hstart').numbered⟩

/-- Three items a second for one second, polled at the two ends only and polled four times: both
runs emit four items. -/
theorem whole_run_pacing_of_one_second :
    (1 ≤ (3 : Int) ∧ 3 ≤ maxItemsPerSecond) ∧
      ∃ s : ItemStream Empty SimpleEvent, ofRate 3 .slots = .ok s ∧
        (Paced.added s [⟨0, 5⟩, ⟨1000000000, 0⟩]).length = 4 ∧
        (Paced.added s [⟨0, 0⟩, ⟨333333332, -7⟩, ⟨400000000, 9⟩, ⟨1000000000, 3⟩]).length = 4 := by
  have hrate : 1 ≤ (3 : Int) ∧ 3 ≤ maxItemsPerSecond := by decide
  obtain ⟨s, hs, hlaw⟩ := whole_run_pacing (.slots : Generator Empty SimpleEvent) hrate
  refine ⟨hrate, s, hs, ?_⟩
  obtain rfl : ofPeriod 333333333 .slots = s := Except.ok.inj hs
  obtain ⟨hleast, -, -, -, -, -, hsame⟩ :=
    hlaw [⟨0, 5⟩, ⟨1000000000, 0⟩] 0 1000000000 (by decide) (by decide) (by decide)
  have htotal : (Paced.added (ofPeriod 333333333 (.slots : Generator Empty SimpleEvent))
      [⟨0, 5⟩, ⟨1000000000, 0⟩]).length = 4 := by
    have hfour : (allowances (nanosPerSecond / 3) 0 [⟨0, 5⟩, ⟨1000000000, 0⟩]).min? =
        some 4 := by decide
    rw [hfour] at hleast
    exact (Int.ofNat.inj (Option.some.inj hleast)).symm
  refine ⟨htotal, ?_⟩
  rw [← htotal]
  exact (hsame ⟨_, rfl, .ready 3, rfl, by decide⟩
    [⟨0, 0⟩, ⟨333333332, -7⟩, ⟨400000000, 9⟩, ⟨1000000000, 3⟩] (by decide) (by decide) (by decide)
    ⟨_, rfl, .ready 2, rfl, by decide⟩).1

end ItemStream

end Pacing
