import Pacing.Stream
import Pacing.Proofs.Polling
import Pacing.Proofs.Slots

/-!
# Streams on their track

Where a rate-limited stream stands in a run, whatever its generator does and however the clocks
move. The schedule, the next number and the items handed over so far are tied to each other and
to the instant of the first poll; every poll keeps this, also one that fails half way.

* `emitDue_sound` says all a single emission loop can do, and `poll_source` what a poll leaves behind.
* `OnTrack` is the invariant of a run, `OnTrack.poll` its step and `onTrack_after` the run.
* `slots_by` and `next_slot_after` bound what a run has handed over from both sides.
-/

namespace Pacing

variable {ε α : Type}

/-- The items carry the numbers `first`, `first + 1`, … in this order: each one is what the
generator makes of its event time and its number. -/
def NumberedFrom (generate : Generator ε α) (first : Int) (items : List (Timestamped α)) : Prop :=
  ∀ (i : Nat) (t : Timestamped α), items[i]? = some t →
    generate t.timestamp (first + i) = .ok t.item

theorem numberedFrom_nil (generate : Generator ε α) (first : Int) :
    NumberedFrom generate first [] := by
  intro i t ht
  simp at ht

theorem NumberedFrom.cons {generate : Generator ε α} {first : Int} {t : Timestamped α}
    {items : List (Timestamped α)} (h : generate t.timestamp first = .ok t.item)
    (hrest : NumberedFrom generate (first + 1) items) :
    NumberedFrom generate first (t :: items) := by
  intro i u hu
  cases i with
  | zero =>
    have : t = u := by simpa using hu
    subst this
    simpa using h
  | succ i =>
    have := hrest i u (by simpa using hu)
    rwa [show first + 1 + (i : Int) = first + ((i + 1 : Nat) : Int) by omega] at this

theorem NumberedFrom.append {generate : Generator ε α} {first : Int}
    {items more : List (Timestamped α)} (h : NumberedFrom generate first items)
    (hmore : NumberedFrom generate (first + items.length) more) :
    NumberedFrom generate first (items ++ more) := by
  intro i t ht
  by_cases hi : i < items.length
  · rw [List.getElem?_append_left hi] at ht
    exact h i t ht
  · rw [List.getElem?_append_right (by omega)] at ht
    have := hmore _ t ht
    rwa [show first + (items.length : Int) + ((i - items.length : Nat) : Int) = first + i by
      omega] at this

/-! ### One emission loop -/

/-- All an emission loop does that starts with a number due at an instant. Its numbers and due
times are in `emitDue_sequence` and `emitDue_due`. -/
structure Emission.Sound (generate : Generator ε α) (period stamp now : Int) (room : Nat)
    (sequence due : Int) (e : Emission ε α) : Prop where
  numbered : NumberedFrom generate sequence e.items
  stamped : ∀ t ∈ e.items, t.timestamp = stamp
  /-- Every item was due. -/
  slots : ∀ i : Nat, i < e.items.length → due + i * period ≤ now
  /-- An error is the generator's, about the first number that was not emitted. -/
  failed : ∀ failure, e.failure = some failure →
    e.due ≤ now ∧ generate stamp e.sequence = .error failure
  /-- Without an error only the room ends the loop before everything due is emitted. -/
  drained : e.failure = none → e.items.length < room → now < e.due

theorem emitDue_sound (generate : Generator ε α) (period stamp now : Int) (room : Nat)
    (sequence due : Int) :
    (emitDue generate period stamp now room sequence due).Sound generate period stamp now room
      sequence due := by
  induction room generalizing sequence due with
  | zero =>
    exact ⟨numberedFrom_nil _ _, by simp [emitDue], by simp [emitDue], by simp [emitDue],
      by simp [emitDue]⟩
  | succ room ih =>
    unfold emitDue
    split
    case isFalse hdue =>
      exact ⟨numberedFrom_nil _ _, by simp, by simp, by simp, fun _ _ => Int.not_le.mp hdue⟩
    case isTrue hdue =>
      split
      case h_1 failure hgenerate =>
        refine ⟨numberedFrom_nil _ _, by simp, by simp, ?_, by simp⟩
        intro failure' h
        cases h
        exact ⟨hdue, hgenerate⟩
      case h_2 item hgenerate =>
        have later := ih (sequence + 1) (due + period)
        refine ⟨.cons hgenerate later.numbered, ?_, ?_, later.failed, ?_⟩
        · intro t ht
          rcases List.mem_cons.mp ht with rfl | ht
          · rfl
          · exact later.stamped t ht
        · intro i hi
          cases i with
          | zero => simpa using hdue
          | succ i =>
            have := later.slots i (by simpa using hi)
            rw [Int.natCast_add, Int.add_mul]
            omega
        · intro hnone hroom
          exact later.drained hnone (by simpa using hroom)

namespace ItemStream

/-! ### One poll -/

@[simp]
theorem paced_poll (s : ItemStream ε α) (r : Reading) : Paced.poll s r = s.poll r := rfl

/-- The emission loop a poll runs. -/
def emission (s : ItemStream ε α) (r : Reading) : Emission ε α :=
  emitDue s.generate s.period (bucketMillis r.wall s.period) r.monotonic maxBatchSize s.sequence
    (s.schedule.getD r.monotonic)

/-- The instant at which the item is due that comes `j` items after the next one. A stream that has
not been polled takes the reading of its first poll for its first slot. -/
def slot (s : ItemStream ε α) (r : Reading) (j : Nat) : Int :=
  s.schedule.getD r.monotonic + j * s.period

section Slot

variable (s : ItemStream ε α) (r : Reading)

/-- The emission loop of a poll ends at the slot of the first item it has not handed over. -/
theorem emission_due_eq : (s.emission r).due = s.slot r (s.poll r).added.length := emitDue_due ..

/-- Every poll moves the stream on by the items it hands over. -/
theorem poll_source : (s.poll r).source =
    { s with
      schedule := some (s.slot r (s.poll r).added.length)
      sequence := s.sequence + (s.poll r).added.length } := by
  rw [← emission_due_eq, ← poll_sequence]
  rfl

end Slot

/-- The stream a first poll at `start` makes of a new one before it emits anything. -/
def anchored (period start : Int) (generate : Generator ε α) : ItemStream ε α :=
  { ofPeriod period generate with schedule := some start }

/-- What a stream on its track has handed over, and what that says of its schedule. -/
structure OnTrack (generate : Generator ε α) (period start : Int) (s : ItemStream ε α)
    (items : List (Timestamped α)) : Prop where
  generate_eq : s.generate = generate
  period_eq : s.period = period
  sequence_eq : s.sequence = items.length
  schedule_eq : s.schedule = some (start + items.length * period)
  numbered : NumberedFrom generate 0 items

theorem onTrack_anchored (generate : Generator ε α) (period start : Int) :
    OnTrack generate period start (anchored period start generate) [] where
  generate_eq := rfl
  period_eq := rfl
  sequence_eq := rfl
  schedule_eq := by simp [anchored]
  numbered := numberedFrom_nil _ _

section Poll

variable {generate : Generator ε α} {period start : Int} {s : ItemStream ε α}
  {items : List (Timestamped α)}

/-- The loop a poll of a stream on its track runs. -/
theorem OnTrack.poll_sound (h : OnTrack generate period start s items) (r : Reading) :
    (s.emission r).Sound generate period (bucketMillis r.wall period) r.monotonic maxBatchSize
      items.length (start + items.length * period) := by
  unfold emission
  rw [h.generate_eq, h.period_eq, h.sequence_eq, h.schedule_eq]
  exact emitDue_sound ..

/-- **Step.** A poll keeps a stream on its track, whatever its readings and its outcome. -/
theorem OnTrack.poll (h : OnTrack generate period start s items) (r : Reading) :
    OnTrack generate period start (s.poll r).source (items ++ (s.poll r).added) where
  generate_eq := h.generate_eq
  period_eq := h.period_eq
  sequence_eq := by
    rw [poll_sequence, h.sequence_eq, List.length_append]
    omega
  schedule_eq := by
    have hschedule := congrArg ItemStream.schedule (s.poll_source r)
    rw [hschedule, slot, h.schedule_eq, h.period_eq, List.length_append, Int.natCast_add, Int.add_mul,
      Option.getD_some, Int.add_assoc]
  numbered := by
    apply h.numbered.append
    rw [Int.zero_add]
    exact (h.poll_sound r).numbered

/-- All items of a poll carry its bucket. -/
theorem poll_timestamp (s : ItemStream ε α) (r : Reading) :
    ∀ t ∈ (s.poll r).added, t.timestamp = bucketMillis r.wall s.period :=
  (emitDue_sound ..).stamped

/-- Every item a poll hands over has its slot at or before the poll. -/
theorem OnTrack.poll_slots (h : OnTrack generate period start s items) (r : Reading) {i : Nat}
    (hlow : items.length ≤ i) (hhigh : i < items.length + (s.poll r).added.length) :
    start + i * period ≤ r.monotonic := by
  have hslot := (h.poll_sound r).slots (i - items.length) (show _ < (s.poll r).added.length by omega)
  have hi : (i : Int) = items.length + ((i - items.length : Nat) : Int) := by omega
  rw [hi, Int.add_mul]
  omega

/-- What a poll reports is the loop's error, or else the number of items. -/
theorem poll_outcome (s : ItemStream ε α) (r : Reading) :
    (s.poll r).outcome =
      match (s.emission r).failure with
      | some failure => .error failure
      | none =>
        if (s.poll r).added.length = 0 then .ok (.pendingUntil r.monotonic (s.emission r).due)
        else .ok (.ready (s.poll r).added.length) := rfl

/-- The loop of a poll ends where the schedule goes on. -/
theorem OnTrack.emission_due (h : OnTrack generate period start s items) (r : Reading) :
    (s.emission r).due = start + (items ++ (s.poll r).added).length * period :=
  Option.some.inj (h.poll r).schedule_eq

/-- A poll fails with the generator's error about the next number, which is due. -/
theorem OnTrack.poll_failed (h : OnTrack generate period start s items) {r : Reading} {failure : ε}
    (hfailed : (s.poll r).outcome = .error failure) :
    start + (items ++ (s.poll r).added).length * period ≤ r.monotonic ∧
      generate (bucketMillis r.wall period) (items ++ (s.poll r).added).length =
        .error failure := by
  have hfailure : (s.emission r).failure = some failure := by
    rw [poll_outcome] at hfailed
    split at hfailed
    · rename_i e he
      cases hfailed
      exact he
    · split at hfailed <;> simp at hfailed
  obtain ⟨hdue, hgenerate⟩ := (h.poll_sound r).failed failure hfailure
  have hsequence : (s.emission r).sequence = (items ++ (s.poll r).added).length :=
    (h.poll r).sequence_eq
  rw [hsequence] at hgenerate
  rw [h.emission_due r] at hdue
  exact ⟨hdue, hgenerate⟩

/-- A poll that succeeds reports how many items it hands over. -/
theorem poll_report {s : ItemStream ε α} {r : Reading} {report : Poll}
    (h : (s.poll r).outcome = .ok report) : report.emitted = (s.poll r).added.length := by
  rw [poll_outcome] at h
  split at h
  · simp at h
  · split at h
    case isTrue hempty =>
      cases h
      exact hempty.symm
    case isFalse =>
      cases h
      rfl

instance : LawfulPaced (ItemStream ε α) := ⟨fun _ _ _ h => poll_report h⟩

/-- After a poll that succeeds with room left, the next item is not due yet. -/
theorem OnTrack.poll_uncapped (h : OnTrack generate period start s items) {r : Reading}
    (huncapped : (s.poll r).Uncapped) :
    r.monotonic < start + (items ++ (s.poll r).added).length * period := by
  obtain ⟨report, hreport, hroom⟩ := huncapped
  rw [poll_report hreport] at hroom
  have hnone : (s.emission r).failure = none := by
    rw [poll_outcome] at hreport
    split at hreport
    · simp at hreport
    · assumption
  rw [← h.emission_due r]
  exact (h.poll_sound r).drained hnone hroom

end Poll

/-! ### A run -/

/-- **Run.** A stream stays on its track through any list of polls. -/
theorem OnTrack.run {generate : Generator ε α} {period start : Int} {s : ItemStream ε α}
    {items : List (Timestamped α)} (h : OnTrack generate period start s items)
    (rs : List Reading) :
    OnTrack generate period start (Paced.after s rs) (items ++ Paced.added s rs) := by
  induction rs generalizing s items with
  | nil => simpa using h
  | cons r rs ih =>
    have := ih (h.poll r)
    rwa [List.append_assoc] at this

/-- Every item of a run has its slot at or before any bound on the readings. -/
theorem OnTrack.run_slots {generate : Generator ε α} {period start bound : Int}
    {s : ItemStream ε α} {items : List (Timestamped α)}
    (h : OnTrack generate period start s items) {rs : List Reading}
    (hbound : ∀ r ∈ rs, r.monotonic ≤ bound) {i : Nat} (hlow : items.length ≤ i)
    (hhigh : i < (items ++ Paced.added s rs).length) : start + i * period ≤ bound := by
  induction rs generalizing s items with
  | nil => simp at hhigh; omega
  | cons r rs ih =>
    by_cases hi : i < (items ++ (s.poll r).added).length
    · have hslot := h.poll_slots r hlow (by rwa [List.length_append] at hi)
      have hr := hbound r (by simp)
      omega
    · apply ih (h.poll r) (fun r' hr' => hbound r' (by simp [hr'])) (by omega)
      rwa [List.append_assoc]

/-- Polls before the next slot hand nothing over. -/
theorem OnTrack.run_idle {generate : Generator ε α} {period start : Int} {s : ItemStream ε α}
    {items : List (Timestamped α)} (h : OnTrack generate period start s items) {rs : List Reading}
    (hidle : ∀ r ∈ rs, r.monotonic < start + items.length * period) : Paced.added s rs = [] := by
  apply List.eq_nil_of_length_eq_zero
  apply Nat.eq_zero_of_not_pos
  intro hpos
  have hbound : ∀ r ∈ rs, r.monotonic ≤ start + items.length * period - 1 := by
    intro r hr
    have := hidle r hr
    omega
  have := h.run_slots hbound (i := items.length) (by omega)
    (by rw [List.length_append]; omega)
  omega

/-- The first poll anchors a new stream. -/
theorem poll_ofPeriod (period : Int) (generate : Generator ε α) (r : Reading) :
    (ofPeriod period generate).poll r = (anchored period r.monotonic generate).poll r := rfl

section Fresh

variable {generate : Generator ε α} {period start : Int} {rs : List Reading}

theorem polls_ofPeriod (h : StartsAt rs start) :
    Paced.polls (ofPeriod period generate) rs =
      Paced.polls (anchored period start generate) rs := by
  cases rs with
  | nil => rfl
  | cons r rs =>
    rw [startsAt_cons] at h
    subst h
    rfl

theorem after_ofPeriod (h : StartsAt rs start) :
    Paced.after (ofPeriod period generate) rs =
      Paced.after (anchored period start generate) rs := by
  cases rs with
  | nil => simp [StartsAt] at h
  | cons r rs =>
    rw [startsAt_cons] at h
    subst h
    rfl

theorem added_ofPeriod (h : StartsAt rs start) :
    Paced.added (ofPeriod period generate) rs =
      Paced.added (anchored period start generate) rs := by
  unfold Paced.added
  rw [polls_ofPeriod h]

/-- From its first poll on a new stream is on its track. -/
theorem onTrack_after (h : StartsAt rs start) :
    OnTrack generate period start (Paced.after (ofPeriod period generate) rs)
      (Paced.added (ofPeriod period generate) rs) := by
  rw [after_ofPeriod h, added_ofPeriod h]
  exact (onTrack_anchored generate period start).run rs

/-- The items of a new stream are numbered from zero, whether it has been polled or not. -/
theorem numbered_added (generate : Generator ε α) (period : Int) (rs : List Reading) :
    NumberedFrom generate 0 (Paced.added (ofPeriod period generate) rs) := by
  cases rs with
  | nil => exact numberedFrom_nil _ _
  | cons r later => exact (onTrack_after (startsAt_cons.mpr rfl)).numbered

variable (generate period) in
/-- Whatever was polled before, a poll of a run is that of a stream on its track. -/
theorem exists_onTrack {earlier later : List Reading} {r : Reading}
    (h : StartsAt (earlier ++ r :: later) start) :
    ∃ s, OnTrack generate period start s (Paced.added (ofPeriod period generate) earlier) ∧
      (Paced.after (ofPeriod period generate) earlier).poll r = s.poll r ∧
      (Paced.after (ofPeriod period generate) earlier).sequence = s.sequence := by
  cases earlier with
  | nil =>
    rw [List.nil_append, startsAt_cons] at h
    subst h
    exact ⟨_, onTrack_anchored generate period r.monotonic, rfl, rfl⟩
  | cons first rest =>
    exact ⟨_, onTrack_after (h.of_append (List.cons_ne_nil _ _)), rfl, rfl⟩

/-- Every item of a run has its slot at or before any bound on the readings. -/
theorem slots_by {bound : Int} (h : StartsAt rs start) (hbound : ∀ r ∈ rs, r.monotonic ≤ bound)
    {i : Nat} (hi : i < (Paced.added (ofPeriod period generate) rs).length) :
    start + i * period ≤ bound := by
  rw [added_ofPeriod h] at hi
  exact (onTrack_anchored generate period start).run_slots hbound (Nat.zero_le i) hi

/-- After a run that ends with room left, the next slot has not come. -/
theorem next_slot_after {stop : Int} (h : StartsAt rs start) (hstop : EndsAt rs stop)
    (huncapped : Paced.EndsUncapped (ofPeriod period generate) rs) :
    stop < start + (Paced.added (ofPeriod period generate) rs).length * period := by
  obtain ⟨earlier, last, rfl, rfl⟩ := hstop.eq_snoc
  unfold Paced.EndsUncapped at huncapped
  rw [polls_ofPeriod h] at huncapped
  rw [added_ofPeriod h, Paced.added_snoc]
  have htrack := (onTrack_anchored generate period start).run earlier
  exact htrack.poll_uncapped (Paced.endsUncapped_snoc.mp huncapped)

/-- What a steady run that ends with room left has handed over in total depends on its two ends
only. -/
theorem caughtUp_length {stop : Int} (hperiod : 0 < period) (hsteady : Steady rs)
    (hstart : StartsAt rs start) (hstop : EndsAt rs stop)
    (huncapped : Paced.EndsUncapped (ofPeriod period generate) rs) :
    (Paced.added (ofPeriod period generate) rs).length = dueCount period stop start := by
  apply Nat.le_antisymm
  · exact le_dueCount hperiod fun i hi => slots_by hstart (hsteady.le_stop hstop) hi
  · exact dueCount_le hperiod (next_slot_after hstart hstop huncapped)

end Fresh

/-- A rate in the accepted range makes a stream with the rate's period. -/
theorem ofRate_eq_ok {rate : Int} (h : 1 ≤ rate ∧ rate ≤ maxItemsPerSecond)
    (generate : Generator ε α) :
    ofRate rate generate = .ok (ofPeriod (nanosPerSecond / rate) generate) := by
  unfold ofRate
  rw [periodNanos_eq_ok.mpr ⟨h, rfl⟩]
  rfl

end ItemStream

end Pacing
