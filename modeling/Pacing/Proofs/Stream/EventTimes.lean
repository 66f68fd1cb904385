import Mathlib.Data.List.Pairwise
import Pacing.Proofs.Buckets
import Pacing.Proofs.Stream.Batch

/-!
# Event times of a stream

All items of a poll carry one event time, the bucket of its wall-clock reading. So an event time is
fresh and never ahead of the wall clock at the poll, whatever the monotonic clock does; and as long
as the wall clock does not go back, neither do event times.

* `handsOver_timestamp` and `timestamp_of_mem_added` say where the event time of an item comes from.
* `added_ordered` is the order of event times, `events_increasing` that of simple events.
* `event_times_fresh_and_ordered` is the statement about new streams.
-/

namespace Pacing

variable {ε α : Type}

namespace ItemStream

section Run

variable {s : ItemStream ε α} {rs : List Reading}

/-- An item carries the bucket of the poll that hands it over. -/
theorem handsOver_timestamp {k : Nat} {r : Reading} {t : Timestamped α}
    (h : Paced.HandsOver s rs k r t) : t.timestamp = bucketMillis r.wall s.period := by
  obtain ⟨earlier, ht⟩ := h.mem_poll
  rw [← s.after_period earlier]
  exact poll_timestamp _ r t ht

/-- The event time of an item is the bucket of one of the readings. -/
theorem timestamp_of_mem_added {t : Timestamped α} (ht : t ∈ Paced.added s rs) :
    ∃ r ∈ rs, t.timestamp = bucketMillis r.wall s.period := by
  obtain ⟨k, hk⟩ := List.mem_iff_getElem?.mp ht
  obtain ⟨r, h⟩ := Paced.getElem?_added_iff.mp hk
  exact ⟨r, h.mem_readings, handsOver_timestamp h⟩

/-- **Order.** While the wall clock does not go back, event times do not either. -/
theorem added_ordered (hperiod : 0 < s.period) (hsteady : WallSteady rs) :
    (Paced.added s rs).Pairwise fun a b => a.timestamp ≤ b.timestamp := by
  induction rs generalizing s with
  | nil => exact .nil
  | cons r rs ih =>
    obtain ⟨hfirst, hlater⟩ := List.pairwise_cons.mp hsteady
    rw [Paced.added_cons, List.pairwise_append]
    refine ⟨?_, ih hperiod hlater, ?_⟩
    · apply List.pairwise_of_forall_mem_list
      intro a ha b hb
      exact Int.le_of_eq ((s.poll_timestamp r a ha).trans (s.poll_timestamp r b hb).symm)
    · intro a ha b hb
      obtain ⟨r', hr', htime⟩ := timestamp_of_mem_added hb
      rw [s.poll_timestamp r a ha, htime]
      exact bucketMillis_mono hperiod (hfirst r' hr')

end Run

/-- Simple events whose event times do not go back are in increasing order. -/
theorem events_increasing {items : List (Timestamped SimpleEvent)}
    (hnumbered : NumberedFrom (.slots : Generator ε SimpleEvent) 0 items)
    (hordered : items.Pairwise fun a b => a.timestamp ≤ b.timestamp) :
    (items.map Timestamped.item).Pairwise fun a b => a.compare b = .lt := by
  -- The item at a place is the slot of its event time and its place.
  have hevent : ∀ (i : Nat) (hi : i < items.length), items[i].item = ⟨items[i].timestamp, i⟩ := by
    intro i hi
    have hmade := hnumbered i items[i] (List.getElem?_eq_getElem hi)
    rw [Int.zero_add] at hmade
    exact (Except.ok.inj hmade).symm
  rw [List.pairwise_map]
  rw [List.pairwise_iff_getElem] at hordered ⊢
  intro i j hi hj hij
  rw [hevent i hi, hevent j hj, SimpleEvent.compare_eq_lt]
  rcases Int.lt_or_eq_of_le (hordered i j hi hj hij) with hlt | heq
  · exact .inl hlt
  · exact .inr ⟨heq, Int.ofNat_lt.mpr hij⟩

/-- **Event times.** A new stream of any accepted rate, whatever its generator does and at any
readings of the monotonic clock:

* all items of a poll have one event time, which is fresh at the wall-clock reading of the poll; on
  the way to it that reading is rounded down within words, if it is a period above the lowest one;
* in a run whose wall clock does not go back, the items are in the order of their event times;
* if they are simple events, each of them comes before the next one in the order of events. -/
theorem event_times_fresh_and_ordered (generate : Generator ε α) {rate : Int}
    (hrate : 1 ≤ rate ∧ rate ≤ maxItemsPerSecond) :
    let period : Int := nanosPerSecond / rate
    (∃ s, ofRate rate generate = .ok s ∧ ∀ rs : List Reading,
      (∀ earlier r later, rs = earlier ++ r :: later →
        (∃ timestamp, Fresh period r.wall timestamp ∧
          ∀ t ∈ (Paced.poll (Paced.after s earlier) r).added, t.timestamp = timestamp) ∧
        (Word.lowest + period ≤ r.wall → r.wall ≤ Word.highest →
          Word.InRange (r.wall - r.wall % period))) ∧
      (WallSteady rs → (Paced.added s rs).Pairwise fun a b => a.timestamp ≤ b.timestamp)) ∧
    ∃ s : ItemStream ε SimpleEvent, ofRate rate .slots = .ok s ∧ ∀ rs : List Reading,
      WallSteady rs →
        ((Paced.added s rs).map Timestamped.item).Pairwise fun a b => a.compare b = .lt := by
  intro period
  have hperiod : 0 < period := period_pos hrate
  constructor
  · refine ⟨_, ofRate_eq_ok hrate generate, ?_⟩
    intro rs
    constructor
    · rintro earlier r later -
      refine ⟨⟨_, fresh_bucketMillis hperiod r.wall, ?_⟩, floor_inRange hperiod⟩
      intro t ht
      have htime := poll_timestamp _ r t ht
      rwa [after_period] at htime
    · exact added_ordered hperiod
  · refine ⟨_, ofRate_eq_ok hrate .slots, ?_⟩
    intro rs hsteady
    exact events_increasing (numbered_added .slots period rs) (added_ordered hperiod hsteady)

/-- Four items a second, polled before the epoch while the monotonic clock goes back, and then twice
within the second after it. The first event time is a quarter of a second before the epoch. -/
theorem event_times_fresh_and_ordered_around_epoch :
    (1 ≤ (4 : Int) ∧ 4 ≤ maxItemsPerSecond) ∧
      WallSteady [⟨0, -1⟩, ⟨-7, 0⟩, ⟨500000000, 260000000⟩, ⟨750000000, 510000000⟩] ∧
      Fresh 250000000 (-1) (-250) ∧
      ∃ s : ItemStream Empty SimpleEvent, ofRate 4 .slots = .ok s ∧
        (Paced.added s [⟨0, -1⟩, ⟨-7, 0⟩, ⟨500000000, 260000000⟩, ⟨750000000, 510000000⟩]).map
            Timestamped.item = [⟨-250, 0⟩, ⟨250, 1⟩, ⟨250, 2⟩, ⟨500, 3⟩] ∧
        [SimpleEvent.mk (-250) 0, ⟨250, 1⟩, ⟨250, 2⟩, ⟨500, 3⟩].Pairwise
          fun a b => a.compare b = .lt := by
  have hrate : 1 ≤ (4 : Int) ∧ 4 ≤ maxItemsPerSecond := by decide
  have hsteady : WallSteady
      [⟨0, -1⟩, ⟨-7, 0⟩, ⟨500000000, 260000000⟩, ⟨750000000, 510000000⟩] := by decide
  obtain ⟨⟨s, hs, hdated⟩, s', hs', hevents⟩ :=
    event_times_fresh_and_ordered (.slots : Generator Empty SimpleEvent) hrate
  obtain rfl : ofPeriod 250000000 .slots = s := Except.ok.inj hs
  obtain rfl : ofPeriod 250000000 .slots = s' := Except.ok.inj hs'
  obtain ⟨⟨timestamp, hfresh, hall⟩, -⟩ := (hdated [⟨0, -1⟩]).1 [] ⟨0, -1⟩ [] rfl
  obtain rfl : -250 = timestamp := hall ⟨⟨-250, 0⟩, -250⟩ (by decide)
  exact ⟨hrate, hsteady, hfresh, _, hs, rfl, hevents _ hsteady⟩

end ItemStream

end Pacing
