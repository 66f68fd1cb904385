import Pacing.Proofs.Stream.Track

/-!
# Failing generators

A generator's failure ends a poll half way, with part of its items handed over. No number is lost,
repeated or shifted by it: the number that failed stays the next one and keeps its slot, whatever
fails, whenever it is polled again, and also if the monotonic clock goes back in between.

* `OnTrack.poll_begins` says which number a poll starts with, `OnTrack.poll_made` what holds of the
  numbers before one that failed.
* `schedule_le` says that the schedule does not go back.
* `failures_keep_numbers` is the statement about whole runs.
-/

namespace Pacing

variable {ε α : Type}

/-- A poll asks first for an item that was made like this at an event time: it hands the item over
before any other, or fails with its error and hands over nothing. -/
def Polled.BeginsWith {σ : Type} (p : Polled σ ε α) (stamp : Int) (made : Except ε α) : Prop :=
  match made with
  | .ok item => p.added.head? = some ⟨item, stamp⟩
  | .error failure => p.added = [] ∧ p.outcome = .error failure

namespace ItemStream

section Poll

variable {generate : Generator ε α} {period start : Int} {s : ItemStream ε α}
  {items : List (Timestamped α)}

/-- A poll at which anything is due begins with the next number. -/
theorem OnTrack.poll_begins (h : OnTrack generate period start s items) {r : Reading}
    (hdue : start + items.length * period ≤ r.monotonic) :
    (s.poll r).BeginsWith (bucketMillis r.wall period)
      (generate (bucketMillis r.wall period) items.length) := by
  have hloop : s.emission r = emitDue generate period (bucketMillis r.wall period) r.monotonic
      maxBatchSize items.length (start + items.length * period) := by
    unfold emission
    rw [h.generate_eq, h.period_eq, h.sequence_eq, h.schedule_eq]
    rfl
  have hadded : (s.poll r).added = (s.emission r).items := rfl
  have houtcome := poll_outcome s r
  unfold maxBatchSize emitDue at hloop
  rw [if_pos hdue] at hloop
  unfold Polled.BeginsWith
  cases hmade : generate (bucketMillis r.wall period) items.length with
  | ok item =>
    rw [hmade] at hloop
    simp [hadded, hloop]
  | error failure =>
    rw [hmade] at hloop
    rw [hloop] at houtcome
    exact ⟨by rw [hadded, hloop], houtcome⟩

/-- Within a poll that fails, every number before the failing one was made. -/
theorem OnTrack.poll_made (h : OnTrack generate period start s items) {r : Reading} {n : Nat}
    (hlow : items.length ≤ n) (hhigh : n < (items ++ (s.poll r).added).length) :
    ∃ item, generate (bucketMillis r.wall period) n = .ok item := by
  rw [List.length_append] at hhigh
  have hn : n - items.length < (s.poll r).added.length := by omega
  have hnumbered := (h.poll_sound r).numbered _ _ (List.getElem?_eq_getElem hn)
  have hstamp := s.poll_timestamp r _ (List.getElem_mem hn)
  rw [h.period_eq] at hstamp
  refine ⟨(s.poll r).added[n - items.length].item, ?_⟩
  rw [show (items.length : Int) + ((n - items.length : Nat) : Int) = n by omega] at hnumbered
  rw [← hstamp]
  exact hnumbered

/-- Polls that come too early do not change what the first poll at which anything is due begins
with. -/
theorem OnTrack.begins_after_idle (h : OnTrack generate period start s items)
    {between : List Reading} {next : Reading}
    (hidle : ∀ r ∈ between, r.monotonic < start + items.length * period)
    (hdue : start + items.length * period ≤ next.monotonic) :
    ((Paced.after s between).poll next).BeginsWith (bucketMillis next.wall period)
      (generate (bucketMillis next.wall period) items.length) := by
  have hwaiting := h.run between
  rw [h.run_idle hidle, List.append_nil] at hwaiting
  exact hwaiting.poll_begins hdue

end Poll

/-- Once there is a schedule, it is kept and never goes back. -/
theorem schedule_le (generate : Generator ε α) {period start : Int} (hperiod : 0 < period)
    {earlier later : List Reading} (hstart : StartsAt (earlier ++ later) start) {n : Int}
    (hn : (Paced.after (ofPeriod period generate) earlier).schedule = some n) :
    ∃ m, (Paced.after (ofPeriod period generate) (earlier ++ later)).schedule = some m ∧
      n ≤ m := by
  refine ⟨_, (onTrack_after hstart).schedule_eq, ?_⟩
  cases earlier with
  | nil => simp [ofPeriod] at hn
  | cons first rest =>
    have hfirst : StartsAt (first :: rest) start := by
      rw [List.cons_append, startsAt_cons] at hstart
      exact startsAt_cons.mpr hstart
    rw [(onTrack_after hfirst).schedule_eq] at hn
    rw [← Option.some.inj hn, Paced.added_append, List.length_append]
    apply Int.add_le_add_left
    exact Int.mul_le_mul_of_nonneg_right (Int.ofNat_le.mpr (Nat.le_add_right _ _))
      (Int.le_of_lt hperiod)

/-- **Failures keep numbers.** A new stream of any accepted rate, whatever its generator does and
at any readings, the monotonic clock going back included:

* from the first poll on, the next item is due one period per number after that poll;
* the items handed over, also by polls that failed, are those numbered `0, 1, 2, …` up to the next
  number, each made at the bucket of the poll that handed it over;
* a poll that fails reports the error of the first number that could not be made, and the next poll
  at which anything is due begins with that number;
* the schedule never goes back and is never lost;
* a steady run that ends with room left, as a pending poll does, has handed over one item for each
  slot up to its end, as many as a stream of the same rate that cannot fail. -/
theorem failures_keep_numbers (generate : Generator ε α) {rate : Int}
    (hrate : 1 ≤ rate ∧ rate ≤ maxItemsPerSecond) :
    ∃ s, ofRate rate generate = .ok s ∧
      ∀ (rs : List Reading) (start : Int), StartsAt rs start →
        let period : Int := nanosPerSecond / rate
        let due (t : ItemStream ε α) : Int := start + t.sequence * period
        (Paced.after s rs).schedule = some (due (Paced.after s rs)) ∧
        (Paced.after s rs).sequence = (Paced.added s rs).length ∧
        NumberedFrom generate 0 (Paced.added s rs) ∧
        (∀ earlier r later, rs = earlier ++ r :: later →
          let before := Paced.after s earlier
          let p := before.poll r
          (∀ t ∈ p.added, t.timestamp = bucketMillis r.wall period) ∧
          (∀ failure, p.outcome = .error failure →
            (∀ n, before.sequence ≤ n → n < p.source.sequence →
              ∃ item, generate (bucketMillis r.wall period) n = .ok item) ∧
            generate (bucketMillis r.wall period) p.source.sequence = .error failure ∧
            ∀ between next rest, later = between ++ next :: rest →
              (∀ r' ∈ between, r'.monotonic < due p.source) → due p.source ≤ next.monotonic →
              ((Paced.after p.source between).poll next).BeginsWith (bucketMillis next.wall period)
                (generate (bucketMillis next.wall period) p.source.sequence)) ∧
          ∀ n, before.schedule = some n →
            ∃ m, (Paced.after s rs).schedule = some m ∧ n ≤ m) ∧
        ∀ stop, Steady rs → EndsAt rs stop → Paced.EndsUncapped s rs →
          ((Paced.added s rs).length : Int) = (stop - start) / period + 1 ∧
          ∀ {β : Type} (reliable : Generator Empty β) (s' : ItemStream Empty β) (rs' : List Reading),
            ofRate rate reliable = .ok s' → Steady rs' → StartsAt rs' start → EndsAt rs' stop →
            Paced.EndsUncapped s' rs' →
            (Paced.added s rs).length = (Paced.added s' rs').length := by
  have hperiod := period_pos hrate
  refine ⟨_, ofRate_eq_ok hrate generate, ?_⟩
  intro rs start hstart period due
  have htrack : OnTrack generate period start _ _ := onTrack_after hstart
  refine ⟨?_, htrack.sequence_eq, htrack.numbered, ?_, ?_⟩
  · simp only [due]
    rw [htrack.sequence_eq]
    exact htrack.schedule_eq
  · intro earlier r later hrs before p
    rw [hrs] at hstart
    obtain ⟨s, hs, hpoll, hsequence⟩ := exists_onTrack generate period hstart
    have hp : p = s.poll r := hpoll
    have hbefore : before.sequence = s.sequence := hsequence
    have hafter := hs.poll r
    refine ⟨?_, ?_, ?_⟩
    · intro t ht
      rw [hp] at ht
      rw [s.poll_timestamp r t ht, hs.period_eq]
    · intro failure hfailed
      rw [hp] at hfailed
      obtain ⟨-, hmade⟩ := hs.poll_failed hfailed
      simp only [due, hp, hbefore]
      rw [hafter.sequence_eq, hs.sequence_eq]
      refine ⟨?_, hmade, ?_⟩
      · intro n hlow hhigh
        obtain ⟨n, rfl⟩ := Int.eq_ofNat_of_zero_le (by omega : 0 ≤ n)
        exact hs.poll_made (by omega) (by omega)
      · intro between next rest hlater hidle hdue
        exact hafter.begins_after_idle hidle hdue
    · intro n hn
      rw [hrs]
      exact schedule_le generate hperiod hstart hn
  · intro stop hsteady hstop huncapped
    have htotal := caughtUp_length hperiod hsteady hstart hstop huncapped
    constructor
    · rw [htotal]
      exact dueCount_of_le hperiod (hsteady.start_le_stop hstart hstop)
    · intro β reliable s' rs' hs' hsteady' hstart' hstop' huncapped'
      rw [ofRate_eq_ok hrate reliable] at hs'
      cases hs'
      rw [htotal, caughtUp_length hperiod hsteady' hstart' hstop' huncapped']

/-- Numbers, except that item 1 cannot be made in the first five milliseconds. -/
def lateItem : Generator String Int := fun timestamp n =>
  if n = 1 ∧ timestamp < 5 then .error "too early" else .ok n

/-- The second poll fails with item 1, the third comes too early because the clock has gone back,
and the fourth begins with item 1. A steady run over the same failure hands over all three items
that are due. -/
theorem failures_keep_numbers_of_lateItem :
    (1 ≤ (1000 : Int) ∧ 1000 ≤ maxItemsPerSecond) ∧
      ∃ s, ofRate 1000 lateItem = .ok s ∧
        ((Paced.after s [⟨0, 0⟩, ⟨2500000, 3000000⟩, ⟨100000, 4000000⟩]).poll
          ⟨2500000, 9000000⟩).BeginsWith 9 (.ok 1) ∧
        (Paced.added s [⟨0, 0⟩, ⟨2500000, 3000000⟩, ⟨2500000, 9000000⟩]).length = 3 := by
  have hrate : 1 ≤ (1000 : Int) ∧ 1000 ≤ maxItemsPerSecond := by decide
  obtain ⟨s, hs, hlaw⟩ := failures_keep_numbers lateItem hrate
  refine ⟨hrate, s, hs, ?_, ?_⟩
  · obtain rfl : ofPeriod 1000000 lateItem = s := Except.ok.inj hs
    obtain ⟨-, -, -, hpolls, -⟩ := hlaw
      [⟨0, 0⟩, ⟨2500000, 3000000⟩, ⟨100000, 4000000⟩, ⟨2500000, 9000000⟩] 0 (by decide)
    obtain ⟨-, hfailed, -⟩ := hpolls [⟨0, 0⟩] ⟨2500000, 3000000⟩
      [⟨100000, 4000000⟩, ⟨2500000, 9000000⟩] rfl
    obtain ⟨-, -, hretried⟩ := hfailed "too early" rfl
    exact hretried [⟨100000, 4000000⟩] ⟨2500000, 9000000⟩ [] rfl (by decide) (by decide)
  · obtain rfl : ofPeriod 1000000 lateItem = s := Except.ok.inj hs
    obtain ⟨-, -, -, -, hend⟩ := hlaw
      [⟨0, 0⟩, ⟨2500000, 3000000⟩, ⟨2500000, 9000000⟩] 0 (by decide)
    obtain ⟨htotal, -⟩ := hend 2500000 (by decide) (by decide) ⟨_, rfl, .ready 2, rfl, by decide⟩
    exact Int.ofNat.inj htotal

end ItemStream

end Pacing
