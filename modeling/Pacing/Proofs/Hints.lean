import Pacing.Proofs.Stream.Failures
import Pacing.Proofs.Long.Track

/-!
# Hints

A pending poll names the time for which nothing more will be due. A driver may rely on it: as long
as that time is not over the source hands over nothing, however often it is polled, and when it is
over an item is due. Only where the time until then does not fit in a word is the hint shorter.

* `Paced.Awaits` says what a source does that waits for an instant, and `Awaits.exactHint` what its
  hints are worth.
* `ItemStream.OnTrack.awaits` and `LongStream.awaits` are the two kinds of sources.
* `pending_hint_exact` is the statement about both.
-/

namespace Pacing

variable {σ ε α : Type}

/-- The source waits for an instant. A poll before it leaves everything as it is and tells the time
until then; a poll from then on begins with the item that is due, whose event time and whose making
may depend on the reading. -/
structure Paced.Awaits [Paced σ ε α] (s : σ) (due : Int) (stamp : Reading → Int)
    (made : Reading → Except ε α) : Prop where
  early : ∀ r, r.monotonic < due →
    Paced.poll s r = ⟨s, [], .ok (.pendingUntil r.monotonic due), []⟩
  onward : ∀ r, due ≤ r.monotonic → (Paced.poll s r).BeginsWith (stamp r) (made r)

/-- A reading within the time that is named by a hint given at `r`. -/
def Hinted (r : Reading) (yieldFor : Duration) (q : Reading) : Prop :=
  r.monotonic ≤ q.monotonic ∧ q.monotonic < r.monotonic + yieldFor.nanos

/-- What the hint of a pending poll at `r` is worth. The source waits for the instant `due`, and the
item it waits for has the event time and is made as given. -/
structure ExactHint [Paced σ ε α] (s : σ) (due : Int) (stamp : Reading → Int)
    (made : Reading → Except ε α) (r : Reading) (yieldFor : Duration) : Prop where
  positive : 0 < yieldFor.nanos
  added_eq : (Paced.poll s r).added = []
  source_eq : (Paced.poll s r).source = s
  /-- Until its end every poll finds nothing due and leaves the source as it is. If the time until
  `due` fits in a word, each of them names what is left of the hint. -/
  idle : ∀ between q, (∀ q' ∈ between, Hinted r yieldFor q') → Hinted r yieldFor q →
    let p := Paced.poll (Paced.after s (r :: between)) q
    p.source = s ∧ p.added = [] ∧ ∃ left : Duration, p.outcome = .ok (.pending left) ∧
      (Word.InRange (due - r.monotonic) →
        (left.nanos : Int) = yieldFor.nanos - (q.monotonic - r.monotonic))
  /-- At its end, if the time until `due` fits in a word, an item is due. -/
  atEnd : Word.InRange (due - r.monotonic) → ∀ between q, (∀ q' ∈ between, Hinted r yieldFor q') →
    q.monotonic = r.monotonic + yieldFor.nanos →
    (Paced.poll (Paced.after s (r :: between)) q).BeginsWith (stamp q) (made q)

/-! ### The time until an instant -/

/-- The time until a later instant, in nanoseconds, as a hint names it. -/
def nanosUntil (now due : Int) : Nat := (Word.satSub due now).toNat

section NanosUntil

variable {now due : Int}

theorem nanosUntil_pos (h : now < due) : 0 < nanosUntil now due := by
  have hclamp : 1 ≤ Word.satSub due now := Word.le_clamp (by omega) (by decide)
  unfold nanosUntil
  omega

/-- A hint names no more than the time until the instant. -/
theorem add_nanosUntil_le (h : now < due) : now + nanosUntil now due ≤ due := by
  have hlow : Word.lowest ≤ due - now := Int.le_trans (by decide) (show 0 ≤ due - now by omega)
  have hclamp : Word.satSub due now ≤ due - now := Word.clamp_le (Int.le_refl _) hlow
  unfold nanosUntil
  omega

/-- A hint names all of it if it fits in a word. -/
theorem nanosUntil_eq (h : now < due) (hfits : Word.InRange (due - now)) :
    (nanosUntil now due : Int) = due - now := by
  have hclamp : Word.satSub due now = due - now := Word.clamp_of_inRange hfits
  unfold nanosUntil
  omega

end NanosUntil

/-! ### A source that waits -/

/-- A poll that begins with an item, or fails with it, is not pending. -/
theorem Polled.BeginsWith.not_pending [Paced σ ε α] [LawfulPaced σ] {s : σ} {r : Reading}
    {stamp : Int} {made : Except ε α} (h : (Paced.poll s r).BeginsWith stamp made)
    (yieldFor : Duration) : (Paced.poll s r).outcome ≠ .ok (.pending yieldFor) := by
  intro hpending
  unfold Polled.BeginsWith at h
  cases made with
  | ok item =>
    have hnone : (Paced.poll s r).added.length = 0 := (LawfulPaced.emitted_eq s r _ hpending).symm
    rw [List.eq_nil_of_length_eq_zero hnone] at h
    cases h
  | error failure =>
    rw [h.2] at hpending
    cases hpending

namespace Paced.Awaits

variable [Paced σ ε α] {s : σ} {due : Int} {stamp : Reading → Int} {made : Reading → Except ε α}

/-- Polls before the instant change nothing. -/
theorem after_eq (h : Awaits s due stamp made) {rs : List Reading}
    (hrs : ∀ r ∈ rs, r.monotonic < due) : Paced.after s rs = s := by
  induction rs with
  | nil => rfl
  | cons r rs ih =>
    rw [after_cons, h.early r (hrs r (by simp))]
    exact ih fun q hq => hrs q (by simp [hq])

/-- A pending poll comes before the instant. -/
theorem lt_due [LawfulPaced σ] (h : Awaits s due stamp made) {r : Reading} {yieldFor : Duration}
    (hpending : (Paced.poll s r).outcome = .ok (.pending yieldFor)) : r.monotonic < due := by
  apply Int.not_le.mp
  intro hdue
  exact (h.onward r hdue).not_pending yieldFor hpending

theorem yieldFor_eq [LawfulPaced σ] (h : Awaits s due stamp made) {r : Reading}
    {yieldFor : Duration} (hpending : (Paced.poll s r).outcome = .ok (.pending yieldFor)) :
    yieldFor = ⟨nanosUntil r.monotonic due⟩ := by
  rw [h.early r (h.lt_due hpending)] at hpending
  cases hpending
  rfl

/-- **Hint.** The hint of a source that waits for an instant is exact. -/
theorem exactHint [LawfulPaced σ] (h : Awaits s due stamp made) {r : Reading}
    {yieldFor : Duration} (hpending : (Paced.poll s r).outcome = .ok (.pending yieldFor)) :
    ExactHint s due stamp made r yieldFor := by
  have hlt := h.lt_due hpending
  have hyield := h.yieldFor_eq hpending
  subst hyield
  have hend := add_nanosUntil_le hlt
  -- Until its end, and so before the instant, no poll has changed anything.
  have hwaits : ∀ between : List Reading,
      (∀ q ∈ between, Hinted r ⟨nanosUntil r.monotonic due⟩ q) →
      Paced.after s (r :: between) = s := by
    intro between hbetween
    apply h.after_eq
    intro q hq
    rcases List.mem_cons.mp hq with rfl | hq
    · exact hlt
    · exact Int.lt_of_lt_of_le (hbetween q hq).2 hend
  refine ⟨nanosUntil_pos hlt, ?_, ?_, ?_, ?_⟩
  · rw [h.early r hlt]
  · rw [h.early r hlt]
  · intro between q hbetween hq
    have hqdue : q.monotonic < due := Int.lt_of_lt_of_le hq.2 hend
    rw [hwaits between hbetween, h.early q hqdue]
    refine ⟨rfl, rfl, ⟨nanosUntil q.monotonic due⟩, rfl, ?_⟩
    intro hfits
    have hqfits : Word.InRange (due - q.monotonic) := by
      have := hq.1
      refine ⟨Int.le_trans (show Word.lowest ≤ 0 by decide) (by omega), ?_⟩
      exact Int.le_trans (by omega) hfits.2
    rw [nanosUntil_eq hqdue hqfits, nanosUntil_eq hlt hfits]
    omega
  · intro hfits between q hbetween hq
    rw [hwaits between hbetween]
    apply h.onward
    rw [hq, nanosUntil_eq hlt hfits]
    omega

end Paced.Awaits

/-! ### Streams -/

namespace ItemStream

theorem emitDue_of_lt (generate : Generator ε α) (period stamp : Int) {now due : Int}
    (h : now < due) (room : Nat) (sequence : Int) :
    emitDue generate period stamp now room sequence due = ⟨[], sequence, due, none⟩ := by
  cases room with
  | zero => rfl
  | succ room => rw [emitDue, if_neg (Int.not_le.mpr h)]

/-- A poll before the schedule leaves everything as it is. -/
theorem poll_of_lt {s : ItemStream ε α} {r : Reading} {due : Int} (hs : s.schedule = some due)
    (h : r.monotonic < due) : s.poll r = ⟨s, [], .ok (.pendingUntil r.monotonic due), []⟩ := by
  obtain ⟨generate, period, schedule, sequence⟩ := s
  cases hs
  have hloop : emitDue generate period (bucketMillis r.wall period) r.monotonic maxBatchSize sequence
      due = ⟨[], sequence, due, none⟩ := emitDue_of_lt _ _ _ h _ _
  simp only [poll, Option.getD_some, hloop]
  rfl

section Track

variable {generate : Generator ε α} {period start : Int} {s : ItemStream ε α}
  {items : List (Timestamped α)}

/-- A stream on its track waits for the next slot. -/
theorem OnTrack.awaits (h : OnTrack generate period start s items) :
    Paced.Awaits s (start + items.length * period) (fun q => bucketMillis q.wall period)
      (fun q => generate (bucketMillis q.wall period) items.length) where
  early _ hr := poll_of_lt h.schedule_eq hr
  onward _ hr := h.poll_begins hr

end Track

section Run

variable {generate : Generator ε α} {period start : Int} {rs : List Reading} {r : Reading}

/-- The first poll of a new stream is not pending. -/
theorem first_poll_not_pending (yieldFor : Duration) :
    ((ofPeriod period generate).poll r).outcome ≠ .ok (.pending yieldFor) := by
  have htrack := onTrack_anchored generate period r.monotonic
  have hdue : r.monotonic + ([] : List (Timestamped α)).length * period ≤ r.monotonic := by simp
  rw [poll_ofPeriod]
  exact (htrack.poll_begins hdue).not_pending yieldFor

variable (generate) in
/-- In a steady run the next item is due at most a period after the last reading. -/
theorem next_slot_le (hperiod : 0 < period) (hstart : StartsAt rs start)
    (hsteady : Steady (rs ++ [r])) :
    start + (Paced.added (ofPeriod period generate) rs).length * period ≤ r.monotonic + period := by
  cases hlength : (Paced.added (ofPeriod period generate) rs).length with
  | zero =>
    have hle := hsteady.start_le_stop (hstart.append [r]) (endsAt_snoc.mpr rfl)
    rw [Int.natCast_zero, Int.zero_mul]
    omega
  | succ last =>
    -- The slot of the last item that was handed over has come.
    have hlast : start + last * period ≤ r.monotonic :=
      slots_by hstart hsteady.le_last (i := last) (by rw [hlength]; exact Nat.lt_succ_self last)
    rw [Int.natCast_add, Int.add_mul, Int.natCast_one, Int.one_mul]
    omega

/-- So the time until then is a period at most, and a hint names all of it. -/
theorem hint_le_period (hperiod : 0 < period) (hsecond : period ≤ nanosPerSecond)
    (hstart : StartsAt rs start) (hsteady : Steady (rs ++ [r])) {yieldFor : Duration}
    (hpending : ((Paced.after (ofPeriod period generate) rs).poll r).outcome =
      .ok (.pending yieldFor)) :
    (yieldFor.nanos : Int) ≤ period ∧ Word.InRange
      (start + (Paced.added (ofPeriod period generate) rs).length * period - r.monotonic) := by
  have htrack : OnTrack generate period start _ _ := onTrack_after hstart
  have hlt := htrack.awaits.lt_due hpending
  have hle := next_slot_le generate hperiod hstart hsteady
  have hfits : Word.InRange
      (start + (Paced.added (ofPeriod period generate) rs).length * period - r.monotonic) := by
    constructor
    · exact Int.le_trans (show Word.lowest ≤ 0 by decide) (by omega)
    · exact Int.le_trans (by omega) (show (nanosPerSecond : Int) ≤ Word.highest by decide)
  refine ⟨?_, hfits⟩
  rw [htrack.awaits.yieldFor_eq hpending, nanosUntil_eq hlt hfits]
  omega

end Run

end ItemStream

/-! ### Instances of a replicated source -/

namespace LongStream

variable {π : Type}

theorem emitDue_of_lt (s : LongStream π) {now next : Int} (h : now < s.dueAt next) (room : Nat) :
    s.emitDue now room next = ⟨[], next⟩ := by
  cases room with
  | zero => rfl
  | succ room => rw [emitDue, if_neg (Int.not_le.mpr h)]

/-- A poll before the next value is due leaves everything as it is. -/
theorem poll_of_lt {s : LongStream π} {r : Reading} (h : r.monotonic < s.dueAt s.next) :
    s.poll r = ⟨s, [], .ok (.pendingUntil r.monotonic (s.dueAt s.next)), []⟩ := by
  unfold poll
  rw [emitDue_of_lt s h]
  rfl

/-- A poll at which the next value is due begins with it. -/
theorem poll_begins {s : LongStream π} {r : Reading} (h : s.dueAt s.next ≤ r.monotonic) :
    (s.poll r).BeginsWith (s.stamp s.next) (.ok s.next) := by
  have hadded := (s.poll_progression r).1
  cases hlength : (s.poll r).added.length with
  | zero =>
    -- Without items there would be room left, and the next value not due.
    have hroom : (s.poll r).added.length < maxBatchSize := hlength ▸ Nat.zero_lt_succ _
    have hnext := poll_uncapped (poll_uncapped_iff.mpr hroom)
    rw [hlength] at hnext
    simp only [Int.natCast_zero, Int.zero_mul, Int.add_zero] at hnext
    omega
  | succ more =>
    rw [hlength, progression_succ] at hadded
    exact congrArg List.head? hadded

/-- An instance waits for its next value, whatever state it is in. -/
theorem awaits (s : LongStream π) :
    Paced.Awaits s (s.dueAt s.next) (fun _ => s.stamp s.next) (fun _ => .ok s.next) where
  early _ hr := poll_of_lt hr
  onward _ hr := poll_begins hr

end LongStream

/-- **Hints.** The hint of every pending poll is exact, whatever was polled before:

* a stream of any accepted rate, whatever its generator does, waits for its schedule. On a monotonic
  clock that does not go back its hint is at most a period, and the time until then fits in a word;
* an instance of a replicated source, of any configuration and saturated or not, waits for the
  instant at which its next value is due. -/
theorem pending_hint_exact (generate : Generator ε α) {rate : Int}
    (hrate : 1 ≤ rate ∧ rate ≤ maxItemsPerSecond) :
    (∃ s, ItemStream.ofRate rate generate = .ok s ∧
      ∀ (rs : List Reading) (r : Reading) (yieldFor : Duration),
        let period : Int := nanosPerSecond / rate
        let stamp (q : Reading) : Int := bucketMillis q.wall period
        let now := Paced.after s rs
        (now.poll r).outcome = .ok (.pending yieldFor) →
        ∃ due, now.schedule = some due ∧
          ExactHint now due stamp (fun q => generate (stamp q) now.sequence) r yieldFor ∧
          (Steady (rs ++ [r]) →
            (yieldFor.nanos : Int) ≤ period ∧ Word.InRange (due - r.monotonic))) ∧
      ∀ {π : Type} (s : LongStream π) (r : Reading) (yieldFor : Duration),
        (s.poll r).outcome = .ok (.pending yieldFor) →
        ExactHint s (s.dueAt s.next) (fun _ => s.stamp s.next) (fun _ => .ok s.next) r yieldFor := by
  have hperiod := period_pos hrate
  constructor
  · refine ⟨_, ItemStream.ofRate_eq_ok hrate generate, ?_⟩
    intro rs r yieldFor period stamp now hpending
    cases rs with
    | nil => exact absurd hpending (ItemStream.first_poll_not_pending yieldFor)
    | cons first rest =>
      have hstart : StartsAt (first :: rest) first.monotonic := startsAt_cons.mpr rfl
      have htrack : ItemStream.OnTrack generate period first.monotonic now _ :=
        ItemStream.onTrack_after hstart
      refine ⟨_, htrack.schedule_eq, ?_, ?_⟩
      · rw [htrack.sequence_eq]
        exact htrack.awaits.exactHint hpending
      · intro hsteady
        exact ItemStream.hint_le_period hperiod (period_le_second rate) hstart hsteady hpending
  · intro π s r yieldFor hpending
    exact s.awaits.exactHint hpending

/-- Four items a second, polled at once and after a tenth of a second: the hint is the rest of the
quarter, and at its end, not a nanosecond before, a poll begins with item 1. An instance that starts
at the last instant is polled before the origin of its clock, with a hint that is cut off at the end
of the range, and has nothing to hand over within it. -/
theorem pending_hint_exact_of_quarter_second :
    (1 ≤ (4 : Int) ∧ 4 ≤ maxItemsPerSecond) ∧
      (∃ s : ItemStream Empty SimpleEvent, ItemStream.ofRate 4 .slots = .ok s ∧
        ((Paced.after s [⟨0, 0⟩]).poll ⟨100000000, 0⟩).outcome = .ok (.pending ⟨150000000⟩) ∧
        (Paced.poll (Paced.after (Paced.after s [⟨0, 0⟩]) [⟨100000000, 0⟩, ⟨249999999, 5⟩])
          ⟨250000000, 300000000⟩).BeginsWith 250 (.ok ⟨250, 1⟩)) ∧
      (Paced.poll (Paced.after (LongStream.create ⟨Word.highest, 1, (), 0, 1⟩ ⟨0, 0⟩)
        [⟨-5, 0⟩, ⟨3, 0⟩]) ⟨7, 0⟩).added = [] := by
  have hrate : 1 ≤ (4 : Int) ∧ 4 ≤ maxItemsPerSecond := by decide
  obtain ⟨⟨s, hs, hstream⟩, hinstance⟩ :=
    pending_hint_exact (.slots : Generator Empty SimpleEvent) hrate
  obtain rfl : ItemStream.ofPeriod 250000000 .slots = s := Except.ok.inj hs
  refine ⟨hrate, ⟨_, hs, rfl, ?_⟩, ?_⟩
  · obtain ⟨due, -, hexact, hpaced⟩ := hstream [⟨0, 0⟩] ⟨100000000, 0⟩ ⟨150000000⟩ rfl
    obtain ⟨-, hfits⟩ := hpaced (by decide)
    refine hexact.atEnd hfits [⟨249999999, 5⟩] _ ?_ rfl
    intro q hq
    rw [List.mem_singleton.mp hq]
    constructor <;> decide
  · have hexact := hinstance (LongStream.create ⟨Word.highest, 1, (), 0, 1⟩ ⟨0, 0⟩) ⟨-5, 0⟩ _ rfl
    obtain ⟨-, hnone, -⟩ := hexact.idle [⟨3, 0⟩] ⟨7, 0⟩
      (by
        intro q hq
        rw [List.mem_singleton.mp hq]
        constructor <;> decide)
      (by constructor <;> decide)
    exact hnone

end Pacing
