import Pacing.Proofs.Stream.Track
import Pacing.Proofs.Session
import Pacing.Proofs.Buckets
import Pacing.Proofs.Long.Cluster

/-!
# Plain arithmetic in words

What a poll computes without clamping is exact on integers. In words such a result may leave the
range, and then a machine either faults or goes on with what is left of it. Here the polls of both
kinds of sources are followed with every plain operation done by such a machine. On sane clocks no
result leaves the range, so that faults do not come and wrapping changes nothing.

* `ItemStream.pollIn`, `LongStream.createIn` and `LongStream.pollIn` do their plain arithmetic
  through a `Word.Arithmetic`; `pollIn_exact` says that on integers they are the polls.
* `ItemStream.pollIn_eq` and `LongStream.pollIn_eq` are one poll within the range, and `pollsIn_eq`
  a run of them.
* `sane_clocks_never_overflow` is the statement about runs of new sources.
-/

namespace Pacing

/-! ### Machines -/

/-- The exact result of an operation that is no signed word. -/
structure Overflow where
  exact : Int
  deriving DecidableEq, Repr

namespace Word

/-- What a machine makes of the exact result of a plain operation. -/
abbrev Arithmetic := Int → Except Overflow Int

/-- Integers: every result stays as it is. -/
def exact : Arithmetic := .ok

/-- Words that fault where a result leaves the range. -/
def checked : Arithmetic := fun n => if InRange n then .ok n else .error ⟨n⟩

/-- Words that wrap around where a result leaves the range. -/
def wrapping : Arithmetic := fun n => .ok (wrap n)

/-- Results within the range stay as they are. -/
def Faithful (word : Arithmetic) : Prop := ∀ n, InRange n → word n = .ok n

theorem checked_faithful : Faithful checked := fun _ h => if_pos h

theorem wrapping_faithful : Faithful wrapping := fun _ h => congrArg Except.ok (wrap_of_inRange h)

end Word

/-- A computation gives the same in words as on integers: no plain result leaves the range, and
nothing changes where results wrap around. -/
structure ExactInWords (compute : Word.Arithmetic → Except Overflow β) (result : β) : Prop where
  checked : compute Word.checked = .ok result
  wrapping : compute Word.wrapping = .ok result

theorem ExactInWords.of_faithful {compute : Word.Arithmetic → Except Overflow β} {result : β}
    (h : ∀ word, Word.Faithful word → compute word = .ok result) : ExactInWords compute result :=
  ⟨h _ Word.checked_faithful, h _ Word.wrapping_faithful⟩

/-! ### Sane clocks -/

/-- Both clocks leave a second to the ends of the range that streams come near to, and the monotonic
one has not been before its origin. -/
structure Reading.LeavesSecond (r : Reading) : Prop where
  monotonic : 0 ≤ r.monotonic ∧ r.monotonic ≤ Word.highest - nanosPerSecond
  wall : Word.lowest + nanosPerSecond ≤ r.wall ∧ r.wall ≤ Word.highest

/-- The middle of the range from zero on, `2 ^ 62`. -/
def Word.middle : Int := 4611686018427387904

/-- Half of that, as a number of instances. -/
def instanceLimit : Nat := 2305843009213693952

/-- Neither clock is before its origin, and the monotonic one is in the first half of the range from
there. -/
structure Reading.InFirstHalf (r : Reading) : Prop where
  monotonic : 0 ≤ r.monotonic ∧ r.monotonic ≤ Word.middle
  wall : 0 ≤ r.wall ∧ r.wall ≤ Word.highest

/-! ### Polls in words -/

section Definitions

variable (word : Word.Arithmetic)

/-- The bucket of a reading, computed in words. -/
def bucketMillisIn (wallNanos periodNanos : Int) : Except Overflow Int := do
  return (← word (wallNanos - wallNanos % periodNanos)) / nanosPerMilli

/-- The emission loop of a stream, computed in words. -/
def emitDueIn (generate : Generator ε α) (period stamp now : Int) :
    (room : Nat) → (sequence due : Int) → Except Overflow (Emission ε α)
  | 0, sequence, due => .ok ⟨[], sequence, due, none⟩
  | room + 1, sequence, due =>
    if due ≤ now then
      match generate stamp sequence with
      | .error e => .ok ⟨[], sequence, due, some e⟩
      | .ok item => do
        let sequence ← word (sequence + 1)
        let due ← word (due + period)
        let later ← emitDueIn generate period stamp now room sequence due
        return { later with items := ⟨item, stamp⟩ :: later.items }
    else .ok ⟨[], sequence, due, none⟩

/-- What a poll logs after its emission loop, computed in words. -/
def capLogIn (now : Int) (e : Emission ε α) : Except Overflow (List LogEvent) :=
  if e.items.length = maxBatchSize ∧ e.due ≤ now then do
    return [.batchCapReached (← word (now - e.due))]
  else .ok []

/-- A poll of a stream, computed in words. -/
def ItemStream.pollIn (s : ItemStream ε α) (r : Reading) :
    Except Overflow (Polled (ItemStream ε α) ε α) := do
  let now := r.monotonic
  let stamp ← bucketMillisIn word r.wall s.period
  let e ← emitDueIn word s.generate s.period stamp now maxBatchSize s.sequence (s.schedule.getD now)
  let log ← capLogIn word now e
  return {
    source := { s with schedule := some e.due, sequence := e.sequence }
    added := e.items
    outcome :=
      match e.failure with
      | some failure => .error failure
      | none =>
        if e.items.length = 0 then .ok (.pendingUntil now e.due)
        else .ok (.ready e.items.length)
    log := log }

namespace LongStream

/-- A new instance, computed in words. -/
def createIn (config : InstanceConfig π) (r : Reading) : Except Overflow (LongStream π) := do
  let offset ← word (r.wall - r.monotonic)
  return {
    policy := config.policy
    start := Word.satSub (Word.satMul config.startMillis nanosPerMilli) offset
    offset := offset
    period := nanosPerSecond / max config.itemsPerSecond 1
    next := Word.ofCount config.index
    stride := Word.ofCount (max config.total 1) }

/-- The emission loop of an instance, computed in words. -/
def emitDueIn (s : LongStream π) (now : Int) :
    (room : Nat) → (next : Int) → Except Overflow LongEmission
  | 0, next => .ok ⟨[], next⟩
  | room + 1, next =>
    if s.dueAt next ≤ now then do
      let later ← s.emitDueIn now room (← word (next + s.stride))
      return { later with items := ⟨next, s.stamp next⟩ :: later.items }
    else .ok ⟨[], next⟩

/-- A poll of an instance, computed in words. -/
def pollIn (s : LongStream π) (r : Reading) :
    Except Overflow (Polled (LongStream π) Empty Int) := do
  let e ← s.emitDueIn word r.monotonic maxBatchSize s.next
  return {
    source := { s with next := e.next }
    added := e.items
    outcome :=
      if e.items.length = 0 then .ok (.pendingUntil r.monotonic (s.dueAt e.next))
      else .ok (.ready e.items.length)
    log := [] }

end LongStream

end Definitions

/-- What each of a list of polls does that may overflow. -/
def pollsIn (poll : σ → Reading → Except Overflow (Polled σ ε α)) :
    σ → List Reading → Except Overflow (List (Polled σ ε α))
  | _, [] => .ok []
  | s, r :: rs => do
    let p ← poll s r
    return p :: (← pollsIn poll p.source rs)

/-- **Run.** A list of polls is exact if each of them is. -/
theorem pollsIn_eq [Paced σ ε α] {poll : σ → Reading → Except Overflow (Polled σ ε α)} {s : σ}
    {rs : List Reading}
    (h : ∀ earlier r later, rs = earlier ++ r :: later →
      poll (Paced.after s earlier) r = .ok (Paced.poll (Paced.after s earlier) r)) :
    pollsIn poll s rs = .ok (Paced.polls s rs) := by
  induction rs generalizing s with
  | nil => rfl
  | cons r rs ih =>
    have hfirst : poll s r = .ok (Paced.poll s r) := h [] r rs rfl
    have hlater : pollsIn poll (Paced.poll s r).source rs =
        .ok (Paced.polls (Paced.poll s r).source rs) := by
      apply ih
      rintro earlier r' later rfl
      exact h (r :: earlier) r' later rfl
    rw [pollsIn, hfirst]
    simp only [bind, Except.bind, hlater]
    rfl

/-! ### Streams -/

section Stream

variable {word : Word.Arithmetic}

/-- **Loop.** The emission loop is exact where a machine keeps its results. Whatever says so of a
number and its due time has to go on from one item to the next. -/
theorem emitDueIn_eq {period now : Int} {P : Int → Int → Prop}
    (hkeeps : ∀ sequence due, P sequence due → due ≤ now →
      word (sequence + 1) = .ok (sequence + 1) ∧ word (due + period) = .ok (due + period) ∧
        P (sequence + 1) (due + period))
    (generate : Generator ε α) (stamp : Int) (room : Nat) {sequence due : Int}
    (h : P sequence due) :
    emitDueIn word generate period stamp now room sequence due =
      .ok (emitDue generate period stamp now room sequence due) := by
  induction room generalizing sequence due with
  | zero => rfl
  | succ room ih =>
    unfold emitDueIn emitDue
    split
    case isFalse => rfl
    case isTrue hdue =>
      obtain ⟨hsequence, hschedule, hnext⟩ := hkeeps sequence due h hdue
      cases generate stamp sequence with
      | error e => rfl
      | ok item =>
        simp only [hsequence, hschedule, bind, Except.bind, ih hnext]
        rfl

namespace ItemStream

variable {s : ItemStream ε α} {r : Reading}

/-- **Poll.** A poll is exact where a machine keeps its results. -/
theorem pollIn_eq (hbucket : word (r.wall - r.wall % s.period) = .ok (r.wall - r.wall % s.period))
    (hloop : emitDueIn word s.generate s.period (bucketMillis r.wall s.period) r.monotonic
      maxBatchSize s.sequence (s.schedule.getD r.monotonic) = .ok (s.emission r))
    (hbehind : (s.emission r).due ≤ r.monotonic →
      word (r.monotonic - (s.emission r).due) = .ok (r.monotonic - (s.emission r).due)) :
    pollIn word s r = .ok (s.poll r) := by
  have hstamp : bucketMillisIn word r.wall s.period = .ok (bucketMillis r.wall s.period) := by
    rw [bucketMillisIn, hbucket]
    rfl
  have hlog : capLogIn word r.monotonic (s.emission r) = .ok (s.poll r).log := by
    have hlog : (s.poll r).log =
        if (s.emission r).items.length = maxBatchSize ∧ (s.emission r).due ≤ r.monotonic then
          [.batchCapReached (r.monotonic - (s.emission r).due)]
        else [] := rfl
    rw [hlog, capLogIn]
    split
    case isTrue hcap =>
      rw [hbehind hcap.2]
      rfl
    case isFalse => rfl
  simp only [pollIn, hstamp, hloop, hlog, bind, Except.bind]
  rfl

/-- On integers nothing has a range to leave. -/
theorem pollIn_exact (s : ItemStream ε α) (r : Reading) : pollIn Word.exact s r = .ok (s.poll r) :=
  pollIn_eq rfl
    (emitDueIn_eq (P := fun _ _ => True) (fun _ _ _ _ => ⟨rfl, rfl, trivial⟩) _ _ _ trivial)
    fun _ => rfl

/-! #### On sane clocks -/

/-- A stream whose number is not ahead of its slot keeps within the range at a reading that leaves a
second, the longest period, to the ends of it. -/
theorem pollIn_eq_of_sane (hword : Word.Faithful word) (hperiod : 0 < s.period)
    (hsecond : s.period ≤ nanosPerSecond) (hr : r.LeavesSecond) (hsequence : 0 ≤ s.sequence)
    (hslot : s.sequence ≤ s.schedule.getD r.monotonic) : pollIn word s r = .ok (s.poll r) := by
  obtain ⟨⟨hstart, hend⟩, hlow, hhigh⟩ := hr
  have hlowest : Word.lowest < 0 := by decide
  apply pollIn_eq
  · exact hword _ (floor_inRange hperiod (by omega) hhigh)
  · -- Due times move on by at least as much as numbers do.
    apply emitDueIn_eq (P := fun sequence due => 0 ≤ sequence ∧ sequence ≤ due)
    · rintro sequence due ⟨hnonneg, hle⟩ hdue
      exact ⟨hword _ ⟨by omega, by omega⟩, hword _ ⟨by omega, by omega⟩, by omega, by omega⟩
    · exact ⟨hsequence, hslot⟩
  · intro hbehind
    have hsteps : 0 ≤ ((s.poll r).added.length : Int) * s.period :=
      Int.mul_nonneg (Int.natCast_nonneg _) (Int.le_of_lt hperiod)
    have hdue : 0 ≤ (s.emission r).due := by
      rw [emission_due_eq, slot]
      omega
    exact hword _ ⟨by omega, by omega⟩

variable {period : Int}

/-- The number of a new stream is never ahead of its slot on a clock that shows no negative
instant. -/
theorem sequence_le_slot (generate : Generator ε α) (hperiod : 0 < period) {earlier : List Reading}
    (hearlier : ∀ q ∈ earlier, 0 ≤ q.monotonic) (hr : 0 ≤ r.monotonic) :
    let s := Paced.after (ofPeriod period generate) earlier
    s.period = period ∧ 0 ≤ s.sequence ∧ s.sequence ≤ s.schedule.getD r.monotonic := by
  intro s
  cases earlier with
  | nil => exact ⟨rfl, Int.le_refl 0, hr⟩
  | cons first rest =>
    have htrack : OnTrack generate period first.monotonic s _ :=
      onTrack_after (startsAt_cons.mpr rfl)
    have hfirst := hearlier first (by simp)
    refine ⟨htrack.period_eq, ?_, ?_⟩
    · rw [htrack.sequence_eq]
      exact Int.natCast_nonneg _
    · rw [htrack.sequence_eq, htrack.schedule_eq, Option.getD_some]
      have hsteps := Int.mul_le_mul_of_nonneg_left (show 1 ≤ period from hperiod)
        (Int.natCast_nonneg (Paced.added (ofPeriod period generate) (first :: rest)).length)
      omega

/-- **Run.** A run of a new stream keeps within the range on clocks that leave a second. -/
theorem pollsIn_eq_of_sane (hword : Word.Faithful word) (hperiod : 0 < period)
    (hsecond : period ≤ nanosPerSecond) (generate : Generator ε α) {rs : List Reading}
    (hrs : ∀ r ∈ rs, r.LeavesSecond) :
    pollsIn (pollIn word) (ofPeriod period generate) rs =
      .ok (Paced.polls (ofPeriod period generate) rs) := by
  apply pollsIn_eq
  rintro earlier r later rfl
  have hr := hrs r (by simp)
  have hearlier : ∀ q ∈ earlier, 0 ≤ q.monotonic := fun q hq => (hrs q (by simp [hq])).monotonic.1
  obtain ⟨hp, hsequence, hslot⟩ := sequence_le_slot generate hperiod hearlier hr.monotonic.1
  exact pollIn_eq_of_sane hword (by omega) (by omega) hr hsequence hslot

end ItemStream

end Stream

/-! ### Instances -/

namespace LongStream

section Instance

variable {word : Word.Arithmetic} {s : LongStream π} {r : Reading}

theorem createIn_eq (config : InstanceConfig π)
    (hoffset : word (r.wall - r.monotonic) = .ok (r.wall - r.monotonic)) :
    createIn word config r = .ok (create config r) := by
  rw [createIn, hoffset]
  rfl

/-- **Loop.** The emission loop is exact where a machine keeps its results. Whatever says so of a
value has to go on from one value to the next. -/
theorem emitDueIn_eq {now : Int} {P : Int → Prop}
    (hkeeps : ∀ value, P value → s.dueAt value ≤ now →
      word (value + s.stride) = .ok (value + s.stride) ∧ P (value + s.stride))
    (room : Nat) {next : Int} (h : P next) :
    emitDueIn word s now room next = .ok (s.emitDue now room next) := by
  induction room generalizing next with
  | zero => rfl
  | succ room ih =>
    unfold emitDueIn emitDue
    split
    case isFalse => rfl
    case isTrue hdue =>
      obtain ⟨hfollowing, hnext⟩ := hkeeps next h hdue
      simp only [hfollowing, bind, Except.bind, ih hnext]
      rfl

/-- **Poll.** A poll is exact where its emission loop is. -/
theorem pollIn_eq (hloop : emitDueIn word s r.monotonic maxBatchSize s.next =
      .ok (s.emitDue r.monotonic maxBatchSize s.next)) :
    pollIn word s r = .ok (s.poll r) := by
  rw [pollIn, hloop]
  rfl

/-- On integers nothing has a range to leave. -/
theorem pollIn_exact (s : LongStream π) (r : Reading) : pollIn Word.exact s r = .ok (s.poll r) :=
  pollIn_eq (emitDueIn_eq (P := fun _ => True) (fun _ _ _ => ⟨rfl, trivial⟩) _ trivial)

/-! #### On sane clocks -/

/-- A value is due no earlier than as many nanoseconds after the origin as it counts, but for the
millisecond by which the start may come before it. Clamping does not change this before the end of
the range is near. -/
theorem value_lt_of_due (hstart : -(nanosPerMilli : Int) < s.start) (hperiod : 0 < s.period)
    {now value : Int} (hnow : 0 ≤ now) (hend : now + nanosPerMilli ≤ Word.highest)
    (hdue : s.dueAt value ≤ now) : value < now + nanosPerMilli := by
  apply Int.not_le.mp
  intro hlate
  have hvalue : 0 ≤ value := Int.le_trans (Int.add_nonneg hnow (Int.natCast_nonneg _)) hlate
  have hperiods : value * 1 ≤ value * s.period := Int.mul_le_mul_of_nonneg_left hperiod hvalue
  have helapsed : now + nanosPerMilli ≤ Word.satMul value s.period := Word.le_clamp (by omega) hend
  have hmilli : (1 : Int) ≤ nanosPerMilli := by decide
  have hnext : now + 1 ≤ s.dueAt value := Word.le_clamp (by omega) (by omega)
  omega

/-- An instance that starts at the origin, but for a millisecond, and does not take too long strides
keeps within the range in the first half of the monotonic clock. -/
theorem pollIn_eq_of_sane (hword : Word.Faithful word) (hstart : -(nanosPerMilli : Int) < s.start)
    (hperiod : 0 < s.period) (hstride : 0 ≤ s.stride) (hlong : s.stride ≤ instanceLimit)
    (hnext : 0 ≤ s.next) (hr : r.InFirstHalf) : pollIn word s r = .ok (s.poll r) := by
  apply pollIn_eq
  apply emitDueIn_eq (P := fun value => 0 ≤ value)
  · intro value hvalue hdue
    obtain ⟨hnonneg, hhalf⟩ := hr.monotonic
    have hspare : Word.middle + nanosPerMilli + instanceLimit ≤ Word.highest := by decide
    have hbefore := value_lt_of_due hstart hperiod hnonneg (by omega) hdue
    have hlowest : Word.lowest ≤ 0 := by decide
    exact ⟨hword _ ⟨by omega, by omega⟩, by omega⟩
  · exact hnext

/-- **Run.** So does a run of polls. -/
theorem pollsIn_eq_of_sane (hword : Word.Faithful word) (hstart : -(nanosPerMilli : Int) < s.start)
    (hperiod : 0 < s.period) (hstride : 0 ≤ s.stride) (hlong : s.stride ≤ instanceLimit)
    (hnext : 0 ≤ s.next) {rs : List Reading} (hrs : ∀ r ∈ rs, r.InFirstHalf) :
    pollsIn (pollIn word) s rs = .ok (Paced.polls s rs) := by
  apply pollsIn_eq
  rintro earlier r later rfl
  rw [(s.run_progression earlier).2]
  have hmoved : 0 ≤ ((Paced.added s earlier).length : Int) * s.stride :=
    Int.mul_nonneg (Int.natCast_nonneg _) hstride
  exact pollIn_eq_of_sane hword hstart hperiod hstride hlong (Int.add_nonneg hnext hmoved)
    (hrs r (by simp))

/-- The start of an instance on a clock in lockstep is less than a millisecond before its member was
made. -/
theorem start_gt_of_lockstep (source : LongSource) (policy : π) {memberAt madeAt : Reading}
    (hmember : memberAt.InFirstHalf) (hlockstep : madeAt.offset = memberAt.offset)
    (index total : Nat) :
    memberAt.monotonic - nanosPerMilli <
      (create ((source.member policy memberAt).configOf index total) madeAt).start := by
  obtain ⟨⟨-, hhalf⟩, hpast, hwall⟩ := hmember
  have hmillis : memberAt.wall - nanosPerMilli < memberAt.wallMillis * nanosPerMilli ∧
      memberAt.wallMillis * nanosPerMilli ≤ memberAt.wall := by
    unfold Reading.wallMillis nanosPerMilli
    omega
  -- Neither the delay nor clamping at the end of the range takes the start back.
  have hdelayed : memberAt.wallMillis ≤ (source.member policy memberAt).startMillis := by
    apply Word.le_clamp
    · exact Int.le_add_of_nonneg_right (Word.ofCount_nonneg _)
    · unfold nanosPerMilli at hmillis
      omega
  have hstart : memberAt.wallMillis * nanosPerMilli ≤
      Word.satMul (source.member policy memberAt).startMillis nanosPerMilli :=
    Word.le_clamp (Int.mul_le_mul_of_nonneg_right hdelayed (by decide)) (by omega)
  have hoffset : madeAt.offset = memberAt.wall - memberAt.monotonic := hlockstep
  have hrange : Word.middle ≤ Word.highest := by decide
  have hshifted : memberAt.wallMillis * nanosPerMilli - madeAt.offset ≤
      (create ((source.member policy memberAt).configOf index total) madeAt).start :=
    Word.le_clamp (Int.sub_le_sub_right hstart _) (by omega)
  omega

/-- **Instances.** An instance of a member, made and polled on a clock in lockstep, keeps within the
range in the first half of the monotonic clock. -/
theorem run_eq_of_lockstep (hword : Word.Faithful word) {source : LongSource}
    (hrate : 1 ≤ source.itemsPerSecond ∧ source.itemsPerSecond ≤ maxItemsPerSecond) (policy : π)
    {memberAt madeAt : Reading} (hmember : memberAt.InFirstHalf) (hmade : madeAt.InFirstHalf)
    (hlockstep : madeAt.offset = memberAt.offset) (index : Nat) {total : Nat}
    (htotal : total ≤ instanceLimit) {rs : List Reading} (hrs : ∀ r ∈ rs, r.InFirstHalf) :
    let config := (source.member policy memberAt).configOf index total
    createIn word config madeAt = .ok (create config madeAt) ∧
      pollsIn (pollIn word) (create config madeAt) rs =
        .ok (Paced.polls (create config madeAt) rs) := by
  intro config
  have hrange : Word.middle ≤ Word.highest := by decide
  constructor
  · obtain ⟨⟨hnonneg, hhalf⟩, hpast, hwall⟩ := hmade
    have hlowest : Word.lowest ≤ -Word.middle := by decide
    exact createIn_eq config (hword _ ⟨by omega, by omega⟩)
  · have hstart : -(nanosPerMilli : Int) < (create config madeAt).start := by
      have hmillis : memberAt.monotonic - nanosPerMilli < (create config madeAt).start :=
        start_gt_of_lockstep source policy hmember hlockstep index total
      have hnonneg := hmember.monotonic.1
      omega
    have hperiod : 0 < (create config madeAt).period := by
      rw [create_period config madeAt hrate.1]
      exact period_pos hrate
    have hlimit : 1 ≤ instanceLimit ∧ (instanceLimit : Int) ≤ Word.highest := by decide
    have hstride : (create config madeAt).stride = (max total 1 : Nat) :=
      create_stride config madeAt (show (total : Int) ≤ Word.highest by omega)
    exact pollsIn_eq_of_sane hword hstart hperiod (by omega) (by omega) (Word.ofCount_nonneg _) hrs

end Instance

end LongStream

/-! ### Runs of new sources -/

/-- An accepted source has a rate in the accepted range. -/
theorem LongSource.rate_of_tryNew {rate : Int} {delay : Duration} {preferred : Option Positive}
    {source : LongSource} (h : tryNew rate delay preferred = .ok source) :
    1 ≤ source.itemsPerSecond ∧ source.itemsPerSecond ≤ maxItemsPerSecond := by
  unfold tryNew at h
  cases hperiod : periodNanos rate with
  | error e =>
    rw [hperiod] at h
    cases h
  | ok period =>
    simp only [hperiod, bind, Except.bind] at h
    split at h
    · cases h
    · cases h
      exact (periodNanos_eq_ok.mp hperiod).1

/-- **Overflow.** Every plain result stays a word, and so wrapping around changes nothing,

* in every run of a new stream of any accepted rate and any generator, whether it fails or not, on
  clocks that leave a second to the ends of the range, whichever way they move;
* when an instance of a member of any accepted source is made, with any index among at most
  `instanceLimit`, which is `2 ^ 61`, and in every run of it, on clocks in lockstep since the member
  was made, the monotonic one in the first half of the range. -/
theorem sane_clocks_never_overflow :
    (∀ {ε α : Type} (rate period : Int) (generate : Generator ε α) (rs : List Reading),
      periodNanos rate = .ok period → (∀ r ∈ rs, r.LeavesSecond) →
        let s := ItemStream.ofPeriod period generate
        ExactInWords (fun word => pollsIn (ItemStream.pollIn word) s rs) (Paced.polls s rs)) ∧
    ∀ {π : Type} (rate : Int) (delay : Duration) (preferred : Option Positive) (source : LongSource)
      (policy : π) (memberAt madeAt : Reading) (index total : Nat) (rs : List Reading),
      LongSource.tryNew rate delay preferred = .ok source → total ≤ instanceLimit →
      (∀ r ∈ memberAt :: madeAt :: rs, r.InFirstHalf ∧ r.offset = memberAt.offset) →
        let member := source.member policy memberAt
        let s := member.get (LongStream.create · madeAt) index total
        ExactInWords (fun word => member.get (LongStream.createIn word · madeAt) index total) s ∧
          ExactInWords (fun word => pollsIn (LongStream.pollIn word) s rs) (Paced.polls s rs) := by
  constructor
  · intro ε α rate period generate rs hperiod hrs s
    apply ExactInWords.of_faithful
    intro word hword
    have hsecond : period ≤ nanosPerSecond := by
      rw [(periodNanos_eq_ok.mp hperiod).2]
      exact period_le_second rate
    exact ItemStream.pollsIn_eq_of_sane hword (periodNanos_pos hperiod) hsecond generate hrs
  · intro π rate delay preferred source policy memberAt madeAt index total rs hsource htotal hclocks
      member s
    obtain ⟨hmade, hlockstep⟩ := hclocks madeAt (by simp)
    have hrs : ∀ r ∈ rs, r.InFirstHalf := fun r hr => (hclocks r (by simp [hr])).1
    have hrun := fun word (hword : Word.Faithful word) => LongStream.run_eq_of_lockstep hword
      (LongSource.rate_of_tryNew hsource) policy (hclocks memberAt (by simp)).1 hmade hlockstep
      index htotal hrs
    exact ⟨.of_faithful fun word hword => (hrun word hword).1,
      .of_faithful fun word hword => (hrun word hword).2⟩

/-- At the last reading that leaves a second, a stream of one item a second moves its schedule to
the very end of the range. The last one of as many instances as there may be hands over two values
in the first half of the range, and the next one is a word too. -/
theorem sane_clocks_never_overflow_at_bounds :
    periodNanos 1 = .ok 1000000000 ∧
      Reading.LeavesSecond ⟨9223372035854775807, -9223372035854775808⟩ ∧
      (pollsIn (ItemStream.pollIn Word.checked)
          (.ofPeriod 1000000000 (.slots : Generator Empty SimpleEvent))
          [⟨9223372035854775807, -9223372035854775808⟩]).map
        (List.map fun p => (p.added.length, p.source.schedule)) = .ok [(1, some Word.highest)] ∧
      LongSource.tryNew 1000000000 ⟨0⟩ none = .ok ⟨1000000000, ⟨0⟩, none⟩ ∧
      Reading.InFirstHalf ⟨0, 0⟩ ∧ Reading.InFirstHalf ⟨Word.middle, Word.middle⟩ ∧
      let member := (⟨1000000000, ⟨0⟩, none⟩ : LongSource).member () ⟨0, 0⟩
      let s := member.get (LongStream.create · ⟨0, 0⟩) (instanceLimit - 1) instanceLimit
      (pollsIn (LongStream.pollIn Word.checked) s [⟨Word.middle, Word.middle⟩]).map
        (List.map fun p => (p.added.length, p.source.next)) = .ok [(2, 6917529027641081855)] := by
  have hperiod : periodNanos 1 = .ok 1000000000 := by rfl
  have hsecond : Reading.LeavesSecond ⟨9223372035854775807, -9223372035854775808⟩ :=
    ⟨by decide, by decide⟩
  have hsource : LongSource.tryNew 1000000000 ⟨0⟩ none = .ok ⟨1000000000, ⟨0⟩, none⟩ := by rfl
  have horigin : Reading.InFirstHalf ⟨0, 0⟩ := ⟨by decide, by decide⟩
  have hhalf : Reading.InFirstHalf ⟨Word.middle, Word.middle⟩ := ⟨by decide, by decide⟩
  obtain ⟨hstreams, hinstances⟩ := sane_clocks_never_overflow
  have hstream := hstreams 1 1000000000 (.slots : Generator Empty SimpleEvent)
    [⟨9223372035854775807, -9223372035854775808⟩] hperiod (by simpa using hsecond)
  have hinstance := hinstances 1000000000 ⟨0⟩ none _ () ⟨0, 0⟩ ⟨0, 0⟩ (instanceLimit - 1)
    instanceLimit [⟨Word.middle, Word.middle⟩] hsource (by decide)
    (by simpa using ⟨horigin, hhalf, rfl⟩)
  refine ⟨hperiod, hsecond, ?_, hsource, horigin, hhalf, ?_⟩
  · rw [hstream.checked]
    rfl
  · exact (congrArg _ hinstance.2.checked).trans (by rfl)

/-- A nanosecond later the schedule of that stream leaves the range. Where it wraps around, the next
slots are long past, and one poll hands over as much as there is room for. -/
example :
    let s : ItemStream Empty SimpleEvent := .ofPeriod 1000000000 .slots
    (s.pollIn Word.checked ⟨9223372035854775808, 0⟩).map (·.added.length) =
        .error ⟨9223372036854775808⟩ ∧
      (s.pollIn Word.wrapping ⟨9223372035854775808, 0⟩).toOption.map (·.added.length) = some 1024 :=
  ⟨by rfl, by decide +kernel⟩

end Pacing
