import Pacing.Proofs.Stream.Batch
import Pacing.Proofs.Stream.Failures
import Pacing.Proofs.Overflow
import Pacing.Proofs.Json.Reading

/-!
# One poll by division

The emission loop of a poll ends at the cap, at the clock or at an item that cannot be made, and the
stream has moved on by a part of the batch wherever it ends. All of it is said without a loop: a
division counts the slots that have come, and the first failure among them cuts the batch off.

* `StopsAt` is where a batch is cut off, and `stopsAt_poll` says that a poll stops there.
* `pollIn_truthful`: in words nothing else comes of a poll, if anything does.
* `poll_closed_form` is the main statement.
-/

namespace Pacing

open Json (bind_eq_ok)

variable {ε α : Type}

/-! ### Where a batch ends -/

/-- Of a batch of `n` items exactly the first `j` are handed over: number `j` is the first that cannot
be made, or there is none. -/
structure StopsAt (made : Nat → Except ε α) (n j : Nat) : Prop where
  le : j ≤ n
  made_ok : ∀ i, i < j → ∃ item, made i = .ok item
  made_error : j < n → ∃ failure, made j = .error failure

/-- The slots that have come are counted by a division, if the first one has. -/
theorem dueCount_eq_ite {period now due : Int} (hperiod : 0 < period) :
    dueCount period now due = if due ≤ now then ((now - due) / period).toNat + 1 else 0 := by
  split
  case isTrue hcome =>
    have hcount := dueCount_of_le hperiod hcome
    have hnonneg := Int.ediv_nonneg (Int.sub_nonneg.mpr hcome) (Int.le_of_lt hperiod)
    omega
  case isFalse hearly =>
    exact Nat.le_zero.mp (dueCount_le hperiod (by omega))

/-- The loop fails only while there is room. -/
theorem emitDue_failed_length_lt {generate : Generator ε α} {period stamp now : Int} {room : Nat}
    {sequence due : Int} {failure : ε}
    (h : (emitDue generate period stamp now room sequence due).failure = some failure) :
    (emitDue generate period stamp now room sequence due).items.length < room := by
  induction room generalizing sequence due with
  | zero => cases h
  | succ room ih =>
    unfold emitDue at h ⊢
    split at h
    case isFalse => cases h
    case isTrue hdue =>
      rw [if_pos hdue]
      split at h
      case h_1 => exact Nat.zero_lt_succ room
      case h_2 => exact Nat.succ_lt_succ (ih h)

/-- The time until an instant that has not passed, cut off at the end of the range. -/
theorem Poll.pendingUntil_of_le {now due : Int} (h : now ≤ due) :
    pendingUntil now due = .pending ⟨(min (due - now) Word.highest).toNat⟩ := by
  have hclamp : Word.satSub due now = min (due - now) Word.highest := by
    have hlow : ¬ due - now < Word.lowest := by
      have : Word.lowest < 0 := by decide
      omega
    rw [Word.satSub, Word.clamp, if_neg hlow]
    split <;> omega
  rw [pendingUntil, hclamp]

/-! ### In words -/

/-- A machine that gives no other results than the exact ones. It may fault. -/
def Word.Truthful (word : Word.Arithmetic) : Prop := ∀ n m, word n = .ok m → m = n

theorem Word.checked_truthful : Word.Truthful Word.checked := by
  intro n m h
  unfold Word.checked at h
  split at h
  · exact (Except.ok.inj h).symm
  · cases h

section Words

variable {word : Word.Arithmetic}

theorem bucketMillisIn_truthful (hword : Word.Truthful word) {wall period millis : Int}
    (h : bucketMillisIn word wall period = .ok millis) : millis = bucketMillis wall period := by
  obtain ⟨floored, hfloored, h⟩ := bind_eq_ok.mp h
  rw [hword _ _ hfloored] at h
  exact (Except.ok.inj h).symm

theorem emitDueIn_truthful (hword : Word.Truthful word) {generate : Generator ε α}
    {period stamp now : Int} {room : Nat} {sequence due : Int} {e : Emission ε α}
    (h : emitDueIn word generate period stamp now room sequence due = .ok e) :
    e = emitDue generate period stamp now room sequence due := by
  induction room generalizing sequence due e with
  | zero => exact (Except.ok.inj h).symm
  | succ room ih =>
    unfold emitDueIn at h
    unfold emitDue
    split at h
    case isFalse hearly =>
      rw [if_neg hearly]
      exact (Except.ok.inj h).symm
    case isTrue hcome =>
      rw [if_pos hcome]
      cases hmade : generate stamp sequence with
      | error failure =>
        rw [hmade] at h
        exact (Except.ok.inj h).symm
      | ok item =>
        rw [hmade] at h
        obtain ⟨number, hnumber, h⟩ := bind_eq_ok.mp h
        obtain ⟨next, hnext, h⟩ := bind_eq_ok.mp h
        obtain ⟨later, hlater, h⟩ := bind_eq_ok.mp h
        rw [hword _ _ hnumber, hword _ _ hnext] at hlater
        obtain rfl := ih hlater
        exact (Except.ok.inj h).symm

theorem capLogIn_truthful (hword : Word.Truthful word) {now : Int} {e : Emission ε α}
    {log : List LogEvent} (h : capLogIn word now e = .ok log) :
    log = if e.items.length = maxBatchSize ∧ e.due ≤ now then [.batchCapReached (now - e.due)]
      else [] := by
  unfold capLogIn at h
  split at h
  case isTrue hcap =>
    obtain ⟨behind, hbehind, h⟩ := bind_eq_ok.mp h
    rw [hword _ _ hbehind] at h
    rw [if_pos hcap]
    exact (Except.ok.inj h).symm
  case isFalse hcap =>
    rw [if_neg hcap]
    exact (Except.ok.inj h).symm

/-- **Words.** Where no plain operation of a poll leaves the range, the poll is the exact one. -/
theorem ItemStream.pollIn_truthful (hword : Word.Truthful word) {s : ItemStream ε α} {r : Reading}
    {p : Polled (ItemStream ε α) ε α} (h : s.pollIn word r = .ok p) : p = s.poll r := by
  obtain ⟨stamp, hstamp, h⟩ := bind_eq_ok.mp h
  obtain ⟨e, he, h⟩ := bind_eq_ok.mp h
  obtain ⟨log, hlog, h⟩ := bind_eq_ok.mp h
  obtain rfl := bucketMillisIn_truthful hword hstamp
  obtain rfl := emitDueIn_truthful hword he
  obtain rfl := capLogIn_truthful hword hlog
  exact (Except.ok.inj h).symm

end Words

namespace ItemStream

section Poll

variable (s : ItemStream ε α) (r : Reading)

/-- What the generator makes of the item that comes `i` items after the next one, at the event time
of a poll. -/
def made (i : Nat) : Except ε α := s.generate (bucketMillis r.wall s.period) (s.sequence + i)

theorem emission_sound : (s.emission r).Sound s.generate s.period (bucketMillis r.wall s.period)
    r.monotonic maxBatchSize s.sequence (s.schedule.getD r.monotonic) := emitDue_sound ..

/-- The items of a poll are what the generator makes, one after the other. -/
theorem map_item_added : (s.poll r).added.map (fun t => .ok t.item) =
    (List.range (s.poll r).added.length).map (s.made r) := by
  refine List.ext_getElem (by simp) fun i hi _ => ?_
  rw [List.length_map] at hi
  have hmade := (s.emission_sound r).numbered i _ (List.getElem?_eq_getElem hi)
  have hstamp := s.poll_timestamp r _ (List.getElem_mem hi)
  rw [List.getElem_map, List.getElem_map, List.getElem_range, made, ← hstamp]
  exact hmade.symm

variable {s r}

/-- An error of the loop is the generator's, about the first item that is not handed over. -/
theorem made_of_failure {failure : ε} (h : (s.emission r).failure = some failure) :
    s.made r (s.poll r).added.length = .error failure := by
  have hfailed := ((s.emission_sound r).failed failure h).2
  rwa [show (s.emission r).sequence = _ from s.poll_sequence r] at hfailed

/-- While there is room and the next slot has come, only a failure ends the loop. -/
theorem exists_failure_of_cut {due : Nat} (howed : Owed (s.slot r) r.monotonic due)
    (hcut : (s.poll r).added.length < min maxBatchSize due) :
    ∃ failure, (s.emission r).failure = some failure := by
  obtain ⟨hroom, hdue⟩ := Nat.lt_min.mp hcut
  refine Option.ne_none_iff_exists'.mp fun hnone => ?_
  have hnext := (s.emission_sound r).drained hnone hroom
  rw [emission_due_eq] at hnext
  exact absurd ((howed _).mp hdue) (Int.not_le.mpr hnext)

/-- A batch that is not cut off is handed over without an error. -/
theorem failure_of_full {due : Nat} (howed : Owed (s.slot r) r.monotonic due)
    (hfull : (s.poll r).added.length = min maxBatchSize due) : (s.emission r).failure = none := by
  refine Option.eq_none_iff_forall_ne_some.mpr fun failure hfailure => ?_
  have hroom : (s.poll r).added.length < maxBatchSize := emitDue_failed_length_lt hfailure
  have hdue := ((s.emission_sound r).failed failure hfailure).1
  rw [emission_due_eq, ← howed] at hdue
  omega

/-- **Loop.** A poll stops where the batch it owes is cut off. -/
theorem stopsAt_poll {due : Nat} (howed : Owed (s.slot r) r.monotonic due) :
    StopsAt (s.made r) (min maxBatchSize due) (s.poll r).added.length where
  le := by
    refine Nat.le_min.mpr ⟨s.poll_added_length_le r, Nat.le_of_not_lt fun hmore => ?_⟩
    exact absurd ((howed due).mpr ((s.emission_sound r).slots due hmore)) (Nat.lt_irrefl due)
  made_ok i hi := by
    have hmade : (s.made r) i = .ok (s.poll r).added[i].item := by
      have hall := congrArg (·[i]?) (s.map_item_added r)
      simpa [hi] using hall.symm
    exact ⟨_, hmade⟩
  made_error hcut := by
    obtain ⟨failure, hfailure⟩ := exists_failure_of_cut howed hcut
    exact ⟨failure, made_of_failure hfailure⟩

end Poll

/-- **Closed form.** One poll of any stream with a period, whatever its schedule, its number, its
generator and the readings. It owes the slots that have come, up to a full batch, and `j` is the first
of them whose item cannot be made, or their number if there is none. The poll then

* hands over what the generator makes of the first `j` numbers, all dated by the bucket of the wall
  clock;
* moves the stream on by `j` numbers and `j` periods, and by nothing else;
* reports the failure of number `j` if that one is owed, else how many items it handed over, and if
  nothing is owed the time until the first slot, cut off at the end of the range.

In words the poll is this one or faults. -/
theorem poll_closed_form (s : ItemStream ε α) (hperiod : 0 < s.period) (r : Reading) :
    let now := r.monotonic
    let first := s.schedule.getD now
    let stamp := bucketMillis r.wall s.period
    let due : Nat := if first ≤ now then ((now - first) / s.period).toNat + 1 else 0
    let n := min maxBatchSize due
    let made (i : Nat) := s.generate stamp (s.sequence + i)
    let p := s.poll r
    (∃ j, StopsAt made n j ∧
      p.added.map (fun t => .ok t.item) = (List.range j).map made ∧
      (∀ t ∈ p.added, t.timestamp = stamp) ∧
      p.source = { s with sequence := s.sequence + j, schedule := some (first + j * s.period) } ∧
      (∀ failure, j < n → made j = .error failure → p.outcome = .error failure) ∧
      (j = n → 0 < n → p.outcome = .ok (.ready n)) ∧
      (n = 0 → p.outcome = .ok (.pending ⟨(min (first - now) Word.highest).toNat⟩))) ∧
    ∀ q, s.pollIn Word.checked r = .ok q → q = p := by
  intro now first stamp due n made p
  have howed : Owed (s.slot r) now due := by
    have hcount : Owed (s.slot r) now (dueCount s.period now first) := owed_dueCount hperiod first
    rwa [dueCount_eq_ite hperiod] at hcount
  have hstop : StopsAt made n p.added.length := stopsAt_poll howed
  refine ⟨⟨p.added.length, hstop, s.map_item_added r, s.poll_timestamp r, s.poll_source r,
    fun failure hcut hfailure => ?_, fun hfull hsome => ?_, fun hnone => ?_⟩,
    fun q => pollIn_truthful Word.checked_truthful⟩
  · obtain ⟨failure', hloop⟩ := exists_failure_of_cut howed hcut
    obtain rfl : failure' = failure := Except.error.inj ((made_of_failure hloop).symm.trans hfailure)
    exact (s.poll_outcome r).trans (by rw [hloop])
  · have hloop := failure_of_full howed hfull
    have hnonempty : (s.poll r).added.length ≠ 0 := Nat.ne_of_gt (hfull ▸ hsome)
    refine (s.poll_outcome r).trans ?_
    rw [hloop, if_neg hnonempty, ← hfull]
  · have hempty : (s.poll r).added.length = 0 := Nat.le_zero.mp (hnone ▸ hstop.le)
    have hloop := failure_of_full howed (hempty.trans hnone.symm)
    have hslot : s.slot r 0 = first := by simp [slot, first, now]
    have hwait : now ≤ first := by
      have hnext := (s.emission_sound r).drained hloop (hempty ▸ Nat.zero_lt_succ _)
      rw [emission_due_eq, hempty, hslot] at hnext
      exact Int.le_of_lt hnext
    refine (s.poll_outcome r).trans ?_
    rw [hloop, if_pos hempty, emission_due_eq, hempty, hslot, Poll.pendingUntil_of_le hwait]

/-- One item a millisecond, the first of which was due at the origin. -/
def lateStream : ItemStream String Int := ⟨lateItem, 1000000, some 0, 0⟩

/-- Item 1 of three that are due cannot be made: one item is handed over, and the stream goes on at the
slot of item 1. -/
theorem poll_closed_form_of_lateItem :
    let p := lateStream.poll ⟨2500000, 3000000⟩
    0 < lateStream.period ∧ p.added.map Timestamped.timestamp = [3] ∧
      p.outcome = .error "too early" ∧ p.source.sequence = 1 ∧ p.source.schedule = some 1000000 := by
  intro p
  have hperiod : 0 < lateStream.period := by decide
  have hmade : lateItem 3 0 = .ok 0 := rfl
  have hlate : lateItem 3 1 = .error "too early" := rfl
  obtain ⟨⟨j, hstop, hadded, hstamps, hsource, hfailed, -⟩, -⟩ :=
    poll_closed_form lateStream hperiod ⟨2500000, 3000000⟩
  obtain rfl : j = 1 := by
    have hbefore : ¬ 1 < j := fun h => by
      obtain ⟨item, hitem⟩ := hstop.made_ok 1 h
      cases hlate.symm.trans hitem
    have hbehind : j ≠ 0 := by
      rintro rfl
      obtain ⟨failure, hfailure⟩ := hstop.made_error (by decide)
      cases hmade.symm.trans hfailure
    omega
  refine ⟨hperiod, ?_, hfailed _ (by decide) hlate, congrArg sequence hsource,
    congrArg schedule hsource⟩
  have hone : p.added.length = 1 := by simpa using congrArg List.length hadded
  rw [List.map_eq_replicate_iff.mpr hstamps, hone]
  rfl

end ItemStream

end Pacing
