import Mathlib.Algebra.Order.Floor.Div
import Mathlib.Data.List.Intervals
import Pacing.Run.Solo
import Pacing.Proofs.Backlog
import Pacing.Proofs.Hints
import Pacing.Proofs.Run.Worker

/-!
# A worker in ideal time

In ideal time only resting takes time, a rest moves both clocks by exactly its length, and the
output always has room. A worker on a rate-limited stream then sends every item at its slot. How
long it may rest decides how often it wakes up between two slots, and nothing else.

* `Cadence` is a period cut into rests. What a worker does in its turn `m` can be read off `m`:
  it sends in the first turn of a slot and rests in the others.
* `Keeping` says where a worker stands before a turn, and `Keeping.follow` what it does from then
  on: an induction on the turns that are left, with one lemma for each of the two kinds of turns.
* `ideal_time_keeps_slots` is the statement.
-/

namespace Pacing

namespace ItemStream

variable {α : Type} {f : Int → Int → α} {period start : Int} {s : ItemStream Empty α}
  {items : List (Timestamped α)} {r : Reading}

/-- A poll exactly at the next slot hands over its item and no other. -/
theorem OnTrack.poll_at_slot (h : OnTrack (.pure f) period start s items) (hperiod : 0 < period)
    (hr : r.monotonic = start + items.length * period) :
    (s.poll r).added =
        [⟨f (bucketMillis r.wall period) items.length, bucketMillis r.wall period⟩] ∧
      (s.poll r).outcome = .ok (.ready 1) := by
  have hslot : s.slot r = fun j : Nat => r.monotonic + j * period := by
    funext j
    rw [slot, h.schedule_eq, h.period_eq, Option.getD_some, hr]
  have howed : Owed (s.slot r) r.monotonic 1 := by
    have hcount : dueCount period r.monotonic r.monotonic = 1 := dueCount_self
    rw [hslot, ← hcount]
    exact owed_dueCount hperiod r.monotonic
  have hlength : (s.poll r).added.length = 1 := poll_length_of_reliable howed
  have hfirst := h.poll_begins (Int.le_of_eq hr.symm)
  obtain ⟨t, ht⟩ := List.length_eq_one_iff.mp hlength
  unfold Polled.BeginsWith at hfirst
  rw [ht] at hfirst
  rw [poll_outcome_of_reliable, hlength, ht, Option.some.inj hfirst]
  exact ⟨rfl, rfl⟩

end ItemStream

namespace Run

/-! ### Cadences -/

/-- A period of a stream, and the longest rest of the worker that polls it, in nanoseconds. -/
structure Cadence where
  period : Nat
  longest : Nat
  period_pos : 0 < period
  longest_pos : 0 < longest

namespace Cadence

variable (c : Cadence)

/-- How many rests a period takes. -/
def rests : Nat := c.period ⌈/⌉ c.longest

/-- The turns of a slot: one that sends its item, then one for each rest. -/
def turns : Nat := c.rests + 1

/-- The slot a turn belongs to. -/
def slot (m : Nat) : Nat := m / c.turns

/-- The place of a turn among those of its slot; the first one sends. -/
def place (m : Nat) : Nat := m % c.turns

/-- What is left of a period after some of its rests. -/
def left (j : Nat) : Nat := c.period - j * c.longest

/-- The rest that begins after `j` rests of a period. -/
def rest (j : Nat) : Duration := ⟨min (c.left j) c.longest⟩

/-- When a turn is taken. The turn that sends takes no time, so the next one comes at once. -/
def instant (m : Nat) : Nat := c.slot m * c.period + (c.place m - 1) * c.longest

/-- The slots of the turns before turn `m`. -/
def sent (m : Nat) : Nat := m ⌈/⌉ c.turns

theorem turns_pos : 0 < c.turns := Nat.succ_pos _

theorem rests_pos : 0 < c.rests := by
  apply Nat.pos_of_ne_zero
  intro hzero
  have hcover := (ceilDiv_le_iff_le_mul c.longest_pos).mp (Nat.le_of_eq hzero)
  have := c.period_pos
  omega

/-- The rests of a period cover it. -/
theorem period_le : c.period ≤ c.rests * c.longest := by
  have hcover := (ceilDiv_le_iff_le_mul c.longest_pos).mp (Nat.le_refl c.rests)
  rwa [Nat.mul_comm] at hcover

/-- Fewer rests leave something of the period. -/
theorem left_pos {j : Nat} (h : j < c.rests) : 0 < c.left j := by
  have hcover := mt (ceilDiv_le_iff_le_mul c.longest_pos).mpr (Nat.not_le.mpr h)
  rw [Nat.mul_comm] at hcover
  unfold left
  omega

theorem place_le (m : Nat) : c.place m ≤ c.rests := Nat.le_of_lt_succ (Nat.mod_lt m c.turns_pos)

theorem slot_mul_add_place (m : Nat) : c.slot m * c.turns + c.place m = m := by
  rw [Nat.mul_comm]
  exact Nat.div_add_mod m c.turns

/-- Every turn has its place in a slot. -/
theorem exists_turn (m : Nat) : ∃ k j, j ≤ c.rests ∧ m = k * c.turns + j :=
  ⟨_, _, c.place_le m, (c.slot_mul_add_place m).symm⟩

section Turn

variable {c} {k j : Nat}

theorem slot_turn (hj : j ≤ c.rests) : c.slot (k * c.turns + j) = k := by
  have hlt : j < c.turns := Nat.lt_succ_of_le hj
  rw [slot, Nat.mul_comm, Nat.mul_add_div c.turns_pos, Nat.div_eq_of_lt hlt, Nat.add_zero]

theorem place_turn (hj : j ≤ c.rests) : c.place (k * c.turns + j) = j := by
  have hlt : j < c.turns := Nat.lt_succ_of_le hj
  rw [place, Nat.mul_comm, Nat.mul_add_mod, Nat.mod_eq_of_lt hlt]

theorem instant_turn (hj : j ≤ c.rests) :
    c.instant (k * c.turns + j) = k * c.period + (j - 1) * c.longest := by
  rw [instant, slot_turn hj, place_turn hj]

/-- A slot's item is sent at its slot. -/
theorem instant_first : c.instant (k * c.turns) = k * c.period := by
  have hfirst := instant_turn (k := k) (Nat.zero_le c.rests)
  rwa [Nat.zero_sub, Nat.zero_mul, Nat.add_zero, Nat.add_zero] at hfirst

/-- Before the first turn of a slot, the slots before it have been taken. -/
theorem sent_first : c.sent (k * c.turns) = k := by
  have hsum : k * c.turns + c.turns - 1 = k * c.turns + c.rests := rfl
  have hslot := slot_turn (k := k) (Nat.le_refl c.rests)
  rwa [sent, Nat.ceilDiv_eq_add_pred_div, hsum]

/-- Until the first turn of the next one, it has been taken as well. -/
theorem sent_later (hj : j ≤ c.rests) : c.sent (k * c.turns + (j + 1)) = k + 1 := by
  have hsum : k * c.turns + (j + 1) + c.turns - 1 = (k + 1) * c.turns + j := by
    rw [Nat.add_mul]
    omega
  have hslot := slot_turn (k := k + 1) hj
  rwa [sent, Nat.ceilDiv_eq_add_pred_div, hsum]

theorem instant_later (hj : j < c.rests) :
    c.instant (k * c.turns + (j + 1)) = k * c.period + j * c.longest :=
  instant_turn hj

/-- At the turn that rests, what is left of the period is the time until the next slot. -/
theorem instant_add_left (hj : j < c.rests) :
    c.instant (k * c.turns + (j + 1)) + c.left j = (k + 1) * c.period := by
  have hleft := c.left_pos hj
  rw [instant_later hj, Nat.add_mul]
  unfold left at *
  omega

/-- Every rest ends when the next turn is due. -/
theorem instant_add_rest (hj : j < c.rests) :
    c.instant (k * c.turns + (j + 1)) + (c.rest j).nanos =
      c.instant (k * c.turns + (j + 1) + 1) := by
  have hleft := c.left_pos hj
  rcases (Nat.lt_or_eq_of_le hj : j + 1 < c.rests ∨ j + 1 = c.rests) with hmore | hlast
  · -- Another rest of this period follows, so this one is as long as a rest can be.
    have hnext : c.instant (k * c.turns + (j + 1) + 1) = _ := instant_later hmore
    have hmore := c.left_pos hmore
    rw [instant_later hj, hnext]
    simp only [rest, left, Nat.add_mul] at *
    omega
  · -- The last rest ends at the next slot.
    have hturn : k * c.turns + (j + 1) + 1 = (k + 1) * c.turns := by
      rw [hlast, Nat.add_mul, Nat.one_mul]
      rfl
    have hall : c.left j ≤ c.longest := by
      have hcover := c.period_le
      rw [← hlast, Nat.add_mul] at hcover
      unfold left
      omega
    rw [hturn, instant_first, ← instant_add_left hj, rest, Nat.min_eq_left hall]

end Turn

end Cadence

/-! ### A worker on its own -/

section Solo

variable {σ : Type} [Driven σ]

/-- A worker once it has done what a turn asked for. -/
def Worker.past (w : Worker σ) (t : Turn σ) : Worker σ :=
  { w with source := t.source, emitted := w.emitted + t.emitted, phase := .ready }

namespace SoloPlan

variable {p : SoloPlan} {w : Worker σ} {now turns : Nat}

/-- A worker that is through with its turns does nothing more. -/
theorem follow_cancelled (hready : w.phase = .ready) (hheeds : Driven.heedsCancel σ = true)
    (hcancelled : p.cancelAt ≤ turns) (steps : Nat) :
    (p.follow steps now turns w).batches = [] ∧ (p.follow steps now turns w).rests = [] := by
  rcases steps with - | steps
  · exact ⟨rfl, rfl⟩
  · have hstop : (p.isCancelled turns && Driven.heedsCancel σ) = true := by
      simp [isCancelled, hcancelled, hheeds]
    simp only [follow, hready, hstop, if_true]
    rcases steps with - | steps <;> exact ⟨rfl, rfl⟩

/-- **Send.** A turn that has a batch to send, while the output is open. -/
theorem follow_send (hready : w.phase = .ready) (hturns : turns < p.cancelAt)
    (hopen : p.closeAt = none) {batch : List Record}
    (hnext : (Driven.turn w.id w.source (p.reading now)).next = .send batch false) (steps : Nat) :
    let w' := w.past (Driven.turn w.id w.source (p.reading now))
    (p.follow (steps + 2) now turns w).batches =
        (now, batch) :: (p.follow steps now (turns + 1) w').batches ∧
      (p.follow (steps + 2) now turns w).rests = (p.follow steps now (turns + 1) w').rests := by
  have hgoes : p.isCancelled turns = false := by simp [isCancelled, hturns]
  have hroom : p.isClosed (turns + 1) = false := by simp [isClosed, hopen]
  simp [follow, hready, hgoes, hroom, Worker.settle, hnext, Worker.delivered, SoloResult.before,
    Worker.past]

/-- **Rest.** A turn that has nothing to send. If it is the last one, the worker ends. -/
theorem follow_rest (hready : w.phase = .ready) (hturns : turns < p.cancelAt) {span : Duration}
    (hnext : (Driven.turn w.id w.source (p.reading now)).next = .rest span) (steps : Nat) :
    let w' := w.past (Driven.turn w.id w.source (p.reading now))
    let r := p.follow (steps + 2) now turns w
    let later := p.follow steps (p.timer now (span.shorter p.interval)) (turns + 1) w'
    if turns + 1 < p.cancelAt then
      r.batches = later.batches ∧ r.rests = (now, span.shorter p.interval) :: later.rests
    else r.batches = [] ∧ r.rests = [(now, span.shorter p.interval)] := by
  have hgoes : p.isCancelled turns = false := by simp [isCancelled, hturns]
  dsimp only
  split
  case isTrue hmore =>
    have hmore : p.isCancelled (turns + 1) = false := by simp [isCancelled, hmore]
    simp [follow, hready, hgoes, hmore, Worker.settle, hnext, Worker.wake, SoloResult.before,
      Worker.past]
  case isFalse hlast =>
    have hlast : p.isCancelled (turns + 1) = true := decide_eq_true (Nat.le_of_not_lt hlast)
    rcases steps with - | steps <;>
      simp [follow, hready, hgoes, hlast, Worker.settle, hnext, Worker.wake, SoloResult.before,
        Worker.stop]

end SoloPlan

end Solo

/-! ### Turns on a stream -/

section Paced

variable {σ α : Type} [Paced σ Empty α] [ToItem α] {id : Nat} {s : σ} {r : Reading}

/-- A turn in which items are ready sends them. -/
theorem next_of_ready {n : Nat} (h : (Paced.poll s r).outcome = .ok (.ready n)) :
    (Driven.turn id s r).next = .send (recordsOf id (Paced.poll s r).added) false := by
  show (pacedTurn id s r).next = _
  unfold pacedTurn
  dsimp only
  rw [h, take_addAllTimestamped]
  rfl

/-- A turn in which nothing is ready rests as long as the hint says. -/
theorem next_of_pending {span : Duration} (h : (Paced.poll s r).outcome = .ok (.pending span)) :
    (Driven.turn id s r).next = .rest span := by
  show (pacedTurn id s r).next = _
  unfold pacedTurn
  dsimp only
  rw [h]

end Paced

/-- The plan of a worker in ideal time: both clocks start at a reading, and it is cancelled after
so many turns. -/
def idealPlan (longest : Duration) (start : Reading) (turns : Nat) : SoloPlan where
  interval := longest
  cancelAt := turns
  closeAt := none
  timer := SoloPlan.exactTimer
  reading now := ⟨start.monotonic + now, start.wall + now⟩

/-- The record of the item of slot `k`, dated by the wall clock at its slot. -/
def slotRecord [ToItem α] (f : Int → Int → α) (period : Nat) (start : Reading) (worker k : Nat) :
    Record :=
  let stamp := bucketMillis (start.wall + k * period) period
  ⟨worker, some stamp, ToItem.toItem (f stamp k)⟩

/-- A worker in ideal time before turn `m`: it is ready, and has sent the items of the slots before
that turn. -/
structure Keeping (c : Cadence) (f : Int → Int → α) (start : Reading) (id m : Nat)
    (w : Worker (ItemStream Empty α)) : Prop where
  id_eq : w.id = id
  ready : w.phase = .ready
  onTrack : ∃ items, w.source.OnTrack (.pure f) c.period start.monotonic items ∧
    items.length = c.sent m

namespace Keeping

variable {α : Type} [ToItem α] {c : Cadence} {f : Int → Int → α} {start : Reading}
  {id turns k j : Nat} {w : Worker (ItemStream Empty α)}

/-- **First turn of a slot.** It sends the item of the slot. -/
theorem turn_first (h : Keeping c f start id (k * c.turns) w) (turns : Nat) :
    let t := Driven.turn w.id w.source
      ((idealPlan ⟨c.longest⟩ start turns).reading (c.instant (k * c.turns)))
    t.next = .send [slotRecord f c.period start id k] false ∧
      Keeping c f start id (k * c.turns + 1) (w.past t) := by
  obtain ⟨items, htrack, hitems⟩ := h.onTrack
  rw [Cadence.sent_first] at hitems
  rw [Cadence.instant_first, h.id_eq]
  set r := (idealPlan ⟨c.longest⟩ start turns).reading (k * c.period)
  have hslot : r.monotonic = start.monotonic + items.length * c.period := by
    rw [hitems, ← Int.natCast_mul]
    rfl
  obtain ⟨hadded, houtcome⟩ := htrack.poll_at_slot (Int.natCast_pos.mpr c.period_pos) hslot
  dsimp only
  refine ⟨?_, h.id_eq, rfl, items ++ (w.source.poll r).added, ?_, ?_⟩
  · have hwall : r.wall = start.wall + k * c.period := by
      rw [← Int.natCast_mul]
      rfl
    rw [next_of_ready houtcome, ItemStream.paced_poll, hadded, hitems, hwall]
    rfl
  · show ((Driven.turn id w.source r).source).OnTrack _ _ _ _
    rw [(paced_turn id w.source r).1]
    exact htrack.poll r
  · rw [hadded, Cadence.sent_later (Nat.zero_le _), List.length_append, hitems]
    rfl

/-- **Later turn of a slot.** It waits for the next slot, and so rests until the next turn. -/
theorem turn_later (h : Keeping c f start id (k * c.turns + (j + 1)) w) (hj : j < c.rests)
    (hfits : c.period ≤ nanosPerSecond) (turns : Nat) :
    let t := Driven.turn w.id w.source
      ((idealPlan ⟨c.longest⟩ start turns).reading (c.instant (k * c.turns + (j + 1))))
    t.next = .rest ⟨c.left j⟩ ∧ Keeping c f start id (k * c.turns + (j + 1) + 1) (w.past t) := by
  obtain ⟨items, htrack, hitems⟩ := h.onTrack
  rw [Cadence.sent_later (Nat.le_of_lt hj)] at hitems
  have hleft := c.left_pos hj
  have hdue := Cadence.instant_add_left (k := k) hj
  rw [h.id_eq]
  set r := (idealPlan ⟨c.longest⟩ start turns).reading (c.instant (k * c.turns + (j + 1)))
  have hwait : start.monotonic + items.length * c.period - r.monotonic = c.left j := by
    have hr : r.monotonic = start.monotonic + c.instant (k * c.turns + (j + 1)) := rfl
    rw [hr, hitems, ← Int.natCast_mul, ← hdue]
    omega
  have hearly : r.monotonic < start.monotonic + items.length * c.period := by omega
  have hpoll := ItemStream.poll_of_lt htrack.schedule_eq hearly
  have hspan : nanosUntil r.monotonic (start.monotonic + items.length * c.period) = c.left j := by
    have hinRange : Word.InRange (start.monotonic + items.length * c.period - r.monotonic) := by
      have hle : c.left j ≤ nanosPerSecond := Nat.le_trans (Nat.sub_le ..) hfits
      unfold Word.InRange Word.lowest Word.highest
      unfold nanosPerSecond at hle
      omega
    have := nanosUntil_eq hearly hinRange
    omega
  have houtcome : (Paced.poll w.source r).outcome = .ok (.pending ⟨c.left j⟩) := by
    rw [← hspan]
    exact congrArg Polled.outcome hpoll
  dsimp only
  refine ⟨next_of_pending houtcome, h.id_eq, rfl, items, ?_, ?_⟩
  · show ((Driven.turn id w.source r).source).OnTrack _ _ _ _
    rw [(paced_turn id w.source r).1, ItemStream.paced_poll, hpoll]
    exact htrack
  · rw [hitems]
    exact (Cadence.sent_later hj).symm

/-- **Run.** What a worker in ideal time does in the turns that are left follows from their
numbers alone. -/
theorem follow {m left : Nat} (h : Keeping c f start id m w) (hfits : c.period ≤ nanosPerSecond)
    (hleft : m + left = turns) (spare : Nat) :
    let r := (idealPlan ⟨c.longest⟩ start turns).follow (2 * left + spare) (c.instant m) m w
    r.batches = ((List.range' m left).filter (c.place · = 0)).map
        (fun n => (c.instant n, [slotRecord f c.period start id (c.slot n)])) ∧
      r.rests = ((List.range' m left).filter (c.place · ≠ 0)).map
        (fun n => (c.instant n, c.rest (c.place n - 1))) := by
  induction left generalizing m w with
  | zero => exact SoloPlan.follow_cancelled h.ready rfl (Nat.le_of_eq hleft.symm) _
  | succ left ih =>
    have hturn : m < (idealPlan ⟨c.longest⟩ start turns).cancelAt := by
      show m < turns
      omega
    rw [List.range'_succ, show 2 * (left + 1) + spare = 2 * left + spare + 2 by omega]
    obtain ⟨k, j, hj, rfl⟩ := c.exists_turn m
    have hplace : c.place (k * c.turns + j) = j := Cadence.place_turn hj
    have hslot : c.slot (k * c.turns + j) = k := Cadence.slot_turn hj
    rcases j with - | j
    case zero =>
      obtain ⟨hnext, hkeeping⟩ := h.turn_first turns
      obtain ⟨hbatches, hrests⟩ :=
        SoloPlan.follow_send h.ready hturn rfl hnext (2 * left + spare)
      have hlater := ih hkeeping (by omega)
      have hinstant : c.instant (k * c.turns + 1) = c.instant (k * c.turns) := by
        rw [Cadence.instant_later c.rests_pos, Cadence.instant_first, Nat.zero_mul, Nat.add_zero]
      rw [hinstant] at hlater
      rw [List.filter_cons_of_pos (by simpa using hplace),
        List.filter_cons_of_neg (by simpa using hplace), List.map_cons, hslot]
      exact ⟨hbatches.trans (congrArg _ hlater.1), hrests.trans hlater.2⟩
    case succ =>
      obtain ⟨hnext, hkeeping⟩ := h.turn_later hj hfits turns
      have hfollow := SoloPlan.follow_rest h.ready hturn hnext (2 * left + spare)
      have htimer : (idealPlan ⟨c.longest⟩ start turns).timer (c.instant (k * c.turns + (j + 1)))
          (c.rest j) = c.instant (k * c.turns + (j + 1) + 1) := Cadence.instant_add_rest hj
      have hspan : (⟨c.left j⟩ : Duration).shorter (idealPlan ⟨c.longest⟩ start turns).interval =
          c.rest j := rfl
      rw [List.filter_cons_of_neg (by simp [hplace]), List.filter_cons_of_pos (by simp [hplace]),
        List.map_cons, hplace, Nat.add_sub_cancel]
      rw [hspan, htimer] at hfollow
      dsimp only at hfollow
      split at hfollow
      case isTrue =>
        have hlater := ih hkeeping (by omega)
        exact ⟨hfollow.1.trans hlater.1, hfollow.2.trans (congrArg _ hlater.2)⟩
      case isFalse hlast =>
        -- The worker is cancelled in this turn: no turn is left.
        have hnone : left = 0 := by
          have hlast : ¬ k * c.turns + (j + 1) + 1 < turns := hlast
          omega
        rw [hnone] at hfollow ⊢
        exact hfollow

end Keeping

end Run

end Pacing
