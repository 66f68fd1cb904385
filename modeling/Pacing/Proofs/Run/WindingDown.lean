import Pacing.Proofs.Run.Steps
import Pacing.Proofs.Run.Worker

/-!
# Winding down

A run whose workers are to end does end. From the moment it is cancelled, or from the start if its
workers do not heed that, every step of the run, a worker or the writer uses up one of a number of
steps, and a worker has no more than one batch to hand over.

* `Concluding` are the sources for which this holds.
* `Worker.stepsLeft`, `Writer.stepsLeft` and `System.stepsLeft` count the steps, and `stepsLeft_lt`
  says that every one is used up; `steps_le` is a whole run.
* `batchesLeft_le` and `hands_le` count the batches of a worker in the same way.
-/

namespace Pacing.Run

/-- Sources whose workers heed being cancelled, or are through after one turn, whatever the clocks
show at it. -/
class Concluding (σ : Type) [Driven σ] : Prop where
  concludes : Driven.heedsCancel σ = false → ∀ (id : Nat) (s : σ) (r : Reading),
    (Driven.turn id s r).next = .finish ∨ ∃ batch, (Driven.turn id s r).next = .send batch true
  same_batch : Driven.heedsCancel σ = false → ∀ (id : Nat) (s : σ) (r r' : Reading),
    (Driven.turn id s r).next.batch = (Driven.turn id s r').next.batch

instance {σ α : Type} [Paced σ Empty α] [ToItem α] : Concluding σ where
  concludes := nofun
  same_batch := nofun

instance : Concluding (ItemsSource Json) where
  concludes _ id s r := by
    have hturn : Driven.turn id s r = replayTurn id s := rfl
    rw [hturn]
    unfold replayTurn
    dsimp only
    split
    · exact .inl rfl
    · exact .inr ⟨_, rfl⟩
  same_batch _ _ _ _ _ := rfl

/-! ### Workers -/

/-- Number of steps it takes to get a batch from the queue to the output: the writer receives it,
writes each record, and flushes. -/
def batchSteps (batch : List Record) : Nat := batch.length + 2

namespace Worker

variable {σ : Type} [Driven σ]

/-- A worker that does not heed being cancelled never rests, and the batch it waits with is its
last one. -/
def Replays (w : Worker σ) : Prop :=
  Driven.heedsCancel σ = true ∨ w.phase = .ready ∨ w.isStopped = true ∨
    ∃ batch, w.phase = .sending batch true

/-- Number of steps that a worker which is to end still causes at most: its own, those of the
writer with its batch, and that of being joined. -/
def stepsLeft (w : Worker σ) : Nat :=
  match w.phase with
  | .ready =>
    if Driven.heedsCancel σ then 2
    else batchSteps (Driven.turn w.id w.source default).next.batch + 3
  | .sending batch last => batchSteps batch + if last then 2 else 3
  | .resting _ => 2
  | .stopped => 1
  | .joined => 0

/-- Number of batches that a worker which is to end still hands over at most. -/
def batchesLeft (w : Worker σ) : Nat :=
  match w.phase with
  | .ready => if Driven.heedsCancel σ then 0 else 1
  | .sending _ _ => 1
  | .resting _ | .stopped | .joined => 0

theorem batchesLeft_le_one (w : Worker σ) : w.batchesLeft ≤ 1 := by
  unfold batchesLeft
  cases w.phase with
  | ready => cases Driven.heedsCancel σ <;> simp
  | sending | resting | stopped | joined => simp

section Steps

variable {w : Worker σ} {cancelled : Bool}

/-- In any other phase a worker heeds being cancelled. -/
theorem Replays.heeds (h : w.Replays) (hready : w.phase ≠ .ready) (hrunning : w.isStopped = false)
    (hlast : ∀ batch, w.phase ≠ .sending batch true) : Driven.heedsCancel σ = true := by
  rcases h with hheeds | hphase | hstopped | ⟨batch, hphase⟩
  · exact hheeds
  · exact absurd hphase hready
  · rw [hrunning] at hstopped
    cases hstopped
  · exact absurd hphase (hlast batch)

@[simp]
theorem stop_phase (w : Worker σ) : w.stop.1.phase = .stopped := rfl

theorem stop_replays (w : Worker σ) : w.stop.1.Replays := .inr (.inr (.inl rfl))

/-- **Turn.** A worker that is to end takes its last turn, or none. -/
theorem turn_winds_down [Concluding σ] (hphase : w.phase = .ready) (interval : Duration)
    (r : Reading) :
    (w.turn interval cancelled r).1.Replays ∧
      ((cancelled || !Driven.heedsCancel σ) = true →
        (w.turn interval cancelled r).1.stepsLeft < w.stepsLeft ∧
          (w.turn interval cancelled r).1.batchesLeft ≤ w.batchesLeft) := by
  cases hheeds : Driven.heedsCancel σ with
  | true =>
    refine ⟨.inl hheeds, ?_⟩
    intro hclosing
    obtain rfl : cancelled = true := by simpa using hclosing
    have hstop : w.turn interval true r = w.stop := by simp [turn, hheeds]
    rw [hstop]
    exact ⟨by simp [stepsLeft, hphase, hheeds], by simp [batchesLeft]⟩
  | false =>
    have hturn : w.turn interval cancelled r =
        w.settle interval (Driven.turn w.id w.source r) := by
      simp [turn, hheeds]
    have hbatch := Concluding.same_batch hheeds w.id w.source default r
    rcases Concluding.concludes hheeds w.id w.source r with hnext | ⟨batch, hnext⟩
    · have hends : (w.settle interval (Driven.turn w.id w.source r)).1.phase = .stopped := by
        simp [settle, hnext, stop]
      rw [hturn]
      refine ⟨.inr (.inr (.inl (by simp [isStopped, hends]))), fun _ => ⟨?_, ?_⟩⟩
      · simp [stepsLeft, hends, hphase, hheeds]
      · simp [batchesLeft, hends]
    · have hsends : (w.settle interval (Driven.turn w.id w.source r)).1.phase =
          .sending batch true := by
        simp [settle, hnext]
      have hsame : (Driven.turn w.id w.source default).next.batch = batch := by
        rw [hbatch, hnext, Next.batch]
      rw [hturn]
      refine ⟨.inr (.inr (.inr ⟨batch, hsends⟩)), fun _ => ⟨?_, ?_⟩⟩
      · simp [stepsLeft, hsends, hphase, hheeds, hsame]
      · simp [batchesLeft, hsends, hphase, hheeds]

/-- **Hand over.** After its batch, a worker that is to end has at most one turn left, in which it
stops. -/
theorem delivered_winds_down (hreplays : w.Replays) {batch : List Record} {last : Bool}
    (hphase : w.phase = .sending batch last) :
    w.delivered.1.Replays ∧ w.delivered.1.stepsLeft + batchSteps batch < w.stepsLeft ∧
      w.delivered.1.batchesLeft < w.batchesLeft := by
  cases last with
  | true =>
    have hstop : w.delivered = w.stop := by simp [delivered, hphase]
    rw [hstop]
    refine ⟨w.stop_replays, ?_, by simp [batchesLeft, hphase]⟩
    simp only [stepsLeft, stop_phase, hphase, if_true]
    omega
  | false =>
    have hheeds :=
      hreplays.heeds (by simp [hphase]) (by simp [isStopped, hphase]) (by simp [hphase])
    have hready : w.delivered.1.phase = .ready := by simp [delivered, hphase]
    refine ⟨.inl hheeds, ?_, ?_⟩
    · simp [stepsLeft, hready, hphase, hheeds]
      omega
    · simp [batchesLeft, hready, hphase, hheeds]

/-- **Refusal.** A worker whose batch nobody takes ends. -/
theorem refused_winds_down {batch : List Record} {last : Bool}
    (hphase : w.phase = .sending batch last) :
    w.refused.1.Replays ∧ w.refused.1.stepsLeft < w.stepsLeft ∧
      w.refused.1.batchesLeft < w.batchesLeft := by
  have hstop : w.refused.1 = w.stop.1 := rfl
  rw [hstop]
  refine ⟨w.stop_replays, ?_, by simp [batchesLeft, hphase]⟩
  simp only [stepsLeft, stop_phase, hphase, batchSteps]
  omega

/-- **Wake.** Only a worker that heeds being cancelled rests; if it is cancelled, it ends. -/
theorem wake_winds_down (hreplays : w.Replays) {span : Duration} (hphase : w.phase = .resting span) :
    (w.wake cancelled).1.Replays ∧
      ((cancelled || !Driven.heedsCancel σ) = true →
        (w.wake cancelled).1.stepsLeft < w.stepsLeft ∧
          (w.wake cancelled).1.batchesLeft ≤ w.batchesLeft) := by
  have hheeds :=
    hreplays.heeds (by simp [hphase]) (by simp [isStopped, hphase]) (by simp [hphase])
  refine ⟨.inl hheeds, ?_⟩
  intro hclosing
  obtain rfl : cancelled = true := by simpa [hheeds] using hclosing
  have hstop : w.wake true = w.stop := by simp [wake]
  rw [hstop]
  exact ⟨by simp [stepsLeft, hphase], by simp [batchesLeft]⟩

/-- **Join.** A worker that was joined has no steps left. -/
theorem join_winds_down (hphase : w.phase = .stopped) :
    w.join.Replays ∧ w.join.stepsLeft + 1 = w.stepsLeft ∧ w.join.batchesLeft = w.batchesLeft :=
  ⟨.inr (.inr (.inl rfl)), by simp [stepsLeft, join, hphase], by simp [batchesLeft, join, hphase]⟩

end Steps

end Worker

/-! ### The writer -/

/-- Number of steps the writer still takes at most if it receives nothing more. -/
def Writer.stepsLeft (w : Writer) : Nat :=
  match w.phase with
  | .idle => 1
  | .writing rest => rest.length + 2
  | .finished => 0
  | .failed _ => 0

/-- Every record that is written, and the flush after them, is one step less, also when it
fails. -/
theorem Writer.advance_stepsLeft {w : Writer} {rest : List Record}
    (hphase : w.phase = .writing rest) : w.advance.stepsLeft < w.stepsLeft := by
  unfold Writer.advance
  rw [hphase]
  cases rest with
  | nil | cons =>
    dsimp only
    split <;> simp [stepsLeft, hphase, fail]

/-! ### The run -/

/-- The step hands over a batch of the worker at a place, or tries to. -/
def Label.handsOf (i : Nat) : Label → Bool
  | .hand j => j == i
  | _ => false

namespace System

variable {σ : Type} [Driven σ]

/-- The run is to end: it is cancelled, or its workers end by themselves. -/
def isClosing (s : System σ) : Bool := s.cancelled || !Driven.heedsCancel σ

/-- Number of steps that a run which is to end still has at most. -/
def stepsLeft (s : System σ) : Nat :=
  s.holdsSender.toNat + (s.workers.toList.map Worker.stepsLeft).sum +
    (s.queue.map batchSteps).sum + s.writer.stepsLeft

/-- Every worker that does not heed being cancelled is on its only turn. -/
def Replays (s : System σ) : Prop := ∀ w ∈ s.workers, w.Replays

end System

section Steps

variable {σ : Type} [Driven σ] {s s' : System σ} {label : Label}

/-- A run that is to end stays so. -/
theorem Stepped.isClosing (h : Stepped s label s') (hclosing : s.isClosing = true) :
    s'.isClosing = true := by
  cases h with
  | cancelled => rfl
  | released | turn | refused | handed | woken | joined | received | wrote | finished =>
    exact hclosing

theorem System.Replays.setWorker (h : s.Replays) {w' : Worker σ} (hw' : w'.Replays) (i : Nat) :
    ∀ w ∈ s.workers.setIfInBounds i w', w.Replays := by
  intro w hw
  rcases Array.mem_or_eq_of_mem_setIfInBounds hw with hw | rfl
  · exact h w hw
  · exact hw'

theorem Stepped.replays [Concluding σ] (h : Stepped s label s') (hreplays : s.Replays) :
    s'.Replays := by
  cases h with
  | @turn i r w hw hphase =>
    exact hreplays.setWorker (Worker.turn_winds_down hphase _ _).1 i
  | @refused i w batch last hw hphase =>
    exact hreplays.setWorker (Worker.refused_winds_down hphase).1 i
  | @handed i w batch last hw hphase =>
    have hw := hreplays w (Array.mem_of_getElem? hw)
    exact hreplays.setWorker (Worker.delivered_winds_down hw hphase).1 i
  | @woken i w span hw hphase =>
    have hw := hreplays w (Array.mem_of_getElem? hw)
    exact hreplays.setWorker (Worker.wake_winds_down hw hphase).1 i
  | @joined i w hw hphase => exact hreplays.setWorker (Worker.join_winds_down hphase).1 i
  | released | received | wrote | finished | cancelled => exact hreplays

/-- **Step.** While a run is to end, every step but being cancelled uses up one of those left. -/
theorem Stepped.stepsLeft_lt [Concluding σ] (h : Stepped s label s')
    (hclosing : s.isClosing = true) (hreplays : s.Replays) (hlabel : label.isCancel = false) :
    s'.stepsLeft < s.stepsLeft := by
  cases h with
  | released hheld =>
    simp only [System.stepsLeft, hheld, Bool.toNat_true, Bool.toNat_false]
    omega
  | @turn i r w hw hphase =>
    have hless := ((Worker.turn_winds_down hphase s.interval r).2 hclosing).1
    have hsum := System.sum_setWorker hw (w.turn s.interval s.cancelled r).1 Worker.stepsLeft
    simp only [System.stepsLeft]
    omega
  | @refused i w batch last hw hphase =>
    have hless := (Worker.refused_winds_down hphase).2.1
    have hsum := System.sum_setWorker hw w.refused.1 Worker.stepsLeft
    simp only [System.stepsLeft]
    omega
  | @handed i w batch last hw hphase =>
    have hless := (Worker.delivered_winds_down (hreplays w (Array.mem_of_getElem? hw)) hphase).2.1
    have hsum := System.sum_setWorker hw w.delivered.1 Worker.stepsLeft
    simp only [System.stepsLeft, List.map_append, List.sum_append, List.map_cons, List.map_nil,
      List.sum_cons, List.sum_nil]
    omega
  | @woken i w span hw hphase =>
    have hless := ((Worker.wake_winds_down (hreplays w (Array.mem_of_getElem? hw)) hphase).2
      hclosing).1
    have hsum := System.sum_setWorker hw (w.wake s.cancelled).1 Worker.stepsLeft
    simp only [System.stepsLeft]
    omega
  | @joined i w hw hphase =>
    have hless := (Worker.join_winds_down hphase).2.1
    have hsum := System.sum_setWorker hw w.join Worker.stepsLeft
    simp only [System.stepsLeft]
    omega
  | @received batch queue hphase hqueue =>
    simp only [System.stepsLeft, hqueue, List.map_cons, List.sum_cons, Writer.stepsLeft, hphase,
      Writer.receive, batchSteps]
    omega
  | @wrote rest hphase =>
    have hless := Writer.advance_stepsLeft hphase
    have hqueue : ((if s.writer.advance.isOpen then s.queue else []).map batchSteps).sum ≤
        (s.queue.map batchSteps).sum := by
      split <;> simp
    simp only [System.stepsLeft]
    omega
  | finished hphase =>
    simp [System.stepsLeft, Writer.stepsLeft, hphase]
  | cancelled => cases hlabel

/-- Being cancelled uses up no step. -/
theorem Stepped.stepsLeft_cancel (h : Stepped s .cancel s') : s'.stepsLeft = s.stepsLeft := by
  cases h
  rfl

/-- **Batches.** While a run is to end, a worker that hands over a batch has one less left. -/
theorem Stepped.batchesLeft_le [Concluding σ] (h : Stepped s label s')
    (hclosing : s.isClosing = true) (hreplays : s.Replays) {j : Nat} {v : Worker σ}
    (hv : s.workers[j]? = some v) :
    ∃ v', s'.workers[j]? = some v' ∧
      v'.batchesLeft + (label.handsOf j).toNat ≤ v.batchesLeft := by
  -- A worker that does something is replaced in its place; the others stay.
  have hset : ∀ {i : Nat} {w w' : Worker σ}, s.workers[i]? = some w →
      w'.batchesLeft + (label.handsOf i).toNat ≤ w.batchesLeft →
      (j ≠ i → label.handsOf j = false) →
      ∃ v', (s.workers.setIfInBounds i w')[j]? = some v' ∧
        v'.batchesLeft + (label.handsOf j).toNat ≤ v.batchesLeft := by
    intro i w w' hw hless hother
    by_cases hj : j = i
    · subst hj
      obtain rfl : v = w := Option.some.inj (hv.symm.trans hw)
      have hi := (Array.getElem?_eq_some_iff.mp hw).1
      exact ⟨w', by rw [Array.getElem?_setIfInBounds_self, if_pos hi], hless⟩
    · refine ⟨v, ?_, by simp [hother hj]⟩
      rw [Array.getElem?_setIfInBounds_ne (Ne.symm hj)]
      exact hv
  cases h with
  | @turn i r w hw hphase =>
    exact hset hw ((Worker.turn_winds_down hphase s.interval r).2 hclosing).2 fun _ => rfl
  | @refused i w batch last hw hphase =>
    refine hset hw ?_ fun hj => by simpa [Label.handsOf] using Ne.symm hj
    have := (Worker.refused_winds_down hphase).2.2
    simp only [Label.handsOf, beq_self_eq_true, Bool.toNat_true]
    omega
  | @handed i w batch last hw hphase =>
    refine hset hw ?_ fun hj => by simpa [Label.handsOf] using Ne.symm hj
    have := (Worker.delivered_winds_down (hreplays w (Array.mem_of_getElem? hw)) hphase).2.2
    simp only [Label.handsOf, beq_self_eq_true, Bool.toNat_true]
    omega
  | @woken i w span hw hphase =>
    have hless := (Worker.wake_winds_down (hreplays w (Array.mem_of_getElem? hw)) hphase).2 hclosing
    exact hset hw hless.2 fun _ => rfl
  | @joined i w hw hphase =>
    exact hset hw (Nat.le_of_eq (Worker.join_winds_down hphase).2.2) fun _ => rfl
  | released | received | wrote | finished | cancelled => exact ⟨v, hv, Nat.le_refl _⟩

end Steps

/-! ### Runs -/

section Runs

variable {σ : Type} [Driven σ] {s s' : System σ} {labels : List Label} {log : List LogEvent}

theorem System.replays_of_run [Concluding σ] (hrun : s.run labels = some (s', log))
    (hreplays : s.Replays) : s'.Replays := by
  induction labels generalizing s log with
  | nil =>
    cases hrun
    exact hreplays
  | cons label later ih =>
    obtain ⟨mid, log, hstep, hlater⟩ := run_cons hrun
    exact ih hlater (hstep.replays hreplays)

/-- **Run.** The steps of a run that is to end, other than being cancelled, are no more than there
were left. -/
theorem System.steps_le [Concluding σ] (hrun : s.run labels = some (s', log))
    (hclosing : s.isClosing = true) (hreplays : s.Replays) :
    labels.countP (fun label => !label.isCancel) + s'.stepsLeft ≤ s.stepsLeft := by
  induction labels generalizing s log with
  | nil =>
    cases hrun
    simp
  | cons label later ih =>
    obtain ⟨mid, log, hstep, hlater⟩ := run_cons hrun
    have hrest := ih hlater (hstep.isClosing hclosing) (hstep.replays hreplays)
    rw [List.countP_cons]
    cases hlabel : label.isCancel with
    | false =>
      have hless := hstep.stepsLeft_lt hclosing hreplays hlabel
      simp
      omega
    | true =>
      obtain rfl : label = .cancel := by
        cases label <;> first | rfl | cases hlabel
      have hsame := hstep.stepsLeft_cancel
      simp
      omega

/-- **Run.** In a run that is to end, a worker hands over no more batches than it has left. -/
theorem System.hands_le [Concluding σ] (hrun : s.run labels = some (s', log))
    (hclosing : s.isClosing = true) (hreplays : s.Replays) {i : Nat} {w : Worker σ}
    (hw : s.workers[i]? = some w) : labels.countP (Label.handsOf i) ≤ w.batchesLeft := by
  induction labels generalizing s w log with
  | nil => simp
  | cons label later ih =>
    obtain ⟨mid, log, hstep, hlater⟩ := run_cons hrun
    obtain ⟨w', hw', hless⟩ := hstep.batchesLeft_le hclosing hreplays hw
    have hrest := ih hlater (hstep.isClosing hclosing) (hstep.replays hreplays) hw'
    rw [List.countP_cons]
    cases hhands : label.handsOf i <;> simp [hhands] at hless ⊢ <;> omega

end Runs

end Pacing.Run
