import Pacing.Proofs.Run.Progress
import Pacing.Proofs.Run.WindingDown
import Pacing.Proofs.Run.EndToEnd

/-!
# Shutting down

A launched run can always be brought to its end, in whatever order its steps are taken. It is never
stuck; once it is cancelled it ends by itself, with everything that was sent in the output; and when
the output fails, its workers find out and it reports the failure.

* `ShutsDownAt` is what is said of one state of a run, and `shutsDown_start` shows it of all.
* `launched_run_shuts_down` says it of every accepted configuration.
-/

namespace Pacing.Run

section ShutsDown

variable {σ : Type} [Driven σ]

/-- What holds of the state a run has come to after some steps. `closing` says that the run is to
end. -/
structure System.ShutsDownAt (start : System σ) (closing : Prop) (labels : List Label)
    (s : System σ) : Prop where
  /-- No state is stuck. -/
  progress : s.isOver = false → s.CanStep
  /-- Every step but being cancelled uses up one of those that are left. -/
  descends : closing → ∀ (label : Label) (s' : System σ) (log : List LogEvent),
    s.step label = some (s', log) → label.isCancel = false → s'.stepsLeft < s.stepsLeft
  /-- However the run goes on, it takes no more steps than are left, and in them a worker hands over
  one batch at most. -/
  bounded : closing → ∀ (later : List Label) (s' : System σ) (log : List LogEvent),
    s.run later = some (s', log) →
      later.countP (fun label => !label.isCancel) + s'.stepsLeft ≤ s.stepsLeft ∧
        ∀ (i : Nat) (w : Worker σ), s.workers[i]? = some w → later.countP (Label.handsOf i) ≤ 1
  /-- The run can be brought to its end, and one that is to end need not be cancelled for it. -/
  ends : ∃ later s' log, s.run later = some (s', log) ∧ s'.isOver = true ∧
    (closing → ∀ label ∈ later, label.isCancel = false)
  /-- If no write has failed in the end, the queue is empty, and the output holds what the workers
  have sent and nothing else. -/
  complete : s.isOver = true → s.writer.isOpen = true → s.queue = [] ∧
    ∃ written, s.result = .ok ⟨written.length, written.length⟩ ∧
      s.writer.sink.taken = (linesOf written).toUTF8 ∧
      (∀ r ∈ written, r.worker < start.workers.size) ∧
      ∀ (i : Nat) (w : Worker σ), start.workers[i]? = some w →
        ofWorker i written = sent i w.source (turnReadings (Driven.heedsCancel σ) i labels)
  /-- Once a write has failed, the run reports that failure, and a worker that waits with a batch, or
  comes to do so later, cannot send it and ends. -/
  failed : s.writer.isOpen = false →
    (∃ failure, ∀ (later : List Label) (s' : System σ) (log : List LogEvent),
      s.run later = some (s', log) → s'.writer.isOpen = false ∧ s'.result = .error failure) ∧
    ∀ (i : Nat) (w : Worker σ) (batch : List Record) (last : Bool), s.workers[i]? = some w →
      w.phase = .sending batch last → ∃ w' log, w'.phase = .stopped ∧
        s.step (.hand i) = some ({ s with workers := s.workers.setIfInBounds i w' }, log)

/-- Every state of every run shuts down; `Closing` says when a run is to end. -/
def System.ShutsDown (start : System σ) (Closing : System σ → Prop) : Prop :=
  ∀ (labels : List Label) (s : System σ) (log : List LogEvent),
    start.run labels = some (s, log) → start.ShutsDownAt (Closing s) labels s

section Runs

variable {s s' mid : System σ} {label : Label} {labels : List Label} {log log' : List LogEvent}

theorem System.run_snoc (hrun : s.run labels = some (mid, log))
    (hstep : mid.step label = some (s', log')) :
    s.run (labels ++ [label]) = some (s', log ++ log') := by
  simp [run_append, hrun, run, hstep]

theorem System.run_cons_of_step {later : List Label} (hstep : s.step label = some (mid, log))
    (hrun : mid.run later = some (s', log')) :
    s.run (label :: later) = some (s', log ++ log') := by
  simp [run, hstep, hrun]

/-- The room of the queue does not change. -/
theorem System.capacity_of_run (hrun : s.run labels = some (s', log)) :
    s'.capacity = s.capacity := by
  induction labels generalizing s log with
  | nil =>
    cases hrun
    rfl
  | cons label later ih =>
    obtain ⟨mid, log, hstep, hlater⟩ := run_cons hrun
    rw [ih hlater]
    cases hstep <;> rfl

/-- A failure of the writer is the last thing that happens to it. -/
theorem Stepped.phase_of_failed {failure : Failure} (h : Stepped s label s')
    (hfailed : s.writer.phase = .failed failure) : s'.writer.phase = .failed failure := by
  cases h with
  | released | turn | refused | handed | woken | joined | cancelled => exact hfailed
  | received hphase | wrote hphase | finished hphase =>
    rw [hphase] at hfailed
    cases hfailed

theorem System.phase_of_failed {failure : Failure} (hrun : s.run labels = some (s', log))
    (hfailed : s.writer.phase = .failed failure) : s'.writer.phase = .failed failure := by
  induction labels generalizing s log with
  | nil =>
    cases hrun
    exact hfailed
  | cons label later ih =>
    obtain ⟨mid, log, hstep, hlater⟩ := run_cons hrun
    exact ih hlater (hstep.phase_of_failed hfailed)

/-- A run whose writer has failed reports its failure. -/
theorem System.result_of_failed {failure : Failure} (h : s.writer.phase = .failed failure) :
    s.result = .error failure := by
  unfold result Writer.result
  rw [h]
  rfl

/-- A run whose writer has finished reports its counts. -/
theorem System.result_of_finished (h : s.writer.phase = .finished) :
    s.result = .ok ⟨s.collected, s.writer.written⟩ := by
  unfold result Writer.result
  rw [h]
  rfl

/-- **Failure.** After a failed write, a worker with a batch is refused, and the run fails. -/
theorem System.failed_of_closed (hclosed : s.writer.isOpen = false) :
    (∃ failure, ∀ (later : List Label) (s' : System σ) (log : List LogEvent),
      s.run later = some (s', log) → s'.writer.isOpen = false ∧ s'.result = .error failure) ∧
    ∀ (i : Nat) (w : Worker σ) (batch : List Record) (last : Bool), s.workers[i]? = some w →
      w.phase = .sending batch last → ∃ w' log, w'.phase = .stopped ∧
        s.step (.hand i) = some ({ s with workers := s.workers.setIfInBounds i w' }, log) := by
  constructor
  · obtain ⟨failure, hphase⟩ : ∃ failure, s.writer.phase = .failed failure := by
      cases hphase : s.writer.phase with
      | failed failure => exact ⟨failure, rfl⟩
      | idle | writing | finished => simp [Writer.isOpen, hphase] at hclosed
    refine ⟨failure, ?_⟩
    intro later s' log hrun
    have hphase' := phase_of_failed hrun hphase
    exact ⟨by simp [Writer.isOpen, hphase'], result_of_failed hphase'⟩
  · intro i w batch last hw hphase
    refine ⟨w.refused.1, w.refused.2, rfl, ?_⟩
    simp only [step, hw, hphase, hclosed, if_true, setWorker]

/-- A run that is over without a failed write has finished, and reports its counts. -/
theorem System.result_of_open (hover : s.isOver = true) (hopen : s.writer.isOpen = true) :
    s.writer.phase = .finished ∧ s.result = .ok ⟨s.collected, s.writer.written⟩ := by
  rw [isOver, Bool.and_eq_true] at hover
  have hover := hover.2
  cases hphase : s.writer.phase with
  | finished => exact ⟨rfl, result_of_finished hphase⟩
  | failed failure => simp [Writer.isOpen, hphase] at hopen
  | idle | writing rest => simp [hphase] at hover

end Runs

variable {start : System σ}

/-- **The end.** A run that is never stuck and uses up its steps comes to its end. -/
theorem exists_end [Concluding σ] (hreplays : start.Replays)
    (hprogress : ∀ (labels : List Label) (s : System σ) (log : List LogEvent),
      start.run labels = some (s, log) → s.isOver = false → s.CanStep)
    {labels : List Label} {s : System σ} {log : List LogEvent}
    (hrun : start.run labels = some (s, log)) (hclosing : s.isClosing = true) :
    ∃ later s' log, s.run later = some (s', log) ∧ s'.isOver = true ∧
      ∀ label ∈ later, label.isCancel = false := by
  induction hsteps : s.stepsLeft using Nat.strongRecOn generalizing labels s log with
  | ind steps ih =>
    cases hover : s.isOver with
    | true => exact ⟨[], s, [], rfl, hover, by simp⟩
    | false =>
      obtain ⟨label, ⟨mid, log'⟩, hlabel, hstep⟩ := hprogress labels s log hrun hover
      have hstepped := stepped_of_step hstep
      have hless := hstepped.stepsLeft_lt hclosing (System.replays_of_run hrun hreplays) hlabel
      obtain ⟨later, s', log'', hlater, hover', hlabels⟩ :=
        ih mid.stepsLeft (hsteps ▸ hless) (System.run_snoc hrun hstep)
          (hstepped.isClosing hclosing) rfl
      refine ⟨label :: later, s', log' ++ log'', System.run_cons_of_step hstep hlater, hover', ?_⟩
      exact List.forall_mem_cons.mpr ⟨hlabel, hlabels⟩

/-- Workers that are numbered by their places, on sources that come to an end, shut down. -/
theorem shutsDown_start [LawfulDriven σ] [Concluding σ] (interval : Duration) {capacity : Nat}
    (hcapacity : 0 < capacity) (plan : SinkPlan) {workers : List (Nat × σ)}
    (hids : ∀ (i : Nat) (worker : Nat × σ), workers[i]? = some worker → worker.1 = i)
    {Closing : System σ → Prop} (hclosing : ∀ s, Closing s → s.isClosing = true) :
    (System.start interval capacity plan workers).1.ShutsDown Closing := by
  have haccounts := accounted_start interval capacity plan hids
  have hreplays : (System.start interval capacity plan workers).1.Replays := by
    intro w hw
    simp only [System.start, List.mem_toArray, List.mem_map] at hw
    obtain ⟨worker, -, rfl⟩ := hw
    exact .inr (.inl rfl)
  have hprogress : ∀ (labels : List Label) (s : System σ) (log : List LogEvent),
      (System.start interval capacity plan workers).1.run labels = some (s, log) →
        s.isOver = false → s.CanStep := by
    intro labels s log hrun
    apply System.exists_step
    · rw [System.capacity_of_run hrun]
      exact hcapacity
    · intro hfinished
      obtain ⟨written, h⟩ := haccounts.run hrun (by simp [Writer.isOpen, hfinished])
      exact (h.done hfinished).2
  intro labels s log hrun
  have hreplays' := System.replays_of_run hrun hreplays
  refine ⟨hprogress labels s log hrun, ?_, ?_, ?_, ?_, System.failed_of_closed⟩
  · intro h label s' log' hstep hlabel
    exact (stepped_of_step hstep).stepsLeft_lt (hclosing s h) hreplays' hlabel
  · intro h later s' log' hlater
    refine ⟨System.steps_le hlater (hclosing s h) hreplays', ?_⟩
    intro i w hw
    exact Nat.le_trans (System.hands_le hlater (hclosing s h) hreplays' hw) w.batchesLeft_le_one
  · by_cases h : s.isClosing = true
    · obtain ⟨later, s', log', hlater, hover, hlabels⟩ := exists_end hreplays hprogress hrun h
      exact ⟨later, s', log', hlater, hover, fun _ => hlabels⟩
    · -- A run that is not to end can be cancelled.
      have hcancel : s.step .cancel = some ({ s with cancelled := true }, []) := by
        have : s.cancelled = false := by simp_all [System.isClosing]
        simp [System.step, this]
      obtain ⟨later, s', log', hlater, hover, -⟩ :=
        exists_end hreplays hprogress (System.run_snoc hrun hcancel) rfl
      exact ⟨.cancel :: later, s', [] ++ log', System.run_cons_of_step hcancel hlater, hover,
        fun hs => absurd (hclosing s hs) h⟩
  · intro hover hopen
    obtain ⟨written, h⟩ := haccounts.run hrun hopen
    rw [List.nil_append, List.nil_append] at h
    obtain ⟨hphase, hresult⟩ := System.result_of_open hover hopen
    obtain ⟨hsummary, hknown, hall⟩ := h.all_written hover hresult
    refine ⟨(h.done hphase).1, written, hsummary ▸ hresult, h.wrote.taken_eq, ?_, ?_⟩
    · simpa [System.start] using hknown
    · intro i w hw
      refine (hall i w.source ?_).1
      obtain ⟨worker, hworker, rfl⟩ : ∃ worker, workers[i]? = some worker ∧
          Worker.start worker.1 worker.2 = w := by
        simpa [System.start] using hw
      simp [hworker, Worker.start]

end ShutsDown

/-! ### Launched runs -/

/-- How a launched run of a configured source shuts down: one of a finite source is to end from its
start, and any other once it is cancelled. -/
def ShutsDownSource : ConfiguredSource → Launched → Prop
  | .items _, .items start => start.ShutsDown fun _ => True
  | .itemStream _, .streams start => start.ShutsDown fun s => s.cancelled = true
  | .longStream _, .longs start => start.ShutsDown fun s => s.cancelled = true
  | _, _ => False

/-- A run that is cancelled is to end. -/
theorem System.isClosing_of_cancelled {σ : Type} [Driven σ] {s : System σ}
    (h : s.cancelled = true) : s.isClosing = true := by
  simp [isClosing, h]

/-- A run of workers that do not heed being cancelled is to end from its start. -/
theorem System.isClosing_of_unheeding {σ : Type} [Driven σ] {s : System σ}
    (h : Driven.heedsCancel σ = false) : s.isClosing = true := by
  simp [isClosing, h]

/-- **Shutdown.** A run of any accepted configuration, with any number of workers and room for at
least one batch in its queue, shuts down from every state it can come to. -/
theorem launched_run_shuts_down (config : RunConfig) (plan : SinkPlan) (times : LaunchTimes)
    {source : ConfiguredSource} (hbuild : config.source.build = .ok source)
    (hcapacity : 0 < config.channelCapacity) :
    ∃ launched log, launch config plan times = .ok (launched, log) ∧
      ShutsDownSource source launched := by
  unfold launch
  rw [hbuild]
  cases source with
  | items source =>
    refine ⟨.items _, _, rfl, ?_⟩
    exact shutsDown_start _ hcapacity plan (fun _ _ => fst_of_getElem?_singleton)
      fun _ _ => System.isClosing_of_unheeding rfl
  | itemStream supplier =>
    refine ⟨.streams _, _, rfl, ?_⟩
    exact shutsDown_start _ hcapacity plan (fun _ _ => fst_of_getElem?_range)
      fun _ => System.isClosing_of_cancelled
  | longStream source =>
    refine ⟨.longs _, _, rfl, ?_⟩
    apply shutsDown_start _ hcapacity plan ?_ fun _ => System.isClosing_of_cancelled
    intro i worker hworker
    rw [memberInstances_eq] at hworker
    exact fst_of_getElem?_range hworker

/-- Both instances emit a value, and the run is cancelled while one of them waits for room in the
queue. -/
def cancelledWhileFull : List Label :=
  [.turn 0 ⟨250000000, 0⟩, .turn 1 ⟨250000000, 0⟩, .hand 1, .cancel]

theorem launched_run_shuts_down_of_full_queue :
    twoInstances.source.build = .ok (.longStream ⟨4, ⟨0⟩, none⟩) ∧
      0 < twoInstances.channelCapacity ∧
      ∃ start log, launch twoInstances .willing (.at ⟨0, 0⟩) = .ok (.longs start, log) ∧
        ∃ s log', start.run cancelledWhileFull = some (s, log') ∧ s.hasRoom = false ∧ s.CanStep ∧
          (∀ later s' log, s.run later = some (s', log) →
            later.countP (fun label => !label.isCancel) ≤ 13) ∧
          ∃ later s' log, s.run later = some (s', log) ∧ s'.isOver = true := by
  have hbuild : twoInstances.source.build = .ok (.longStream ⟨4, ⟨0⟩, none⟩) := rfl
  have hcapacity : 0 < twoInstances.channelCapacity := by decide
  obtain ⟨launched, log, hlaunch, hshuts⟩ :=
    launched_run_shuts_down twoInstances .willing (.at ⟨0, 0⟩) hbuild hcapacity
  cases launched with
  | items start => exact hshuts.elim
  | streams start => exact hshuts.elim
  | longs start =>
    refine ⟨hbuild, hcapacity, start, log, hlaunch, ?_⟩
    have hfull : (start.run cancelledWhileFull).any (fun last => !last.1.hasRoom &&
        last.1.cancelled && !last.1.isOver && last.1.stepsLeft == 13) = true := by
      obtain rfl := Launched.longs.inj (Prod.mk.inj (Except.ok.inj hlaunch)).1
      decide +kernel
    obtain ⟨⟨s, log'⟩, hrun, hlast⟩ := (Option.any_eq_true _ _).mp hfull
    simp only [Bool.and_eq_true, Bool.not_eq_true', beq_iff_eq] at hlast
    obtain ⟨⟨⟨hroom, hcancelled⟩, hover⟩, hsteps⟩ := hlast
    have hstate := hshuts _ _ _ hrun
    obtain ⟨later, s', log'', hlater, hover', -⟩ := hstate.ends
    refine ⟨s, log', hrun, hroom, hstate.progress hover, ?_, later, s', log'', hlater, hover'⟩
    intro later s' log hlater
    have := (hstate.bounded hcancelled later s' log hlater).1
    omega

end Pacing.Run
