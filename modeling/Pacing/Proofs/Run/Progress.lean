import Pacing.Proofs.Run.Steps

/-!
# Progress

No state of a run is stuck. The run can give up its sender. A worker that has not ended can do
something of its own, unless it waits with a batch for room in the queue; then the queue is full, and
the writer can take from it. A worker that has ended can be joined. Once all have been, nobody holds
a sender, and the writer is through, or can go on or finish.

* `exists_worker_step` and `exists_writer_step` say who can do something.
* `exists_step` puts them together.
-/

namespace Pacing.Run.System

variable {σ : Type} [Driven σ] {s : System σ}

/-- The run, a worker or the writer can do something. -/
def CanStep (s : System σ) : Prop :=
  ∃ label next, label.isCancel = false ∧ s.step label = some next

/-- While the writer has something to do, it can do it. -/
theorem exists_writer_step (hopen : s.writer.isOpen = true) (hunfinished : s.writer.phase ≠ .finished)
    (hwork : s.queue ≠ [] ∨ s.noSenders = true) : s.CanStep := by
  cases hphase : s.writer.phase with
  | writing rest => exact ⟨.write, _, rfl, by simp only [step, hphase]; rfl⟩
  | finished => exact absurd hphase hunfinished
  | failed failure => simp [Writer.isOpen, hphase] at hopen
  | idle =>
    cases hqueue : s.queue with
    | cons batch queue => exact ⟨.receive, _, rfl, by simp only [step, hphase, hqueue]; rfl⟩
    | nil =>
      have hsenders : s.noSenders = true := hwork.resolve_left fun hne => hne hqueue
      exact ⟨.finish, _, rfl, by simp only [step, hphase, hqueue, hsenders, if_true]; rfl⟩

/-- A worker that has not ended can do something, unless it waits for room in a full queue; and one
that has ended can be joined, once the run has given up its sender. -/
theorem exists_worker_step {i : Nat} {w : Worker σ} (hw : s.workers[i]? = some w)
    (hphase : w.phase ≠ .joined) (hreleased : s.holdsSender = false) :
    s.CanStep ∨ w.isStopped = false ∧ s.writer.isOpen = true ∧ s.hasRoom = false := by
  cases hdoing : w.phase with
  | ready => exact .inl ⟨.turn i default, _, rfl, by simp only [step, hw, hdoing]; rfl⟩
  | resting span => exact .inl ⟨.wake i, _, rfl, by simp only [step, hw, hdoing]; rfl⟩
  | stopped =>
    have hjoin : s.step (.join i) =
        some ({ s with collected := s.collected + w.emitted }.setWorker i (w.join, [])) := by
      simp [step, hw, hdoing, hreleased]
    exact .inl ⟨.join i, _, rfl, hjoin⟩
  | joined => exact absurd hdoing hphase
  | sending batch last =>
    cases hopen : s.writer.isOpen with
    | false => exact .inl ⟨.hand i, _, rfl, by simp only [step, hw, hdoing, hopen, if_true]; rfl⟩
    | true =>
      cases hroom : s.hasRoom with
      | false => exact .inr ⟨by simp [Worker.isStopped, hdoing], rfl, rfl⟩
      | true => exact .inl ⟨.hand i, _, rfl, by simp [step, hw, hdoing, hopen, hroom]; rfl⟩

omit [Driven σ] in
/-- Workers that have been joined have ended. -/
theorem allStopped_of_allJoined (h : s.allJoined = true) : s.allStopped = true := by
  rw [allJoined, Array.all_eq_true_iff_forall_mem] at h
  rw [allStopped, Array.all_eq_true_iff_forall_mem]
  intro w hw
  have hphase : w.phase = .joined := by simpa [Worker.isJoined] using h w hw
  simp [Worker.isStopped, hphase]

omit [Driven σ] in
/-- A queue without room holds a batch. -/
theorem queue_ne_nil (hcapacity : 0 < s.capacity) (hroom : s.hasRoom = false) : s.queue ≠ [] := by
  intro hqueue
  simp [hasRoom, hqueue] at hroom
  omega

/-- **Progress.** Until the run is over, something can be done. -/
theorem exists_step (hcapacity : 0 < s.capacity)
    (hdone : s.writer.phase = .finished → s.allStopped = true) (hover : s.isOver = false) :
    s.CanStep := by
  cases hreleased : s.holdsSender with
  | true => exact ⟨.release, _, rfl, if_pos hreleased⟩
  | false =>
    cases hjoined : s.allJoined with
    | false =>
      obtain ⟨i, hi, hw⟩ := Array.all_eq_false.mp hjoined
      have hphase : s.workers[i].phase ≠ .joined := by simpa [Worker.isJoined] using hw
      rcases exists_worker_step (Array.getElem?_eq_getElem hi) hphase hreleased with
        hstep | ⟨hrunning, hopen, hroom⟩
      · exact hstep
      · -- The worker waits for room: the writer has the whole queue before it.
        refine exists_writer_step hopen ?_ (.inl (queue_ne_nil hcapacity hroom))
        intro hfinished
        have hstopped := Array.all_eq_true.mp (hdone hfinished) i hi
        rw [hrunning] at hstopped
        cases hstopped
    | true =>
      have hworking : s.writer.isOpen = true ∧ s.writer.phase ≠ .finished := by
        cases hphase : s.writer.phase <;> simp_all [isOver, Writer.isOpen]
      refine exists_writer_step hworking.1 hworking.2 (.inr ?_)
      simp [noSenders, hreleased, allStopped_of_allJoined hjoined]

end Pacing.Run.System
