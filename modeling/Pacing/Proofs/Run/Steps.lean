import Mathlib.Algebra.GroupWithZero.Nat
import Pacing.Run.System

/-!
# Steps of a run

What a step of a run can do, once and for all: every fact about runs is derived from the cases of
`Stepped`, never from the step function.
-/

namespace Pacing.Run

/-- The step cancels the run. -/
def Label.isCancel : Label → Bool
  | .cancel => true
  | _ => false

/-- The readings at which a worker takes turns in a run: those of its turns until the run is
cancelled, or of all its turns if it does not heed that. -/
def turnReadings (heeds : Bool) (i : Nat) : List Label → List Reading
  | [] => []
  | .turn j r :: later =>
    if j = i then r :: turnReadings heeds i later else turnReadings heeds i later
  | .cancel :: later => if heeds then [] else turnReadings heeds i later
  | .release :: later | .hand _ :: later | .wake _ :: later | .join _ :: later
  | .receive :: later | .write :: later | .finish :: later => turnReadings heeds i later

theorem turnReadings_turn (heeds : Bool) (i : Nat) (labels : List Label) (r : Reading) :
    turnReadings heeds i (labels ++ [.turn i r]) =
      if (labels.any Label.isCancel && heeds) = true then turnReadings heeds i labels
      else turnReadings heeds i labels ++ [r] := by
  induction labels with
  | nil => simp [turnReadings]
  | cons label labels ih =>
    cases label with
    | turn j r' =>
      by_cases hj : j = i
      · simp only [List.cons_append, turnReadings, hj, if_true, ih, List.any_cons, Label.isCancel,
          Bool.false_or]
        split <;> rfl
      · simp only [List.cons_append, turnReadings, hj, if_false, ih, List.any_cons, Label.isCancel,
          Bool.false_or]
    | cancel =>
      cases heeds with
      | true => simp [turnReadings, Label.isCancel]
      | false => simpa [turnReadings, Label.isCancel] using ih
    | release | hand | wake | join | receive | write | finish =>
      simpa [turnReadings, Label.isCancel] using ih

theorem turnReadings_of_ne (heeds : Bool) {i : Nat} (label : Label) (h : ∀ r, label ≠ .turn i r)
    (labels : List Label) :
    turnReadings heeds i (labels ++ [label]) = turnReadings heeds i labels := by
  induction labels with
  | nil =>
    cases label with
    | turn j r =>
      have hj : j ≠ i := fun hj => h r (hj ▸ rfl)
      simp [turnReadings, hj]
    | cancel | release | hand | wake | join | receive | write | finish => simp [turnReadings]
  | cons first labels ih => cases first <;> simp [turnReadings, ih]

section Stepped

variable {σ : Type} [Driven σ]

/-- What a step does, and when it is possible. -/
inductive Stepped (s : System σ) : Label → System σ → Prop where
  /-- The run gives up its sender, once. -/
  | released (hheld : s.holdsSender = true) : Stepped s .release { s with holdsSender := false }
  /-- A worker that is ready takes a turn. -/
  | turn {i : Nat} {r : Reading} {w : Worker σ} (hw : s.workers[i]? = some w)
      (hphase : w.phase = .ready) :
      Stepped s (.turn i r)
        { s with workers := s.workers.setIfInBounds i (w.turn s.interval s.cancelled r).1 }
  /-- Nobody takes a batch any more. -/
  | refused {i : Nat} {w : Worker σ} {batch : List Record} {last : Bool}
      (hw : s.workers[i]? = some w) (hphase : w.phase = .sending batch last)
      (hclosed : s.writer.isOpen = false) :
      Stepped s (.hand i) { s with workers := s.workers.setIfInBounds i w.refused.1 }
  /-- A batch goes to the end of the queue, which has room for it. -/
  | handed {i : Nat} {w : Worker σ} {batch : List Record} {last : Bool}
      (hw : s.workers[i]? = some w) (hphase : w.phase = .sending batch last)
      (hopen : s.writer.isOpen = true) (hroom : s.hasRoom = true) :
      Stepped s (.hand i)
        { s with
          queue := s.queue ++ [batch]
          workers := s.workers.setIfInBounds i w.delivered.1 }
  /-- A rest is over. -/
  | woken {i : Nat} {w : Worker σ} {span : Duration} (hw : s.workers[i]? = some w)
      (hphase : w.phase = .resting span) :
      Stepped s (.wake i)
        { s with workers := s.workers.setIfInBounds i (w.wake s.cancelled).1 }
  /-- A worker that has ended is joined. -/
  | joined {i : Nat} {w : Worker σ} (hw : s.workers[i]? = some w) (hphase : w.phase = .stopped)
      (hreleased : s.holdsSender = false) :
      Stepped s (.join i)
        { s with
          collected := s.collected + w.emitted
          workers := s.workers.setIfInBounds i w.join }
  /-- The writer takes the first batch of the queue. -/
  | received {batch : List Record} {queue : List (List Record)} (hphase : s.writer.phase = .idle)
      (hqueue : s.queue = batch :: queue) :
      Stepped s .receive { s with queue := queue, writer := s.writer.receive batch }
  /-- The writer goes on with its batch; when it fails, the queue is dropped. -/
  | wrote {rest : List Record} (hphase : s.writer.phase = .writing rest) :
      Stepped s .write
        { s with
          writer := s.writer.advance
          queue := if s.writer.advance.isOpen then s.queue else [] }
  /-- Nothing more will come. -/
  | finished (hphase : s.writer.phase = .idle) (hqueue : s.queue = [])
      (hsenders : s.noSenders = true) :
      Stepped s .finish { s with writer := { s.writer with phase := .finished } }
  /-- The run is cancelled, once. -/
  | cancelled (huncancelled : s.cancelled = false) :
      Stepped s .cancel { s with cancelled := true }

/-- A step that is done is one of these. -/
theorem stepped_of_step {s s' : System σ} {label : Label} {log : List LogEvent}
    (h : s.step label = some (s', log)) : Stepped s label s' := by
  cases label with
  | release =>
    unfold System.step at h
    dsimp only at h
    split at h
    · rename_i hheld
      cases h
      exact .released hheld
    · cases h
  | turn i r =>
    unfold System.step at h
    dsimp only at h
    split at h
    · rename_i w hw
      split at h
      · rename_i hphase
        cases h
        exact .turn hw hphase
      · cases h
    · cases h
  | hand i =>
    unfold System.step at h
    dsimp only at h
    split at h
    · rename_i w hw
      split at h
      · rename_i batch last hphase
        split at h
        · rename_i hclosed
          cases h
          exact .refused hw hphase hclosed
        · rename_i hopen
          split at h
          · rename_i hroom
            cases h
            exact .handed hw hphase (eq_true_of_ne_false hopen) hroom
          · cases h
      · cases h
    · cases h
  | wake i =>
    unfold System.step at h
    dsimp only at h
    split at h
    · rename_i w hw
      split at h
      · rename_i span hphase
        cases h
        exact .woken hw hphase
      · cases h
    · cases h
  | join i =>
    unfold System.step at h
    dsimp only at h
    split at h
    · rename_i w hw
      split at h
      · rename_i hphase
        split at h
        · cases h
        · rename_i hreleased
          cases h
          exact .joined hw hphase (eq_false_of_ne_true hreleased)
      · cases h
    · cases h
  | receive =>
    unfold System.step at h
    dsimp only at h
    split at h
    · rename_i batch queue hphase hqueue
      cases h
      exact .received hphase hqueue
    · cases h
  | write =>
    unfold System.step at h
    dsimp only at h
    split at h
    · rename_i rest hphase
      cases h
      exact .wrote hphase
    · cases h
  | finish =>
    unfold System.step at h
    dsimp only at h
    split at h
    · rename_i hphase hqueue
      split at h
      · rename_i hsenders
        cases h
        exact .finished hphase hqueue hsenders
      · cases h
    · cases h
  | cancel =>
    unfold System.step at h
    dsimp only at h
    split at h
    · cases h
    · rename_i huncancelled
      cases h
      exact .cancelled (eq_false_of_ne_true huncancelled)

/-- A writer that has failed stays so. -/
theorem Stepped.isOpen_of_isOpen {s s' : System σ} {label : Label} (h : Stepped s label s')
    (hopen : s'.writer.isOpen = true) : s.writer.isOpen = true := by
  cases h with
  | released | turn | refused | handed | woken | joined | cancelled => exact hopen
  | received hphase | wrote hphase | finished hphase => simp [Writer.isOpen, hphase]

/-- Replacing an element of a list changes a sum over the list by the difference. -/
theorem sum_map_set {α : Type} {f : α → Nat} {l : List α} {i : Nat} {x : α} (hx : l[i]? = some x)
    (y : α) : ((l.set i y).map f).sum + f x = (l.map f).sum + f y := by
  induction l generalizing i with
  | nil => simp at hx
  | cons first l ih =>
    cases i with
    | zero =>
      obtain rfl : first = x := by simpa using hx
      simp only [List.set_cons_zero, List.map_cons, List.sum_cons]
      omega
    | succ i =>
      have := ih (by simpa using hx)
      simp only [List.set_cons_succ, List.map_cons, List.sum_cons]
      omega

omit [Driven σ] in
/-- A sum over the workers after one of them has done something. -/
theorem System.sum_setWorker {s : System σ} {i : Nat} {w : Worker σ} (hw : s.workers[i]? = some w)
    (w' : Worker σ) (f : Worker σ → Nat) :
    ((s.workers.setIfInBounds i w').toList.map f).sum + f w =
      (s.workers.toList.map f).sum + f w' := by
  rw [Array.toList_setIfInBounds]
  exact sum_map_set (by simpa using hw) w'

/-- A run is its first step and the run after it. -/
theorem System.run_cons {s s' : System σ} {label : Label} {later : List Label}
    {log : List LogEvent} (h : s.run (label :: later) = some (s', log)) :
    ∃ mid log, Stepped s label mid ∧ mid.run later = some (s', log) := by
  rw [System.run] at h
  cases hstep : s.step label with
  | none => simp [hstep] at h
  | some next =>
    cases hlater : next.1.run later with
    | none => simp [hstep, hlater] at h
    | some last =>
      simp only [hstep, hlater, Option.bind_eq_bind, Option.bind_some, Option.pure_def,
        Option.some.injEq, Prod.mk.injEq] at h
      exact ⟨next.1, last.2, stepped_of_step hstep, h.1 ▸ hlater⟩

/-- A run at whose end the writer has not failed is one in which it never has. -/
theorem System.isOpen_of_run {s s' : System σ} {labels : List Label} {log : List LogEvent}
    (h : s.run labels = some (s', log)) (hopen : s'.writer.isOpen = true) :
    s.writer.isOpen = true := by
  induction labels generalizing s log with
  | nil =>
    cases h
    exact hopen
  | cons label later ih =>
    obtain ⟨mid, log, hstep, hlater⟩ := run_cons h
    exact hstep.isOpen_of_isOpen (ih hlater)

end Stepped

end Pacing.Run
