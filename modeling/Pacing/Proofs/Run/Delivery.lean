import Pacing.Proofs.Run.Output
import Pacing.Proofs.Run.Steps
import Pacing.Proofs.Run.Worker

/-!
# Delivery

Where the records of a run are. Until the writer fails, what a worker's source has emitted is,
in this order, in the output, in the batch being written, in the queue, and in the batch the
worker waits with. Every step only moves records along this way.

* `Accounted` is the invariant of a run, `Accounted.step` its step and `Accounted.run` the run.
* `Accounted.all_written` is what is left of it once the run is over.
-/

namespace Pacing.Run

/-- The records of one worker, in order. -/
def ofWorker (i : Nat) (records : List Record) : List Record :=
  records.filter fun r => r.worker == i

section OfWorker

variable {i j : Nat} {records more : List Record}

@[simp]
theorem ofWorker_nil (i : Nat) : ofWorker i [] = [] := rfl

@[simp]
theorem ofWorker_append (i : Nat) (records more : List Record) :
    ofWorker i (records ++ more) = ofWorker i records ++ ofWorker i more := by
  simp [ofWorker]

theorem ofWorker_of_forall (h : ∀ r ∈ records, r.worker = i) : ofWorker i records = records := by
  simpa [ofWorker, List.filter_eq_self] using h

theorem ofWorker_of_ne (h : ∀ r ∈ records, r.worker = j) (hij : j ≠ i) :
    ofWorker i records = [] := by
  rw [ofWorker, List.filter_eq_nil_iff]
  intro r hr
  simp [h r hr, hij]

theorem countP_worker_lt_succ (n : Nat) (records : List Record) :
    records.countP (fun r => r.worker < n + 1) =
      records.countP (fun r => r.worker < n) + (ofWorker n records).length := by
  induction records with
  | nil => rfl
  | cons r records ih =>
    rw [ofWorker, List.filter_cons, List.countP_cons, List.countP_cons, ih, ofWorker]
    rcases Nat.lt_trichotomy r.worker n with hlt | rfl | hgt
    · have hsucc : r.worker < n + 1 := Nat.lt_succ_of_lt hlt
      simp [hlt, hsucc, Nat.ne_of_lt hlt]
      omega
    · simp
      omega
    · have hsucc : ¬ r.worker < n + 1 := Nat.not_lt_of_le hgt
      simp [hsucc, Nat.not_lt_of_gt hgt, Nat.ne_of_gt hgt]

end OfWorker

/-- Counts of workers that are the numbers of records of each add up to the number of records of them
all. -/
theorem sum_counts {σ : Type} {workers : List (Worker σ)} {count : Worker σ → Nat}
    {records : List Record}
    (h : ∀ (i : Nat) (w : Worker σ), workers[i]? = some w →
      count w = (ofWorker i records).length) :
    (workers.map count).sum = records.countP fun r => r.worker < workers.length := by
  have htake : ∀ n ≤ workers.length,
      ((workers.take n).map count).sum = records.countP fun r => r.worker < n := by
    intro n
    induction n with
    | zero => simp
    | succ n ih =>
      intro hn
      have hworker := List.getElem?_eq_getElem (Nat.lt_of_succ_le hn)
      rw [List.take_add_one, hworker, Option.toList_some, List.map_append, List.sum_append,
        ih (Nat.le_of_succ_le hn), List.map_singleton, List.sum_singleton, h n _ hworker,
        countP_worker_lt_succ]
  rw [← htake workers.length (Nat.le_refl _), List.take_length]

section Accounts

variable {σ : Type} [Driven σ]

/-- The records that workers have handed over: those written, those in the batch being written,
and those in the queue. -/
def System.handed (s : System σ) (written : List Record) : List Record :=
  written ++ s.writer.batch ++ s.queue.flatten

/-- **Accounts.** A run of workers that were started with these sources, each with its place as its
number, after these steps and with these records written. -/
structure Accounted (sources : List σ) (labels : List Label) (s : System σ)
    (written : List Record) : Prop where
  wrote : s.writer.Wrote written
  cancelled_eq : s.cancelled = labels.any Label.isCancel
  size_eq : s.workers.size = sources.length
  collected_eq : s.collected = (s.workers.toList.map Worker.counted).sum
  known : ∀ r ∈ s.handed written, r.worker < sources.length
  /-- The writer finishes only when everything is done. -/
  done : s.writer.phase = .finished → s.queue = [] ∧ s.allStopped = true
  tracked : ∀ (i : Nat) (source : σ), sources[i]? = some source →
    ∃ w, s.workers[i]? = some w ∧
      w.Track i source (turnReadings (Driven.heedsCancel σ) i labels)
        (ofWorker i (s.handed written))

section Step

variable {sources : List σ} {labels : List Label} {s : System σ} {written : List Record}

/-- A step may write nothing. -/
theorem Accounted.unwritten (h : Accounted sources labels s written) :
    ∃ more, Accounted sources labels s (written ++ more) :=
  ⟨[], by rwa [List.append_nil]⟩

/-- Every worker is tracked. -/
theorem Accounted.track_of_worker (h : Accounted sources labels s written) {i : Nat}
    {w : Worker σ} (hw : s.workers[i]? = some w) :
    ∃ source, sources[i]? = some source ∧
      w.Track i source (turnReadings (Driven.heedsCancel σ) i labels)
        (ofWorker i (s.handed written)) := by
  have hi := (Array.getElem?_eq_some_iff.mp hw).1
  rw [h.size_eq] at hi
  obtain ⟨w', hw', htrack⟩ := h.tracked i _ (List.getElem?_eq_getElem hi)
  obtain rfl : w = w' := Option.some.inj (hw.symm.trans hw')
  exact ⟨_, List.getElem?_eq_getElem hi, htrack⟩

/-- While a worker has not ended, the writer does not finish. -/
theorem Accounted.not_finished (h : Accounted sources labels s written) {i : Nat} {w : Worker σ}
    (hw : s.workers[i]? = some w) (hrunning : w.isStopped = false) :
    s.writer.phase ≠ .finished := by
  intro hfinished
  have hall := (h.done hfinished).2
  rw [System.allStopped, Array.all_eq_true_iff_forall_mem] at hall
  have hstopped := hall w (Array.mem_of_getElem? hw)
  rw [hrunning] at hstopped
  cases hstopped

/-- What a worker waits with is its own. -/
theorem Accounted.worker_of_mem_batch [LawfulDriven σ] (h : Accounted sources labels s written)
    {i : Nat} {w : Worker σ} (hw : s.workers[i]? = some w) {batch : List Record} {last : Bool}
    (hphase : w.phase = .sending batch last) : ∀ r ∈ batch, r.worker = i := by
  intro r hr
  obtain ⟨source, -, htrack⟩ := h.track_of_worker hw
  have hblocked : w.blocked = batch := by simp [Worker.blocked, hphase]
  have hsent := htrack.sent_eq
  rw [hblocked] at hsent
  have hmem := List.mem_append_right (ofWorker i (s.handed written)) hr
  rw [hsent] at hmem
  exact worker_of_mem_sent hmem

/-- **Workers.** A step of one worker keeps the accounts if it keeps track of that worker, adds at
most a batch of the worker's own to the queue, and counts what it has emitted no sooner than it is
joined. -/
theorem Accounted.worker_step (h : Accounted sources labels s written) {i : Nat} {w w' : Worker σ}
    {label : Label} {queue : List (List Record)} {collected : Nat} {batch : List Record}
    (hw : s.workers[i]? = some w) (hlabel : label.isCancel = false)
    (hothers : ∀ j, j ≠ i → ∀ r, label ≠ .turn j r)
    (hqueue : queue.flatten = s.queue.flatten ++ batch) (hown : ∀ r ∈ batch, r.worker = i)
    (hcounted : collected + w.counted = s.collected + w'.counted)
    (hdone : s.writer.phase = .finished → queue = [] ∧ w'.isStopped = true)
    (htrack : ∀ source, w.Track i source (turnReadings (Driven.heedsCancel σ) i labels)
        (ofWorker i (s.handed written)) →
      w'.Track i source (turnReadings (Driven.heedsCancel σ) i (labels ++ [label]))
        (ofWorker i (s.handed written) ++ batch)) :
    Accounted sources (labels ++ [label])
      { s with
        queue := queue
        collected := collected
        workers := s.workers.setIfInBounds i w' } written := by
  have hi : i < s.workers.size := (Array.getElem?_eq_some_iff.mp hw).1
  have hhanded : System.handed
      { s with
        queue := queue
        collected := collected
        workers := s.workers.setIfInBounds i w' } written =
        s.handed written ++ batch := by
    simp [System.handed, hqueue]
  refine ⟨h.wrote, by simpa [hlabel] using h.cancelled_eq, by simpa using h.size_eq, ?_, ?_, ?_, ?_⟩
  · have hsum := System.sum_setWorker hw w' Worker.counted
    have hcollected := h.collected_eq
    dsimp only
    omega
  · intro r hr
    rw [hhanded] at hr
    rcases List.mem_append.mp hr with hr | hr
    · exact h.known r hr
    · rw [hown r hr, ← h.size_eq]
      exact hi
  · intro hfinished
    obtain ⟨hempty, hstopped⟩ := hdone hfinished
    have hall := (h.done hfinished).2
    rw [System.allStopped, Array.all_eq_true_iff_forall_mem] at hall ⊢
    refine ⟨hempty, fun v hv => ?_⟩
    rcases Array.mem_or_eq_of_mem_setIfInBounds hv with hv | rfl
    · exact hall v hv
    · exact hstopped
  · intro j source hsource
    obtain ⟨v, hv, htracked⟩ := h.tracked j source hsource
    rw [hhanded, ofWorker_append]
    by_cases hj : j = i
    · subst hj
      obtain rfl : w = v := Option.some.inj (hw.symm.trans hv)
      refine ⟨w', ?_, ?_⟩
      · rw [Array.getElem?_setIfInBounds_self, if_pos hi]
      · rw [ofWorker_of_forall hown]
        exact htrack source htracked
    · refine ⟨v, ?_, ?_⟩
      · rw [Array.getElem?_setIfInBounds_ne (Ne.symm hj)]
        exact hv
      · rw [turnReadings_of_ne _ _ (hothers j hj), ofWorker_of_ne hown (Ne.symm hj), List.append_nil]
        exact htracked

/-- **Writer.** A step that leaves the workers alone keeps the accounts if no record that was handed
over gets lost or out of place. -/
theorem Accounted.writer_step (h : Accounted sources labels s written) {label : Label}
    {writer : Writer} {queue : List (List Record)} {more : List Record}
    (hlabel : label.isCancel = false) (hturn : ∀ i r, label ≠ .turn i r)
    (hwrote : writer.Wrote (written ++ more))
    (hhanded : more ++ writer.batch ++ queue.flatten = s.writer.batch ++ s.queue.flatten)
    (hdone : writer.phase = .finished → queue = [] ∧ s.allStopped = true) :
    Accounted sources (labels ++ [label]) { s with writer := writer, queue := queue }
      (written ++ more) := by
  have hsame : System.handed { s with writer := writer, queue := queue } (written ++ more) =
      s.handed written := by
    simpa [System.handed] using hhanded
  refine ⟨hwrote, by simpa [hlabel] using h.cancelled_eq, h.size_eq, h.collected_eq, ?_, hdone, ?_⟩
  · rw [hsame]
    exact h.known
  · intro i source hsource
    rw [hsame, turnReadings_of_ne _ _ (hturn i)]
    exact h.tracked i source hsource

/-- **Control.** Being cancelled, and giving up the run's own sender, moves no record. -/
theorem Accounted.control_step (h : Accounted sources labels s written) {label : Label}
    {cancelled holdsSender : Bool} (hturn : ∀ i r, label ≠ .turn i r)
    (hcancelled : cancelled = (labels ++ [label]).any Label.isCancel) :
    Accounted sources (labels ++ [label])
      { s with cancelled := cancelled, holdsSender := holdsSender } written := by
  refine ⟨h.wrote, hcancelled, h.size_eq, h.collected_eq, h.known, h.done, ?_⟩
  intro i source hsource
  rw [turnReadings_of_ne _ _ (hturn i)]
  exact h.tracked i source hsource

/-- A step of a worker that has not ended. -/
theorem Accounted.running_step (h : Accounted sources labels s written) {i : Nat} {w w' : Worker σ}
    {label : Label} {queue : List (List Record)} {batch : List Record}
    (hw : s.workers[i]? = some w) (hrunning : w.isStopped = false) (hlabel : label.isCancel = false)
    (hothers : ∀ j, j ≠ i → ∀ r, label ≠ .turn j r)
    (hqueue : queue.flatten = s.queue.flatten ++ batch) (hown : ∀ r ∈ batch, r.worker = i)
    (hcounted : w'.counted = 0)
    (htrack : ∀ source, w.Track i source (turnReadings (Driven.heedsCancel σ) i labels)
        (ofWorker i (s.handed written)) →
      w'.Track i source (turnReadings (Driven.heedsCancel σ) i (labels ++ [label]))
        (ofWorker i (s.handed written) ++ batch)) :
    Accounted sources (labels ++ [label])
      { s with queue := queue, workers := s.workers.setIfInBounds i w' } written := by
  refine h.worker_step hw hlabel hothers hqueue hown ?_ ?_ htrack
  · rw [hcounted, Worker.counted_of_running hrunning]
  · exact fun hfinished => absurd hfinished (h.not_finished hw hrunning)

/-- **Step.** A step moves records on their way, and the writer's steps add them to the output. -/
theorem Accounted.step [LawfulDriven σ] (h : Accounted sources labels s written) {label : Label}
    {s' : System σ} (hstep : Stepped s label s') (hopen : s'.writer.isOpen = true) :
    ∃ more, Accounted sources (labels ++ [label]) s' (written ++ more) := by
  cases hstep with
  | released =>
    have hcancelled : s.cancelled = (labels ++ [Label.release]).any Label.isCancel := by
      simpa [Label.isCancel] using h.cancelled_eq
    exact (h.control_step (by simp) hcancelled).unwritten
  | @turn i r w hw hphase =>
    apply Accounted.unwritten
    refine h.running_step hw (by simp [Worker.isStopped, hphase]) rfl ?_ (List.append_nil _).symm
      (by simp) (w.turn_counted ..) ?_
    · intro j hj r' heq
      cases heq
      exact hj rfl
    · intro source htrack
      rw [turnReadings_turn, ← h.cancelled_eq, List.append_nil]
      exact htrack.turn hphase s.interval s.cancelled r
  | refused hw hphase hclosed =>
    rw [hclosed] at hopen
    cases hopen
  | @handed i w batch last hw hphase =>
    apply Accounted.unwritten
    apply h.running_step hw (by simp [Worker.isStopped, hphase]) rfl (by simp)
    · rw [List.flatten_append, List.flatten_singleton]
    · exact h.worker_of_mem_batch hw hphase
    · exact w.delivered_counted
    · intro source htrack
      rw [turnReadings_of_ne _ (.hand i) (by simp)]
      exact htrack.delivered hphase
  | @woken i w span hw hphase =>
    apply Accounted.unwritten
    refine h.running_step hw (by simp [Worker.isStopped, hphase]) rfl (by simp)
      (List.append_nil _).symm (by simp) (w.wake_counted _) ?_
    intro source htrack
    rw [turnReadings_of_ne _ (.wake i) (by simp), List.append_nil]
    exact htrack.wake hphase s.cancelled
  | @joined i w hw hphase =>
    apply Accounted.unwritten
    refine h.worker_step hw rfl (by simp) (List.append_nil _).symm (by simp) ?_
      (fun hfinished => ⟨(h.done hfinished).1, rfl⟩) ?_
    · simp [Worker.counted, Worker.join, hphase]
    · intro source htrack
      rw [turnReadings_of_ne _ (.join i) (by simp), List.append_nil]
      exact htrack.join hphase
  | received hphase hqueue =>
    refine ⟨[], h.writer_step rfl (by simp) ?_ ?_ ?_⟩
    · rw [List.append_nil]
      exact ⟨h.wrote.written_eq, h.wrote.taken_eq⟩
    · simp [hqueue, Writer.batch, hphase, Writer.receive]
    · intro hfinished
      cases hfinished
  | wrote hphase =>
    obtain ⟨more, hwrote, hmore, hunfinished⟩ := h.wrote.advance hphase hopen
    have hkept : s.writer.advance.isOpen = true := hopen
    refine ⟨more, h.writer_step rfl (by simp) hwrote ?_
      fun hfinished => absurd hfinished hunfinished⟩
    rw [if_pos hkept, hmore]
    simp [Writer.batch, hphase]
  | finished hphase hqueue hsenders =>
    have hstopped := (Bool.and_eq_true_iff.mp hsenders).2
    refine ⟨[], h.writer_step rfl (by simp) ?_ ?_ fun _ => ⟨hqueue, hstopped⟩⟩
    · rw [List.append_nil]
      exact ⟨h.wrote.written_eq, h.wrote.taken_eq⟩
    · simp [Writer.batch, hphase]
  | cancelled =>
    exact (h.control_step (by simp) (by simp [Label.isCancel])).unwritten

/-- **Run.** As long as the writer has not failed, the accounts of a run are kept. -/
theorem Accounted.run [LawfulDriven σ] (h : Accounted sources labels s written)
    {later : List Label} {s' : System σ} {log : List LogEvent}
    (hrun : s.run later = some (s', log)) (hopen : s'.writer.isOpen = true) :
    ∃ more, Accounted sources (labels ++ later) s' (written ++ more) := by
  induction later generalizing s labels written log with
  | nil =>
    cases hrun
    exact ⟨[], by simpa using h⟩
  | cons label later ih =>
    obtain ⟨mid, log, hstep, hlater⟩ := System.run_cons hrun
    obtain ⟨more, hmid⟩ := h.step hstep (System.isOpen_of_run hlater hopen)
    obtain ⟨rest, hrest⟩ := ih hmid hlater
    exact ⟨more ++ rest, by simpa using hrest⟩

end Step

/-- A run starts with nothing handed over. -/
theorem accounted_start (interval : Duration) (capacity : Nat) (plan : SinkPlan)
    {workers : List (Nat × σ)}
    (hids : ∀ (i : Nat) (worker : Nat × σ), workers[i]? = some worker → worker.1 = i) :
    Accounted (workers.map Prod.snd) [] (System.start interval capacity plan workers).1 [] := by
  have hcollected : (System.start interval capacity plan workers).1.collected =
      ((System.start interval capacity plan workers).1.workers.toList.map Worker.counted).sum := by
    have hnone : ∀ worker : Nat × σ, (Worker.start worker.1 worker.2).counted = 0 := fun _ => rfl
    simp [System.start, Function.comp_def, hnone, List.map_const']
  refine ⟨Writer.wrote_start plan, rfl, by simp [System.start], hcollected, by simp [System.handed,
    System.start, Writer.start, Writer.batch], nofun, ?_⟩
  intro i source hsource
  rw [List.getElem?_map, Option.map_eq_some_iff] at hsource
  obtain ⟨worker, hworker, rfl⟩ := hsource
  obtain rfl := hids i worker hworker
  refine ⟨Worker.start worker.1 worker.2, ?_, Worker.track_start worker.1 worker.2⟩
  simp [System.start, hworker]

/-! ### The end of a run -/

section End

variable {sources : List σ} {labels : List Label} {s : System σ} {written : List Record}

omit [Driven σ] in
/-- Of a run that is over, every worker has been joined. -/
theorem System.joined_of_isOver (hover : s.isOver = true) {i : Nat} {w : Worker σ}
    (hw : s.workers[i]? = some w) : w.phase = .joined := by
  rw [System.isOver, Bool.and_eq_true, Bool.and_eq_true, System.allJoined,
    Array.all_eq_true_iff_forall_mem] at hover
  simpa [Worker.isJoined] using hover.1.2 w (Array.mem_of_getElem? hw)

/-- A run that ends without a failure reports what it and its writer have counted. -/
theorem System.finished_of_result {summary : Summary} (hover : s.isOver = true)
    (hresult : s.result = .ok summary) :
    s.writer.phase = .finished ∧ summary = ⟨s.collected, s.writer.written⟩ := by
  rw [System.isOver, Bool.and_eq_true] at hover
  have hover := hover.2
  unfold System.result Writer.result at hresult
  cases hphase : s.writer.phase with
  | finished =>
    rw [hphase] at hresult
    exact ⟨rfl, (Except.ok.inj hresult).symm⟩
  | failed failure =>
    rw [hphase] at hresult
    cases hresult
  | idle | writing rest => simp [hphase] at hover

/-- **The end.** When a run has ended without a failure, what was written is everything that was
emitted, and every worker that does not heed being cancelled has taken a turn. -/
theorem Accounted.all_written (h : Accounted sources labels s written) {summary : Summary}
    (hover : s.isOver = true) (hresult : s.result = .ok summary) :
    summary = ⟨written.length, written.length⟩ ∧ (∀ r ∈ written, r.worker < sources.length) ∧
      ∀ (i : Nat) (source : σ), sources[i]? = some source →
        ofWorker i written = sent i source (turnReadings (Driven.heedsCancel σ) i labels) ∧
          (Driven.heedsCancel σ = false → turnReadings (Driven.heedsCancel σ) i labels ≠ []) := by
  obtain ⟨hphase, rfl⟩ := System.finished_of_result hover hresult
  have hqueue := (h.done hphase).1
  have hhanded : s.handed written = written := by
    simp [System.handed, hqueue, Writer.batch, hphase]
  have hworkers : ∀ (i : Nat) (source : σ), sources[i]? = some source →
      ∃ w, s.workers[i]? = some w ∧ w.phase = .joined ∧
        w.Track i source (turnReadings (Driven.heedsCancel σ) i labels) (ofWorker i written) := by
    intro i source hsource
    obtain ⟨w, hw, htrack⟩ := h.tracked i source hsource
    exact ⟨w, hw, System.joined_of_isOver hover hw, hhanded ▸ htrack⟩
  have hsent : ∀ (i : Nat) (source : σ), sources[i]? = some source →
      ofWorker i written = sent i source (turnReadings (Driven.heedsCancel σ) i labels) := by
    intro i source hsource
    obtain ⟨w, -, hw, htrack⟩ := hworkers i source hsource
    simpa [Worker.blocked, hw] using htrack.sent_eq
  have hknown := h.known
  rw [hhanded] at hknown
  have hcounts : ∀ (i : Nat) (w : Worker σ), s.workers.toList[i]? = some w →
      w.counted = (ofWorker i written).length := by
    intro i w hw
    rw [Array.getElem?_toList] at hw
    obtain ⟨source, hsource, htrack⟩ := h.track_of_worker hw
    rw [Worker.counted, System.joined_of_isOver hover hw, htrack.emitted_eq,
      hsent i source hsource]
  have hcollected : s.collected = written.length := by
    rw [h.collected_eq, sum_counts hcounts, List.countP_eq_length, Array.length_toList, h.size_eq]
    simpa using hknown
  refine ⟨?_, hknown, ?_⟩
  · rw [hcollected, h.wrote.written_eq]
  · intro i source hsource
    refine ⟨hsent i source hsource, ?_⟩
    intro hheeds hnone
    obtain ⟨w, -, hw, htrack⟩ := hworkers i source hsource
    have hready := htrack.waits hnone hheeds
    rw [hw] at hready
    cases hready

end End

end Accounts

end Pacing.Run
