import Pacing.Run.Worker
import Pacing.Proofs.Polling

/-!
# What a worker has sent

A worker's source has emitted what the batches of its turns hold. All of it has been handed over,
except for the batch the worker waits with; its counter says how much it was.

* `sent` and `turned` follow a source through its turns; on a paced source they are its polls.
* `Worker.Track` is the invariant of a worker, with one lemma for each thing it does.
-/

namespace Pacing.Run

/-- The batch that is sent after a turn. -/
def Next.batch : Next → List Record
  | .send batch _ => batch
  | _ => []

/-- A source whose turns count what they send and mark it with the worker. -/
class LawfulDriven (σ : Type) [Driven σ] : Prop where
  emitted_eq : ∀ (id : Nat) (s : σ) (r : Reading),
    (Driven.turn id s r).emitted = (Driven.turn id s r).next.batch.length
  worker_eq : ∀ (id : Nat) (s : σ) (r : Reading),
    ∀ record ∈ (Driven.turn id s r).next.batch, record.worker = id

section Turns

variable {σ : Type} [Driven σ]

/-- A source after turns at some readings. -/
def turned (id : Nat) : σ → List Reading → σ
  | s, [] => s
  | s, r :: rs => turned id (Driven.turn id s r).source rs

/-- The records of the batches of turns at some readings. -/
def sent (id : Nat) : σ → List Reading → List Record
  | _, [] => []
  | s, r :: rs => (Driven.turn id s r).next.batch ++ sent id (Driven.turn id s r).source rs

theorem turned_snoc (id : Nat) (s : σ) (rs : List Reading) (r : Reading) :
    turned id s (rs ++ [r]) = (Driven.turn id (turned id s rs) r).source := by
  induction rs generalizing s with
  | nil => rfl
  | cons first rs ih => exact ih _

theorem sent_snoc (id : Nat) (s : σ) (rs : List Reading) (r : Reading) :
    sent id s (rs ++ [r]) = sent id s rs ++ (Driven.turn id (turned id s rs) r).next.batch := by
  induction rs generalizing s with
  | nil => simp [sent, turned]
  | cons first rs ih => simp [sent, turned, ih]

theorem worker_of_mem_sent [LawfulDriven σ] {id : Nat} {s : σ} {rs : List Reading} {record : Record}
    (h : record ∈ sent id s rs) : record.worker = id := by
  induction rs generalizing s with
  | nil => simp [sent] at h
  | cons r rs ih =>
    rcases List.mem_append.mp h with h | h
    · exact LawfulDriven.worker_eq id s r record h
    · exact ih h

end Turns

/-! ### Paced sources -/

section Paced

variable {σ α : Type} [Paced σ Empty α] [ToItem α]

/-- The records of items with their times. -/
def recordsOf (worker : Nat) (items : List (Timestamped α)) : List Record :=
  items.map fun t => ⟨worker, some t.timestamp, ToItem.toItem t.item⟩

/-- What is taken from a buffer that was filled with items are their records. -/
theorem take_addAllTimestamped (b : RecordBuffer) (items : List (Timestamped α)) :
    (b.addAllTimestamped items).take.1 = b.take.1 ++ recordsOf b.worker items := by
  induction items generalizing b with
  | nil => simp [RecordBuffer.addAllTimestamped, recordsOf]
  | cons t items ih =>
    have hadd : (b.addTimestamped t.item t.timestamp).take.1 =
        b.take.1 ++ recordsOf b.worker [t] := Array.toList_push
    have hrest := ih (b.addTimestamped t.item t.timestamp)
    rw [hadd, List.append_assoc] at hrest
    exact hrest

theorem worker_of_mem_recordsOf {id : Nat} {added : List (Timestamped α)} {record : Record}
    (h : record ∈ recordsOf id added) : record.worker = id := by
  obtain ⟨t, -, rfl⟩ := List.mem_map.mp h
  rfl

/-- A turn on a paced source sends what its poll hands over. -/
theorem paced_turn [LawfulPaced σ] (id : Nat) (s : σ) (r : Reading) :
    (Driven.turn id s r).source = (Paced.poll s r).source ∧
      (Driven.turn id s r).next.batch = recordsOf id (Paced.poll s r).added ∧
      (Driven.turn id s r).emitted = (Paced.poll s r).added.length := by
  have hlaw := LawfulPaced.emitted_eq s r
  have hturn : Driven.turn id s r = pacedTurn id s r := rfl
  have hbatch := take_addAllTimestamped (.new id) (Paced.poll s r).added
  rw [hturn]
  unfold pacedTurn
  dsimp only
  split
  · rename_i n houtcome
    exact ⟨rfl, hbatch, hlaw _ houtcome⟩
  · rename_i d houtcome
    have hnone : (Paced.poll s r).added = [] :=
      List.eq_nil_of_length_eq_zero (hlaw _ houtcome).symm
    rw [hnone]
    exact ⟨rfl, rfl, rfl⟩
  · rename_i e _
    exact e.elim

instance [LawfulPaced σ] : LawfulDriven σ where
  emitted_eq id s r := by
    obtain ⟨-, hbatch, hemitted⟩ := paced_turn id s r
    rw [hbatch, hemitted, recordsOf, List.length_map]
  worker_eq id s r record h := by
    rw [(paced_turn id s r).2.1] at h
    exact worker_of_mem_recordsOf h

end Paced

/-! ### Finite sources -/

/-- What is taken from a buffer that was filled with documents are their records. -/
theorem take_addAll (b : RecordBuffer) (values : List Json) :
    (SourceBuffer.addAll b values).take.1 = b.take.1 ++ values.map (.ofValue b.worker) := by
  induction values generalizing b with
  | nil => simp [SourceBuffer.addAll]
  | cons value values ih =>
    have hadd : (b.addValue value).take.1 = b.take.1 ++ [.ofValue b.worker value] :=
      Array.toList_push
    have hrest := ih (b.addValue value)
    rw [hadd, List.append_assoc] at hrest
    exact hrest

/-- An empty buffer is not sent, and nothing would have been in it. -/
theorem batch_of_take (b : RecordBuffer) :
    (if b.isEmpty then Next.finish else .send b.take.1 true).batch = b.take.1 := by
  split
  case isTrue hempty => simp [Next.batch, RecordBuffer.take, Array.isEmpty_iff.mp hempty]
  case isFalse => rfl

/-- The only turn on a finite source sends everything. -/
theorem replay_turn (id : Nat) (s : ItemsSource Json) (r : Reading) :
    (Driven.turn id s r).source = ⟨none⟩ ∧
      (Driven.turn id s r).next.batch = (s.items.getD []).map (Record.ofValue id) ∧
      (Driven.turn id s r).emitted = (s.items.getD []).length := by
  obtain ⟨items⟩ := s
  cases items with
  | none => exact ⟨rfl, rfl, rfl⟩
  | some items => exact ⟨rfl, (batch_of_take _).trans (take_addAll (.new id) items), rfl⟩

/-- A worker on a finite source sends everything in its first turn. -/
theorem sent_replay (id : Nat) (s : ItemsSource Json) (rs : List Reading) :
    sent id s rs = if rs = [] then [] else (s.items.getD []).map (Record.ofValue id) := by
  have hafter : ∀ rs, sent id (⟨none⟩ : ItemsSource Json) rs = [] := by
    intro rs
    induction rs with
    | nil => rfl
    | cons r rs ih =>
      obtain ⟨hsource, hbatch, -⟩ := replay_turn id ⟨none⟩ r
      rw [sent, hsource, hbatch, ih]
      rfl
  cases rs with
  | nil => rfl
  | cons r rs =>
    obtain ⟨hsource, hbatch, -⟩ := replay_turn id s r
    rw [sent, hsource, hbatch, hafter, List.append_nil, if_neg (by simp)]

instance : LawfulDriven (ItemsSource Json) where
  emitted_eq id s r := by
    obtain ⟨-, hbatch, hemitted⟩ := replay_turn id s r
    rw [hbatch, hemitted, List.length_map]
  worker_eq id s r record h := by
    rw [(replay_turn id s r).2.1] at h
    obtain ⟨value, -, rfl⟩ := List.mem_map.mp h
    rfl

/-! ### Workers -/

namespace Worker

variable {σ : Type}

/-- The batch a worker waits with. -/
def blocked (w : Worker σ) : List Record :=
  match w.phase with
  | .sending batch _ => batch
  | _ => []

/-- What the run has counted of a worker: nothing before it was joined. -/
def counted (w : Worker σ) : Nat :=
  match w.phase with
  | .joined => w.emitted
  | _ => 0

theorem counted_of_running {w : Worker σ} (h : w.isStopped = false) : w.counted = 0 := by
  cases hphase : w.phase with
  | joined => simp [isStopped, hphase] at h
  | ready | sending | resting | stopped => simp [counted, hphase]

variable [Driven σ]

theorem turn_counted (w : Worker σ) (interval : Duration) (cancelled : Bool) (r : Reading) :
    (w.turn interval cancelled r).1.counted = 0 := by
  unfold turn
  split
  case isTrue => rfl
  case isFalse =>
    unfold settle
    cases (Driven.turn w.id w.source r).next <;> rfl

theorem delivered_counted (w : Worker σ) : w.delivered.1.counted = 0 := by
  unfold delivered
  split <;> rfl

theorem wake_counted (w : Worker σ) (cancelled : Bool) : (w.wake cancelled).1.counted = 0 := by
  unfold wake
  split <;> rfl

/-- A worker with a number that was started with a source and has taken turns at some readings,
and the records it has handed over so far. -/
structure Track (id : Nat) (source : σ) (rs : List Reading) (handed : List Record)
    (w : Worker σ) : Prop where
  id_eq : w.id = id
  source_eq : w.source = turned id source rs
  /-- Nothing is lost, repeated or overtaken. -/
  sent_eq : handed ++ w.blocked = sent id source rs
  emitted_eq : w.emitted = (sent id source rs).length
  /-- Only a worker that heeds cancellation ends without a turn. -/
  waits : rs = [] → Driven.heedsCancel σ = false → w.phase = .ready

theorem track_start (id : Nat) (source : σ) : (start id source).Track id source [] [] :=
  ⟨rfl, rfl, rfl, rfl, fun _ _ => rfl⟩

section Steps

variable {id : Nat} {source : σ} {rs : List Reading} {handed : List Record} {w : Worker σ}

/-- **Turn.** A worker that is not stopped by being cancelled takes a turn at the reading. -/
theorem Track.turn [LawfulDriven σ] (h : w.Track id source rs handed) (hphase : w.phase = .ready)
    (interval : Duration) (cancelled : Bool) (r : Reading) :
    (w.turn interval cancelled r).1.Track id source
      (if (cancelled && Driven.heedsCancel σ) = true then rs else rs ++ [r]) handed := by
  have hhanded : handed = sent id source rs := by
    simpa [blocked, hphase] using h.sent_eq
  unfold Worker.turn
  split
  case isTrue hstop =>
    rw [Bool.and_eq_true] at hstop
    refine ⟨h.id_eq, h.source_eq, ?_, h.emitted_eq, ?_⟩
    · simpa [stop, blocked] using hhanded
    · intro _ hheeds
      rw [hheeds] at hstop
      exact absurd hstop.2 (by decide)
  case isFalse =>
    rw [h.id_eq, h.source_eq]
    have hcount := LawfulDriven.emitted_eq id (turned id source rs) r
    have hwaits : ∀ phase : Phase, rs ++ [r] = [] → Driven.heedsCancel σ = false →
        phase = .ready := fun _ hnil => absurd hnil (by simp)
    have hemitted : w.emitted + (Driven.turn id (turned id source rs) r).emitted =
        (sent id source (rs ++ [r])).length := by
      rw [sent_snoc, List.length_append, h.emitted_eq, hcount]
    have hsent := sent_snoc id source rs r
    unfold settle
    cases hnext : (Driven.turn id (turned id source rs) r).next with
    | send batch last | rest span | finish =>
      rw [hnext, ← hhanded] at hsent
      exact ⟨h.id_eq, (turned_snoc ..).symm, hsent.symm, hemitted, hwaits _⟩

/-- A worker that is not ready has taken a turn, if it is of those that do not heed being
cancelled. -/
theorem Track.waits_of_ne (h : w.Track id source rs handed) (hphase : w.phase ≠ .ready)
    (phase : Phase) : rs = [] → Driven.heedsCancel σ = false → phase = .ready :=
  fun hnil hheeds => absurd (h.waits hnil hheeds) hphase

/-- **Hand over.** The batch a worker waits with is added to what has been handed over. -/
theorem Track.delivered (h : w.Track id source rs handed) {batch : List Record} {last : Bool}
    (hphase : w.phase = .sending batch last) :
    w.delivered.1.Track id source rs (handed ++ batch) := by
  have hsent : handed ++ batch = sent id source rs := by
    simpa [blocked, hphase] using h.sent_eq
  have hwaits := h.waits_of_ne (by simp [hphase])
  unfold Worker.delivered
  rw [hphase]
  cases last with
  | true =>
    exact ⟨h.id_eq, h.source_eq, by simpa [stop, blocked] using hsent, h.emitted_eq, hwaits _⟩
  | false =>
    exact ⟨h.id_eq, h.source_eq, by simpa [blocked] using hsent, h.emitted_eq, hwaits _⟩

/-- **Wake.** The end of a rest changes nothing that was sent. -/
theorem Track.wake (h : w.Track id source rs handed) {span : Duration}
    (hphase : w.phase = .resting span) (cancelled : Bool) :
    (w.wake cancelled).1.Track id source rs handed := by
  have hsent : handed = sent id source rs := by
    simpa [blocked, hphase] using h.sent_eq
  have hwaits := h.waits_of_ne (by simp [hphase])
  unfold Worker.wake
  cases cancelled with
  | true =>
    exact ⟨h.id_eq, h.source_eq, by simpa [stop, blocked] using hsent, h.emitted_eq, hwaits _⟩
  | false =>
    exact ⟨h.id_eq, h.source_eq, by simpa [blocked] using hsent, h.emitted_eq, hwaits _⟩

/-- **Join.** So does being joined. -/
theorem Track.join (h : w.Track id source rs handed) (hphase : w.phase = .stopped) :
    w.join.Track id source rs handed := by
  have hsent : handed = sent id source rs := by
    simpa [blocked, hphase] using h.sent_eq
  exact ⟨h.id_eq, h.source_eq, by simpa [Worker.join, blocked] using hsent, h.emitted_eq,
    h.waits_of_ne (by simp [hphase]) _⟩

end Steps

end Worker

end Pacing.Run
