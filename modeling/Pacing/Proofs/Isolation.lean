import Pacing.Stream
import Pacing.Long
import Pacing.Proofs.Session

/-!
# Sources and buffers of a session

Sources on one clock and buffers that several of them are polled into, in any order. A source is
not touched by what is done to others: it comes to what it comes to on its own, made at the same
reading and polled at the readings of its own polls. A buffer gives back what was put into it, in
order: what was drained and what is left are what the polls into it handed over.

* `StandsAlone` and `Balanced` are the two statements, each about a list of actions and what came
  of them.
* `standsAlone_run` and `balanced_run` follow them through a run, by one lemma on a step each.
* `streams_stand_alone` is the main statement, for the two kinds of streams.
-/

namespace Pacing.Session

variable {σ ε α : Type}

/-! ### What actions and outcomes say -/

/-- The reading of the clock after some actions. Only moves change it. -/
def now : Reading → List (Action σ) → Reading
  | r, [] => r
  | r, .move m :: actions => now (m.apply r) actions
  | r, .create _ :: actions | r, .poll _ _ :: actions | r, .drain _ :: actions => now r actions

/-- How many sources some actions make. -/
def creations : List (Action σ) → Nat
  | [] => 0
  | .create _ :: actions => creations actions + 1
  | .poll _ _ :: actions | .drain _ :: actions | .move _ :: actions => creations actions

/-- The readings at which a source is polled. -/
def readingsOf (k : Nat) : Reading → List (Action σ) → List Reading
  | _, [] => []
  | r, .poll i _ :: actions => if i = k then r :: readingsOf k r actions else readingsOf k r actions
  | r, .move m :: actions => readingsOf k (m.apply r) actions
  | r, .create _ :: actions | r, .drain _ :: actions => readingsOf k r actions

/-- What came of an action, if it is a poll of the source and the source was there. -/
def ownOutcome (k : Nat) : Action σ × Outcome ε α → List (Outcome ε α)
  | (.poll i _, .polled outcome added log) => if i = k then [.polled outcome added log] else []
  | _ => []

/-- What an action put into a buffer. -/
def putInto (b : Nat) : Action σ × Outcome ε α → List (Timestamped α)
  | (.poll _ b', .polled _ added _) => if b' = b then added else []
  | _ => []

/-- What an action took out of a buffer. -/
def takenFrom (b : Nat) : Action σ × Outcome ε α → List (Timestamped α)
  | (.drain b', .drained items) => if b' = b then items.toList else []
  | _ => []

variable [Paced σ ε α]

/-- The actions of a session, each with what came of it. -/
def history (s : Session σ α) (actions : List (Action σ)) : List (Action σ × Outcome ε α) :=
  actions.zip (s.run actions).2

/-- All that is said of a poll, apart from the source it leaves. -/
def Outcome.ofPolled (p : Polled σ ε α) : Outcome ε α := .polled p.outcome p.added p.log

/-- The source with a number comes to what `source` comes to on its own, polled at the given
readings: its polls hand over the same items with the same times and report the same, and it is in
the same state afterwards. -/
structure StandsAlone (s : Session σ α) (actions : List (Action σ)) (k : Nat) (source : σ)
    (rs : List Reading) : Prop where
  outcomes : (s.history actions).flatMap (ownOutcome k) = (Paced.polls source rs).map .ofPolled
  state : (s.run actions).1.sources[k]? = some (Paced.after source rs)

/-- What was taken out of a buffer and what is in it are, in order, what was in it and what was put
into it. -/
def Balanced (s : Session σ α) (actions : List (Action σ)) (b : Nat) : Prop :=
  (s.history actions).flatMap (takenFrom b) ++ ((s.run actions).1.items b).toList =
    (s.items b).toList ++ (s.history actions).flatMap (putInto b)

variable {s : Session σ α} {k : Nat} {source : σ}

@[simp]
theorem history_nil : s.history [] = [] := rfl

@[simp]
theorem history_cons (action : Action σ) (actions : List (Action σ)) :
    s.history (action :: actions) =
      (action, (s.step action).2) :: (s.step action).1.history actions := rfl

theorem run_append (earlier later : List (Action σ)) :
    (s.run (earlier ++ later)).1 = ((s.run earlier).1.run later).1 := by
  induction earlier generalizing s with
  | nil => rfl
  | cons action earlier ih => exact ih

theorem history_append (earlier later : List (Action σ)) :
    s.history (earlier ++ later) = s.history earlier ++ (s.run earlier).1.history later := by
  induction earlier generalizing s with
  | nil => rfl
  | cons action earlier ih =>
    rw [List.cons_append, history_cons, history_cons, List.cons_append, ih]
    rfl

/-! ### One step -/

theorem clock_step_eq (action : Action σ) :
    (s.step action).1.clock = now s.clock [action] := by
  cases action with
  | poll i b =>
    cases hi : s.sources[i]? with
    | none => rw [step_poll_absent hi]; rfl
    | some polled => rw [step_poll hi]; rfl
  | create make => rfl
  | drain b => rfl
  | move m => rfl

theorem size_step (action : Action σ) :
    (s.step action).1.sources.size = s.sources.size + creations [action] := by
  cases action with
  | poll i b =>
    cases hi : s.sources[i]? with
    | none => rw [step_poll_absent hi]; rfl
    | some polled => rw [step_poll hi]; simp [creations]
  | create make => simp [step, creations]
  | drain b => rfl
  | move m => rfl

theorem readingsOf_append (r : Reading) (earlier later : List (Action σ)) :
    readingsOf k r (earlier ++ later) = readingsOf k r earlier ++ readingsOf k (now r earlier) later := by
  induction earlier generalizing r with
  | nil => rfl
  | cons action earlier ih =>
    cases action with
    | poll i b =>
      simp only [List.cons_append, readingsOf, now, ih]
      split <;> rfl
    | _ => simp only [List.cons_append, readingsOf, now, ih]

/-- What is done to others does not reach a source, and a poll of its own does what it does to the
source alone. -/
theorem standsAlone_step (h : s.sources[k]? = some source) (action : Action σ) :
    StandsAlone s [action] k source (readingsOf k s.clock [action]) := by
  have hk := (Array.getElem?_eq_some_iff.mp h).1
  cases action with
  | create make =>
    refine ⟨rfl, ?_⟩
    show (s.sources.push (make s.clock))[k]? = some source
    rw [Array.getElem?_push_lt hk, ← Array.getElem?_eq_getElem hk, h]
  | poll i b =>
    by_cases hik : i = k
    · subst hik
      constructor
      · simp [step_poll h, ownOutcome, readingsOf, Outcome.ofPolled]
      · simp only [run_cons_fst, run_nil, step_poll h, readingsOf, if_true, Paced.after_cons,
          Paced.after_nil]
        exact Array.getElem?_setIfInBounds_self_of_lt hk
    · have hreadings : readingsOf k s.clock [Action.poll (σ := σ) i b] = [] := by
        simp [readingsOf, hik]
      rw [hreadings]
      cases hi : s.sources[i]? with
      | none => exact ⟨by simp [step_poll_absent hi, ownOutcome], by simpa [step_poll_absent hi] using h⟩
      | some polled =>
        constructor
        · simp [step_poll hi, ownOutcome, hik]
        · simp only [run_cons_fst, run_nil, step_poll hi, Paced.after_nil]
          rw [Array.getElem?_setIfInBounds_ne hik, h]
  | drain b => exact ⟨rfl, h⟩
  | move m => exact ⟨rfl, h⟩

/-- Nothing comes of polls of a source that is not there. -/
theorem own_step_of_absent (h : s.sources[k]? = none) (action : Action σ) :
    ownOutcome k (action, (s.step action).2) = [] := by
  cases action with
  | poll i b =>
    by_cases hik : i = k
    · subst hik
      rw [step_poll_absent h]
      rfl
    · unfold ownOutcome
      split <;> simp_all
  | create make => rfl
  | drain b => rfl
  | move m => rfl

omit [Paced σ ε α] in
theorem withBuffer_getElem? (buffers : Array (TimestampedBuffer α)) (b b' : Nat) :
    (withBuffer buffers b')[b]? =
      if b < max buffers.size (b' + 1) then some (buffers.getD b #[]) else none := by
  unfold withBuffer
  rw [Array.getElem?_append]
  by_cases hb : b < buffers.size
  · have hmax : b < max buffers.size (b' + 1) := by omega
    simp [hb, hmax]
  · have hnone : buffers.getD b #[] = #[] := by simp [hb]
    rw [if_neg hb, hnone, Array.getElem?_replicate]
    by_cases hb' : b < b' + 1
    · rw [if_pos (by omega), if_pos (by omega)]
    · rw [if_neg (by omega), if_neg (by omega)]

omit [Paced σ ε α] in
/-- Changing a buffer, which may come into being by it, changes no other. -/
theorem getD_modify (buffers : Array (TimestampedBuffer α)) (b b' : Nat)
    (f : TimestampedBuffer α → TimestampedBuffer α) :
    ((withBuffer buffers b').modify b' f).getD b #[] =
      if b' = b then f (buffers.getD b #[]) else buffers.getD b #[] := by
  rw [Array.getD_eq_getD_getElem?, Array.getElem?_modify, withBuffer_getElem?]
  by_cases hb : b' = b
  · subst hb
    have hmax : b' < max buffers.size (b' + 1) := by omega
    simp [hmax]
  · simp only [hb, if_false]
    by_cases hmax : b < max buffers.size (b' + 1)
    · rw [if_pos hmax, Option.getD_some]
    · rw [if_neg hmax]
      have hsize : ¬ b < buffers.size := by omega
      simp [hsize]

/-- One action takes out of a buffer what is in it, or adds to it what a poll hands over. -/
theorem balanced_step (action : Action σ) (b : Nat) : s.Balanced [action] b := by
  unfold Balanced
  rw [history_cons, history_nil, List.flatMap_singleton, List.flatMap_singleton, run_cons_fst, run_nil]
  cases action with
  | create make => exact (List.append_nil _).symm
  | move m => exact (List.append_nil _).symm
  | poll i b' =>
    cases hi : s.sources[i]? with
    | none =>
      rw [step_poll_absent hi]
      exact (List.append_nil _).symm
    | some polled =>
      rw [step_poll hi]
      simp only [takenFrom, putInto, items, getD_modify, List.nil_append]
      split
      · exact TimestampedBuffer.addAll_toList _ _
      · exact (List.append_nil _).symm
  | drain b' =>
    simp only [step, takenFrom, putInto, items, getD_modify, List.append_nil]
    split
    case isTrue hb => rw [hb, Array.toList_empty, List.append_nil]
    case isFalse => rw [List.nil_append]

/-! ### Whole runs -/

theorem clock_run_eq (actions : List (Action σ)) : (s.run actions).1.clock = now s.clock actions := by
  induction actions generalizing s with
  | nil => rfl
  | cons action actions ih =>
    rw [run_cons_fst, ih, clock_step_eq]
    cases action <;> rfl

theorem size_run (actions : List (Action σ)) :
    (s.run actions).1.sources.size = s.sources.size + creations actions := by
  induction actions generalizing s with
  | nil => rfl
  | cons action actions ih =>
    rw [run_cons_fst, ih, size_step]
    cases action <;> simp only [creations] <;> omega

theorem StandsAlone.append {earlier later : List (Action σ)} {rs rs' : List Reading}
    (h : s.StandsAlone earlier k source rs)
    (h' : (s.run earlier).1.StandsAlone later k (Paced.after source rs) rs') :
    s.StandsAlone (earlier ++ later) k source (rs ++ rs') where
  outcomes := by
    rw [history_append, List.flatMap_append, h.outcomes, h'.outcomes, Paced.polls_append,
      List.map_append]
  state := by rw [run_append, h'.state, Paced.after_append]

/-- **Isolation.** Whatever is done in a session, a source comes to what it comes to on its own. -/
theorem standsAlone_run (h : s.sources[k]? = some source) (actions : List (Action σ)) :
    StandsAlone s actions k source (readingsOf k s.clock actions) := by
  induction actions generalizing s source with
  | nil => exact ⟨rfl, h⟩
  | cons action actions ih =>
    have hfirst := standsAlone_step h action
    have hall := hfirst.append (ih hfirst.state)
    rwa [clock_run_eq, ← readingsOf_append] at hall

/-- A source that is not there yet has no polls. -/
theorem own_run_of_absent {actions : List (Action σ)} (h : s.sources.size + creations actions ≤ k) :
    (s.history actions).flatMap (ownOutcome k) = [] := by
  induction actions generalizing s with
  | nil => rfl
  | cons action actions ih =>
    have hsplit : creations (action :: actions) = creations [action] + creations actions := by
      cases action <;> simp only [creations] <;> omega
    have habsent : s.sources[k]? = none := Array.getElem?_eq_none (by omega)
    rw [history_cons, List.flatMap_cons, own_step_of_absent habsent, List.nil_append]
    exact ih (by rw [size_step]; omega)

/-- A source that is made in the course of a session stands alone from then on. -/
theorem standsAlone_created (earlier later : List (Action σ)) (make : Reading → σ)
    (hk : k = s.sources.size + creations earlier) :
    StandsAlone s (earlier ++ .create make :: later) k (make (now s.clock earlier))
      (readingsOf k (now s.clock earlier) later) := by
  have hsize : (s.run earlier).1.sources.size = k := by rw [size_run, hk]
  have hmade : ((s.run earlier).1.step (.create make)).1.sources[k]? =
      some (make (now s.clock earlier)) := by
    rw [← clock_run_eq, ← hsize]
    exact Array.getElem?_push_size
  have hlater := standsAlone_run hmade later
  have hclock : ((s.run earlier).1.step (.create make)).1.clock = now s.clock earlier := by
    rw [clock_step_eq]
    exact clock_run_eq earlier
  rw [hclock] at hlater
  constructor
  · rw [history_append, List.flatMap_append, own_run_of_absent (Nat.le_of_eq hk.symm),
      List.nil_append]
    exact hlater.outcomes
  · rw [run_append]
    exact hlater.state

theorem Balanced.append {earlier later : List (Action σ)} {b : Nat} (h : s.Balanced earlier b)
    (h' : (s.run earlier).1.Balanced later b) : s.Balanced (earlier ++ later) b := by
  unfold Balanced at h h' ⊢
  rw [history_append, run_append, List.flatMap_append, List.flatMap_append, List.append_assoc, h',
    ← List.append_assoc, h, List.append_assoc]

/-- **Conservation.** Whatever is done in a session, every buffer stays balanced. -/
theorem balanced_run (actions : List (Action σ)) (b : Nat) : s.Balanced actions b := by
  induction actions generalizing s with
  | nil => exact (List.append_nil _).symm
  | cons action actions ih => exact (s.balanced_step action b).append ih

/-! ### Streams of one supplier, instances of one source -/

/-- **Sessions.** On one clock, with anything else going on before and after it is made, a stream of
a supplier does what a new stream of it does alone at the readings of its own polls, and so does an
instance of any member of a replicated source, whenever the member was set up. In a session with any
sources, what was drained from a buffer and what it holds are in order what the polls into it handed
over, and its length counts what was not drained. -/
theorem streams_stand_alone (clock : Reading) :
    (∀ {ε α : Type} (supplier : StreamSupplier ε α) (earlier later : List (Action (ItemStream ε α))),
      (start clock).StandsAlone (earlier ++ .create (fun _ => supplier.create) :: later)
        (creations earlier) supplier.create
        (readingsOf (creations earlier) (now clock earlier) later)) ∧
    (∀ {π : Type} (source : LongSource) (policy : π) (memberAt : Reading) (index total : Nat)
        (earlier later : List (Action (LongStream π))),
      let make := (source.member policy memberAt).get LongStream.create index total
      (start clock).StandsAlone (earlier ++ .create make :: later)
        (creations earlier) (make (now clock earlier))
        (readingsOf (creations earlier) (now clock earlier) later)) ∧
    ∀ {σ ε α : Type} [Paced σ ε α] (actions : List (Action σ)) (b : Nat),
      let history := (start clock).history actions
      let final := ((start clock).run actions).1
      history.flatMap (takenFrom b) ++ (final.items b).toList = history.flatMap (putInto b) ∧
      (history.flatMap (takenFrom b)).length + final.length b =
        (history.flatMap (putInto b)).length := by
  have hfirst : ∀ {σ α : Type} (earlier : List (Action σ)),
      creations earlier = (start clock : Session σ α).sources.size + creations earlier :=
    fun _ => (Nat.zero_add _).symm
  refine ⟨fun supplier earlier later => ?_, fun source policy memberAt index total earlier later => ?_,
    fun {σ ε α} _ actions b => ?_⟩
  · exact standsAlone_created earlier later (fun _ => supplier.create) (hfirst earlier)
  · exact standsAlone_created earlier later _ (hfirst earlier)
  · have hbalanced := (start clock : Session σ α).balanced_run actions b
    unfold Balanced at hbalanced
    have hempty : ((start clock : Session σ α).items b).toList = [] := by simp [items, start]
    rw [hempty, List.nil_append] at hbalanced
    refine ⟨hbalanced, ?_⟩
    rw [← hbalanced, List.length_append, Array.length_toList]
    rfl

end Pacing.Session
