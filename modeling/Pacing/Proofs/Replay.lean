import Mathlib.Data.List.Induction
import Mathlib.Logic.Function.Basic
import Pacing.Buffer

/-!
# Finite sources and their buffers

Finite sources are built and cloned, filled into buffers and the buffers drained, any number of times
in any order. A source delivers what it holds by its first fill, which closes the buffer, and nothing
by any later one; a clone holds what the source held when the clone was taken, and has a fate of its
own from then on. A buffer gives back the lists that were delivered to it, in order.

* `RunsOnce` is the statement about one source, and `Balanced` the one about one buffer, for a list of
  actions and what came of them.
* `runsOnce_run` and `balanced_run` follow them through a run, by one lemma on a step each.
* `sources_deliver_once` is the main statement.
-/

namespace Pacing

/-! ### Building a source -/

namespace ItemsSource

variable {α : Type} {collection : Option (List α)}

theorem tryNew_eq_ok {source : ItemsSource α} :
    tryNew collection = .ok source ↔ ∃ items, collection = some items ∧ new items = source := by
  cases collection <;> simp [tryNew]

theorem tryNew_eq_error {e : Error} :
    tryNew collection = .error e ↔ collection = none ∧ .missing "items" = e := by
  cases collection <;> simp [tryNew]

end ItemsSource

/-! ### Sources and buffers together -/

/-- Finite sources in the order in which they came to be, and buffers. A buffer is empty and open
until it is used. -/
structure Replay (α : Type) where
  sources : Array (ItemsSource α)
  buffers : Nat → Buffer α

namespace Replay

/-- One thing done to sources and buffers. -/
inductive Action (α : Type) where
  /-- Adds a source of these items. -/
  | build (items : List α)
  /-- Adds a copy of a source. -/
  | clone (source : Nat)
  | fill (source buffer : Nat)
  | drain (buffer : Nat)

/-- What came of one action. -/
inductive Outcome (α : Type) where
  | built
  | cloned
  /-- The buffer as it was found and as it was left, and what was reported. -/
  | filled (before after : Buffer α) (log : List LogEvent)
  | drained (items : Array α)
  /-- There is no source with that number. -/
  | absent

variable {α : Type}

/-- No sources yet. -/
def start : Replay α := ⟨#[], fun _ => .empty⟩

/-- Does one thing. -/
def step (s : Replay α) : Action α → Replay α × Outcome α
  | .build items => ({ s with sources := s.sources.push (.new items) }, .built)
  | .clone k =>
    match s.sources[k]? with
    | none => (s, .absent)
    | some source => ({ s with sources := s.sources.push source }, .cloned)
  | .fill k b =>
    match s.sources[k]? with
    | none => (s, .absent)
    | some source =>
      let (source, buffer, log) := source.fill (s.buffers b)
      (⟨s.sources.setIfInBounds k source, Function.update s.buffers b buffer⟩,
        .filled (s.buffers b) buffer log)
  | .drain b =>
    let (items, buffer) := (s.buffers b).drain
    ({ s with buffers := Function.update s.buffers b buffer }, .drained items)

/-- Does a list of things in order. -/
def run (s : Replay α) (actions : List (Action α)) : Replay α :=
  actions.foldl (fun s action => (s.step action).1) s

/-- The actions of a run, each with what came of it. -/
def history (s : Replay α) : List (Action α) → List (Action α × Outcome α)
  | [] => []
  | action :: actions => (action, (s.step action).2) :: (s.step action).1.history actions

/-! ### What actions and outcomes say -/

/-- The action is a fill of the source with this number. -/
def Action.fills (k : Nat) : Action α → Bool
  | .fill i _ => i = k
  | _ => false

/-- How often some actions fill a source. -/
def fillsOf (k : Nat) (actions : List (Action α)) : Nat := actions.countP (Action.fills k)

/-- The fill appended the items in order, closed the buffer and reported how many there were. -/
def Outcome.Delivers (items : List α) : Outcome α → Prop
  | .filled before after log => after.items.toList = before.items.toList ++ items ∧
      after.closed = true ∧ log = [.replayingItems items.length]
  | _ => False

/-- The fill left the buffer as it was and warned. -/
def Outcome.Warns : Outcome α → Prop
  | .filled before after log => after = before ∧ log = [.polledAfterClose]
  | _ => False

/-- The list a fill delivered, if it delivered one. -/
def Outcome.delivery : Outcome α → List (List α)
  | .filled before after log =>
    if log = [.polledAfterClose] then [] else [after.items.toList.drop before.items.size]
  | _ => []

/-- The fill found the buffer open. -/
def Outcome.FoundOpen : Outcome α → Prop
  | .filled before _ _ => before.closed = false
  | _ => True

instance : DecidablePred (Outcome.FoundOpen (α := α))
  | .filled before _ _ => inferInstanceAs (Decidable (before.closed = false))
  | .built | .cloned | .drained _ | .absent => isTrue trivial

/-- What came of an action, if it is a fill of the source and the source was there. -/
def ownOutcome (k : Nat) : Action α × Outcome α → List (Outcome α)
  | (.fill i _, .filled before after log) => if i = k then [.filled before after log] else []
  | _ => []

/-- The list an action delivered to a buffer, if it delivered one. -/
def deliveredTo (b : Nat) : Action α × Outcome α → List (List α)
  | (.fill _ b', outcome) => if b' = b then outcome.delivery else []
  | _ => []

/-- What an action took out of a buffer. -/
def takenFrom (b : Nat) : Action α × Outcome α → List α
  | (.drain b', .drained items) => if b' = b then items.toList else []
  | _ => []

/-- What the fills of a source come to: the first one delivers what the source holds, and all others
warn. -/
def Fate : (held : Option (List α)) → List (Outcome α) → Prop
  | _, [] => True
  | some items, first :: later => first.Delivers items ∧ ∀ outcome ∈ later, outcome.Warns
  | none, first :: later => first.Warns ∧ ∀ outcome ∈ later, outcome.Warns

/-- The source with a number has the fate of `source`: every fill of it comes to something, and after
one it holds nothing. -/
structure RunsOnce (s : Replay α) (actions : List (Action α)) (k : Nat) (source : ItemsSource α) :
    Prop where
  fate : Fate source.items ((s.history actions).flatMap (ownOutcome k))
  count : ((s.history actions).flatMap (ownOutcome k)).length = fillsOf k actions
  state : (s.run actions).sources[k]? = some (if fillsOf k actions = 0 then source else ⟨none⟩)

/-- What was taken out of a buffer and what is in it are, in order, what was in it and the lists that
were delivered to it; and the buffer is closed if it was or if a list was delivered to it. -/
structure Balanced (s : Replay α) (actions : List (Action α)) (b : Nat) : Prop where
  items : (s.history actions).flatMap (takenFrom b) ++ ((s.run actions).buffers b).items.toList =
    (s.buffers b).items.toList ++ ((s.history actions).flatMap (deliveredTo b)).flatten
  closed : ((s.run actions).buffers b).closed = true ↔
    (s.buffers b).closed = true ∨ (s.history actions).flatMap (deliveredTo b) ≠ []

variable {s : Replay α} {k : Nat} {source : ItemsSource α}

@[simp]
theorem history_nil : s.history [] = [] := rfl

@[simp]
theorem history_singleton (action : Action α) : s.history [action] = [(action, (s.step action).2)] :=
  rfl

@[simp]
theorem run_singleton (action : Action α) : s.run [action] = (s.step action).1 := rfl

theorem run_append (earlier later : List (Action α)) :
    s.run (earlier ++ later) = (s.run earlier).run later := List.foldl_append

theorem history_append (earlier later : List (Action α)) :
    s.history (earlier ++ later) = s.history earlier ++ (s.run earlier).history later := by
  induction earlier generalizing s with
  | nil => rfl
  | cons action earlier ih => exact congrArg (_ :: ·) ih

theorem fillsOf_append (earlier later : List (Action α)) :
    fillsOf k (earlier ++ later) = fillsOf k earlier + fillsOf k later := List.countP_append

/-! ### Fates -/

theorem Fate.all_warn {outcomes : List (Outcome α)} (h : Fate none outcomes) :
    ∀ outcome ∈ outcomes, outcome.Warns := by
  cases outcomes with
  | nil => exact List.forall_mem_nil _
  | cons first later => exact List.forall_mem_cons.mpr h

/-- A source that has been filled holds nothing any more. -/
theorem Fate.append {held : Option (List α)} {earlier later : List (Outcome α)} (h : Fate held earlier)
    (h' : Fate (if earlier = [] then held else none) later) : Fate held (earlier ++ later) := by
  cases earlier with
  | nil => exact h'
  | cons first earlier =>
    cases held with
    | none => exact ⟨h.1, List.forall_mem_append.mpr ⟨h.2, h'.all_warn⟩⟩
    | some items => exact ⟨h.1, List.forall_mem_append.mpr ⟨h.2, h'.all_warn⟩⟩

theorem Outcome.Delivers.delivery {items : List α} {outcome : Outcome α} (h : outcome.Delivers items) :
    outcome.delivery = [items] := by
  cases outcome with
  | filled before after log =>
    obtain ⟨hitems, -, rfl⟩ := h
    simp [Outcome.delivery, hitems]
  | _ => exact h.elim

theorem Outcome.Warns.delivery {outcome : Outcome α} (h : outcome.Warns) : outcome.delivery = [] := by
  cases outcome with
  | filled before after log =>
    obtain ⟨-, rfl⟩ := h
    rfl
  | _ => exact h.elim

/-- The lists that are delivered in the course of a fate: what the source holds, if it is filled. -/
theorem Fate.deliveries {held : Option (List α)} {outcomes : List (Outcome α)} (h : Fate held outcomes) :
    outcomes.flatMap Outcome.delivery = if outcomes = [] then [] else held.toList := by
  have hquiet : ∀ {later : List (Outcome α)}, (∀ outcome ∈ later, outcome.Warns) →
      later.flatMap Outcome.delivery = [] := fun hlater =>
    List.flatMap_eq_nil_iff.mpr fun outcome houtcome => (hlater outcome houtcome).delivery
  cases outcomes with
  | nil => rfl
  | cons first later =>
    cases held with
    | none => simp [h.1.delivery, hquiet h.2]
    | some items => simp [h.1.delivery, hquiet h.2]

/-! ### One step -/

theorem step_fill (h : s.sources[k]? = some source) (b : Nat) :
    s.step (.fill k b) =
      (⟨s.sources.setIfInBounds k (source.fill (s.buffers b)).1,
          Function.update s.buffers b (source.fill (s.buffers b)).2.1⟩,
        .filled (s.buffers b) (source.fill (s.buffers b)).2.1 (source.fill (s.buffers b)).2.2) := by
  simp only [step, h]

theorem step_fill_absent (h : s.sources[k]? = none) (b : Nat) : s.step (.fill k b) = (s, .absent) := by
  simp only [step, h]

theorem step_clone (h : s.sources[k]? = some source) :
    s.step (.clone k) = ({ s with sources := s.sources.push source }, .cloned) := by
  simp only [step, h]

theorem step_clone_absent (h : s.sources[k]? = none) : s.step (.clone k) = (s, .absent) := by
  simp only [step, h]

/-- A fill of a source delivers what the source holds, or warns if it holds nothing. -/
theorem fate_fill (source : ItemsSource α) (b : Buffer α) :
    Fate source.items [.filled b (source.fill b).2.1 (source.fill b).2.2] := by
  obtain ⟨items⟩ := source
  cases items with
  | none => exact ⟨⟨rfl, rfl⟩, List.forall_mem_nil _⟩
  | some items => exact ⟨⟨Buffer.addAll_items b items, rfl, rfl⟩, List.forall_mem_nil _⟩

theorem fill_spent (source : ItemsSource α) (b : Buffer α) : (source.fill b).1 = ⟨none⟩ := by
  obtain ⟨items⟩ := source
  cases items <;> rfl

/-- A fill of a source that holds nothing changes nothing. -/
theorem step_fill_of_isDone (h : s.sources[k]? = some source) (hdone : source.isDone = true) (b : Nat) :
    s.step (.fill k b) = (s, .filled (s.buffers b) (s.buffers b) [.polledAfterClose]) := by
  have hsame : s.sources.setIfInBounds k source = s.sources := by
    refine Array.ext_getElem? fun i => ?_
    rw [Array.getElem?_setIfInBounds]
    split
    case isTrue hi =>
      subst hi
      rw [h, if_pos (Array.getElem?_eq_some_iff.mp h).1]
    case isFalse => rfl
  rw [step_fill h, source.fill_of_isDone hdone, hsame, Function.update_eq_self]

/-- A drain empties its buffer and touches nothing else. -/
theorem step_drain (s : Replay α) (b : Nat) :
    ∃ drained, s.step (.drain b) = (drained, .drained (s.buffers b).items) ∧
      drained.buffers b = ⟨#[], (s.buffers b).closed⟩ ∧ drained.sources = s.sources ∧
      ∀ b', b' ≠ b → drained.buffers b' = s.buffers b' :=
  ⟨_, rfl, Function.update_self .., rfl, fun _ hb => Function.update_of_ne hb ..⟩

/-- Only its own fills change a source. -/
theorem runsOnce_step (h : s.sources[k]? = some source) (action : Action α) :
    RunsOnce s [action] k source := by
  have hk := (Array.getElem?_eq_some_iff.mp h).1
  have hpush : ∀ other, (s.sources.push other)[k]? = some source := fun other => by
    rw [Array.getElem?_push_lt hk, ← Array.getElem?_eq_getElem hk, h]
  cases action with
  | build items => exact ⟨trivial, rfl, hpush _⟩
  | clone i =>
    cases hi : s.sources[i]? with
    | none => exact ⟨trivial, rfl, by rw [run_singleton, step_clone_absent hi]; exact h⟩
    | some other => exact ⟨trivial, rfl, by rw [run_singleton, step_clone hi]; exact hpush other⟩
  | fill i b =>
    by_cases hik : i = k
    · subst hik
      have hcount : fillsOf i [Action.fill (α := α) i b] = 1 := by simp [fillsOf, Action.fills]
      refine ⟨?_, ?_, ?_⟩
      · simpa [step_fill h, ownOutcome] using fate_fill source (s.buffers b)
      · simp [step_fill h, ownOutcome, hcount]
      · rw [run_singleton, step_fill h, hcount, fill_spent]
        exact Array.getElem?_setIfInBounds_self_of_lt hk
    · have hcount : fillsOf k [Action.fill (α := α) i b] = 0 := by
        simp [fillsOf, Action.fills, hik]
      have hown : ∀ outcome : Outcome α, ownOutcome k (.fill i b, outcome) = [] := fun outcome => by
        cases outcome <;> simp [ownOutcome, hik]
      refine ⟨by simp [hown, Fate], by simp [hown, hcount], ?_⟩
      rw [hcount, if_pos rfl, run_singleton]
      cases hi : s.sources[i]? with
      | none => rw [step_fill_absent hi]; exact h
      | some other => rw [step_fill hi, Array.getElem?_setIfInBounds_ne hik, h]
  | drain b => exact ⟨trivial, rfl, h⟩

/-- A fill adds to the buffer what the source holds, and closes it if the source holds a list. -/
theorem fill_buffer (source : ItemsSource α) (b : Buffer α) :
    (source.fill b).2.1.items.toList = b.items.toList ++ source.items.toList.flatten ∧
      ((source.fill b).2.1.closed = true ↔ b.closed = true ∨ source.items.toList ≠ []) := by
  obtain ⟨items⟩ := source
  cases items with
  | none => exact ⟨(List.append_nil _).symm, by simp [ItemsSource.fill]⟩
  | some items =>
    refine ⟨(Buffer.addAll_items b items).trans ?_, fun _ => .inr (by simp), fun _ => rfl⟩
    simp

/-- An action that has nothing to do with a buffer. -/
theorem Balanced.of_unchanged {action : Action α} {b : Nat}
    (htaken : takenFrom b (action, (s.step action).2) = [])
    (hdelivered : deliveredTo b (action, (s.step action).2) = [])
    (hsame : (s.step action).1.buffers b = s.buffers b) : Balanced s [action] b := by
  constructor <;> simp [htaken, hdelivered, hsame]

/-- One action takes out of a buffer what is in it, or adds to it what a fill delivers. -/
theorem balanced_step (action : Action α) (b : Nat) : Balanced s [action] b := by
  cases action with
  | build items => exact .of_unchanged rfl rfl rfl
  | clone k =>
    cases hk : s.sources[k]? with
    | none => exact .of_unchanged rfl rfl (by rw [step_clone_absent hk])
    | some source => exact .of_unchanged rfl rfl (by rw [step_clone hk])
  | fill k b' =>
    cases hk : s.sources[k]? with
    | none =>
      refine .of_unchanged rfl ?_ (by rw [step_fill_absent hk])
      rw [step_fill_absent hk]
      exact ite_self _
    | some source =>
      by_cases hb : b' = b
      · subst hb
        have hdelivery := (fate_fill source (s.buffers b')).deliveries
        simp only [List.flatMap_singleton, List.cons_ne_nil, if_false] at hdelivery
        obtain ⟨hitems, hclosed⟩ := fill_buffer source (s.buffers b')
        constructor
        · simpa [step_fill hk, takenFrom, deliveredTo, hdelivery] using hitems
        · simpa [step_fill hk, deliveredTo, hdelivery] using hclosed
      · refine .of_unchanged rfl (if_neg hb) ?_
        rw [step_fill hk]
        exact Function.update_of_ne (Ne.symm hb) ..
  | drain b' =>
    by_cases hb : b' = b
    · subst hb
      constructor <;> simp [step, takenFrom, deliveredTo, Buffer.drain]
    · exact .of_unchanged (if_neg hb) rfl (Function.update_of_ne (Ne.symm hb) ..)

/-! ### Whole runs -/

theorem RunsOnce.append {earlier later : List (Action α)} (h : s.RunsOnce earlier k source)
    (h' : (s.run earlier).RunsOnce later k (if fillsOf k earlier = 0 then source else ⟨none⟩)) :
    s.RunsOnce (earlier ++ later) k source where
  fate := by
    have hheld : (if fillsOf k earlier = 0 then source else ⟨none⟩).items =
        if (s.history earlier).flatMap (ownOutcome k) = [] then source.items else none := by
      rw [← h.count, apply_ite ItemsSource.items]
      simp only [List.length_eq_zero_iff]
    have hlater := h'.fate
    rw [hheld] at hlater
    rw [history_append, List.flatMap_append]
    exact h.fate.append hlater
  count := by
    rw [history_append, List.flatMap_append, List.length_append, h.count, h'.count, fillsOf_append]
  state := by
    rw [run_append, h'.state, fillsOf_append]
    split <;> split <;> simp_all

/-- **Once.** Whatever else is done, a source delivers what it holds by its first fill, and nothing by
any other. -/
theorem runsOnce_run (h : s.sources[k]? = some source) (actions : List (Action α)) :
    s.RunsOnce actions k source := by
  induction actions generalizing s source with
  | nil => exact ⟨trivial, rfl, h⟩
  | cons action actions ih =>
    have hfirst := runsOnce_step h action
    exact hfirst.append (ih hfirst.state)

theorem RunsOnce.deliveries {actions : List (Action α)} (h : s.RunsOnce actions k source) :
    ((s.history actions).flatMap (ownOutcome k)).flatMap Outcome.delivery =
      if fillsOf k actions = 0 then [] else source.items.toList := by
  rw [h.fate.deliveries, ← h.count]
  simp only [List.length_eq_zero_iff]

theorem Balanced.append {earlier later : List (Action α)} {b : Nat} (h : s.Balanced earlier b)
    (h' : (s.run earlier).Balanced later b) : s.Balanced (earlier ++ later) b where
  items := by
    rw [history_append, run_append, List.flatMap_append, List.append_assoc, h'.items,
      ← List.append_assoc, h.items, List.flatMap_append, List.flatten_append, List.append_assoc]
  closed := by
    rw [history_append, run_append, h'.closed, h.closed, List.flatMap_append, or_assoc, ne_eq, ne_eq,
      ne_eq, List.append_eq_nil_iff, Decidable.not_and_iff_not_or_not]

/-- **Conservation.** Whatever is done, a buffer gives back the lists that were delivered to it. -/
theorem balanced_run (actions : List (Action α)) (b : Nat) : s.Balanced actions b := by
  induction actions generalizing s with
  | nil => exact ⟨by simp [run], by simp [run]⟩
  | cons action actions ih => exact (s.balanced_step action b).append ih

/-- An action that delivers to a buffer delivers one list, and finds the buffer as the others left it. -/
theorem deliveredTo_step {action : Action α} {b : Nat}
    (h : deliveredTo b (action, (s.step action).2) ≠ []) :
    (deliveredTo b (action, (s.step action).2)).length = 1 ∧
      ((s.step action).2.FoundOpen → (s.buffers b).closed = false) := by
  cases action with
  | fill k b' =>
    cases hk : s.sources[k]? with
    | none =>
      rw [step_fill_absent hk] at h
      exact absurd (ite_self _) h
    | some source =>
      rw [step_fill hk] at h ⊢
      by_cases hb : b' = b
      · subst hb
        simp only [deliveredTo, if_true, Outcome.delivery] at h ⊢
        split at h
        case isTrue => exact absurd rfl h
        case isFalse hlog => exact ⟨by rw [if_neg hlog]; rfl, id⟩
      · exact absurd (if_neg hb) h
  | _ => exact absurd rfl h

/-- **One list.** A buffer that is found open by everything that is delivered to it gets no more than
one list. -/
theorem deliveredTo_length_le_one {actions : List (Action α)} {b : Nat}
    (hfound : ∀ entry ∈ s.history actions, deliveredTo b entry ≠ [] → entry.2.FoundOpen) :
    ((s.history actions).flatMap (deliveredTo b)).length ≤ 1 := by
  induction actions using List.reverseRecOn with
  | nil => exact Nat.zero_le 1
  | append_singleton earlier action ih =>
    rw [history_append, history_singleton] at hfound ⊢
    obtain ⟨hearlier, hlast⟩ := List.forall_mem_append.mp hfound
    have hbefore := ih hearlier
    rw [List.flatMap_append, List.flatMap_singleton, List.length_append]
    by_cases hquiet : deliveredTo b (action, ((s.run earlier).step action).2) = []
    · rw [hquiet]
      exact hbefore
    · obtain ⟨hone, hfirst⟩ := deliveredTo_step hquiet
      have hstillOpen := hfirst (hlast _ (List.mem_singleton_self _) hquiet)
      have hnone : (s.history earlier).flatMap (deliveredTo b) = [] := by
        by_contra hsome
        rw [(balanced_run earlier b).closed.mpr (.inr hsome)] at hstillOpen
        cases hstillOpen
      rw [hnone, hone]
      exact Nat.le_refl 1

/-! ### Exactly once -/

/-- What a source that was filled so often holds and says of itself. -/
theorem spent_iff (items : List α) (n : Nat) :
    let source : ItemsSource α := if n = 0 then .new items else ⟨none⟩
    source.remaining = (if n = 0 then items.length else 0) ∧ source.isDone = decide (n ≠ 0) := by
  by_cases h : n = 0 <;> simp [h, ItemsSource.new, ItemsSource.remaining, ItemsSource.isDone]

/-- **Finite sources.** Whatever is done with sources and buffers before and after:

* a source can be built of an optional collection exactly if there is one, and is then the source of
  it;
* a source of some items delivers them all, in order, by its first fill, which closes the buffer, and
  all its other fills leave everything as it is and warn; until the first fill all the items remain,
  and after it none do and the source is done;
* a clone of such a source delivers the items once more if it was taken before the first fill and is
  filled itself, and else delivers nothing; and in general a clone of any source has the fate of what
  the source was when the clone was taken;
* a fill of a source that is done changes no source and no buffer;
* a drain hands over all that is in the buffer and leaves it empty, and closed if it was; it changes no
  source and no other buffer;
* what was drained from a buffer and what is left in it are, in order, the lists that were delivered to
  it; it is closed exactly if there was one; and if each of them found it open there was at most one. -/
theorem sources_deliver_once {α : Type} :
    (∀ collection : Option (List α),
      (∀ source, ItemsSource.tryNew collection = .ok source ↔
        ∃ items, collection = some items ∧ .new items = source) ∧
      ∀ e, ItemsSource.tryNew collection = .error e ↔ collection = none ∧ .missing "items" = e) ∧
    (∀ (s : Replay α) (items : List α) (later : List (Action α)),
      let k := s.sources.size
      let built := (s.step (.build items)).1
      built.RunsOnce later k (.new items) ∧
      ((built.history later).flatMap (ownOutcome k)).flatMap Outcome.delivery =
        (if fillsOf k later = 0 then [] else [items]) ∧
      ∃ source, (built.run later).sources[k]? = some source ∧
        source.remaining = (if fillsOf k later = 0 then items.length else 0) ∧
        source.isDone = decide (fillsOf k later ≠ 0)) ∧
    (∀ (s : Replay α) (items : List α) (between later : List (Action α)),
      let k := s.sources.size
      let original := (s.step (.build items)).1.run between
      let c := original.sources.size
      let cloned := (original.step (.clone k)).1
      cloned.RunsOnce later c (if fillsOf k between = 0 then .new items else ⟨none⟩) ∧
      ((cloned.history later).flatMap (ownOutcome c)).flatMap Outcome.delivery =
        if fillsOf k between = 0 ∧ fillsOf c later ≠ 0 then [items] else []) ∧
    (∀ (s : Replay α) (j : Nat) (source : ItemsSource α) (later : List (Action α)),
      s.sources[j]? = some source → (s.step (.clone j)).1.RunsOnce later s.sources.size source) ∧
    (∀ (s : Replay α) (k b : Nat) (source : ItemsSource α), s.sources[k]? = some source →
      source.isDone = true →
      s.step (.fill k b) = (s, .filled (s.buffers b) (s.buffers b) [.polledAfterClose])) ∧
    (∀ (s : Replay α) (b : Nat), ∃ drained, s.step (.drain b) = (drained, .drained (s.buffers b).items) ∧
      drained.buffers b = ⟨#[], (s.buffers b).closed⟩ ∧ drained.sources = s.sources ∧
      ∀ b', b' ≠ b → drained.buffers b' = s.buffers b') ∧
    ∀ (actions : List (Action α)) (b : Nat),
      let history := start.history actions
      let final := (start.run actions).buffers b
      history.flatMap (takenFrom b) ++ final.items.toList =
        (history.flatMap (deliveredTo b)).flatten ∧
      (final.closed = true ↔ history.flatMap (deliveredTo b) ≠ []) ∧
      ((∀ entry ∈ history, deliveredTo b entry ≠ [] → entry.2.FoundOpen) →
        (history.flatMap (deliveredTo b)).length ≤ 1) := by
  have hbuilt : ∀ (s : Replay α) (items : List α) (later : List (Action α)),
      (s.step (.build items)).1.RunsOnce later s.sources.size (.new items) := fun s items later =>
    runsOnce_run Array.getElem?_push_size later
  have hcloned : ∀ (s : Replay α) (j : Nat) (source : ItemsSource α) (later : List (Action α)),
      s.sources[j]? = some source → (s.step (.clone j)).1.RunsOnce later s.sources.size source := by
    intro s j source later h
    refine runsOnce_run ?_ later
    rw [step_clone h]
    exact Array.getElem?_push_size
  refine ⟨fun collection => ⟨fun source => ItemsSource.tryNew_eq_ok, fun e => ItemsSource.tryNew_eq_error⟩,
    fun s items later => ⟨hbuilt s items later, (hbuilt s items later).deliveries, _,
      (hbuilt s items later).state, spent_iff items _⟩,
    fun s items between later => ?_, hcloned, fun s k b source h hdone => step_fill_of_isDone h hdone b,
    step_drain, fun actions b => ?_⟩
  · have hclone := hcloned _ _ _ later (hbuilt s items between).state
    refine ⟨hclone, ?_⟩
    rw [hclone.deliveries]
    split <;> split <;> simp_all [ItemsSource.new]
  · obtain ⟨hitems, hclosed⟩ := balanced_run (s := start) actions b
    refine ⟨hitems, hclosed.trans ?_, deliveredTo_length_le_one⟩
    exact or_iff_right Bool.false_ne_true

/-- A clone taken before the first fill, one taken after it, and a buffer for each of the three. -/
theorem sources_deliver_once_with_clones :
    let actions : List (Action Nat) := [.build [1, 2], .clone 0, .fill 0 0, .drain 0, .clone 0,
      .fill 0 0, .fill 1 1, .fill 2 2]
    let early : Replay Nat := start.run (actions.take 1)
    let late : Replay Nat := start.run (actions.take 4)
    early.sources[0]? = some (.new [1, 2]) ∧ late.sources[0]? = some ⟨none⟩ ∧
      (early.step (.clone 0)).1.RunsOnce (actions.drop 2) 1 (.new [1, 2]) ∧
      (late.step (.clone 0)).1.RunsOnce (actions.drop 5) 2 ⟨none⟩ ∧
      late.step (.fill 0 0) =
        (late, .filled (late.buffers 0) (late.buffers 0) [.polledAfterClose]) ∧
      (∀ entry ∈ start.history actions, deliveredTo 0 entry ≠ [] → entry.2.FoundOpen) ∧
      ((start.history actions).flatMap (deliveredTo 0)).length ≤ 1 := by
  intro actions early late
  obtain ⟨-, -, -, hcloned, hspent, -, hbuffers⟩ := sources_deliver_once (α := Nat)
  have hearly : early.sources[0]? = some (.new [1, 2]) := rfl
  have hlate : late.sources[0]? = some ⟨none⟩ := rfl
  have hfound : ∀ entry ∈ start.history actions, deliveredTo 0 entry ≠ [] → entry.2.FoundOpen := by
    decide
  exact ⟨hearly, hlate, hcloned early 0 _ _ hearly, hcloned late 0 _ _ hlate,
    hspent late 0 0 _ hlate rfl, hfound, (hbuffers actions 0).2.2 hfound⟩

end Replay

end Pacing
