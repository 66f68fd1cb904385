import Pacing.Proofs.Session

/-!
# The history of a manual clock

A manual clock shows the sum of what was done to it. An advance adds its nanoseconds, at most the
largest word, to both readings, and both wrap around modulo `2 ^ 64`; setting the wall clock begins
the sum of the wall reading anew and does not show on the monotonic one. A clock is held through
handles, and whoever clones a handle shares the clock: a reading taken through any of them is the
sum of what was done through all of them.

* `ManualClock.run_monotonic` and `ManualClock.run_wall` are the readings after any moves.
* `ManualClock.sumsHistory` adds what follows for the order of advances, for their merging and for
  the order of the readings.
* `SharedClocks.readings_step` and `SharedClocks.readings_run` follow one clock through what is
  done with the handles of all.
* `SharedClocks.handles_read_history` puts the two together.
-/

namespace Pacing

/-! ### Words of sums -/

namespace Word

theorem wrap_inRange (n : Int) : InRange (wrap n) := by
  unfold InRange lowest highest wrap
  have hlow := Int.le_bmod (x := n) (m := 18446744073709551616) (by decide)
  have hhigh := Int.bmod_lt (x := n) (m := 18446744073709551616) (by decide)
  omega

/-- A word is that of a sum when it differs from it by a multiple of `2 ^ 64`. -/
theorem wrap_eq_wrap_iff {a b : Int} : wrap a = wrap b ↔ (countLimit : Int) ∣ a - b := by
  unfold wrap countLimit
  rw [Int.bmod_eq_bmod_iff_bmod_sub_eq_zero]
  exact ⟨Int.dvd_of_bmod_eq_zero, Int.bmod_eq_zero_of_dvd⟩

/-- Wrapping at every step is wrapping once, at the end. -/
@[simp]
theorem wrap_wrap_add (a b : Int) : wrap (wrap a + b) = wrap (a + b) := Int.bmod_add_bmod

theorem ofCount_eq_min (n : Nat) : ofCount n = min (n : Int) highest := by
  unfold ofCount
  split <;> omega

end Word

namespace ManualClock

/-! ### Moves and their sums -/

/-- The spans of the advances among some moves, in order. -/
def spans : List Move → List Duration
  | [] => []
  | .advance span :: moves => span :: spans moves
  | .setWall _ :: moves => spans moves

/-- The nanoseconds of some advances together, each at most the largest word. -/
def total : List Duration → Int
  | [] => 0
  | span :: later => min (span.nanos : Int) Word.highest + total later

/-- The wall clock is set to signed words only. -/
def Move.Valid : Move → Prop
  | .advance _ => True
  | .setWall nanos => Word.InRange nanos

@[simp]
theorem total_nil : total [] = 0 := rfl

@[simp]
theorem total_cons (span : Duration) (later : List Duration) :
    total (span :: later) = stepNanos span + total later := by
  rw [total, stepNanos, Word.ofCount_eq_min]

theorem total_nonneg : ∀ later : List Duration, 0 ≤ total later
  | [] => Int.le_refl 0
  | span :: later => by
      rw [total_cons]
      exact Int.add_nonneg (Word.ofCount_nonneg span.nanos) (total_nonneg later)

theorem spans_append (earlier later : List Move) :
    spans (earlier ++ later) = spans earlier ++ spans later := by
  induction earlier with
  | nil => rfl
  | cons m earlier ih => cases m <;> simp [spans, ih]

theorem total_append (earlier later : List Duration) :
    total (earlier ++ later) = total earlier + total later := by
  induction earlier with
  | nil => exact (Int.zero_add _).symm
  | cons span earlier ih => rw [List.cons_append, total_cons, total_cons, ih, Int.add_assoc]

@[simp]
theorem run_cons (r : Reading) (m : Move) (moves : List Move) :
    run r (m :: moves) = run (m.apply r) moves := rfl

/-- Moves either only advance, or there is a last time that they set the wall clock. -/
theorem eq_advances_or_setWall : ∀ moves : List Move,
    (∃ later, moves = List.map .advance later) ∨
      ∃ earlier nanos later, moves = earlier ++ .setWall nanos :: List.map .advance later
  | [] => .inl ⟨[], rfl⟩
  | m :: moves => by
      obtain ⟨later, rfl⟩ | ⟨earlier, nanos, later, rfl⟩ := eq_advances_or_setWall moves
      · cases m with
        | advance span => exact .inl ⟨span :: later, rfl⟩
        | setWall nanos => exact .inr ⟨[], nanos, later, rfl⟩
      · exact .inr ⟨m :: earlier, nanos, later, rfl⟩

/-! ### Readings after any moves -/

variable {r : Reading} {moves : List Move}

/-- **Step.** One move adds its span to the word of the monotonic reading. -/
theorem wrap_monotonic_apply (r : Reading) (m : Move) :
    Word.wrap (m.apply r).monotonic = Word.wrap (r.monotonic + total (spans [m])) := by
  cases m with
  | advance span =>
    show Word.wrap (Word.wrap (r.monotonic + stepNanos span)) = _
    rw [Word.wrap_of_inRange (Word.wrap_inRange _), spans, spans, total_cons, total_nil,
      Int.add_zero]
  | setWall nanos => exact congrArg Word.wrap (Int.add_zero r.monotonic).symm

/-- **Step.** A move leads from signed words to signed words. -/
theorem Move.Valid.apply {m : Move} (h : m.Valid) (hr : r.InRange) : (m.apply r).InRange := by
  cases m with
  | advance span => exact ⟨Word.wrap_inRange _, Word.wrap_inRange _⟩
  | setWall nanos => exact ⟨hr.monotonic, h⟩

/-- A move leaves the monotonic reading a signed word, whatever the wall clock is set to. -/
theorem apply_monotonic_inRange (hr : Word.InRange r.monotonic) (m : Move) :
    Word.InRange (m.apply r).monotonic := by
  cases m with
  | advance span => exact Word.wrap_inRange _
  | setWall nanos => exact hr

/-- **Run.** Moves lead from signed words to signed words. -/
theorem run_inRange (hr : r.InRange) (hmoves : ∀ m ∈ moves, m.Valid) : (run r moves).InRange := by
  induction moves generalizing r with
  | nil => exact hr
  | cons m moves ih =>
    obtain ⟨hm, hlater⟩ := List.forall_mem_cons.mp hmoves
    exact ih (hm.apply hr) hlater

/-- **Run.** The monotonic reading is the first one and all advances, as a word. -/
theorem run_monotonic (hr : Word.InRange r.monotonic) (moves : List Move) :
    (run r moves).monotonic = Word.wrap (r.monotonic + total (spans moves)) := by
  induction moves generalizing r with
  | nil =>
    show r.monotonic = Word.wrap (r.monotonic + 0)
    rw [Int.add_zero, Word.wrap_of_inRange hr]
  | cons m moves ih =>
    calc (run r (m :: moves)).monotonic
        = Word.wrap ((m.apply r).monotonic + total (spans moves)) :=
          ih (apply_monotonic_inRange hr m)
      _ = Word.wrap (Word.wrap (m.apply r).monotonic + total (spans moves)) :=
          (Word.wrap_wrap_add _ _).symm
      _ = Word.wrap (r.monotonic + total (spans [m]) + total (spans moves)) := by
          rw [wrap_monotonic_apply, Word.wrap_wrap_add]
      _ = Word.wrap (r.monotonic + total (spans (m :: moves))) := by
          rw [Int.add_assoc, ← total_append, ← spans_append, List.singleton_append]

/-- **Run.** Advances alone add up on the wall clock as they do on the monotonic one. -/
theorem run_advances_wall (hr : Word.InRange r.wall) (later : List Duration) :
    (run r (later.map .advance)).wall = Word.wrap (r.wall + total later) := by
  induction later generalizing r with
  | nil =>
    show r.wall = Word.wrap (r.wall + 0)
    rw [Int.add_zero, Word.wrap_of_inRange hr]
  | cons span later ih =>
    have hstep : (Move.apply r (.advance span)).wall = Word.wrap (r.wall + stepNanos span) := rfl
    rw [List.map_cons, run_cons, ih (by rw [hstep]; exact Word.wrap_inRange _), hstep,
      Word.wrap_wrap_add, total_cons, Int.add_assoc]

/-- **Run.** The wall reading is the sum of the advances from the last setting on, as a word. -/
theorem run_wall (hr : Word.InRange r.wall) (hmoves : ∀ m ∈ moves, m.Valid) :
    (∃ later, moves = List.map .advance later ∧ (run r moves).wall = Word.wrap (r.wall + total later)) ∨
      ∃ earlier nanos later, moves = earlier ++ .setWall nanos :: List.map .advance later ∧
        (run r moves).wall = Word.wrap (nanos + total later) := by
  obtain ⟨later, rfl⟩ | ⟨earlier, nanos, later, rfl⟩ := eq_advances_or_setWall moves
  · exact .inl ⟨later, rfl, run_advances_wall hr later⟩
  · have hnanos : Word.InRange nanos := hmoves (.setWall nanos) (by simp)
    refine .inr ⟨earlier, nanos, later, rfl, ?_⟩
    rw [run_append, run_cons]
    exact run_advances_wall (r := Move.apply (run r earlier) (.setWall nanos)) hnanos later

/-! ### What follows for the order of moves -/

/-- Two advances in a row are both of them added up. -/
theorem advance_advance (r : Reading) (a b : Duration) :
    advance (advance r a) b =
      ⟨Word.wrap (r.monotonic + (stepNanos a + stepNanos b)),
        Word.wrap (r.wall + (stepNanos a + stepNanos b))⟩ := by
  simp [advance, Int.add_assoc]

theorem advance_right_comm (r : Reading) (a b : Duration) :
    advance (advance r a) b = advance (advance r b) a := by
  rw [advance_advance, advance_advance, Int.add_comm (stepNanos a)]

/-- Two advances are one by both spans, unless one by both spans would be capped. -/
theorem advance_advance_of_le {a b : Duration} (h : ((a.nanos + b.nanos : Nat) : Int) ≤ Word.highest)
    (r : Reading) : advance (advance r a) b = advance r ⟨a.nanos + b.nanos⟩ := by
  have hsum : stepNanos a + stepNanos b = stepNanos ⟨a.nanos + b.nanos⟩ := by
    show Word.ofCount a.nanos + Word.ofCount b.nanos = Word.ofCount (a.nanos + b.nanos)
    rw [Word.ofCount_eq_min, Word.ofCount_eq_min, Word.ofCount_eq_min]
    omega
  rw [advance_advance, hsum, advance]

/-- Advances can be made in any order. -/
theorem run_advances_perm {later later' : List Duration} (h : later.Perm later') (r : Reading) :
    run r (later.map .advance) = run r (later'.map .advance) := by
  unfold run
  rw [List.foldl_map, List.foldl_map]
  exact h.foldl_eq' (fun a _ b _ r => advance_right_comm r a b) r

/-- **Step.** An advance keeps the distance of the clocks modulo `2 ^ 64`. -/
theorem wrap_offset_advance (r : Reading) (span : Duration) :
    Word.wrap (advance r span).offset = Word.wrap r.offset := by
  have hmonotonic := Word.wrap_eq_wrap_iff.mp
    (Word.wrap_of_inRange (Word.wrap_inRange (r.monotonic + stepNanos span)))
  have hwall := Word.wrap_eq_wrap_iff.mp
    (Word.wrap_of_inRange (Word.wrap_inRange (r.wall + stepNanos span)))
  rw [Word.wrap_eq_wrap_iff]
  have hsum := Int.dvd_sub hwall hmonotonic
  unfold Reading.offset advance
  have hsame : ∀ w m w' m' d : Int, w' - (w + d) - (m' - (m + d)) = w' - m' - (w - m) := by
    intros
    omega
  rwa [hsame] at hsum

/-- **Run.** Advances keep the distance of the clocks modulo `2 ^ 64`. -/
theorem wrap_offset_run_advances (r : Reading) (later : List Duration) :
    Word.wrap (run r (later.map .advance)).offset = Word.wrap r.offset := by
  induction later generalizing r with
  | nil => rfl
  | cons span later ih =>
    rw [List.map_cons, run_cons, ih]
    exact wrap_offset_advance r span

/-- As long as the sum is a signed word, the monotonic reading is the sum itself. -/
theorem run_monotonic_of_inRange (hr : Word.InRange r.monotonic)
    (h : Word.InRange (r.monotonic + total (spans moves))) :
    (run r moves).monotonic = r.monotonic + total (spans moves) := by
  rw [run_monotonic hr, Word.wrap_of_inRange h]

/-- As long as the sum is a signed word, the monotonic reading does not go back. -/
theorem run_monotonic_le {later : List Move} (hr : Word.InRange r.monotonic)
    (h : Word.InRange (r.monotonic + total (spans (moves ++ later)))) :
    (run r moves).monotonic ≤ (run r (moves ++ later)).monotonic := by
  have hlater := total_nonneg (spans later)
  have hmoves := total_nonneg (spans moves)
  have hearlier : Word.InRange (r.monotonic + total (spans moves)) := by
    rw [spans_append, total_append] at h
    obtain ⟨hlow, -⟩ := hr
    obtain ⟨-, hhigh⟩ := h
    exact ⟨by omega, by omega⟩
  rw [run_monotonic_of_inRange hr hearlier, run_monotonic_of_inRange hr h, spans_append,
    total_append]
  omega

/-- What a clock that starts with two readings shows after any moves. -/
structure SumsHistory (monotonicNanos wallNanos : Int) (r : Reading) : Prop where
  /-- Both readings stay signed words. -/
  inRange : ∀ moves, (∀ m ∈ moves, m.Valid) → (run r moves).InRange
  /-- The monotonic reading is the first one and all advances. -/
  monotonic : ∀ moves, (run r moves).monotonic = Word.wrap (monotonicNanos + total (spans moves))
  /-- The wall reading is the first one and all advances, or from the last setting on. -/
  wall : ∀ moves, (∀ m ∈ moves, m.Valid) →
    (∃ later, moves = List.map .advance later ∧ (run r moves).wall = Word.wrap (wallNanos + total later)) ∨
      ∃ earlier nanos later, moves = earlier ++ .setWall nanos :: List.map .advance later ∧
        (run r moves).wall = Word.wrap (nanos + total later)
  /-- Setting the wall clock never shows on the monotonic reading. -/
  setWall : ∀ earlier nanos later,
    (run r (earlier ++ .setWall nanos :: later)).monotonic = (run r (earlier ++ later)).monotonic
  /-- Only setting the wall clock changes the distance of the clocks modulo `2 ^ 64`. -/
  offset : ∀ earlier later,
    Word.wrap (run r (earlier ++ List.map .advance later)).offset = Word.wrap (run r earlier).offset
  /-- Advances between two settings commute. -/
  commute : ∀ earlier advances advances' later, advances.Perm advances' →
    run r (earlier ++ List.map .advance advances ++ later) =
      run r (earlier ++ List.map .advance advances' ++ later)
  /-- Two advances are one by their sum, if that is not capped. -/
  merge : ∀ earlier (a b : Duration) later, ((a.nanos + b.nanos : Nat) : Int) ≤ Word.highest →
    run r (earlier ++ .advance a :: .advance b :: later) =
      run r (earlier ++ .advance ⟨a.nanos + b.nanos⟩ :: later)
  /-- The monotonic reading does not go back as long as the sum stays a signed word. -/
  nondecreasing : ∀ earlier later,
    Word.InRange (monotonicNanos + total (spans (earlier ++ later))) →
      (run r earlier).monotonic ≤ (run r (earlier ++ later)).monotonic

/-- **Sum of the history.** It holds of every clock that starts with signed words. -/
theorem sumsHistory (hr : r.InRange) : SumsHistory r.monotonic r.wall r where
  inRange _ hmoves := run_inRange hr hmoves
  monotonic moves := run_monotonic hr.monotonic moves
  wall moves hmoves := run_wall hr.wall hmoves
  setWall earlier nanos later := by
    rw [run_monotonic hr.monotonic, run_monotonic hr.monotonic, spans_append, spans_append, spans]
  offset earlier later := by
    rw [run_append]
    exact wrap_offset_run_advances (run r earlier) later
  commute earlier advances advances' later h := by
    rw [run_append, run_append, run_append, run_append, run_advances_perm h]
  merge earlier a b later h := by
    rw [run_append, run_append]
    exact congrArg (run · later) (advance_advance_of_le h (run r earlier))
  nondecreasing earlier later h := run_monotonic_le hr.monotonic h

theorem start_inRange {monotonicNanos : Int} (h : Word.InRange monotonicNanos) (wallMillis : Int) :
    (start monotonicNanos wallMillis).InRange :=
  ⟨h, Word.clamp_inRange _⟩

end ManualClock

/-! ### Handles -/

/-- Manual clocks and the handles they are held through. -/
structure SharedClocks where
  /-- What each clock shows. -/
  readings : Array Reading
  /-- Which clock each handle holds. -/
  handles : Array Nat

namespace SharedClocks

/-- One thing done with clocks and handles. -/
inductive Action where
  /-- Makes a clock and a handle that holds it. -/
  | make (monotonicNanos wallMillis : Int)
  /-- Makes one more handle for the clock that a handle holds. -/
  | clone (handle : Nat)
  /-- Moves the clock that a handle holds. -/
  | move (handle : Nat) (m : ManualClock.Move)

/-- Does one thing; nothing is done through a handle that there is not. -/
def step (s : SharedClocks) : Action → SharedClocks
  | .make monotonicNanos wallMillis =>
    ⟨s.readings.push (ManualClock.start monotonicNanos wallMillis), s.handles.push s.readings.size⟩
  | .clone handle =>
    match s.handles[handle]? with
    | none => s
    | some clock => { s with handles := s.handles.push clock }
  | .move handle m =>
    match s.handles[handle]? with
    | none => s
    | some clock => { s with readings := s.readings.modify clock fun r => m.apply r }

/-- Does a list of things in order. -/
def run (s : SharedClocks) (actions : List Action) : SharedClocks := actions.foldl step s

/-- A handle holds a clock. -/
def Holds (s : SharedClocks) (handle clock : Nat) : Prop := s.handles[handle]? = some clock

instance (s : SharedClocks) (handle clock : Nat) : Decidable (s.Holds handle clock) :=
  inferInstanceAs (Decidable (_ = _))

/-- What a handle reads. -/
def read (s : SharedClocks) (handle : Nat) : Option Reading := do
  let clock ← s.handles[handle]?
  s.readings[clock]?

/-- The moves that one action makes of a clock, through whichever of its handles. -/
def movesBy (s : SharedClocks) (clock : Nat) : Action → List ManualClock.Move
  | .move handle m => if s.Holds handle clock then [m] else []
  | .make _ _ => []
  | .clone _ => []

/-- The moves that a list of actions makes of a clock, in order. -/
def movesOf (s : SharedClocks) (clock : Nat) : List Action → List ManualClock.Move
  | [] => []
  | action :: actions => s.movesBy clock action ++ (s.step action).movesOf clock actions

variable {s : SharedClocks} {handle clock : Nat} {r : Reading}

/-- A clone of a handle there is. -/
theorem step_clone (h : s.Holds handle clock) :
    s.step (.clone handle) = { s with handles := s.handles.push clock } := by
  unfold Holds at h
  simp only [step, h]

/-- A clone of a handle there is not. -/
theorem step_clone_absent (h : s.handles[handle]? = none) : s.step (.clone handle) = s := by
  simp only [step, h]

/-- A move through a handle there is. -/
theorem step_move (h : s.Holds handle clock) (m : ManualClock.Move) :
    s.step (.move handle m) = { s with readings := s.readings.modify clock fun r => m.apply r } := by
  unfold Holds at h
  simp only [step, h]

/-- A move through a handle there is not. -/
theorem step_move_absent (h : s.handles[handle]? = none) (m : ManualClock.Move) :
    s.step (.move handle m) = s := by
  simp only [step, h]

/-- **Step.** A handle holds one clock for good. -/
theorem Holds.step (h : s.Holds handle clock) (action : Action) :
    (s.step action).Holds handle clock := by
  have hpush (other : Nat) : (s.handles.push other)[handle]? = some clock := by
    have hhandle := (Array.getElem?_eq_some_iff.mp h).1
    rw [Array.getElem?_push_lt hhandle, ← Array.getElem?_eq_getElem hhandle]
    exact h
  cases action with
  | make monotonicNanos wallMillis => exact hpush s.readings.size
  | clone cloned =>
    cases hcloned : s.handles[cloned]? with
    | none => rwa [step_clone_absent hcloned]
    | some held =>
      rw [step_clone hcloned]
      exact hpush held
  | move moved m =>
    cases hmoved : s.handles[moved]? with
    | none => rwa [step_move_absent hmoved]
    | some held =>
      rw [step_move hmoved]
      exact h

/-- **Run.** A handle holds one clock for good. -/
theorem Holds.run (h : s.Holds handle clock) (actions : List Action) :
    (s.run actions).Holds handle clock := by
  induction actions generalizing s with
  | nil => exact h
  | cons action actions ih => exact ih (h.step action)

/-- A clone holds the clock that is held by the handle it is made from. -/
theorem Holds.clone (h : s.Holds handle clock) :
    (s.step (.clone handle)).Holds s.handles.size clock := by
  rw [step_clone h]
  exact Array.getElem?_push_size

/-- **Step.** A clock is moved by what is done through its own handles, and by nothing else. -/
theorem readings_step (h : s.readings[clock]? = some r) (action : Action) :
    (s.step action).readings[clock]? = some (ManualClock.run r (s.movesBy clock action)) := by
  cases action with
  | make monotonicNanos wallMillis =>
    have hclock := (Array.getElem?_eq_some_iff.mp h).1
    show (s.readings.push _)[clock]? = some r
    rw [Array.getElem?_push_lt hclock, ← Array.getElem?_eq_getElem hclock, h]
  | clone cloned =>
    cases hcloned : s.handles[cloned]? with
    | none => rwa [step_clone_absent hcloned]
    | some held =>
      rw [step_clone hcloned]
      exact h
  | move moved m =>
    rw [movesBy]
    by_cases hown : s.Holds moved clock
    · rw [step_move hown]
      show (s.readings.modify clock fun r => m.apply r)[clock]? = _
      rw [if_pos hown, Array.getElem?_modify, if_pos rfl, h]
      rfl
    · rw [if_neg hown]
      cases hmoved : s.handles[moved]? with
      | none => rwa [step_move_absent hmoved]
      | some held =>
        have hother : held ≠ clock := fun hsame => hown (hsame ▸ hmoved)
        rw [step_move hmoved]
        show (s.readings.modify held fun r => m.apply r)[clock]? = _
        rw [Array.getElem?_modify, if_neg hother, h]
        rfl

/-- **Run.** What is done with all handles moves a clock by what is done through its own. -/
theorem readings_run (h : s.readings[clock]? = some r) (actions : List Action) :
    (s.run actions).readings[clock]? = some (ManualClock.run r (s.movesOf clock actions)) := by
  induction actions generalizing s r with
  | nil => exact h
  | cons action actions ih =>
    rw [movesOf, ManualClock.run_append]
    exact ih (readings_step h action)

/-- **Clones share one history.** A clock is made, among others, and then anything is done with
handles. The first handle of that clock and whatever is cloned from its handles hold it, and what
each of them reads is the sum of all that was done through any of them. -/
theorem handles_read_history (s : SharedClocks) {monotonicNanos : Int}
    (h : Word.InRange monotonicNanos) (wallMillis : Int) (actions : List Action) :
    let first := ManualClock.start monotonicNanos wallMillis
    let clock := s.readings.size
    let made := s.step (.make monotonicNanos wallMillis)
    let later := made.run actions
    later.Holds s.handles.size clock ∧
      (∀ handle, later.Holds handle clock →
        later.read handle = some (ManualClock.run first (made.movesOf clock actions)) ∧
          (later.step (.clone handle)).Holds later.handles.size clock) ∧
      ManualClock.SumsHistory monotonicNanos (Word.clamp (wallMillis * 1000000)) first := by
  intro first clock made later
  have hfirst : made.readings[clock]? = some first := Array.getElem?_push_size
  have hheld : made.Holds s.handles.size clock := Array.getElem?_push_size
  refine ⟨hheld.run actions, fun handle hhandle => ⟨?_, hhandle.clone⟩,
    ManualClock.sumsHistory (ManualClock.start_inRange h wallMillis)⟩
  show (later.handles[handle]?.bind fun clock => later.readings[clock]?) = _
  rw [hhandle]
  exact readings_run hfirst actions

/-- A clock at the end of its range is advanced past it through a clone, and its wall clock is set
through the first handle: both handles read the same wrapped reading. -/
theorem handles_read_history_past_highest :
    Word.InRange Word.highest ∧
      let later := (step ⟨#[], #[]⟩ (.make Word.highest 1)).run
        [.clone 0, .move 1 (.advance ⟨3⟩), .move 0 (.setWall 7), .move 1 (.advance ⟨2⟩)]
      later.read 0 = some ⟨Word.lowest + 4, 9⟩ ∧ later.read 1 = some ⟨Word.lowest + 4, 9⟩ := by
  have hhighest : Word.InRange Word.highest := by decide
  obtain ⟨hfirst, hread, -⟩ := handles_read_history ⟨#[], #[]⟩ hhighest 1
    [.clone 0, .move 1 (.advance ⟨3⟩), .move 0 (.setWall 7), .move 1 (.advance ⟨2⟩)]
  have hclone : (run (step ⟨#[], #[]⟩ (.make Word.highest 1)) [.clone 0, .move 1 (.advance ⟨3⟩),
      .move 0 (.setWall 7), .move 1 (.advance ⟨2⟩)]).Holds 1 0 := rfl
  exact ⟨hhighest, (hread 0 hfirst).1, (hread 1 hclone).1⟩

end SharedClocks

end Pacing
