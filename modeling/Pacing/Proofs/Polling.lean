import Pacing.Poll

/-!
# Runs of polls

A paced source is driven by polling it again and again. This module says what a whole list of
polls does: the source afterwards, what each poll reports, and everything that was handed over.
Nothing here depends on the kind of source.
-/

namespace Pacing

variable {σ ε α : Type}

/-! ### Readings of a run -/

/-- The monotonic clock does not go back from one reading to a later one. -/
def Steady (rs : List Reading) : Prop := rs.Pairwise fun r r' => r.monotonic ≤ r'.monotonic

/-- The wall clock does not go back from one reading to a later one. -/
def WallSteady (rs : List Reading) : Prop := rs.Pairwise fun r r' => r.wall ≤ r'.wall

/-- There is a first reading, and it shows this monotonic instant. -/
def StartsAt (rs : List Reading) (instant : Int) : Prop :=
  rs.head?.map Reading.monotonic = some instant

/-- There is a last reading, and it shows this monotonic instant. -/
def EndsAt (rs : List Reading) (instant : Int) : Prop :=
  rs.getLast?.map Reading.monotonic = some instant

instance (rs : List Reading) : Decidable (Steady rs) :=
  inferInstanceAs (Decidable (rs.Pairwise fun r r' => r.monotonic ≤ r'.monotonic))

instance (rs : List Reading) : Decidable (WallSteady rs) :=
  inferInstanceAs (Decidable (rs.Pairwise fun r r' => r.wall ≤ r'.wall))

instance (rs : List Reading) (instant : Int) : Decidable (StartsAt rs instant) :=
  inferInstanceAs (Decidable (rs.head?.map Reading.monotonic = some instant))

instance (rs : List Reading) (instant : Int) : Decidable (EndsAt rs instant) :=
  inferInstanceAs (Decidable (rs.getLast?.map Reading.monotonic = some instant))

theorem startsAt_cons {r : Reading} {rs : List Reading} {instant : Int} :
    StartsAt (r :: rs) instant ↔ r.monotonic = instant := by
  simp [StartsAt]

/-- The first polls of a run start with it. -/
theorem StartsAt.of_append {rs later : List Reading} {instant : Int}
    (h : StartsAt (rs ++ later) instant) (hrs : rs ≠ []) : StartsAt rs instant := by
  cases rs with
  | nil => exact absurd rfl hrs
  | cons r rs => exact startsAt_cons.mpr (startsAt_cons.mp h)

/-- Further polls do not change where a run starts. -/
theorem StartsAt.append {rs : List Reading} {instant : Int} (h : StartsAt rs instant)
    (later : List Reading) : StartsAt (rs ++ later) instant := by
  cases rs with
  | nil => simp [StartsAt] at h
  | cons r rs => exact startsAt_cons.mpr (startsAt_cons.mp h)

theorem endsAt_snoc {rs : List Reading} {r : Reading} {instant : Int} :
    EndsAt (rs ++ [r]) instant ↔ r.monotonic = instant := by
  simp [EndsAt]

/-- A run with a last reading is that reading after all the others. -/
theorem EndsAt.eq_snoc {rs : List Reading} {instant : Int} (h : EndsAt rs instant) :
    ∃ earlier last, rs = earlier ++ [last] ∧ last.monotonic = instant := by
  obtain ⟨last, hlast, rfl⟩ := Option.map_eq_some_iff.mp h
  obtain ⟨earlier, rfl⟩ := List.getLast?_eq_some_iff.mp hlast
  exact ⟨earlier, last, rfl, rfl⟩

/-- In a steady run every earlier reading is at most the last one. -/
theorem Steady.le_last {rs : List Reading} {last : Reading} (h : Steady (rs ++ [last])) :
    ∀ r ∈ rs, r.monotonic ≤ last.monotonic := by
  intro r hr
  exact (List.pairwise_append.mp h).2.2 r hr last (by simp)

/-- In a steady run no reading is strictly between two neighbours. -/
theorem Steady.le_or_le {earlier later : List Reading} {q r : Reading}
    (h : Steady (earlier ++ q :: r :: later)) {p : Reading}
    (hp : p ∈ earlier ++ q :: r :: later) :
    p.monotonic ≤ q.monotonic ∨ r.monotonic ≤ p.monotonic := by
  obtain ⟨-, hrest, hearlier⟩ := List.pairwise_append.mp h
  obtain ⟨-, hlater⟩ := List.pairwise_cons.mp hrest
  rcases List.mem_append.mp hp with hp | hp
  · exact .inl (hearlier p hp q (by simp))
  · rcases List.mem_cons.mp hp with rfl | hp
    · exact .inl (Int.le_refl _)
    · rcases List.mem_cons.mp hp with rfl | hp
      · exact .inr (Int.le_refl _)
      · exact .inr ((List.pairwise_cons.mp hlater).1 p hp)

/-- In a run that ends at an instant no reading is after it. -/
theorem Steady.le_stop {rs : List Reading} {stop : Int} (h : Steady rs) (hstop : EndsAt rs stop) :
    ∀ r ∈ rs, r.monotonic ≤ stop := by
  obtain ⟨earlier, last, rfl, rfl⟩ := hstop.eq_snoc
  intro r hr
  rcases List.mem_append.mp hr with hr | hr
  · exact h.le_last r hr
  · exact Int.le_of_eq (congrArg Reading.monotonic (List.mem_singleton.mp hr))

/-- In a steady run the first reading is at most the last one. -/
theorem Steady.start_le_stop {rs : List Reading} {start stop : Int} (h : Steady rs)
    (hstart : StartsAt rs start) (hstop : EndsAt rs stop) : start ≤ stop := by
  obtain ⟨earlier, last, rfl, rfl⟩ := hstop.eq_snoc
  cases earlier with
  | nil =>
    rw [List.nil_append, startsAt_cons] at hstart
    exact Int.le_of_eq hstart.symm
  | cons first rest =>
    rw [List.cons_append, startsAt_cons] at hstart
    rw [← hstart]
    exact h.le_last first (by simp)

/-! ### What a list of polls does -/

/-- A poll that succeeded with room left in its batch. A pending one is of this kind. -/
def Polled.Uncapped (p : Polled σ ε α) : Prop :=
  ∃ report, p.outcome = .ok report ∧ report.emitted < maxBatchSize

/-- A source whose reports say how much is handed over. -/
class LawfulPaced (σ : Type) {ε α : outParam Type} [Paced σ ε α] : Prop where
  emitted_eq : ∀ (s : σ) (r : Reading) (report : Poll),
    (Paced.poll s r).outcome = .ok report → report.emitted = (Paced.poll s r).added.length

namespace Paced

variable [Paced σ ε α]

/-- What each of a list of polls does, in order. -/
def polls : σ → List Reading → List (Polled σ ε α)
  | _, [] => []
  | s, r :: rs => poll s r :: polls (poll s r).source rs

/-- The source after a list of polls. -/
def after : σ → List Reading → σ
  | s, [] => s
  | s, r :: rs => after (poll s r).source rs

/-- Everything a list of polls hands over, also by polls that fail. -/
def added (s : σ) (rs : List Reading) : List (Timestamped α) := (polls s rs).flatMap Polled.added

/-- The last poll succeeds with room left in its batch. -/
def EndsUncapped (s : σ) (rs : List Reading) : Prop :=
  ∃ p, (polls s rs).getLast? = some p ∧ p.Uncapped

/-- The last poll finds nothing due. -/
def EndsPending (s : σ) (rs : List Reading) : Prop :=
  ∃ p yieldFor, (polls s rs).getLast? = some p ∧ p.outcome = .ok (.pending yieldFor)

@[simp]
theorem polls_nil (s : σ) : polls s [] = [] := rfl

@[simp]
theorem polls_cons (s : σ) (r : Reading) (rs : List Reading) :
    polls s (r :: rs) = poll s r :: polls (poll s r).source rs := rfl

@[simp]
theorem after_nil (s : σ) : after s [] = s := rfl

@[simp]
theorem after_cons (s : σ) (r : Reading) (rs : List Reading) :
    after s (r :: rs) = after (poll s r).source rs := rfl

@[simp]
theorem added_nil (s : σ) : added s [] = [] := rfl

@[simp]
theorem added_cons (s : σ) (r : Reading) (rs : List Reading) :
    added s (r :: rs) = (poll s r).added ++ added (poll s r).source rs := by
  simp [added]

theorem after_append (s : σ) (earlier later : List Reading) :
    after s (earlier ++ later) = after (after s earlier) later := by
  induction earlier generalizing s with
  | nil => rfl
  | cons r earlier ih => exact ih _

theorem polls_append (s : σ) (earlier later : List Reading) :
    polls s (earlier ++ later) = polls s earlier ++ polls (after s earlier) later := by
  induction earlier generalizing s with
  | nil => rfl
  | cons r earlier ih => simp [ih]

theorem added_append (s : σ) (earlier later : List Reading) :
    added s (earlier ++ later) = added s earlier ++ added (after s earlier) later := by
  simp [added, polls_append]

theorem added_snoc (s : σ) (rs : List Reading) (r : Reading) :
    added s (rs ++ [r]) = added s rs ++ (poll (after s rs) r).added := by
  simp [added_append]

/-- The item of a run with the number `k`, counted from zero, is `t`, and a poll at `r` hands it
over. -/
def HandsOver (s : σ) (rs : List Reading) (k : Nat) (r : Reading) (t : Timestamped α) : Prop :=
  ∃ earlier later, rs = earlier ++ r :: later ∧
    (added s earlier).length ≤ k ∧ (added s (earlier ++ [r]))[k]? = some t

/-- Some poll of a run hands over every item of it. -/
theorem getElem?_added_iff {s : σ} {rs : List Reading} {k : Nat} {t : Timestamped α} :
    (added s rs)[k]? = some t ↔ ∃ r, HandsOver s rs k r t := by
  constructor
  · intro ht
    induction rs generalizing s k with
    | nil => simp at ht
    | cons r rs ih =>
      rw [added_cons] at ht
      by_cases hk : k < (poll s r).added.length
      · rw [List.getElem?_append_left hk] at ht
        exact ⟨r, [], rs, rfl, Nat.zero_le k, by simpa using ht⟩
      · rw [List.getElem?_append_right (Nat.le_of_not_lt hk)] at ht
        obtain ⟨r', earlier, later, rfl, hlow, hitem⟩ := ih ht
        refine ⟨r', r :: earlier, later, rfl, ?_, ?_⟩
        · rw [added_cons, List.length_append]
          omega
        · rw [List.cons_append, added_cons, List.getElem?_append_right (Nat.le_of_not_lt hk)]
          exact hitem
  · rintro ⟨r, earlier, later, rfl, -, ht⟩
    have hk := (List.getElem?_eq_some_iff.mp ht).1
    rw [List.append_cons, added_append, List.getElem?_append_left hk, ht]

/-- The poll that hands over an item has it among its own. -/
theorem HandsOver.mem_poll {s : σ} {rs : List Reading} {k : Nat} {r : Reading} {t : Timestamped α}
    (h : HandsOver s rs k r t) : ∃ earlier, t ∈ (poll (after s earlier) r).added := by
  obtain ⟨earlier, later, -, hlow, ht⟩ := h
  rw [added_snoc, List.getElem?_append_right hlow] at ht
  exact ⟨earlier, List.mem_of_getElem? ht⟩

/-- The poll that hands over an item is at one of the readings. -/
theorem HandsOver.mem_readings {s : σ} {rs : List Reading} {k : Nat} {r : Reading}
    {t : Timestamped α} (h : HandsOver s rs k r t) : r ∈ rs := by
  obtain ⟨earlier, later, rfl, -, -⟩ := h
  simp

/-- What holds of every poll of a source holds of the polls of a run. -/
theorem forall_polls {P : Polled σ ε α → Prop} (h : ∀ s r, P (poll s r)) (s : σ)
    (rs : List Reading) : ∀ p ∈ polls s rs, P p := by
  induction rs generalizing s with
  | nil => simp
  | cons r rs ih =>
    intro p hp
    rcases List.mem_cons.mp hp with rfl | hp
    · exact h s r
    · exact ih _ p hp

theorem endsUncapped_snoc {s : σ} {rs : List Reading} {r : Reading} :
    EndsUncapped s (rs ++ [r]) ↔ (poll (after s rs) r).Uncapped := by
  simp [EndsUncapped, polls_append]

theorem EndsPending.uncapped {s : σ} {rs : List Reading} (h : EndsPending s rs) :
    EndsUncapped s rs := by
  obtain ⟨p, yieldFor, hlast, hpending⟩ := h
  exact ⟨p, hlast, .pending yieldFor, hpending, Nat.zero_lt_succ _⟩

/-- A source that hands over no more than so much at one instant has at last nothing due there. -/
theorem exists_idle_poll {s : σ} {r : Reading} {bound : Nat}
    (h : ∀ n, (added s (List.replicate n r)).length ≤ bound) :
    ∃ n, (poll (after s (List.replicate n r)) r).added = [] := by
  -- As long as every poll hands something over, so many polls hand over as many items.
  have hbusy : ∀ n, (∃ k, (poll (after s (List.replicate k r)) r).added = []) ∨
      n ≤ (added s (List.replicate n r)).length := by
    intro n
    induction n with
    | zero => exact .inr (Nat.zero_le _)
    | succ n ih =>
      rcases ih with hidle | hmany
      · exact .inl hidle
      · by_cases hnow : (poll (after s (List.replicate n r)) r).added = []
        · exact .inl ⟨n, hnow⟩
        · have := List.length_pos_iff.mpr hnow
          rw [List.replicate_succ', added_snoc, List.length_append]
          exact .inr (by omega)
  rcases hbusy (bound + 1) with hidle | hmany
  · exact hidle
  · have := h (bound + 1)
    omega

end Paced

end Pacing
