import Pacing.Proofs.Polling

/-!
# Sources polled in turns

Any number of sources, polled in any order at any readings. Sources share nothing, so what one of
them does depends on its own turns only, and a property of all items together follows from each
source's own items and from any two sources.
-/

namespace Pacing

/-- The entries of a list of numbered entries that belong to one number, in order. -/
def part {β : Type} (i : Nat) (entries : List (Nat × β)) : List β :=
  (entries.filter fun entry => entry.1 == i).map Prod.snd

section Part

variable {β : Type}

@[simp]
theorem part_nil (i : Nat) : part i ([] : List (Nat × β)) = [] := rfl

@[simp]
theorem part_cons_self (i : Nat) (b : β) (entries : List (Nat × β)) :
    part i ((i, b) :: entries) = b :: part i entries := by
  simp [part]

theorem part_cons_of_ne {i j : Nat} (h : j ≠ i) (b : β) (entries : List (Nat × β)) :
    part i ((j, b) :: entries) = part i entries := by
  simp [part, h]

theorem part_append (i : Nat) (entries more : List (Nat × β)) :
    part i (entries ++ more) = part i entries ++ part i more := by
  simp [part]

theorem part_map_mk_self (i : Nat) (bs : List β) : part i (bs.map (Prod.mk i)) = bs := by
  induction bs with
  | nil => rfl
  | cons b bs ih => simp [ih]

theorem part_map_mk_of_ne {i j : Nat} (h : j ≠ i) (bs : List β) :
    part i (bs.map (Prod.mk j)) = [] := by
  simp [part, h]

theorem mem_part {i : Nat} {b : β} {entries : List (Nat × β)} :
    b ∈ part i entries ↔ (i, b) ∈ entries := by
  simp [part]

/-- Entries are related in order if those of one number are, and any two of different numbers. -/
theorem pairwise_of_part {R : β → β → Prop} {entries : List (Nat × β)}
    (hpart : ∀ i, (part i entries).Pairwise R)
    (hacross : ∀ x ∈ entries, ∀ y ∈ entries, x.1 ≠ y.1 → R x.2 y.2) :
    (entries.map Prod.snd).Pairwise R := by
  rw [List.pairwise_map, List.pairwise_iff_forall_sublist]
  intro x y hsub
  by_cases hxy : x.1 = y.1
  · have hfiltered := (hpart y.1).sublist ((hsub.filter fun entry => entry.1 == y.1).map Prod.snd)
    simpa [hxy] using hfiltered
  · exact hacross x (hsub.subset (by simp)) y (hsub.subset (by simp)) hxy

end Part

variable {σ ε α : Type}

/-- The items of numbered polls, each with the number of its source. -/
def itemsOf (polled : List (Nat × Polled σ ε α)) : List (Nat × Timestamped α) :=
  polled.flatMap fun entry => entry.2.added.map (Prod.mk entry.1)

theorem part_itemsOf (i : Nat) (polled : List (Nat × Polled σ ε α)) :
    part i (itemsOf polled) = (part i polled).flatMap Polled.added := by
  induction polled with
  | nil => rfl
  | cons entry polled ih =>
    obtain ⟨j, p⟩ := entry
    have hcons : itemsOf ((j, p) :: polled) = p.added.map (Prod.mk j) ++ itemsOf polled := rfl
    rw [hcons, part_append, ih]
    by_cases hj : j = i
    · subst hj
      rw [part_cons_self, part_map_mk_self, List.flatMap_cons]
    · rw [part_cons_of_ne hj, part_map_mk_of_ne hj, List.nil_append]

namespace Paced

variable [Paced σ ε α]

/-- What every poll does when sources are polled in turns, each turn naming a source by its place
and the reading it is polled at. A turn of a source that is not there does nothing. -/
def interleaved : List σ → List (Nat × Reading) → List (Nat × Polled σ ε α)
  | _, [] => []
  | sources, (i, r) :: turns =>
    match sources[i]? with
    | none => interleaved sources turns
    | some s => (i, poll s r) :: interleaved (sources.set i (poll s r).source) turns

/-- **Isolation.** A source among others does what it does on its own turns alone. -/
theorem part_interleaved {sources : List σ} {i : Nat} {s : σ} (h : sources[i]? = some s)
    (turns : List (Nat × Reading)) :
    part i (interleaved sources turns) = polls s (part i turns) := by
  induction turns generalizing sources s with
  | nil => rfl
  | cons turn turns ih =>
    obtain ⟨j, r⟩ := turn
    by_cases hj : j = i
    · subst hj
      have hplace : j < sources.length := (List.getElem?_eq_some_iff.mp h).1
      simp only [interleaved, h, part_cons_self, polls_cons]
      rw [ih (List.getElem?_set_self hplace)]
    · rw [part_cons_of_ne hj]
      unfold interleaved
      split
      · exact ih h
      · rw [part_cons_of_ne hj]
        apply ih
        rw [List.getElem?_set_ne hj]
        exact h

/-- A poll in turns belongs to one of the sources. -/
theorem lt_length_of_mem_interleaved {sources : List σ} {turns : List (Nat × Reading)}
    {entry : Nat × Polled σ ε α} (h : entry ∈ interleaved sources turns) :
    entry.1 < sources.length := by
  induction turns generalizing sources with
  | nil => simp [interleaved] at h
  | cons turn turns ih =>
    unfold interleaved at h
    split at h
    · exact ih h
    · rename_i s hs
      rcases List.mem_cons.mp h with rfl | h
      · exact (List.getElem?_eq_some_iff.mp hs).1
      · simpa using ih h

/-- The items of a source among others are those of its own turns. -/
theorem part_items_interleaved {sources : List σ} {i : Nat} {s : σ} (h : sources[i]? = some s)
    (turns : List (Nat × Reading)) :
    part i (itemsOf (interleaved sources turns)) = added s (part i turns) := by
  rw [part_itemsOf, part_interleaved h]
  rfl

theorem lt_length_of_mem_items {sources : List σ} {turns : List (Nat × Reading)}
    {entry : Nat × Timestamped α} (h : entry ∈ itemsOf (interleaved sources turns)) :
    entry.1 < sources.length := by
  obtain ⟨polled, hpolled, hentry⟩ := List.mem_flatMap.mp h
  obtain ⟨t, -, rfl⟩ := List.mem_map.mp hentry
  exact lt_length_of_mem_interleaved hpolled

end Paced

end Pacing
