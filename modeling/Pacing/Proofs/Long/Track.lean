import Pacing.Long
import Pacing.Proofs.Polling
import Pacing.Proofs.Slots

/-!
# Instances on their progression

What an instance of a replicated integer source hands over in a run of polls: a prefix of the
arithmetic progression that starts with its next value, each value stamped with the instant it is
due. How far it gets depends on the polls; nothing else does.

* `emitDue_sound` says all one emission loop does.
* `poll_progression` is one poll, `added_eq_progression` a run of them.
* `run_slots` and `next_slot_after` bound what a run has handed over from both sides.
-/

namespace Pacing

variable {π : Type}

namespace LongStream

/-- The first `count` items of an instance that goes on with value `first`. -/
def progression (s : LongStream π) (first : Int) (count : Nat) : List (Timestamped Int) :=
  (List.range count).map fun j : Nat => ⟨first + j * s.stride, s.stamp (first + j * s.stride)⟩

/-- The instance once it has emitted `count` values. -/
def advanced (s : LongStream π) (count : Nat) : LongStream π :=
  { s with next := s.next + count * s.stride }

section Progression

variable (s : LongStream π) (first : Int)

@[simp]
theorem advanced_next (count : Nat) : (s.advanced count).next = s.next + count * s.stride := rfl

@[simp]
theorem advanced_stride (count : Nat) : (s.advanced count).stride = s.stride := rfl

@[simp]
theorem advanced_dueAt (count : Nat) (value : Int) :
    (s.advanced count).dueAt value = s.dueAt value := rfl

@[simp]
theorem progression_zero : s.progression first 0 = [] := rfl

theorem progression_values (count : Nat) :
    (s.progression first count).map Timestamped.item =
      (List.range count).map fun j : Nat => first + j * s.stride := by
  rw [progression, List.map_map]
  rfl

/-- The values of an instance that moves on increase. -/
theorem progression_increasing (hstride : 0 < s.stride) (count : Nat) :
    (s.progression first count).Pairwise fun a b => a.item < b.item := by
  rw [progression, List.pairwise_map]
  apply List.pairwise_lt_range.imp
  intro k l hkl
  have := Int.mul_lt_mul_of_pos_right (Int.ofNat_lt.mpr hkl) hstride
  exact Int.add_lt_add_left this first

theorem progression_append (count more : Nat) :
    s.progression first (count + more) =
      s.progression first count ++ s.progression (first + count * s.stride) more := by
  have hvalue : ∀ j : Nat, first + ((count : Int) + j) * s.stride =
      first + count * s.stride + j * s.stride := by
    intro j
    rw [Int.add_mul]
    omega
  simp [progression, List.range_add, Function.comp_def, hvalue]

theorem progression_succ (count : Nat) :
    s.progression first (count + 1) =
      ⟨first, s.stamp first⟩ :: s.progression (first + s.stride) count := by
  rw [Nat.add_comm, progression_append]
  simp [progression]

end Progression

/-! ### One emission loop -/

end LongStream

/-- All an emission loop does that starts with a value and has this much room. The value it ends
with is in `emitDue_next`. -/
structure LongEmission.Sound (s : LongStream π) (now : Int) (room : Nat) (next : Int)
    (e : LongEmission) : Prop where
  items_eq : e.items = s.progression next e.items.length
  /-- Every value was due. -/
  slots : ∀ j : Nat, j < e.items.length → s.dueAt (next + j * s.stride) ≤ now
  /-- Only the room ends the loop before everything due is emitted. -/
  drained : e.items.length < room → now < s.dueAt e.next

namespace LongStream

theorem emitDue_sound (s : LongStream π) (now : Int) (room : Nat) (next : Int) :
    (s.emitDue now room next).Sound s now room next := by
  induction room generalizing next with
  | zero => exact ⟨rfl, by simp [emitDue], by simp [emitDue]⟩
  | succ room ih =>
    unfold emitDue
    split
    case isFalse hdue => exact ⟨rfl, by simp, fun _ => Int.not_le.mp hdue⟩
    case isTrue hdue =>
      have later := ih (next + s.stride)
      refine ⟨?_, ?_, ?_⟩
      · rw [List.length_cons, progression_succ, ← later.items_eq]
      · intro j hj
        cases j with
        | zero => simpa using hdue
        | succ j =>
          have := later.slots j (by simpa using hj)
          rwa [Int.natCast_add, Int.add_mul, Int.natCast_one, Int.one_mul, Int.add_comm (_ * _),
            ← Int.add_assoc]
      · intro hroom
        exact later.drained (by simpa using hroom)

/-! ### One poll -/

@[simp]
theorem paced_poll (s : LongStream π) (r : Reading) : Paced.poll s r = s.poll r := rfl

/-- The loop a poll runs. -/
theorem poll_sound (s : LongStream π) (r : Reading) :
    (s.emitDue r.monotonic maxBatchSize s.next).Sound s r.monotonic maxBatchSize s.next :=
  emitDue_sound ..

/-- **Step.** A poll hands over the next values and moves on by as many. -/
theorem poll_progression (s : LongStream π) (r : Reading) :
    (s.poll r).added = s.progression s.next (s.poll r).added.length ∧
      (s.poll r).source = s.advanced (s.poll r).added.length := by
  refine ⟨(s.poll_sound r).items_eq, ?_⟩
  exact congrArg (fun next => { s with next := next }) (emitDue_next ..)

theorem poll_slots (s : LongStream π) (r : Reading) {j : Nat} (hj : j < (s.poll r).added.length) :
    s.dueAt (s.next + j * s.stride) ≤ r.monotonic :=
  (s.poll_sound r).slots j hj

/-- Every item a poll hands over was due, and is stamped with the instant it was. -/
theorem mem_poll_added {s : LongStream π} {r : Reading} {t : Timestamped Int}
    (ht : t ∈ (s.poll r).added) : s.dueAt t.item ≤ r.monotonic ∧ t.timestamp = s.stamp t.item := by
  rw [(s.poll_progression r).1] at ht
  obtain ⟨j, hj, rfl⟩ := List.mem_map.mp ht
  exact ⟨s.poll_slots r (List.mem_range.mp hj), rfl⟩

/-- A poll never fails, and it reports how many items it hands over. -/
theorem poll_report (s : LongStream π) (r : Reading) :
    ∃ report, (s.poll r).outcome = .ok report ∧ report.emitted = (s.poll r).added.length := by
  by_cases hempty : (s.poll r).added.length = 0
  · exact ⟨_, if_pos hempty, hempty.symm⟩
  · exact ⟨_, if_neg hempty, rfl⟩

/-- A poll that hands something over says how much. -/
theorem poll_ready {s : LongStream π} {r : Reading} (h : (s.poll r).added ≠ []) :
    (s.poll r).outcome = .ok (.ready (s.poll r).added.length) :=
  if_neg (mt List.eq_nil_of_length_eq_zero h)

instance : LawfulPaced (LongStream π) where
  emitted_eq s r report h := by
    obtain ⟨report', hreport, hemitted⟩ := s.poll_report r
    rw [paced_poll, hreport] at h
    cases h
    exact hemitted

theorem poll_uncapped_iff {s : LongStream π} {r : Reading} :
    (s.poll r).Uncapped ↔ (s.poll r).added.length < maxBatchSize := by
  obtain ⟨report, hreport, hemitted⟩ := s.poll_report r
  constructor
  · rintro ⟨report', hreport', hroom⟩
    rw [hreport] at hreport'
    cases hreport'
    rwa [← hemitted]
  · intro hroom
    exact ⟨report, hreport, hemitted ▸ hroom⟩

/-- After a poll with room left, the next value is not due yet. -/
theorem poll_uncapped {s : LongStream π} {r : Reading} (h : (s.poll r).Uncapped) :
    r.monotonic < s.dueAt (s.next + (s.poll r).added.length * s.stride) := by
  have hnext := (s.poll_sound r).drained (poll_uncapped_iff.mp h)
  rwa [emitDue_next] at hnext

/-! ### A run -/

/-- **Run.** A list of polls hands over the next values and moves the instance on by as many. -/
theorem run_progression (s : LongStream π) (rs : List Reading) :
    Paced.added s rs = s.progression s.next (Paced.added s rs).length ∧
      Paced.after s rs = s.advanced (Paced.added s rs).length := by
  induction rs generalizing s with
  | nil => simp [advanced]
  | cons r rs ih =>
    obtain ⟨hadded, hsource⟩ := s.poll_progression r
    obtain ⟨hlater, hafter⟩ := ih (s.poll r).source
    rw [Paced.added_cons, Paced.after_cons, paced_poll, List.length_append]
    constructor
    · rw [progression_append, ← hadded]
      congr 1
      rw [hsource] at hlater ⊢
      exact hlater
    · rw [hafter, hsource]
      simp only [advanced, Int.natCast_add, Int.add_mul]
      congr 1
      omega

theorem added_eq_progression (s : LongStream π) (rs : List Reading) :
    Paced.added s rs = s.progression s.next (Paced.added s rs).length :=
  (s.run_progression rs).1

/-- The values of a run are those of the progression. -/
theorem added_values (s : LongStream π) (rs : List Reading) :
    (Paced.added s rs).map Timestamped.item =
      (List.range (Paced.added s rs).length).map fun k : Nat => s.next + k * s.stride := by
  rw [congrArg (List.map Timestamped.item) (s.added_eq_progression rs), progression_values]

/-- An instance that moves on hands no value over twice. -/
theorem added_pairwise {s : LongStream π} {rs : List Reading} (hstride : 0 < s.stride) :
    (Paced.added s rs).Pairwise fun a b => a.item ≠ b.item := by
  rw [added_eq_progression]
  exact (s.progression_increasing s.next hstride _).imp Int.ne_of_lt

/-- Every value of an instance has the instance's index as its residue. -/
theorem item_emod {s : LongStream π} {rs : List Reading} {i n : Nat} (hnext : s.next = i)
    (hstride : s.stride = n) (hi : i < n) {t : Timestamped Int} (ht : t ∈ Paced.added s rs) :
    t.item % n = i := by
  have hvalue : t.item ∈ (Paced.added s rs).map Timestamped.item := List.mem_map_of_mem ht
  rw [added_values, hnext, hstride] at hvalue
  obtain ⟨k, -, hk⟩ := List.mem_map.mp hvalue
  rw [← hk, Int.add_mul_emod_self_right]
  exact Int.emod_eq_of_lt (by omega) (by omega)

/-- Every value of a run is due at or before any bound on the readings. -/
theorem run_slots {s : LongStream π} {rs : List Reading} {bound : Int}
    (hbound : ∀ r ∈ rs, r.monotonic ≤ bound) {j : Nat} (hj : j < (Paced.added s rs).length) :
    s.dueAt (s.next + j * s.stride) ≤ bound := by
  induction rs generalizing s j with
  | nil => simp at hj
  | cons r rs ih =>
    rw [Paced.added_cons, paced_poll, List.length_append] at hj
    by_cases hearly : j < (s.poll r).added.length
    · exact Int.le_trans (s.poll_slots r hearly) (hbound r (by simp))
    · have hlate := ih (s := (s.poll r).source) (fun r' hr' => hbound r' (by simp [hr']))
        (j := j - (s.poll r).added.length) (by omega)
      rw [(s.poll_progression r).2, advanced_dueAt, advanced_next, advanced_stride] at hlate
      have hj' : (j : Int) = (s.poll r).added.length + ((j - (s.poll r).added.length : Nat) : Int) := by
        omega
      rwa [hj', Int.add_mul, ← Int.add_assoc]

/-- After a run that ends with room left, the next value is not due yet. -/
theorem next_slot_after {s : LongStream π} {rs : List Reading} {stop : Int}
    (hstop : EndsAt rs stop) (huncapped : Paced.EndsUncapped s rs) :
    stop < s.dueAt (s.next + (Paced.added s rs).length * s.stride) := by
  obtain ⟨earlier, last, rfl, rfl⟩ := hstop.eq_snoc
  rw [Paced.endsUncapped_snoc, paced_poll, (s.run_progression earlier).2] at huncapped
  rw [Paced.added_snoc, paced_poll, (s.run_progression earlier).2, List.length_append,
    Int.natCast_add, Int.add_mul, ← Int.add_assoc]
  simpa using poll_uncapped huncapped

end LongStream

end Pacing
