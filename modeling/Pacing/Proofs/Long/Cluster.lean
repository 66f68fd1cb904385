import Pacing.Proofs.Long.Track

/-!
# Clusters

The instances of a replicated source on all members of a cluster. Members are made at instants
of their own, and so are instances; the index of an instance says which member hosts it. Where
no computation saturates, an instance keeps to the schedule of the whole source.

* `cluster_eq` says which member makes the instance at each index.
* `create_config_scheduled` puts an instance on the schedule of its start, and `create_scheduled` one
  of a member.
* `Scheduled.mem_added_iff` says exactly what it has handed over by an instant.
-/

namespace Pacing

variable {π σ : Type}

/-- Blocks of one length, side by side, cover a range. -/
theorem flatMap_range_blocks {β : Type} {length : Nat} (hlength : 0 < length) (blocks : Nat)
    (f : Nat → Nat → β) :
    ((List.range blocks).flatMap fun m => (List.range length).map fun j => f m (m * length + j)) =
      (List.range (blocks * length)).map fun i => f (i / length) i := by
  induction blocks with
  | zero => simp
  | succ blocks ih =>
    have hblocks : List.range (blocks + 1) = List.range blocks ++ [blocks] := List.range_succ
    rw [hblocks, List.flatMap_append, ih, Nat.succ_mul, List.range_add, List.map_append,
      List.map_map, List.flatMap_singleton]
    congr 1
    apply List.map_congr_left
    intro j hj
    have hblock : (blocks * length + j) / length = blocks := by
      rw [Nat.mul_comm, Nat.mul_add_div hlength, Nat.div_eq_of_lt (List.mem_range.mp hj),
        Nat.add_zero]
    simp [hblock]

/-- An instance's index is its place on its member, counted on from the members before. -/
theorem MemberSupplier.getAll_mapIdx (m : MemberSupplier π) (factory : InstanceConfig π → σ)
    (memberIndex memberCount : Nat) (hosted : Positive) :
    (m.getAll factory memberIndex memberCount hosted).mapIdx
        (fun i made => (memberIndex * hosted.val + i, made)) =
      m.getAll (fun config => (config.index, factory config)) memberIndex memberCount hosted := by
  apply List.ext_getElem
  · simp [getAll]
  · intro i _ _
    simp [getAll, get, configOf]

namespace LongSource

/-- The instances of all members, in the order of their indices. Each member has a policy and
makes its supplier at a reading of its own. -/
def cluster (source : LongSource) (policy : Nat → π) (memberAt : Nat → Reading)
    (factory : InstanceConfig π → σ) (members hosted : Positive) : List σ :=
  (List.range members.val).flatMap fun m =>
    (source.member (policy m) (memberAt m)).getAll factory m members.val hosted

section Cluster

variable (source : LongSource) (policy : Nat → π) (memberAt : Nat → Reading)
  (factory : InstanceConfig π → σ) (members hosted : Positive)

/-- The instance at an index is made by the member whose block the index is in. -/
theorem cluster_eq :
    source.cluster policy memberAt factory members hosted =
      (List.range (members.val * hosted.val)).map fun i =>
        (source.member (policy (i / hosted.val)) (memberAt (i / hosted.val))).get factory i
          (members.val * hosted.val) := by
  rw [← flatMap_range_blocks hosted.property members.val fun m i =>
    (source.member (policy m) (memberAt m)).get factory i (members.val * hosted.val)]
  have hsize : MemberSupplier.clusterSize members.val hosted = members.val * hosted.val := by
    rw [MemberSupplier.clusterSize, Nat.max_eq_left members.property]
  simp only [cluster, MemberSupplier.getAll, hsize]

theorem cluster_length :
    (source.cluster policy memberAt factory members hosted).length =
      members.val * hosted.val := by
  simp [cluster_eq]

theorem getElem?_cluster {i : Nat} (hi : i < members.val * hosted.val) :
    (source.cluster policy memberAt factory members hosted)[i]? =
      some ((source.member (policy (i / hosted.val)) (memberAt (i / hosted.val))).get factory i
        (members.val * hosted.val)) := by
  simp [cluster_eq, hi]

end Cluster

end LongSource

/-! ### The schedule of a source -/

/-- Nothing saturates on the way to the due instant of a value and to its event time. -/
structure Unsaturated (startMillis offset period value : Int) : Prop where
  started : Word.InRange (startMillis * nanosPerMilli)
  shifted : Word.InRange (startMillis * nanosPerMilli - offset)
  elapsed : Word.InRange (value * period)
  due : Word.InRange (startMillis * nanosPerMilli - offset + value * period)
  stamped : Word.InRange (startMillis * nanosPerMilli + value * period)

instance (startMillis offset period value : Int) :
    Decidable (Unsaturated startMillis offset period value) :=
  decidable_of_iff
    (Word.InRange (startMillis * nanosPerMilli) ∧
      Word.InRange (startMillis * nanosPerMilli - offset) ∧
      Word.InRange (value * period) ∧
      Word.InRange (startMillis * nanosPerMilli - offset + value * period) ∧
      Word.InRange (startMillis * nanosPerMilli + value * period))
    ⟨fun ⟨h₁, h₂, h₃, h₄, h₅⟩ => ⟨h₁, h₂, h₃, h₄, h₅⟩,
      fun ⟨h₁, h₂, h₃, h₄, h₅⟩ => ⟨h₁, h₂, h₃, h₄, h₅⟩⟩

/-- Where nothing saturates for a value, nothing does for an earlier one. -/
theorem Unsaturated.of_le {startMillis offset period : Int} {v w : Nat}
    (h : Unsaturated startMillis offset period w) (hperiod : 0 ≤ period) (hvw : v ≤ w) :
    Unsaturated startMillis offset period v := by
  have hzero : 0 ≤ (v : Int) * period := Int.mul_nonneg (Int.natCast_nonneg v) hperiod
  have hle : (v : Int) * period ≤ w * period :=
    Int.mul_le_mul_of_nonneg_right (by omega) hperiod
  obtain ⟨hstarted, hshifted, helapsed, hdue, hstamped⟩ := h
  unfold Word.InRange Word.lowest Word.highest at *
  refine ⟨hstarted, hshifted, ?_, ?_, ?_⟩ <;> unfold Word.InRange Word.lowest Word.highest <;> omega

/-- The item of a value: it is dated as many periods after the start. -/
def scheduledItem (startMillis period : Int) (value : Nat) : Timestamped Int :=
  ⟨value, (startMillis * nanosPerMilli + value * period) / nanosPerMilli⟩

/-- Number of values that are due by an instant, `0` up to the one before it. -/
def dueValues (startMillis offset period now : Int) : Nat :=
  dueCount period now (startMillis * nanosPerMilli - offset)

namespace LongStream

/-- An instance that goes on with value `i` and takes every `n`th value, and keeps to the
schedule of the source for all values below `bound`. -/
structure Scheduled (s : LongStream π) (startMillis offset period : Int) (i n bound : Nat) :
    Prop where
  next_eq : s.next = i
  stride_eq : s.stride = n
  dueAt_eq : ∀ v : Nat, v < bound →
    s.dueAt v = startMillis * nanosPerMilli - offset + v * period
  item_eq : ∀ v : Nat, v < bound → ⟨v, s.stamp v⟩ = scheduledItem startMillis period v

theorem ofCount_of_le {count : Nat} (h : (count : Int) ≤ Word.highest) :
    Word.ofCount count = count := if_pos h

section Create

variable (config : InstanceConfig π) (r : Reading)

theorem create_period (hrate : 1 ≤ config.itemsPerSecond) :
    (create config r).period = nanosPerSecond / config.itemsPerSecond :=
  congrArg (fun rate : Int => nanosPerSecond / rate) (Int.max_eq_left hrate)

/-- A new instance starts at the configured instant, moved to the monotonic clock. -/
theorem create_start (hstarted : Word.InRange (config.startMillis * nanosPerMilli))
    (hshifted : Word.InRange (config.startMillis * nanosPerMilli - r.offset)) :
    (create config r).start = config.startMillis * nanosPerMilli - r.offset := by
  have hstart : (create config r).start =
      Word.satSub (Word.satMul config.startMillis nanosPerMilli) r.offset := rfl
  rw [hstart, Word.satMul, Word.clamp_of_inRange hstarted, Word.satSub,
    Word.clamp_of_inRange hshifted]

/-- A value is due as many periods after the start. -/
theorem create_dueAt (hrate : 1 ≤ config.itemsPerSecond) {value : Int}
    (h : Unsaturated config.startMillis r.offset (nanosPerSecond / config.itemsPerSecond) value) :
    (create config r).dueAt value = config.startMillis * nanosPerMilli - r.offset +
      value * (nanosPerSecond / config.itemsPerSecond) := by
  rw [dueAt, create_period config r hrate, create_start config r h.started h.shifted, Word.satMul,
    Word.clamp_of_inRange h.elapsed, Word.satAdd, Word.clamp_of_inRange h.due]

/-- A value is stamped as many periods after the start, wherever the monotonic clock began. -/
theorem create_stamp (hrate : 1 ≤ config.itemsPerSecond) {value : Int}
    (h : Unsaturated config.startMillis r.offset (nanosPerSecond / config.itemsPerSecond) value) :
    (create config r).stamp value = (config.startMillis * nanosPerMilli +
      value * (nanosPerSecond / config.itemsPerSecond)) / nanosPerMilli := by
  have hsum : config.startMillis * nanosPerMilli - r.offset +
      value * (nanosPerSecond / config.itemsPerSecond) + r.offset =
        config.startMillis * nanosPerMilli +
          value * (nanosPerSecond / config.itemsPerSecond) := by
    omega
  have hoffset : (create config r).offset = r.offset := rfl
  rw [stamp, create_dueAt config r hrate h, hoffset, Word.satAdd, hsum,
    Word.clamp_of_inRange h.stamped]

/-- A new instance goes on with its index. -/
theorem create_next (hindex : (config.index : Int) ≤ Word.highest) :
    (create config r).next = config.index := ofCount_of_le hindex

/-- A new instance takes every value whose distance is the number of instances, at least one. -/
theorem create_stride (htotal : (config.total : Int) ≤ Word.highest) :
    (create config r).stride = (max config.total 1 : Nat) := by
  apply ofCount_of_le
  have : (1 : Int) ≤ Word.highest := by decide
  omega

/-- **Schedule.** A new instance keeps to the schedule of its start for all values for which nothing
saturates. -/
theorem create_config_scheduled (hindex : (config.index : Int) ≤ Word.highest)
    (htotal : (config.total : Int) ≤ Word.highest) (hrate : 1 ≤ config.itemsPerSecond) {bound : Nat}
    (hexact : ∀ v : Nat, v < bound → Unsaturated config.startMillis r.offset
      (nanosPerSecond / config.itemsPerSecond) v) :
    (create config r).Scheduled config.startMillis r.offset
      (nanosPerSecond / config.itemsPerSecond) config.index (max config.total 1) bound := by
  refine ⟨create_next config r hindex, create_stride config r htotal, ?_, ?_⟩
  · intro v hv
    exact create_dueAt config r hrate (hexact v hv)
  · intro v hv
    rw [create_stamp config r hrate (hexact v hv)]
    rfl

end Create

/-- The instance of a member at an index keeps to the schedule of the member's start. -/
theorem create_scheduled (m : MemberSupplier π) (r : Reading) {i n : Nat}
    (hn : (n : Int) ≤ Word.highest) (hi : i < n) (hrate : 1 ≤ m.itemsPerSecond) {bound : Nat}
    (hexact : ∀ v : Nat, v < bound →
      Unsaturated m.startMillis r.offset (nanosPerSecond / m.itemsPerSecond) v) :
    (create (m.configOf i n) r).Scheduled m.startMillis r.offset
      (nanosPerSecond / m.itemsPerSecond) i n bound := by
  have hmax : max n 1 = n := by omega
  have h := create_config_scheduled (m.configOf i n) r (show (i : Int) ≤ Word.highest by omega) hn hrate
    hexact
  rwa [show (m.configOf i n).total = n from rfl, hmax] at h

/-! ### What a scheduled instance has handed over -/

section Scheduled

variable {s : LongStream π} {startMillis offset period stop : Int} {i n : Nat} {rs : List Reading}

theorem Scheduled.value_eq {bound : Nat} (h : s.Scheduled startMillis offset period i n bound)
    (j : Nat) : s.next + j * s.stride = ((i + j * n : Nat) : Int) := by
  rw [h.next_eq, h.stride_eq]
  simp

/-- What has been handed over before does not matter to the schedule. -/
theorem Scheduled.advanced {bound : Nat} (h : s.Scheduled startMillis offset period i n bound)
    (count : Nat) :
    (s.advanced count).Scheduled startMillis offset period (i + count * n) n bound := by
  refine ⟨?_, h.stride_eq, h.dueAt_eq, h.item_eq⟩
  exact h.value_eq count

theorem Scheduled.dueAt_le_iff {bound : Nat} (h : s.Scheduled startMillis offset period i n bound)
    (hperiod : 0 < period) {v : Nat} (hv : v < bound) :
    s.dueAt v ≤ stop ↔ v < dueValues startMillis offset period stop := by
  rw [h.dueAt_eq v hv, dueValues, lt_dueCount_iff hperiod]

/-- Nothing is handed over early. -/
theorem Scheduled.value_lt
    (h : s.Scheduled startMillis offset period i n
      (dueValues startMillis offset period stop + n))
    (hperiod : 0 < period) (hi : i < n) (hbound : ∀ r ∈ rs, r.monotonic ≤ stop) {j : Nat}
    (hj : j < (Paced.added s rs).length) :
    i + j * n < dueValues startMillis offset period stop := by
  -- The value before this one was due, so that this one is still on the schedule.
  have hbelow : i + j * n < dueValues startMillis offset period stop + n := by
    induction j with
    | zero => omega
    | succ j ih =>
      have hearlier := ih (by omega)
      have hdue := run_slots hbound (show j < (Paced.added s rs).length by omega)
      rw [h.value_eq, h.dueAt_le_iff hperiod hearlier] at hdue
      rw [Nat.succ_mul]
      omega
  have hdue := run_slots hbound hj
  rwa [h.value_eq, h.dueAt_le_iff hperiod hbelow] at hdue

/-- Once the instance has caught up, nothing due is left. -/
theorem Scheduled.caughtUp
    (h : s.Scheduled startMillis offset period i n
      (dueValues startMillis offset period stop + n))
    (hperiod : 0 < period) (hi : i < n) (hsteady : Steady rs) (hstop : EndsAt rs stop)
    (huncapped : Paced.EndsUncapped s rs) :
    dueValues startMillis offset period stop ≤
      i + (Paced.added s rs).length * n := by
  have hnext := next_slot_after hstop huncapped
  have hbelow : i + (Paced.added s rs).length * n <
      dueValues startMillis offset period stop + n := by
    cases hlength : (Paced.added s rs).length with
    | zero => omega
    | succ last =>
      have := h.value_lt hperiod hi (hsteady.le_stop hstop) (show last < _ by omega)
      rw [Nat.succ_mul]
      omega
  rw [h.value_eq, ← Int.not_le, h.dueAt_le_iff hperiod hbelow] at hnext
  omega

/-- **Share.** Once it has caught up, an instance has handed over exactly the items of its residue
that are due. -/
theorem Scheduled.mem_added_iff
    (h : s.Scheduled startMillis offset period i n
      (dueValues startMillis offset period stop + n))
    (hperiod : 0 < period) (hi : i < n) (hsteady : Steady rs) (hstop : EndsAt rs stop)
    (huncapped : Paced.EndsUncapped s rs) {t : Timestamped Int} :
    t ∈ Paced.added s rs ↔
      ∃ v < dueValues startMillis offset period stop,
        v % n = i ∧ scheduledItem startMillis period v = t := by
  have hearly := fun {j} => h.value_lt (j := j) hperiod hi (hsteady.le_stop hstop)
  have hlate := h.caughtUp hperiod hi hsteady hstop huncapped
  rw [added_eq_progression, progression, List.mem_map]
  constructor
  · rintro ⟨j, hj, rfl⟩
    have hdue := hearly (List.mem_range.mp hj)
    refine ⟨i + j * n, hdue, ?_, ?_⟩
    · rw [Nat.add_mul_mod_self_right, Nat.mod_eq_of_lt hi]
    · rw [h.value_eq, h.item_eq _ (by omega)]
  · rintro ⟨v, hv, hresidue, rfl⟩
    have hsplit : i + v / n * n = v := by
      rw [← hresidue]
      exact Nat.mod_add_div' v n
    refine ⟨v / n, ?_, ?_⟩
    · rw [List.mem_range]
      apply Nat.lt_of_mul_lt_mul_right (a := n)
      omega
    · rw [h.value_eq, hsplit, h.item_eq _ (by omega)]

/-- The only instance of a source hands over every item that is due, in order. -/
theorem Scheduled.added_of_sole
    (h : s.Scheduled startMillis offset period 0 1
      (dueValues startMillis offset period stop + 1))
    (hperiod : 0 < period) (hsteady : Steady rs) (hstop : EndsAt rs stop)
    (huncapped : Paced.EndsUncapped s rs) :
    Paced.added s rs =
      (List.range (dueValues startMillis offset period stop)).map
        (scheduledItem startMillis period) := by
  have hlate := h.caughtUp hperiod Nat.one_pos hsteady hstop huncapped
  have hlength : (Paced.added s rs).length =
      dueValues startMillis offset period stop := by
    apply Nat.le_antisymm
    · apply Nat.le_of_not_lt
      intro hlt
      have := h.value_lt hperiod Nat.one_pos (hsteady.le_stop hstop) hlt
      omega
    · omega
  rw [added_eq_progression, progression, hlength]
  apply List.map_congr_left
  intro v hv
  have hvalue := h.value_eq v
  rw [Nat.zero_add, Nat.mul_one] at hvalue
  rw [hvalue, h.item_eq v (Nat.lt_succ_of_lt (List.mem_range.mp hv))]

end Scheduled

end LongStream

end Pacing
