import Pacing.Proofs.Long.Cluster
import Pacing.Proofs.Interleaving

/-!
# Parallelism does not change the output

A replicated source, split over any number of members and instances, hands over what its only
instance would. Whatever the instances are polled at, no value comes twice; on one schedule and
once all have caught up, their items together, sorted by value, are those of the only instance.

* `part_values` and `values_nodup` hold of any instances that share the values.
* `perm_scheduled` collects the shares of scheduled instances.
* `parallelism_keeps_output` is the statement about clusters.
-/

namespace Pacing

variable {π : Type}

namespace LongStream

/-- The instances share the values among them: each goes on with its index and takes every value
whose distance is their number. -/
def Sharing (instances : List (LongStream π)) : Prop :=
  ∀ (i : Nat) (s : LongStream π), instances[i]? = some s →
    s.next = i ∧ s.stride = instances.length

section Shared

variable {instances : List (LongStream π)} {turns : List (Nat × Reading)}

/-- Polled in any order, each instance hands over the values from its index on without gaps. -/
theorem Sharing.part_values (h : Sharing instances) {i : Nat} (hi : i < instances.length) :
    (part i (itemsOf (Paced.interleaved instances turns))).map Timestamped.item =
      (List.range (part i (itemsOf (Paced.interleaved instances turns))).length).map
        fun k : Nat => (i : Int) + k * instances.length := by
  obtain ⟨s, hs⟩ : ∃ s, instances[i]? = some s := ⟨_, List.getElem?_eq_getElem hi⟩
  obtain ⟨hnext, hstride⟩ := h i s hs
  rw [Paced.part_items_interleaved hs, added_values, hnext, hstride]

/-- A value says which instance it belongs to. -/
theorem Sharing.value_of_mem (h : Sharing instances) {entry : Nat × Timestamped Int}
    (hentry : entry ∈ itemsOf (Paced.interleaved instances turns)) :
    entry.2.item % instances.length = entry.1 := by
  have hi := Paced.lt_length_of_mem_items hentry
  have hs := List.getElem?_eq_getElem hi
  obtain ⟨hnext, hstride⟩ := h _ _ hs
  have hmem := mem_part.mpr hentry
  rw [Paced.part_items_interleaved hs] at hmem
  exact item_emod hnext hstride hi hmem

/-- No value comes twice, from one instance or from two. -/
theorem Sharing.values_nodup (h : Sharing instances) :
    ((itemsOf (Paced.interleaved instances turns)).map fun entry => entry.2.item).Nodup := by
  have hpairwise : ((itemsOf (Paced.interleaved instances turns)).map Prod.snd).Pairwise
      fun a b => a.item ≠ b.item := by
    apply pairwise_of_part
    · intro i
      cases hs : instances[i]? with
      | some s =>
        have hi := (List.getElem?_eq_some_iff.mp hs).1
        rw [Paced.part_items_interleaved hs]
        apply added_pairwise
        rw [(h i s hs).2]
        omega
      | none =>
        have hnone : part i (itemsOf (Paced.interleaved instances turns)) = [] := by
          apply List.eq_nil_iff_forall_not_mem.mpr
          intro t ht
          have hi := Paced.lt_length_of_mem_items (mem_part.mp ht)
          exact absurd hs (by simpa using hi)
        rw [hnone]
        exact .nil
    · intro x hx y hy hxy heq
      have hresidue := h.value_of_mem hx
      rw [heq, h.value_of_mem hy] at hresidue
      omega
  simpa [List.Nodup, List.pairwise_map] using hpairwise

end Shared

/-! ### Shares on one schedule -/

section Shares

variable {instances : List (LongStream π)} {turns : List (Nat × Reading)}
  {startMillis offset period stop : Int}

/-- **Collection.** When all instances have caught up, their items are those of the values that
are due. -/
theorem Sharing.perm_scheduled (h : Sharing instances) (hperiod : 0 < period)
    (hscheduled : ∀ (i : Nat) (s : LongStream π), instances[i]? = some s →
      s.Scheduled startMillis offset period i instances.length
        (dueValues startMillis offset period stop + instances.length))
    (hturns : ∀ (i : Nat) (s : LongStream π), instances[i]? = some s →
      Steady (part i turns) ∧ EndsAt (part i turns) stop ∧
        Paced.EndsUncapped s (part i turns))
    (hsome : 0 < instances.length) :
    ((itemsOf (Paced.interleaved instances turns)).map Prod.snd).Perm
      ((List.range (dueValues startMillis offset period stop)).map
        (scheduledItem startMillis period)) := by
  have hshare : ∀ {i : Nat} {s : LongStream π} {t : Timestamped Int}, instances[i]? = some s →
      ((i, t) ∈ itemsOf (Paced.interleaved instances turns) ↔
        ∃ v < dueValues startMillis offset period stop,
          v % instances.length = i ∧ scheduledItem startMillis period v = t) := by
    intro i s t hs
    obtain ⟨hsteady, hstop, huncapped⟩ := hturns i s hs
    rw [← mem_part, Paced.part_items_interleaved hs]
    exact (hscheduled i s hs).mem_added_iff hperiod (List.getElem?_eq_some_iff.mp hs).1 hsteady
      hstop huncapped
  rw [List.perm_ext_iff_of_nodup]
  · intro t
    constructor
    · intro ht
      obtain ⟨⟨i, t⟩, hentry, rfl⟩ := List.mem_map.mp ht
      have hi := Paced.lt_length_of_mem_items hentry
      obtain ⟨v, hv, -, rfl⟩ := (hshare (List.getElem?_eq_getElem hi)).mp hentry
      exact List.mem_map_of_mem (List.mem_range.mpr hv)
    · intro ht
      obtain ⟨v, hv, rfl⟩ := List.mem_map.mp ht
      have hi : v % instances.length < instances.length := Nat.mod_lt v hsome
      have hentry := (hshare (List.getElem?_eq_getElem hi)).mpr ⟨v, List.mem_range.mp hv, rfl, rfl⟩
      exact List.mem_map_of_mem hentry
  · have hvalues : ((itemsOf (Paced.interleaved instances turns)).map fun entry =>
        entry.2.item).Nodup := h.values_nodup
    rw [List.Nodup, List.pairwise_map] at hvalues ⊢
    exact hvalues.imp fun hne heq => hne (congrArg Timestamped.item heq)
  · rw [List.Nodup, List.pairwise_map]
    apply List.pairwise_lt_range.imp
    intro v w hvw heq
    have : (v : Int) = w := congrArg Timestamped.item heq
    omega

/-- Sorting by value puts scheduled items in their order. -/
theorem sorted_scheduled {items : List (Timestamped Int)} {count : Nat}
    (h : items.Perm ((List.range count).map (scheduledItem startMillis period))) :
    items.mergeSort (fun a b => a.item ≤ b.item) =
      (List.range count).map (scheduledItem startMillis period) := by
  have hsorted : (items.mergeSort fun a b => a.item ≤ b.item).Pairwise
      fun a b => decide (a.item ≤ b.item) = true := by
    apply List.pairwise_mergeSort
    · intro a b c hab hbc
      simp only [decide_eq_true_eq] at hab hbc ⊢
      exact Int.le_trans hab hbc
    · intro a b
      simpa using Int.le_total a.item b.item
  have hrange : ((List.range count).map (scheduledItem startMillis period)).Pairwise
      fun a b => decide (a.item ≤ b.item) = true := by
    rw [List.pairwise_map]
    apply List.pairwise_lt_range.imp
    intro v w hvw
    simpa [scheduledItem] using Nat.le_of_lt hvw
  refine List.Perm.eq_of_pairwise ?_ hsorted hrange ((List.mergeSort_perm items _).trans h)
  intro a b ha hb hab hba
  rw [List.mem_mergeSort, h.mem_iff] at ha
  obtain ⟨v, -, rfl⟩ := List.mem_map.mp ha
  obtain ⟨w, -, rfl⟩ := List.mem_map.mp hb
  have hvw : (v : Int) = w := Int.le_antisymm (of_decide_eq_true hab) (of_decide_eq_true hba)
  rw [Int.ofNat.inj hvw]

end Shares

/-- The only instance of a source, polled on, has at last nothing due. -/
theorem Scheduled.exists_pending {s : LongStream π} {startMillis offset period stop : Int}
    (h : s.Scheduled startMillis offset period 0 1
      (dueValues startMillis offset period stop + 1)) (hperiod : 0 < period) :
    ∃ rs, Steady rs ∧ EndsAt rs stop ∧ Paced.EndsPending s rs := by
  have hbound : ∀ n, (Paced.added s (List.replicate n (⟨stop, 0⟩ : Reading))).length ≤
      dueValues startMillis offset period stop := by
    intro n
    apply Nat.le_of_not_lt
    intro hlt
    have hall : ∀ r ∈ List.replicate n (⟨stop, 0⟩ : Reading), r.monotonic ≤ stop := by
      intro r hr
      obtain ⟨-, rfl⟩ := List.mem_replicate.mp hr
      exact Int.le_refl _
    have := h.value_lt hperiod Nat.one_pos hall hlt
    omega
  obtain ⟨n, hidle⟩ := Paced.exists_idle_poll hbound
  refine ⟨List.replicate n ⟨stop, 0⟩ ++ [⟨stop, 0⟩], ?_, endsAt_snoc.mpr rfl, ?_⟩
  · rw [← List.replicate_succ']
    exact List.pairwise_replicate.mpr (.inr (Int.le_refl _))
  · rw [paced_poll] at hidle
    refine ⟨_, _, by simp [Paced.polls_append]; rfl, if_pos (congrArg List.length hidle)⟩

end LongStream

/-! ### Clusters -/

/-- A rate and a delay in their ranges make a source. -/
theorem LongSource.tryNew_eq_ok {rate : Int} (hrate : 1 ≤ rate ∧ rate ≤ maxItemsPerSecond)
    {delay : Duration} (hdelay : (delay.millis : Int) ≤ Word.highest)
    (preferred : Option Positive) :
    LongSource.tryNew rate delay preferred = .ok ⟨rate, delay, preferred⟩ := by
  unfold LongSource.tryNew
  rw [periodNanos_eq_ok.mpr ⟨hrate, rfl⟩]
  exact if_neg (Int.not_lt.mpr hdelay)

/-- The instances of a cluster, each made at a reading of its own. -/
def LongSource.instances (source : LongSource) (policy : Nat → π)
    (memberAt instanceAt : Nat → Reading) (members hosted : Positive) : List (LongStream π) :=
  source.cluster policy memberAt (fun config => .create config (instanceAt config.index)) members
    hosted

section Instances

variable (source : LongSource) (policy : Nat → π) (memberAt instanceAt : Nat → Reading)
  {members hosted : Positive}

theorem LongSource.instances_length :
    (source.instances policy memberAt instanceAt members hosted).length =
      members.val * hosted.val :=
  cluster_length ..

/-- The instance at an index is made of the configuration of its member. -/
theorem LongSource.eq_create_of_getElem? {i : Nat} {s : LongStream π}
    (h : (source.instances policy memberAt instanceAt members hosted)[i]? = some s) :
    i < members.val * hosted.val ∧
      s = .create ((source.member (policy (i / hosted.val)) (memberAt (i / hosted.val))).configOf i
        (members.val * hosted.val)) (instanceAt i) := by
  have hi := (List.getElem?_eq_some_iff.mp h).1
  rw [instances_length] at hi
  refine ⟨hi, ?_⟩
  rw [instances, getElem?_cluster _ _ _ _ _ _ hi] at h
  exact (Option.some.inj h).symm

/-- The instances of a cluster share the values. -/
theorem LongSource.instances_sharing
    (hcount : ((members.val * hosted.val : Nat) : Int) ≤ Word.highest) :
    LongStream.Sharing (source.instances policy memberAt instanceAt members hosted) := by
  intro i s hs
  obtain ⟨hi, rfl⟩ := source.eq_create_of_getElem? policy memberAt instanceAt hs
  rw [instances_length]
  have hmax : max (members.val * hosted.val) 1 = members.val * hosted.val := by omega
  refine ⟨LongStream.create_next _ _ (Int.le_trans (Int.ofNat_le.mpr (Nat.le_of_lt hi)) hcount), ?_⟩
  rw [LongStream.create_stride _ _ hcount, MemberSupplier.configOf, hmax]

/-- With one start and one offset all instances of a cluster keep to one schedule. -/
theorem LongSource.instances_scheduled
    (hcount : ((members.val * hosted.val : Nat) : Int) ≤ Word.highest)
    (hrate : 1 ≤ source.itemsPerSecond) {startMillis offset : Int} {bound : Nat}
    (hstart : ∀ m < members.val,
      (source.member (policy m) (memberAt m)).startMillis = startMillis)
    (hoffset : ∀ i < members.val * hosted.val, (instanceAt i).offset = offset)
    (hexact : ∀ v < bound,
      Unsaturated startMillis offset (nanosPerSecond / source.itemsPerSecond) (v : Nat)) :
    ∀ (i : Nat) (s : LongStream π),
      (source.instances policy memberAt instanceAt members hosted)[i]? = some s →
      s.Scheduled startMillis offset (nanosPerSecond / source.itemsPerSecond) i
        (members.val * hosted.val) bound := by
  intro i s hs
  obtain ⟨hi, rfl⟩ := source.eq_create_of_getElem? policy memberAt instanceAt hs
  have hmember : i / hosted.val < members.val :=
    Nat.div_lt_of_lt_mul (Nat.mul_comm _ _ ▸ hi)
  have hexact' : ∀ v < bound, Unsaturated
      (source.member (policy (i / hosted.val)) (memberAt (i / hosted.val))).startMillis
      (instanceAt i).offset (nanosPerSecond / source.itemsPerSecond) (v : Nat) := by
    rw [hstart _ hmember, hoffset i hi]
    exact hexact
  have hcreated := LongStream.create_scheduled _ (instanceAt i) hcount hi hrate hexact'
  rwa [hstart _ hmember, hoffset i hi] at hcreated

end Instances

/-- **Parallelism.** A replicated source of any accepted rate and delay, on any number of members
that each host as many instances, polled in any order:

* the instance with index `i` of `n` hands over `i`, `i + n`, `i + 2 n`, … without gaps, and no
  value comes twice, whatever the clocks of members and instances show;
* with one start and one offset, and as long as nothing saturates up to the next values, instances
  that have all caught up with one instant have together handed over the items that the only
  instance of such a member hands over until nothing is due. -/
theorem parallelism_keeps_output {rate : Int} (hrate : 1 ≤ rate ∧ rate ≤ maxItemsPerSecond)
    {delay : Duration} (hdelay : (delay.millis : Int) ≤ Word.highest) (preferred : Option Positive)
    (members hosted : Positive)
    (hcount : ((members.val * hosted.val : Nat) : Int) ≤ Word.highest) :
    ∃ source, LongSource.tryNew rate delay preferred = .ok source ∧
      ∀ (policy : Nat → π) (memberAt instanceAt : Nat → Reading) (turns : List (Nat × Reading)),
        let n := members.val * hosted.val
        let polled := Paced.interleaved
          (source.instances policy memberAt instanceAt members hosted) turns
        let items := itemsOf polled
        (source.instances policy memberAt instanceAt members hosted).length = n ∧
        (∀ i < n, (part i items).map Timestamped.item =
          (List.range (part i items).length).map fun k : Nat => (i : Int) + k * n) ∧
        (items.map fun entry => entry.2.item).Nodup ∧
        ∀ startMillis offset stop : Int,
          let period : Int := nanosPerSecond / rate
          (∀ m < members.val,
            (source.member (policy m) (memberAt m)).startMillis = startMillis) →
          (∀ i < n, (instanceAt i).offset = offset) →
          (∀ v < dueValues startMillis offset period stop + n,
            Unsaturated startMillis offset period (v : Nat)) →
          (∀ i < n, Steady (part i turns) ∧ EndsAt (part i turns) stop ∧
            ∃ p, (part i polled).getLast? = some p ∧ p.Uncapped) →
          ∀ (solePolicy : π) (soleAt madeAt : Reading),
            (source.member solePolicy soleAt).startMillis = startMillis →
            madeAt.offset = offset →
            let sole := (source.member solePolicy soleAt).get (LongStream.create · madeAt) 0 1
            (∃ rs, Steady rs ∧ EndsAt rs stop ∧ Paced.EndsPending sole rs) ∧
            ∀ rs, Steady rs → EndsAt rs stop → Paced.EndsUncapped sole rs →
              (items.map Prod.snd).mergeSort (fun a b => a.item ≤ b.item) =
                Paced.added sole rs := by
  refine ⟨_, LongSource.tryNew_eq_ok hrate hdelay preferred, ?_⟩
  intro policy memberAt instanceAt turns n polled items
  have hperiod := period_pos hrate
  have hn : 0 < n := Nat.mul_pos members.property hosted.property
  have hlength : (LongSource.instances ⟨rate, delay, preferred⟩ policy memberAt instanceAt members
      hosted).length = n := LongSource.instances_length ..
  have hsharing := LongSource.instances_sharing ⟨rate, delay, preferred⟩ policy memberAt instanceAt
    hcount
  refine ⟨hlength, ?_, hsharing.values_nodup, ?_⟩
  · intro i hi
    rw [← hlength] at hi ⊢
    exact hsharing.part_values hi
  · intro startMillis offset stop period hstart hoffset hexact hturns solePolicy soleAt madeAt
      hsoleStart hsoleOffset sole
    have hscheduled := LongSource.instances_scheduled ⟨rate, delay, preferred⟩ policy memberAt
      instanceAt hcount hrate.1 hstart hoffset hexact
    have hsole : sole.Scheduled startMillis offset period 0 1
        (dueValues startMillis offset period stop + 1) := by
      rw [← hsoleStart, ← hsoleOffset]
      apply LongStream.create_scheduled _ madeAt (by decide) Nat.one_pos hrate.1
      intro v hv
      rw [hsoleStart, hsoleOffset] at hv ⊢
      exact hexact v (by omega)
    refine ⟨hsole.exists_pending hperiod, ?_⟩
    intro rs hsteady hstop huncapped
    rw [hsole.added_of_sole hperiod hsteady hstop huncapped]
    apply LongStream.sorted_scheduled
    apply hsharing.perm_scheduled hperiod
    · rw [hlength]
      exact hscheduled
    · intro i s hs
      have hi := (List.getElem?_eq_some_iff.mp hs).1
      obtain ⟨hsteady, hstop, p, hlast, huncapped⟩ := hturns i (hlength ▸ hi)
      rw [Paced.part_interleaved hs] at hlast
      exact ⟨hsteady, hstop, p, hlast, huncapped⟩
    · rwa [hlength]

/-- Eight values a second on two members with two instances each, made one nanosecond after the
other. Three values are due after three tenths of a second; one instance is polled twice, another
has nothing to hand over. -/
theorem parallelism_keeps_output_of_four_instances :
    (1 ≤ (8 : Int) ∧ 8 ≤ maxItemsPerSecond) ∧ ((Duration.millis ⟨0⟩ : Nat) : Int) ≤ Word.highest ∧
      (((2 * 2 : Nat) : Int) ≤ Word.highest) ∧
      ∃ source, LongSource.tryNew 8 ⟨0⟩ none = .ok source ∧
        ((itemsOf (Paced.interleaved (source.instances (fun _ => ()) (fun _ => ⟨0, 1000000000⟩)
            (fun i => ⟨i, 1000000000 + i⟩) ⟨2, by decide⟩ ⟨2, by decide⟩)
          [(0, ⟨100000000, 5⟩), (2, ⟨300000000, 0⟩), (1, ⟨300000000, 0⟩), (0, ⟨300000000, 7⟩),
            (3, ⟨300000000, 0⟩)])).map Prod.snd).mergeSort (fun a b => a.item ≤ b.item) =
          [⟨0, 1000⟩, ⟨1, 1125⟩, ⟨2, 1250⟩] := by
  have hrate : 1 ≤ (8 : Int) ∧ 8 ≤ maxItemsPerSecond := by decide
  have hdelay : ((Duration.millis ⟨0⟩ : Nat) : Int) ≤ Word.highest := by decide
  have hcount : ((2 * 2 : Nat) : Int) ≤ Word.highest := by decide
  obtain ⟨source, hsource, hlaw⟩ := parallelism_keeps_output hrate hdelay none ⟨2, by decide⟩
    ⟨2, by decide⟩ hcount
  refine ⟨hrate, hdelay, hcount, source, hsource, ?_⟩
  obtain rfl : (⟨8, ⟨0⟩, none⟩ : LongSource) = source := Except.ok.inj hsource
  obtain ⟨-, -, -, hsorted⟩ := hlaw (fun _ => ()) (fun _ => ⟨0, 1000000000⟩)
    (fun i => ⟨i, 1000000000 + i⟩)
    [(0, ⟨100000000, 5⟩), (2, ⟨300000000, 0⟩), (1, ⟨300000000, 0⟩), (0, ⟨300000000, 7⟩),
      (3, ⟨300000000, 0⟩)]
  obtain ⟨-, hall⟩ := hsorted 1000 1000000000 300000000 (by decide) (by decide) (by decide)
    (by
      intro i hi
      match i, hi with
      | 0, _ => exact ⟨by decide, by decide, _, rfl, .pending ⟨200000000⟩, by rfl, by decide⟩
      | 1, _ => exact ⟨by decide, by decide, _, rfl, .ready 1, by rfl, by decide⟩
      | 2, _ => exact ⟨by decide, by decide, _, rfl, .ready 1, by rfl, by decide⟩
      | 3, _ => exact ⟨by decide, by decide, _, rfl, .pending ⟨75000000⟩, by rfl, by decide⟩)
    () ⟨0, 1000000000⟩ ⟨0, 1000000000⟩ (by decide) (by decide)
  have hpending := hall [⟨300000000, 0⟩, ⟨300000000, 0⟩] (by decide) (by decide)
    (Paced.EndsPending.uncapped ⟨_, ⟨75000000⟩, rfl, by rfl⟩)
  rw [hpending]
  rfl

end Pacing
