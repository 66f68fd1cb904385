import Pacing.Proofs.Run.EndToEnd

/-!
# Indices and workers

The members of a cluster share out the indices of its instances without talking to each other: each
one computes a block of them from its own number. A run computes the numbers of its workers in a
place of its own. Both come to the same, for every number of members and of instances on each.

* `LongSource.requests` is what the members ask a factory for, and `requests_eq` says it index by
  index.
* `memberInstances_eq_requests` numbers the workers of a run.
* `indices_handed_out_once` is the statement about members and runs.
-/

namespace Pacing

/-- What the members of a cluster ask their factories for, member by member. Each one makes its
supplier at a reading of its own; a cluster without members counts as having one. -/
def LongSource.requests (source : LongSource) (policy : π) (memberAt : Nat → Reading)
    (memberCount : Nat) (hosted : Positive) : List (InstanceConfig π) :=
  (List.range (max memberCount 1)).flatMap fun m =>
    (source.member policy (memberAt m)).getAll id m memberCount hosted

section Requests

variable (source : LongSource) (policy : π) (memberAt : Nat → Reading) (memberCount : Nat)
  (hosted : Positive)

/-- The request at each index is made by the member whose block the index is in. -/
theorem LongSource.requests_eq :
    source.requests policy memberAt memberCount hosted =
      (List.range (MemberSupplier.clusterSize memberCount hosted)).map fun i =>
        (source.member policy (memberAt (i / hosted.val))).configOf i
          (MemberSupplier.clusterSize memberCount hosted) :=
  flatMap_range_blocks hosted.property (max memberCount 1) fun m i =>
    (source.member policy (memberAt m)).configOf i (MemberSupplier.clusterSize memberCount hosted)

/-- Whatever a factory makes, it is asked for nothing else. -/
theorem LongSource.flatMap_getAll (factory : InstanceConfig π → σ) :
    ((List.range (max memberCount 1)).flatMap fun m =>
        (source.member policy (memberAt m)).getAll factory m memberCount hosted) =
      (source.requests policy memberAt memberCount hosted).map factory := by
  rw [requests, List.map_flatMap]
  simp [MemberSupplier.getAll, MemberSupplier.get, Function.comp_def]

theorem LongSource.requests_index :
    (source.requests policy memberAt memberCount hosted).map InstanceConfig.index =
      List.range (max memberCount 1 * hosted.val) := by
  rw [requests_eq, List.map_map]
  exact List.map_id _

/-- Every request is made for an index there is, with the settings of the source and the start of
the member that makes it. -/
theorem LongSource.of_mem_requests {c : InstanceConfig π}
    (h : c ∈ source.requests policy memberAt memberCount hosted) :
    c.index < c.total ∧
      c = (source.member policy (memberAt (c.index / hosted.val))).configOf c.index
        (max memberCount 1 * hosted.val) := by
  rw [requests_eq] at h
  obtain ⟨i, hi, rfl⟩ := List.mem_map.mp h
  exact ⟨List.mem_range.mp hi, rfl⟩

end Requests

namespace Run

/-- The workers of a run of a replicated source: each has the index of its instance for its
number. -/
theorem memberInstances_eq_requests (source : LongSource) (members hosted : Positive)
    (times : LaunchTimes) :
    memberInstances source members hosted times =
      (source.requests () times.memberAt members.val hosted).map fun c =>
        (c.index, LongStream.create c (times.instanceAt c.index)) := by
  have hsize : MemberSupplier.clusterSize members.val hosted = members.val * hosted.val := by
    rw [MemberSupplier.clusterSize, Nat.max_eq_left members.property]
  rw [memberInstances_eq, LongSource.requests_eq, hsize, List.map_map]
  rfl

/-- **Indices.** The members of a cluster, one after the other, ask their factories for each index
below the number of all instances exactly once, in increasing order and for nothing else. Each
request is within that number, and it carries the rate of the source, the policy and the start of
the member that makes it. In a launched run the number of every worker is the index of the instance
it drives. -/
theorem indices_handed_out_once :
    (∀ {π σ : Type} (source : LongSource) (policy : π) (memberAt : Nat → Reading)
      (factory : InstanceConfig π → σ) (memberCount : Nat) (hosted : Positive),
      let member := fun m => source.member policy (memberAt m)
      let requests := source.requests policy memberAt memberCount hosted
      let total := max memberCount 1 * hosted.val
      ((List.range (max memberCount 1)).flatMap fun m =>
          (member m).getAll factory m memberCount hosted) = requests.map factory ∧
        requests.map InstanceConfig.index = List.range total ∧
        ∀ c ∈ requests, c.index < c.total ∧ c.total = total ∧
          c.itemsPerSecond = source.itemsPerSecond ∧ c.policy = policy ∧
          c.startMillis = (member (c.index / hosted.val)).startMillis) ∧
    ∀ (config : RunConfig) (plan : SinkPlan) (times : LaunchTimes) (source : LongSource),
      config.source.build = .ok (.longStream source) →
        let hosted := source.localParallelism config.workers
        ∃ start log, launch config plan times = .ok (.longs start, log) ∧
          start.workers.toList =
            (source.requests () times.memberAt config.members.val hosted).map fun c =>
              Worker.start c.index (LongStream.create c (times.instanceAt c.index)) := by
  constructor
  · intro π σ source policy memberAt factory memberCount hosted member requests total
    refine ⟨source.flatMap_getAll .., source.requests_index .., ?_⟩
    intro c hc
    obtain ⟨hindex, heq⟩ := source.of_mem_requests policy memberAt memberCount hosted hc
    refine ⟨hindex, ?_⟩
    rw [heq]
    exact ⟨rfl, rfl, rfl, rfl⟩
  · intro config plan times source hbuild hosted
    unfold launch
    rw [hbuild]
    refine ⟨_, _, rfl, ?_⟩
    show ((memberInstances source config.members hosted times).map _).toArray.toList = _
    rw [memberInstances_eq_requests, List.map_map]
    rfl

/-- Two members with three instances each and a second between their starts. The workers are
numbered through, and the last three begin a second later. -/
theorem indices_handed_out_once_of_six_instances :
    let config : RunConfig :=
      ⟨.longStream (some 4) 0 (some ⟨3, by decide⟩), ⟨1, by decide⟩, ⟨2, by decide⟩, none,
        .ofMillis 5, 1⟩
    let times : LaunchTimes := ⟨fun m => ⟨0, m * 1000000000⟩, fun _ => ⟨0, 0⟩⟩
    config.source.build = .ok (.longStream ⟨4, ⟨0⟩, some ⟨3, by decide⟩⟩) ∧
      ∃ start log, launch config .willing times = .ok (.longs start, log) ∧
        start.workers.toList.map (fun w => (w.id, w.source.next, w.source.start)) =
          [(0, 0, 0), (1, 1, 0), (2, 2, 0), (3, 3, 1000000000), (4, 4, 1000000000),
            (5, 5, 1000000000)] := by
  intro config times
  have hbuild : config.source.build = .ok (.longStream ⟨4, ⟨0⟩, some ⟨3, by decide⟩⟩) := rfl
  obtain ⟨start, log, hlaunch, hworkers⟩ :=
    indices_handed_out_once.2 config .willing times _ hbuild
  refine ⟨hbuild, start, log, hlaunch, ?_⟩
  rw [hworkers]
  decide

end Run

end Pacing
