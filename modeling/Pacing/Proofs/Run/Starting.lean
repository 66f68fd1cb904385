import Pacing.Proofs.Run.Numbering
import Pacing.Proofs.Settings

/-!
# Starting with accepted settings

Settings are accepted one by one, and the only number that is refused is zero. What a run makes of
them when it starts has an end on the other side as well: a queue is only so long, and the indices
of instances and the numbers of workers are products and sums that have to fit in a word. Here a
run is started with all of this done as a machine does it, one step after the other.

* `launchIn` starts a run in words; a step that finds no room ends it.
* `launchIn_of_withinLimits` and `launchIn_of_fault` say that it is `launch` within the limits, and
  that beyond them it ends as `launchFault?` foretells.
* `accepted_settings_start_within_limits` is the statement, and `accepted_settings_beyond_limits`
  shows settings for which that is not so.
-/

namespace Pacing.Run

/-! ### Starting in words -/

/-- What can end a run while it is being started. -/
inductive StartFault where
  /-- No queue can be made that holds nothing. -/
  | emptyQueue
  /-- An instance is asked for with an index that there is not. -/
  | indexBeyond (index total : Nat)
  | limit (fault : LaunchFault)
  deriving DecidableEq, Repr

/-- The result of a plain operation on counts. -/
def wordOf (n : Nat) : Except StartFault Nat :=
  if n < Word.countLimit then .ok n else .error (.limit .tooManyInstances)

/-- Makes a queue and returns its length. -/
def queueOf (capacity : Nat) : Except StartFault Nat :=
  if capacity = 0 then .error .emptyQueue
  else if queueLimit < capacity then .error (.limit .queueTooLong)
  else .ok capacity

/-- Asks for a block, of which the machine can give one of so many bytes. -/
def blockOf (memory bytes : Nat) : Except StartFault Unit :=
  if Word.highest < bytes then .error (.limit .instancesTooLarge)
  else if memory < bytes then .error (.limit (.memoryExhausted bytes))
  else .ok ()

/-- Computes the number of instances of a cluster and asks for the block in which those of one
member stand side by side. -/
def roomFor (memory memberCount : Nat) (hosted : Positive) : Except StartFault Nat := do
  let total ← wordOf (max memberCount 1 * hosted.val)
  blockOf memory (hosted.val * instanceBytes)
  return total

/-- The number of instance `i` of member `m` among all instances, from a product and a sum. -/
def placeOf (m i : Nat) (hosted : Positive) : Except StartFault Nat := do
  let before ← wordOf (m * hosted.val)
  wordOf (before + i)

/-- The instances a member hosts. -/
def hostedIn (memory : Nat) (member : MemberSupplier Unit) (instanceAt : Nat → Reading)
    (memberIndex memberCount : Nat) (hosted : Positive) :
    Except StartFault (List (LongStream Unit)) := do
  let total ← roomFor memory memberCount hosted
  (List.range hosted.val).mapM fun i => do
    let index ← placeOf memberIndex i hosted
    if index < total then
      return member.get (fun config => .create config (instanceAt config.index)) index total
    else .error (.indexBeyond index total)

/-- The workers of a member with their numbers. -/
def memberWorkersIn (memory : Nat) (source : LongSource) (members hosted : Positive)
    (times : LaunchTimes) (m : Nat) : Except StartFault (List (Nat × LongStream Unit)) := do
  let instances ←
    hostedIn memory (source.member () (times.memberAt m)) times.instanceAt m members.val hosted
  instances.zipIdx.mapM fun (made, i) => return (← placeOf m i hosted, made)

/-- Starts a run with a source that has been built, on a machine that can give a block of so many
bytes. The queue comes first, then the workers. -/
def launchIn (memory : Nat) (config : RunConfig) (source : ConfiguredSource) (plan : SinkPlan)
    (times : LaunchTimes) : Except StartFault (Launched × List LogEvent) := do
  let queue ← queueOf config.channelCapacity
  match source with
  | .items source =>
    let (s, log) := System.start config.pollInterval queue plan [(0, source)]
    return (.items s, .runningItems source.remaining :: log)
  | .itemStream supplier =>
    let (s, log) := System.start config.pollInterval queue plan
      ((List.range config.workers.val).map fun id => (id, supplier.create))
    return (.streams s, .runningStreams config.workers.val supplier.itemsPerSecond :: log)
  | .longStream source =>
    let hosted := source.localParallelism config.workers
    let workers ← (List.range config.members.val).mapM
      (memberWorkersIn memory source config.members hosted times)
    let (s, log) := System.start config.pollInterval queue plan workers.flatten
    return (.longs s, .runningMembers config.members.val hosted.val source.itemsPerSecond
      :: memberLog source config.members times ++ log)

/-! ### One step -/

theorem wordOf_eq_ok {n : Nat} (h : n < Word.countLimit) : wordOf n = .ok n := if_pos h

theorem wordOf_eq_error {n : Nat} (h : Word.countLimit ≤ n) :
    wordOf n = .error (.limit .tooManyInstances) := if_neg (Nat.not_lt.mpr h)

theorem queueOf_eq_ok {capacity : Nat} (hpos : 0 < capacity) (h : capacity ≤ queueLimit) :
    queueOf capacity = .ok capacity := by
  rw [queueOf, if_neg (Nat.ne_of_gt hpos), if_neg (Nat.not_lt.mpr h)]

/-- Where every element has a result, so has the list. -/
theorem mapM_eq_ok {α β ε : Type} {f : α → Except ε β} {g : α → β} {l : List α}
    (h : ∀ a ∈ l, f a = .ok (g a)) : l.mapM f = .ok (l.map g) := by
  induction l with
  | nil => rfl
  | cons a l ih =>
    rw [List.mapM_cons, h a (by simp), ih fun b hb => h b (by simp [hb])]
    rfl

/-- The first element that fails is the failure of the list. -/
theorem mapM_range_eq_error {β ε : Type} {f : Nat → Except ε β} {n : Nat} {e : ε} (hn : 0 < n)
    (h : f 0 = .error e) : (List.range n).mapM f = .error e := by
  obtain ⟨n, rfl⟩ := Nat.exists_eq_add_of_lt hn
  rw [Nat.zero_add, List.range_succ_eq_map, List.mapM_cons, h]
  rfl

/-! ### Members -/

section Members

variable {memory : Nat} {source : LongSource} {members hosted : Positive} {times : LaunchTimes}
  {m : Nat}

/-- The index of an instance of one of the members is below their total. -/
theorem index_lt_total (hm : m < members.val) {i : Nat} (hi : i < hosted.val) :
    m * hosted.val + i < members.val * hosted.val :=
  calc m * hosted.val + i < (m + 1) * hosted.val := by rw [Nat.add_mul]; omega
    _ ≤ members.val * hosted.val := Nat.mul_le_mul_right _ hm

/-- Where there is room for the instances of a cluster, their number fits in a word. -/
theorem lt_of_roomFor {memberCount total : Nat} (h : roomFor memory memberCount hosted = .ok total) :
    total = max memberCount 1 * hosted.val ∧ total < Word.countLimit := by
  obtain ⟨count, hcount, h⟩ := Json.bind_eq_ok.mp h
  obtain ⟨-, -, h⟩ := Json.bind_eq_ok.mp h
  cases h
  unfold wordOf at hcount
  split at hcount
  case isTrue hfits =>
    cases hcount
    exact ⟨rfl, hfits⟩
  case isFalse => cases hcount

/-- And so does the number of each of them. -/
theorem placeOf_eq_ok {total : Nat} (hroom : roomFor memory members.val hosted = .ok total)
    (hm : m < members.val) {i : Nat} (hi : i < hosted.val) :
    placeOf m i hosted = .ok (m * hosted.val + i) := by
  obtain ⟨htotal, hfits⟩ := lt_of_roomFor hroom
  rw [Nat.max_eq_left members.property] at htotal
  have hlt := index_lt_total hm hi
  unfold placeOf
  rw [wordOf_eq_ok (by omega)]
  exact wordOf_eq_ok (by omega)

/-- A member that has room for its instances makes all of them. -/
theorem hostedIn_eq_ok {member : MemberSupplier Unit} {instanceAt : Nat → Reading} {total : Nat}
    (hroom : roomFor memory members.val hosted = .ok total) (hm : m < members.val) :
    hostedIn memory member instanceAt m members.val hosted =
      .ok (member.getAll (fun config => .create config (instanceAt config.index)) m members.val
        hosted) := by
  have htotal := (lt_of_roomFor hroom).1
  unfold hostedIn
  rw [hroom]
  refine mapM_eq_ok fun i hi => ?_
  have hi := List.mem_range.mp hi
  have hlt : m * hosted.val + i < total := by
    rw [htotal, Nat.max_eq_left members.property]
    exact index_lt_total hm hi
  rw [placeOf_eq_ok hroom hm hi]
  show (if _ then _ else _) = _
  rw [if_pos hlt, htotal]
  rfl

/-- And numbers their workers. -/
theorem memberWorkersIn_eq_ok {total : Nat} (hroom : roomFor memory members.val hosted = .ok total)
    (hm : m < members.val) :
    memberWorkersIn memory source members hosted times m =
      .ok (((source.member () (times.memberAt m)).getAll
        (fun config => .create config (times.instanceAt config.index)) m members.val hosted).mapIdx
          fun i made => (m * hosted.val + i, made)) := by
  unfold memberWorkersIn
  rw [hostedIn_eq_ok hroom hm, List.mapIdx_eq_zipIdx_map]
  refine mapM_eq_ok fun (made, i) hi => ?_
  have hi : i < hosted.val := by
    have hlength := List.snd_lt_of_mem_zipIdx hi
    rwa [MemberSupplier.getAll_length] at hlength
  dsimp only
  rw [placeOf_eq_ok hroom hm hi]
  rfl

/-- A member that has no room starts nothing. -/
theorem memberWorkersIn_eq_error {fault : StartFault}
    (hroom : roomFor memory members.val hosted = .error fault) :
    memberWorkersIn memory source members hosted times m = .error fault := by
  unfold memberWorkersIn hostedIn
  rw [hroom]
  rfl

end Members

/-! ### A run -/

/-- The settings are within the limits of what a run makes of them: the queue can be that long, and
of a replicated source the number of all instances fits in a word, and those of a member stand in a
block that can be asked for and that the machine can give. -/
structure RunConfig.WithinLimits (config : RunConfig) (memory : Nat) (source : ConfiguredSource) :
    Prop where
  queue : config.channelCapacity ≤ queueLimit
  total : ∀ long, source = .longStream long → instanceCount long config < Word.countLimit
  block : ∀ long, source = .longStream long → (memberBytes long config : Int) ≤ Word.highest
  room : ∀ long, source = .longStream long → memberBytes long config ≤ memory

section Launch

variable {memory : Nat} {config : RunConfig} {source : ConfiguredSource} (plan : SinkPlan)
  (times : LaunchTimes)

theorem launchFault?_eq_none :
    launchFault? memory config source = none ↔ config.WithinLimits memory source := by
  unfold launchFault?
  constructor
  · intro h
    have hqueue : ¬ queueLimit < config.channelCapacity := by
      intro hlong
      rw [if_pos hlong] at h
      cases h
    rw [if_neg hqueue] at h
    have hlong : ∀ long, source = .longStream long →
        instanceCount long config < Word.countLimit ∧
          (memberBytes long config : Int) ≤ Word.highest ∧ memberBytes long config ≤ memory := by
      rintro long rfl
      dsimp only at h
      split at h
      case isTrue => cases h
      case isFalse hcount =>
        split at h
        case isTrue => cases h
        case isFalse hblock =>
          split at h
          case isTrue => cases h
          case isFalse hroom => exact ⟨Nat.not_le.mp hcount, Int.not_lt.mp hblock, Nat.not_lt.mp hroom⟩
    exact ⟨Nat.not_lt.mp hqueue, fun long hl => (hlong long hl).1, fun long hl => (hlong long hl).2.1,
      fun long hl => (hlong long hl).2.2⟩
  · rintro ⟨hqueue, htotal, hblock, hroom⟩
    rw [if_neg (Nat.not_lt.mpr hqueue)]
    cases source with
    | items | itemStream => rfl
    | longStream long =>
      dsimp only
      rw [if_neg (Nat.not_le.mpr (htotal long rfl)), if_neg (Int.not_lt.mpr (hblock long rfl)),
        if_neg (Nat.not_lt.mpr (hroom long rfl))]

/-- There is room for the instances of a replicated source, or what stands in the way is
foretold. -/
theorem roomFor_eq (memory : Nat) (long : LongSource) (hqueue : config.channelCapacity ≤ queueLimit) :
    roomFor memory config.members.val (long.localParallelism config.workers) =
      match launchFault? memory config (.longStream long) with
      | some fault => .error (.limit fault)
      | none => .ok (instanceCount long config) := by
  have hroom : roomFor memory config.members.val (long.localParallelism config.workers) =
      (do
        let total ← wordOf (instanceCount long config)
        blockOf memory (memberBytes long config)
        return total) := rfl
  unfold launchFault?
  rw [hroom, if_neg (Nat.not_lt.mpr hqueue)]
  dsimp only
  rcases Nat.lt_or_ge (instanceCount long config) Word.countLimit with hfits | hlarge
  · rw [wordOf_eq_ok hfits, if_neg (Nat.not_le.mpr hfits)]
    unfold blockOf
    split
    · rfl
    · split <;> rfl
  · rw [wordOf_eq_error hlarge, if_pos hlarge]
    rfl

/-- **Start.** Within the limits nothing ends a run while it is started. -/
theorem launchIn_of_withinLimits (hpos : 0 < config.channelCapacity)
    (hbuilt : config.source.build = .ok source) (h : config.WithinLimits memory source) :
    ∃ launched, launch config plan times = .ok launched ∧
      launchIn memory config source plan times = .ok launched := by
  have hqueue := queueOf_eq_ok hpos h.queue
  unfold launch launchIn
  rw [hbuilt, hqueue]
  cases source with
  | items | itemStream => exact ⟨_, rfl, rfl⟩
  | longStream long =>
    have hroom := roomFor_eq memory long h.queue
    rw [launchFault?_eq_none.mpr h] at hroom
    have hworkers : (List.range config.members.val).mapM
        (memberWorkersIn memory long config.members (long.localParallelism config.workers) times) = _ :=
      mapM_eq_ok fun m hm => memberWorkersIn_eq_ok hroom (List.mem_range.mp hm)
    refine ⟨_, rfl, ?_⟩
    dsimp only [bind, Except.bind]
    rw [hworkers]
    rfl

/-- Beyond the limits, what is foretold ends it. -/
theorem launchIn_of_fault (hpos : 0 < config.channelCapacity) {fault : LaunchFault}
    (h : launchFault? memory config source = some fault) :
    launchIn memory config source plan times = .error (.limit fault) := by
  unfold launchIn
  rcases Nat.lt_or_ge queueLimit config.channelCapacity with hlong | hqueue
  · have hfault : launchFault? memory config source = some .queueTooLong := if_pos hlong
    cases Option.some.inj (h.symm.trans hfault)
    rw [queueOf, if_neg (Nat.ne_of_gt hpos), if_pos hlong]
    rfl
  · rw [queueOf_eq_ok hpos hqueue]
    cases source with
    | items | itemStream =>
      unfold launchFault? at h
      rw [if_neg (Nat.not_lt.mpr hqueue)] at h
      cases h
    | longStream long =>
      have hroom := roomFor_eq memory long hqueue
      rw [h] at hroom
      have hworkers : (List.range config.members.val).mapM
          (memberWorkersIn memory long config.members (long.localParallelism config.workers) times) =
            .error (.limit fault) :=
        mapM_range_eq_error config.members.property (memberWorkersIn_eq_error hroom)
      dsimp only [bind, Except.bind]
      rw [hworkers]

end Launch

/-! ### Accepted settings -/

/-- What is accepted has a queue that holds something. -/
theorem capacity_pos_of_configure {files : Cli.Files} {processors : Nat} {a : Cli.Arguments}
    {config : RunConfig} (h : Cli.configure files processors a = .ok config) :
    0 < config.channelCapacity := (Cli.configure_eq_ok.mp h).capacity_pos

/-- How many workers a run has. -/
def workerCount (config : RunConfig) : ConfiguredSource → Nat
  | .items _ => 1
  | .itemStream _ => config.workers.val
  | .longStream long => config.members.val * (long.localParallelism config.workers).val

/-- The numbers of the workers of a launched run. -/
def Launched.numbers : Launched → List Nat
  | .items s => s.workers.toList.map Worker.id
  | .streams s => s.workers.toList.map Worker.id
  | .longs s => s.workers.toList.map Worker.id

/-- The workers of a run are numbered through. -/
theorem launch_numbers {config : RunConfig} {source : ConfiguredSource} {plan : SinkPlan}
    {times : LaunchTimes} {launched : Launched} {log : List LogEvent}
    (hbuilt : config.source.build = .ok source)
    (h : launch config plan times = .ok (launched, log)) :
    launched.numbers = List.range (workerCount config source) := by
  unfold launch at h
  rw [hbuilt] at h
  cases source with
  | items =>
    cases h
    rfl
  | itemStream supplier =>
    cases h
    show ((((List.range config.workers.val).map fun id => (id, supplier.create)).map
      _).toArray.toList).map Worker.id = _
    rw [List.map_map, List.map_map]
    exact List.map_id _
  | longStream long =>
    cases h
    show (((memberInstances long config.members _ times).map _).toArray.toList).map Worker.id = _
    rw [memberInstances_eq, List.map_map, List.map_map]
    exact List.map_id _

/-- **Accepted settings.** A run with settings that are accepted, and whose source can be built, is
started without a fault exactly within the limits, however much memory there is. It is then the run
that is launched on numbers without a limit, and its workers are numbered from zero; those of a
replicated source by the indices of their instances, all below a total that fits in a word. Beyond
the limits it ends with the fault that is foretold. -/
theorem accepted_settings_start_within_limits {files : Cli.Files} {processors : Nat}
    {a : Cli.Arguments} {config : RunConfig} {source : ConfiguredSource}
    (haccepted : Cli.configure files processors a = .ok config)
    (hbuilt : config.source.build = .ok source) (memory : Nat) (plan : SinkPlan)
    (times : LaunchTimes) :
    (config.WithinLimits memory source → ∃ launched log,
      launch config plan times = .ok (launched, log) ∧
        launchIn memory config source plan times = .ok (launched, log) ∧
        launched.numbers = List.range (workerCount config source) ∧
        ∀ long, source = .longStream long →
          let hosted := long.localParallelism config.workers
          let requests := long.requests () times.memberAt config.members.val hosted
          workerCount config source < Word.countLimit ∧
            requests.map InstanceConfig.index = launched.numbers ∧
            ∀ c ∈ requests, c.total = workerCount config source) ∧
      (¬ config.WithinLimits memory source → ∃ fault,
        launchFault? memory config source = some fault ∧
          launchIn memory config source plan times = .error (.limit fault)) := by
  have hpos := capacity_pos_of_configure haccepted
  constructor
  · intro hlimits
    obtain ⟨⟨launched, log⟩, hlaunch, hstart⟩ :=
      launchIn_of_withinLimits plan times hpos hbuilt hlimits
    have hnumbers := launch_numbers hbuilt hlaunch
    refine ⟨launched, log, hlaunch, hstart, hnumbers, ?_⟩
    rintro long rfl hosted requests
    have hindex : requests.map InstanceConfig.index = _ := long.requests_index ..
    have htotal : max config.members.val 1 * hosted.val =
        workerCount config (.longStream long) := by
      rw [Nat.max_eq_left config.members.property]
      rfl
    refine ⟨?_, ?_, ?_⟩
    · rw [← htotal]
      exact hlimits.total long rfl
    · rw [hindex, htotal, hnumbers]
    · intro c hc
      rw [(long.of_mem_requests () times.memberAt config.members.val hosted hc).2, ← htotal]
      rfl
  · intro hbeyond
    obtain ⟨fault, hfault⟩ :=
      Option.ne_none_iff_exists'.mp (mt launchFault?_eq_none.mp hbeyond)
    exact ⟨fault, hfault, launchIn_of_fault plan times hpos hfault⟩

/-- Two members with three instances each, the longest queue there is, and just the memory they
need. -/
theorem accepted_settings_start_within_limits_of_longest_queue :
    let a : Cli.Arguments :=
      ⟨.longStream, 4, none, 0, some ⟨3, by decide⟩, 2, none, none, 10, 2305843009213693951, none⟩
    ∃ config source, Cli.configure (fun _ => .error .notFound) 1 a = .ok config ∧
      config.source.build = .ok source ∧ config.WithinLimits 120 source ∧
      ∃ launched log, launchIn 120 config source .willing (.at ⟨0, 0⟩) = .ok (launched, log) ∧
        launched.numbers = [0, 1, 2, 3, 4, 5] := by
  intro a
  let config : RunConfig :=
    ⟨.longStream (some 4) 0 (some ⟨3, by decide⟩), ⟨1, by decide⟩, ⟨2, by decide⟩, none,
      .ofMillis 10, 2305843009213693951⟩
  have haccepted : Cli.configure (fun _ => .error .notFound) 1 a = .ok config := rfl
  have hbuilt : config.source.build = .ok (.longStream ⟨4, ⟨0⟩, some ⟨3, by decide⟩⟩) := rfl
  have hlimits : config.WithinLimits 120 (.longStream ⟨4, ⟨0⟩, some ⟨3, by decide⟩⟩) := by
    refine ⟨Nat.le_refl _, ?_, ?_, ?_⟩ <;> rintro _ ⟨⟩ <;> decide
  obtain ⟨launched, log, -, hstart, hnumbers, -⟩ :=
    (accepted_settings_start_within_limits haccepted hbuilt 120 .willing (.at ⟨0, 0⟩)).1 hlimits
  exact ⟨config, _, haccepted, hbuilt, hlimits, launched, log, hstart, hnumbers⟩

/-- Settings that are accepted and cannot be started: a queue for one batch more than the longest
one, and two members with so many instances each that their number is the first one that fits in
no word. -/
theorem accepted_settings_beyond_limits :
    let longQueue : Cli.Arguments :=
      ⟨.items, 10, some ["a"], 0, none, 1, none, none, 10, 2305843009213693952, none⟩
    let manyInstances : Cli.Arguments :=
      ⟨.longStream, 10, none, 0, some ⟨9223372036854775808, by decide⟩, 2, none, none, 10, 64, none⟩
    (∃ config source, Cli.configure (fun _ => .error .notFound) 1 longQueue = .ok config ∧
      config.source.build = .ok source ∧
      ∀ memory plan times,
        launchIn memory config source plan times = .error (.limit .queueTooLong)) ∧
    ∃ config source, Cli.configure (fun _ => .error .notFound) 1 manyInstances = .ok config ∧
      config.source.build = .ok source ∧
      ∀ memory plan times,
        launchIn memory config source plan times = .error (.limit .tooManyInstances) := by
  intro longQueue manyInstances
  constructor
  · refine ⟨_, _, rfl, rfl, fun memory plan times => ?_⟩
    exact launchIn_of_fault plan times (by decide) rfl
  · let hosted : Positive := ⟨9223372036854775808, by decide⟩
    let config : RunConfig :=
      ⟨.longStream (some 10) 0 (some hosted), ⟨1, by decide⟩, ⟨2, by decide⟩, none,
        .ofMillis 10, 64⟩
    have hbuilt : config.source.build = .ok (.longStream ⟨10, ⟨0⟩, some hosted⟩) := rfl
    refine ⟨config, _, rfl, hbuilt, fun memory plan times => ?_⟩
    have hcount : Word.countLimit ≤ instanceCount ⟨10, ⟨0⟩, some hosted⟩ config := by decide
    exact launchIn_of_fault plan times (by decide) ((if_neg (by decide)).trans (if_pos hcount))

end Pacing.Run
