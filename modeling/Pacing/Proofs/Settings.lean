import Pacing.Cli.Settings
import Pacing.Proofs.Config.RoundTrip

/-!
# Settings and their faults

Settings are accepted exactly if nothing is wrong with them, and what is reported is the first thing
wrong in a fixed order: the counts one after the other, and the configuration document last. A
document takes the place of all flags that describe a source.

* `Files.Holds` and `Files.Refuses` say what reading a text file comes to.
* `Arguments.Wrong` lists everything that can be wrong, with its place in the order of the checks.
* `Arguments.Accepts` is what a run is given by settings that are accepted.
* `settings_checked_in_order` is the main statement.
-/

namespace Pacing.Cli

open Pacing.Run
open Json (bind_eq_ok bind_eq_error pure_eq_ok)

/-! ### Text files -/

/-- The file at a path is a text, in UTF-8. No file has a null character in its path. -/
def Files.Holds (files : Files) (path text : String) : Prop :=
  Char.ofNat 0 ∉ path.toList ∧ files path = .ok text.toUTF8

/-- Why there is no text at a path. -/
inductive Files.Refuses (files : Files) (path : String) : FileFault → Prop
  | nullInPath : Char.ofNat 0 ∈ path.toList → files.Refuses path .nullInPath
  | unreadable {fault : FileFault} : Char.ofNat 0 ∉ path.toList → files path = .error fault →
      files.Refuses path fault
  | notText {bytes : ByteArray} : Char.ofNat 0 ∉ path.toList → files path = .ok bytes →
      (∀ text : String, bytes ≠ text.toUTF8) → files.Refuses path .notText

theorem fromUTF8?_eq_some {bytes : ByteArray} {text : String} :
    String.fromUTF8? bytes = some text ↔ bytes = text.toUTF8 := by
  unfold String.fromUTF8?
  constructor
  · intro h
    split at h
    · cases h
      rfl
    · cases h
  · rintro rfl
    exact dif_pos text.isValidUTF8

section Reading

variable {files : Files} {path text : String}

theorem readTextFile_eq_ok : readTextFile files path = .ok text ↔ files.Holds path text := by
  unfold readTextFile Files.Holds
  by_cases hnull : Char.ofNat 0 ∈ path.toList
  · simp [hnull, bind, Except.bind]
  · simp only [hnull, if_false, not_false_eq_true, true_and, bind_eq_ok]
    constructor
    · rintro ⟨bytes, hbytes, h⟩
      split at h
      case h_1 htext =>
        cases h
        rw [hbytes, fromUTF8?_eq_some.mp htext]
      case h_2 => cases h
    · intro hbytes
      refine ⟨_, hbytes, ?_⟩
      rw [fromUTF8?_eq_some.mpr rfl]
      rfl

theorem readTextFile_eq_error {fault : FileFault} :
    readTextFile files path = .error fault ↔ files.Refuses path fault := by
  unfold readTextFile
  by_cases hnull : Char.ofNat 0 ∈ path.toList
  · rw [if_pos hnull]
    constructor
    · rintro ⟨⟩
      exact .nullInPath hnull
    · rintro (_ | ⟨hnot, -⟩ | ⟨hnot, -, -⟩)
      · rfl
      · exact absurd hnull hnot
      · exact absurd hnull hnot
  · rw [if_neg hnull]
    simp only [bind_eq_error]
    constructor
    · rintro (h | ⟨bytes, hbytes, h⟩)
      · exact .unreadable hnull h
      · split at h
        case h_1 => cases h
        case h_2 htext =>
          cases h
          refine .notText hnull hbytes fun text hsame => ?_
          rw [fromUTF8?_eq_some.mpr hsame] at htext
          cases htext
    · rintro (hnot | ⟨-, hfault⟩ | ⟨-, hbytes, hnone⟩)
      · exact absurd hnot hnull
      · exact .inl hfault
      · refine .inr ⟨_, hbytes, ?_⟩
        cases htext : String.fromUTF8? _ with
        | none => rfl
        | some text => exact absurd (fromUTF8?_eq_some.mp htext) (hnone text)

/-- There is a text at a path, or a reason why there is none. -/
theorem Files.not_holds_iff :
    (∀ text, ¬ files.Holds path text) ↔ ∃ fault, files.Refuses path fault := by
  simp only [← readTextFile_eq_ok, ← readTextFile_eq_error]
  cases readTextFile files path <;> simp

end Reading

/-! ### What can be wrong -/

/-- The number of workers: one for each processor unless it is given. -/
def Arguments.workerCount (a : Arguments) (processors : Nat) : Nat := a.workers.getD processors

/-- What can be wrong with settings, by its place in the order of the checks, and the failure that
reports it. -/
inductive Arguments.Wrong (files : Files) (processors : Nat) (a : Arguments) : Nat → Failure → Prop
  | workers : a.workerCount processors = 0 →
      a.Wrong files processors 0 ⟨"NUM_WORKERS must be greater than 0", []⟩
  | members : a.members = 0 → a.Wrong files processors 1 ⟨"MEMBERS must be greater than 0", []⟩
  | pollInterval : a.pollIntervalMs = 0 →
      a.Wrong files processors 2 ⟨"POLL_INTERVAL_MS must be greater than 0", []⟩
  | channelCapacity : a.channelCapacity = 0 →
      a.Wrong files processors 3 ⟨"CHANNEL_CAPACITY must be greater than 0", []⟩
  | unreadable {path : String} {fault : FileFault} : a.config = some path →
      files.Refuses path fault →
      a.Wrong files processors 4 ⟨"failed to read " ++ path, [fault.text]⟩
  | refused {path text : String} {fault : Json.Fault} : a.config = some path →
      files.Holds path text → SourceConfig.parse text = .error fault →
      a.Wrong files processors 4
        ⟨"failed to parse " ++ path,
          ["invalid source configuration: " ++ fault.category, fault.category]⟩

/-- The failure reports the first thing that is wrong. -/
def Arguments.FirstWrong (files : Files) (processors : Nat) (a : Arguments) (f : Failure) : Prop :=
  ∃ place, a.Wrong files processors place f ∧
    ∀ other g, a.Wrong files processors other g → place ≤ other

/-- The source that is described: by the document, or by the flags if no document is given. -/
inductive Arguments.Describes (files : Files) (a : Arguments) : SourceConfig → Prop
  | document {path text : String} {source : SourceConfig} : a.config = some path →
      files.Holds path text → SourceConfig.fromJson text = .ok source → a.Describes files source
  | flags : a.config = none → a.Describes files (sourceFromFlags a)

/-- What a run is given by settings that are accepted: all counts are positive, they are those of
the settings, and so is everything else but the source. -/
structure Arguments.Accepts (files : Files) (processors : Nat) (a : Arguments)
    (config : RunConfig) : Prop where
  workers_eq : config.workers.val = a.workerCount processors
  members_eq : config.members.val = a.members
  duration_eq : config.duration = a.durationSecs.map Duration.ofSeconds
  pollInterval_eq : config.pollInterval = .ofMillis a.pollIntervalMs
  capacity_eq : config.channelCapacity = a.channelCapacity
  workers_pos : 0 < config.workers.val
  members_pos : 0 < config.members.val
  pollInterval_pos : 0 < config.pollInterval.nanos
  capacity_pos : 0 < config.channelCapacity
  source : a.Describes files config.source

/-! ### The checks -/

variable {files : Files} {processors : Nat} {a : Arguments}

theorem positive_eq_ok {name : String} {n : Nat} {p : Positive} :
    positive name n = .ok p ↔ p.val = n := by
  unfold positive Positive.ofNat?
  by_cases hn : 0 < n
  · rw [dif_pos hn]
    exact ⟨by rintro ⟨⟩; rfl, fun h => congrArg Except.ok (Subtype.ext h.symm)⟩
  · rw [dif_neg hn]
    exact ⟨nofun, fun h => absurd (h ▸ p.property) hn⟩

theorem positive_eq_error {name : String} {n : Nat} {f : Failure} :
    positive name n = .error f ↔ n = 0 ∧ ⟨name ++ " must be greater than 0", []⟩ = f := by
  unfold positive Positive.ofNat?
  by_cases hn : 0 < n
  · rw [dif_pos hn]
    exact ⟨nofun, fun h => absurd h.1 (Nat.ne_of_gt hn)⟩
  · rw [dif_neg hn]
    simp [Nat.eq_zero_of_not_pos hn]

/-- The source of some settings, when it comes to it. -/
def Arguments.findSource (files : Files) (a : Arguments) : Except Failure SourceConfig :=
  match a.config with
  | some path => sourceFromFile files path
  | none => .ok (sourceFromFlags a)

theorem findSource_eq_ok {source : SourceConfig} :
    a.findSource files = .ok source ↔ a.Describes files source := by
  unfold Arguments.findSource
  cases hconfig : a.config with
  | none =>
    constructor
    · rintro ⟨⟩
      exact .flags hconfig
    · rintro (⟨hpath, -, -⟩ | -)
      · cases hconfig.symm.trans hpath
      · rfl
  | some path =>
    dsimp only [sourceFromFile]
    constructor
    · intro h
      split at h
      case h_1 => cases h
      case h_2 text htext =>
        split at h
        case h_1 hsource =>
          cases h
          exact .document hconfig (readTextFile_eq_ok.mp htext) hsource
        case h_2 => cases h
    · rintro (⟨hpath, htext, hsource⟩ | hnone)
      · cases hconfig.symm.trans hpath
        rw [readTextFile_eq_ok.mpr htext]
        dsimp only
        rw [hsource]
      · cases hconfig.symm.trans hnone

theorem findSource_eq_error {f : Failure} :
    a.findSource files = .error f ↔ a.Wrong files processors 4 f := by
  unfold Arguments.findSource
  cases hconfig : a.config with
  | none =>
    refine ⟨nofun, fun h => ?_⟩
    cases h with
    | unreadable hpath => cases hconfig.symm.trans hpath
    | refused hpath => cases hconfig.symm.trans hpath
  | some path =>
    dsimp only [sourceFromFile]
    constructor
    · intro h
      split at h
      case h_1 fault hfault =>
        cases h
        exact .unreadable hconfig (readTextFile_eq_error.mp hfault)
      case h_2 text htext =>
        unfold SourceConfig.fromJson at h
        cases hparse : SourceConfig.parse text with
        | ok source =>
          rw [hparse] at h
          cases h
        | error fault =>
          rw [hparse] at h
          cases h
          exact .refused hconfig (readTextFile_eq_ok.mp htext) hparse
    · intro h
      cases h with
      | unreadable hpath hfault =>
        cases hconfig.symm.trans hpath
        rw [readTextFile_eq_error.mpr hfault]
      | refused hpath htext hparse =>
        cases hconfig.symm.trans hpath
        rw [readTextFile_eq_ok.mpr htext]
        dsimp only [SourceConfig.fromJson]
        rw [hparse]
        rfl

/-- The checks in their order. -/
theorem configure_eq : configure files processors a = do
    let workers ← positive "NUM_WORKERS" (a.workerCount processors)
    let members ← positive "MEMBERS" a.members
    let pollInterval ← positive "POLL_INTERVAL_MS" a.pollIntervalMs
    let channelCapacity ← positive "CHANNEL_CAPACITY" a.channelCapacity
    let source ← a.findSource files
    return ⟨source, workers, members, a.durationSecs.map Duration.ofSeconds,
      .ofMillis pollInterval.val, channelCapacity.val⟩ := by
  unfold configure Arguments.findSource
  cases a.config <;> rfl

theorem configure_eq_ok {config : RunConfig} :
    configure files processors a = .ok config ↔ a.Accepts files processors config := by
  simp only [configure_eq, bind_eq_ok, positive_eq_ok, findSource_eq_ok, pure_eq_ok]
  constructor
  · rintro ⟨workers, hworkers, members, hmembers, interval, hinterval, capacity, hcapacity, source,
      hsource, rfl⟩
    refine ⟨hworkers, hmembers, rfl, congrArg Duration.ofMillis hinterval, hcapacity,
      workers.property, members.property, ?_, capacity.property, hsource⟩
    exact Nat.mul_pos interval.property (by decide)
  · intro h
    have hinterval : 0 < a.pollIntervalMs := by
      have hpos := h.pollInterval_pos
      rw [h.pollInterval_eq] at hpos
      exact Nat.pos_of_mul_pos_right hpos
    obtain ⟨source, workers, members, duration, interval, capacity⟩ := config
    obtain ⟨hworkers, hmembers, rfl, rfl, rfl, -, -, -, hcapacity, hsource⟩ := h
    exact ⟨workers, hworkers, members, hmembers, ⟨_, hinterval⟩, rfl, ⟨_, hcapacity⟩, rfl, source,
      hsource, rfl⟩

/-- Nothing is wrong with settings that are accepted. -/
theorem Arguments.Accepts.not_wrong {config : RunConfig} (h : a.Accepts files processors config)
    {place : Nat} {f : Failure} : ¬ a.Wrong files processors place f := by
  have hsource := findSource_eq_ok.mpr h.source
  have hpositive := And.intro h.workers_pos (And.intro h.members_pos h.capacity_pos)
  rw [h.workers_eq, h.members_eq, h.capacity_eq] at hpositive
  have hinterval := h.pollInterval_pos
  rw [h.pollInterval_eq] at hinterval
  intro hwrong
  cases hwrong with
  | workers hzero => omega
  | members hzero => omega
  | pollInterval hzero => exact absurd hzero (Nat.ne_of_gt (Nat.pos_of_mul_pos_right hinterval))
  | channelCapacity hzero => omega
  | unreadable hpath hfault =>
    have hwrong : a.Wrong files processors 4 _ := .unreadable hpath hfault
    have hfailed := findSource_eq_error.mpr hwrong
    cases hsource.symm.trans hfailed
  | refused hpath htext hfault =>
    have hwrong : a.Wrong files processors 4 _ := .refused hpath htext hfault
    have hfailed := findSource_eq_error.mpr hwrong
    cases hsource.symm.trans hfailed

/-- In one place one thing is wrong. -/
theorem Arguments.Wrong.unique {place : Nat} {f g : Failure} (h : a.Wrong files processors place f)
    (h' : a.Wrong files processors place g) : f = g := by
  by_cases hplace : place = 4
  · subst hplace
    exact Except.error.inj ((findSource_eq_error.mpr h).symm.trans (findSource_eq_error.mpr h'))
  · cases h with
    | unreadable | refused => exact absurd rfl hplace
    | workers | members | pollInterval | channelCapacity =>
      cases h'
      rfl

theorem Arguments.FirstWrong.unique {f g : Failure} (h : a.FirstWrong files processors f)
    (h' : a.FirstWrong files processors g) : f = g := by
  obtain ⟨place, hwrong, hfirst⟩ := h
  obtain ⟨place', hwrong', hfirst'⟩ := h'
  obtain rfl := Nat.le_antisymm (hfirst _ _ hwrong') (hfirst' _ _ hwrong)
  exact hwrong.unique hwrong'

/-- What a check reports has the first place: what is checked before came through, and what is
checked after it has a later place. -/
theorem firstWrong_of_configure {f : Failure} (h : configure files processors a = .error f) :
    a.FirstWrong files processors f := by
  simp only [configure_eq, bind_eq_error, positive_eq_ok, positive_eq_error,
    @findSource_eq_error files processors a] at h
  rcases h with ⟨hzero, rfl⟩ | ⟨⟨_, hworkers⟩, rfl, h⟩
  · exact ⟨0, .workers hzero, fun _ _ _ => Nat.zero_le _⟩
  rcases h with ⟨hzero, rfl⟩ | ⟨⟨_, hmembers⟩, rfl, h⟩
  · exact ⟨1, .members hzero, fun _ _ h => by cases h <;> omega⟩
  rcases h with ⟨hzero, rfl⟩ | ⟨⟨_, hinterval⟩, rfl, h⟩
  · exact ⟨2, .pollInterval hzero, fun _ _ h => by cases h <;> omega⟩
  rcases h with ⟨hzero, rfl⟩ | ⟨⟨_, hcapacity⟩, rfl, h⟩
  · exact ⟨3, .channelCapacity hzero, fun _ _ h => by cases h <;> omega⟩
  rcases h with hwrong | ⟨_, -, h⟩
  · exact ⟨4, hwrong, fun _ _ h => by cases h <;> omega⟩
  · cases h

/-- Settings are refused for the first thing that is wrong with them. -/
theorem configure_eq_error {f : Failure} :
    configure files processors a = .error f ↔ a.FirstWrong files processors f := by
  refine ⟨firstWrong_of_configure, fun h => ?_⟩
  cases hresult : configure files processors a with
  | error g => rw [(firstWrong_of_configure hresult).unique h]
  | ok config =>
    obtain ⟨place, hwrong, -⟩ := h
    exact absurd hwrong (configure_eq_ok.mp hresult).not_wrong

theorem exists_wrong_iff : (∃ place f, a.Wrong files processors place f) ↔
    a.workerCount processors = 0 ∨ a.members = 0 ∨ a.pollIntervalMs = 0 ∨ a.channelCapacity = 0 ∨
      ∃ path, a.config = some path ∧ ∀ text, files.Holds path text →
        ∀ source, SourceConfig.fromJson text ≠ .ok source := by
  constructor
  · rintro ⟨place, f, hwrong⟩
    cases hwrong with
    | workers hzero => exact .inl hzero
    | members hzero => exact .inr (.inl hzero)
    | pollInterval hzero => exact .inr (.inr (.inl hzero))
    | channelCapacity hzero => exact .inr (.inr (.inr (.inl hzero)))
    | @unreadable path fault hpath hfault =>
      refine .inr (.inr (.inr (.inr ⟨path, hpath, fun text htext => ?_⟩)))
      exact absurd htext (Files.not_holds_iff.mpr ⟨_, hfault⟩ text)
    | @refused path text fault hpath htext hfault =>
      refine .inr (.inr (.inr (.inr ⟨path, hpath, fun text' htext' source hsource => ?_⟩)))
      cases (readTextFile_eq_ok.mpr htext).symm.trans (readTextFile_eq_ok.mpr htext')
      rw [SourceConfig.fromJson, hfault] at hsource
      cases hsource
  · rintro (hzero | hzero | hzero | hzero | ⟨path, hpath, hnone⟩)
    · exact ⟨_, _, .workers hzero⟩
    · exact ⟨_, _, .members hzero⟩
    · exact ⟨_, _, .pollInterval hzero⟩
    · exact ⟨_, _, .channelCapacity hzero⟩
    · cases htext : readTextFile files path with
      | error fault => exact ⟨_, _, .unreadable hpath (readTextFile_eq_error.mp htext)⟩
      | ok text =>
        have hholds := readTextFile_eq_ok.mp htext
        cases hparse : SourceConfig.parse text with
        | error fault => exact ⟨_, _, .refused hpath hholds hparse⟩
        | ok source =>
          refine absurd ?_ (hnone text hholds source)
          rw [SourceConfig.fromJson, hparse]
          rfl

/-! ### Flags and documents -/

/-- The settings are the same apart from the flags that describe a source. -/
def Arguments.SameApartFromSource (a b : Arguments) : Prop :=
  b = { a with
    source := b.source
    itemsPerSecond := b.itemsPerSecond
    items := b.items
    initialDelayMs := b.initialDelayMs
    localParallelism := b.localParallelism }

/-- With a document, the flags that describe a source are not looked at. -/
theorem configure_eq_of_document {b : Arguments} {path : String} (hpath : a.config = some path)
    (h : a.SameApartFromSource b) :
    configure files processors b = configure files processors a := by
  have hb : b.config = a.config := by rw [h]
  have hsource : b.findSource files = a.findSource files := by
    unfold Arguments.findSource
    rw [hb, hpath]
  rw [configure_eq, configure_eq, hsource, h]
  rfl

/-- **Settings.** Settings are refused exactly if a count is zero or a document is given and there is
no text at its path, or none that is a configuration; on any machine the number of workers is zero
only if zero is given. They are refused for the first thing that is wrong. What is accepted is a run
with positive counts and everything else as given; its source is that of the document, and that of
the flags if no document is given. With a document the flags of the source make no difference, and
the document makes none to anything but the source. -/
theorem settings_checked_in_order (files : Files) (processors : Nat) (a : Arguments) :
    ((∃ f, configure files processors a = .error f) ↔
      a.workerCount processors = 0 ∨ a.members = 0 ∨ a.pollIntervalMs = 0 ∨ a.channelCapacity = 0 ∨
        ∃ path, a.config = some path ∧ ∀ text, files.Holds path text →
          ∀ source, SourceConfig.fromJson text ≠ .ok source) ∧
    (0 < processors → (a.workerCount processors = 0 ↔ a.workers = some 0)) ∧
    (∀ f, configure files processors a = .error f ↔ a.FirstWrong files processors f) ∧
    (∀ config, configure files processors a = .ok config ↔ a.Accepts files processors config) ∧
    (∀ (b : Arguments) (path : String), a.config = some path → a.SameApartFromSource b →
      configure files processors b = configure files processors a) ∧
    ∀ (files' : Files) (config config' : RunConfig), configure files processors a = .ok config →
      configure files' processors a = .ok config' →
      config' = { config with source := config'.source } := by
  refine ⟨?_, fun hprocessors => ?_, fun f => configure_eq_error, fun config => configure_eq_ok,
    fun b path hpath h => configure_eq_of_document hpath h, fun files' config config' h h' => ?_⟩
  · rw [← exists_wrong_iff]
    constructor
    · rintro ⟨f, h⟩
      obtain ⟨place, hwrong, -⟩ := configure_eq_error.mp h
      exact ⟨place, f, hwrong⟩
    · rintro ⟨place, f, hwrong⟩
      cases hresult : configure files processors a with
      | error g => exact ⟨g, rfl⟩
      | ok config => exact absurd hwrong (configure_eq_ok.mp hresult).not_wrong
  · unfold Arguments.workerCount
    cases a.workers with
    | none => exact ⟨fun hzero => absurd hzero (Nat.ne_of_gt hprocessors), nofun⟩
    | some n => exact ⟨fun hzero => congrArg some hzero, fun hzero => Option.some.inj hzero⟩
  · have haccepts := configure_eq_ok.mp h
    have haccepts' := configure_eq_ok.mp h'
    obtain ⟨source, workers, members, duration, interval, capacity⟩ := config
    obtain ⟨source', workers', members', duration', interval', capacity'⟩ := config'
    obtain rfl : workers' = workers :=
      Subtype.ext (haccepts'.workers_eq.trans haccepts.workers_eq.symm)
    obtain rfl : members' = members :=
      Subtype.ext (haccepts'.members_eq.trans haccepts.members_eq.symm)
    obtain rfl : duration' = duration := haccepts'.duration_eq.trans haccepts.duration_eq.symm
    obtain rfl : interval' = interval :=
      haccepts'.pollInterval_eq.trans haccepts.pollInterval_eq.symm
    obtain rfl : capacity' = capacity := haccepts'.capacity_eq.trans haccepts.capacity_eq.symm
    rfl

/-- A document in the place of two descriptions by flags, another document in its place, and two
things wrong at once. -/
theorem settings_checked_in_order_of_documents :
    let holding (c : SourceConfig) : Files := fun _ => .ok c.print.toUTF8
    let stream : SourceConfig := .itemStream (some 5)
    let a : Arguments :=
      ⟨.items, 10, some ["x"], 0, none, 2, none, none, 10, 64, some "source.json"⟩
    let b : Arguments := { a with source := .longStream, items := none, initialDelayMs := 7 }
    let c : Arguments := { a with members := 0, config := some "none.json" }
    0 < 4 ∧ a.config = some "source.json" ∧ a.SameApartFromSource b ∧
      (∃ config, configure (holding stream) 4 a = .ok config ∧ config.source = stream ∧
        configure (holding stream) 4 b = .ok config ∧
        configure (holding (.items none)) 4 a = .ok { config with source := .items none }) ∧
      configure (fun _ => .error .notFound) 4 c = .error ⟨"MEMBERS must be greater than 0", []⟩ := by
  intro holding stream a b c
  have haccepts : ∀ source : SourceConfig, source.Proper → a.Accepts (holding source) 4
      ⟨source, ⟨4, Nat.zero_lt_succ _⟩, ⟨2, Nat.zero_lt_succ _⟩, none, .ofMillis 10, 64⟩ :=
    fun source hproper => ⟨rfl, rfl, rfl, rfl, rfl, Nat.zero_lt_succ _, Nat.zero_lt_succ _,
      Nat.zero_lt_succ _, Nat.zero_lt_succ _,
      .document rfl ⟨by decide, rfl⟩ hproper.kept.fromJson_print⟩
  have hstream : stream.Proper := by
    rintro n ⟨⟩
    decide
  obtain ⟨-, -, -, haccepted, hflags, hdocument⟩ := settings_checked_in_order (holding stream) 4 a
  have hconfig := (haccepted _).mpr (haccepts _ hstream)
  obtain ⟨-, -, -, haccepted', -⟩ := settings_checked_in_order (holding (.items none)) 4 a
  have hother := (haccepted' _).mpr (haccepts (.items none) nofun)
  refine ⟨by decide, rfl, rfl, ⟨_, hconfig, rfl, (hflags b _ rfl rfl).trans hconfig, ?_⟩, ?_⟩
  · rw [← hdocument _ _ _ hconfig hother]
    exact hother
  · obtain ⟨-, -, hrefused, -⟩ := settings_checked_in_order (fun _ => .error .notFound) 4 c
    refine (hrefused _).mpr ⟨1, .members rfl, fun place f h => ?_⟩
    cases h with
    | workers hzero => cases hzero
    | _ => decide

end Pacing.Cli
