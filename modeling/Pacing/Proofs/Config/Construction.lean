import Pacing.Cli.Settings
import Pacing.Proofs.Config.RoundTrip
import Pacing.Proofs.Stream.Track

/-!
# Ways to a source

A source can be made by its constructor, from a configuration, from a document of one, and from the
flags of the program. The same values make the same source on every way, or are refused with the
same error. What is required is looked for first, then the rate is looked at, and the delay of a
replicated source last.

* `SourceConfig.Route` are the ways that lead through a configuration, and `Route.eq_build` says that
  they lead to one place.
* `itemStream_eq` and `LongSource.tryNew_ofMillis` say what the constructors accept and refuse.
* `LongSource.Follows` says what a replicated source does by the values it was made of.
* `constructions_agree` is the statement about all of it.
-/

namespace Pacing

/-! ### Ways through a configuration -/

/-- The flags give the values of a configuration. There is always a rate among them. -/
def Cli.Arguments.Give (a : Cli.Arguments) : SourceConfig → Prop
  | .items values => a.source = .items ∧ a.items.map (·.map Cli.parseItem) = values
  | .itemStream rate => a.source = .itemStream ∧ rate = some a.itemsPerSecond
  | .longStream rate delay preferred => a.source = .longStream ∧ rate = some a.itemsPerSecond ∧
      a.initialDelayMs = delay ∧ a.localParallelism = preferred

namespace SourceConfig

/-- What is made of the values of a configuration: of itself, of the document that is written for it
or any other one that is read as it, and of flags. -/
inductive Route (c : SourceConfig) : Except Error ConfiguredSource → Prop
  | configuration : c.Route c.build
  | written : c.Route (fromJson c.print >>= build)
  | document (text : String) (htext : fromJson text = .ok c) : c.Route (fromJson text >>= build)
  | flags (a : Cli.Arguments) (ha : a.Give c) : c.Route (Cli.sourceFromFlags a).build

/-- The field that a configuration lacks. -/
def missingField? : SourceConfig → Option String
  | .items none => some "items"
  | .itemStream none => some "items_per_second"
  | .longStream none _ _ => some "items_per_second"
  | _ => none

variable {c : SourceConfig}

/-- The flags that give the values of a configuration are taken for it. -/
theorem sourceFromFlags_eq {a : Cli.Arguments} (h : a.Give c) : Cli.sourceFromFlags a = c := by
  unfold Cli.sourceFromFlags
  cases c with
  | items values =>
    obtain ⟨hsource, hitems⟩ := h
    rw [hsource, ← hitems]
  | itemStream rate =>
    obtain ⟨hsource, hrate⟩ := h
    rw [hsource, hrate]
  | longStream rate delay preferred =>
    obtain ⟨hsource, hrate, hdelay, hpreferred⟩ := h
    rw [hsource, hrate, hdelay, hpreferred]

/-- **Routes.** Every way through a configuration leads to the source of the configuration. -/
theorem Route.eq_build {built : Except Error ConfiguredSource} (h : c.Route built)
    (hc : c.Proper) : built = c.build := by
  cases h with
  | configuration => rfl
  | written =>
    rw [hc.kept.fromJson_print]
    rfl
  | document text htext =>
    rw [htext]
    rfl
  | flags a ha => rw [sourceFromFlags_eq ha]

/-! ### The order of the checks -/

theorem build_itemStream (rate : Int) :
    (SourceConfig.itemStream (some rate)).build = (Pacing.itemStream rate).map .itemStream := by
  have hbuild : (SourceConfig.itemStream (some rate)).build =
      Pacing.itemStream rate >>= fun supplier => .ok (.itemStream supplier) := rfl
  rw [hbuild]
  cases (Pacing.itemStream rate : Except Error (StreamSupplier Empty SimpleEvent)) <;> rfl

theorem build_longStream (rate : Int) (delay : Nat) (preferred : Option Positive) :
    (SourceConfig.longStream (some rate) delay preferred).build =
      (LongSource.tryNew rate (.ofMillis delay) preferred).map .longStream := by
  have hbuild : (SourceConfig.longStream (some rate) delay preferred).build =
      LongSource.tryNew rate (.ofMillis delay) preferred >>= fun source =>
        .ok (.longStream source) := rfl
  rw [hbuild]
  cases LongSource.tryNew rate (.ofMillis delay) preferred <;> rfl

end SourceConfig

theorem Duration.millis_ofMillis (n : Nat) : (Duration.ofMillis n).millis = n :=
  Nat.mul_div_cancel n (by decide)

/-- A stream is made of every accepted rate, and of no other. -/
theorem itemStream_eq (rate : Int) : (itemStream rate : Except Error (StreamSupplier Empty _)) =
    if 1 ≤ rate ∧ rate ≤ maxItemsPerSecond then .ok ⟨rate, nanosPerSecond / rate, .slots⟩
    else .error (.invalidRate rate) := by
  unfold itemStream StreamSupplier.tryNew periodNanos
  split <;> rfl

/-- A replicated source is made of every accepted rate and every delay whose milliseconds are a
signed word. The rate is looked at first. -/
theorem LongSource.tryNew_ofMillis (rate : Int) (delay : Nat) (preferred : Option Positive) :
    LongSource.tryNew rate (.ofMillis delay) preferred =
      if ¬ (1 ≤ rate ∧ rate ≤ maxItemsPerSecond) then .error (.invalidRate rate)
      else if Word.highest < delay then .error (.delayOutOfRange (.ofMillis delay))
      else .ok ⟨rate, .ofMillis delay, preferred⟩ := by
  unfold LongSource.tryNew periodNanos
  rw [Duration.millis_ofMillis]
  by_cases hrate : 1 ≤ rate ∧ rate ≤ maxItemsPerSecond
  · rw [if_pos hrate, if_neg (not_not_intro hrate)]
    rfl
  · rw [if_neg hrate, if_pos hrate]
    rfl

namespace SourceConfig

/-- A configuration is refused for the field that it lacks, whatever else is wrong with it, and for
the lack of no other. -/
theorem build_eq_missing_iff {c : SourceConfig} {name : String} :
    c.build = .error (.missing name) ↔ c.missingField? = some name := by
  have hlacks : ∀ field : String,
      (Except.error (.missing field) : Except Error ConfiguredSource) = .error (.missing name) ↔
        some field = some name := by
    intro field
    simp
  cases c with
  | items values =>
    cases values with
    | none => exact hlacks "items"
    | some values => exact ⟨nofun, nofun⟩
  | itemStream rate =>
    cases rate with
    | none => exact hlacks "items_per_second"
    | some rate =>
      rw [build_itemStream, itemStream_eq]
      split <;> exact ⟨nofun, nofun⟩
  | longStream rate delay preferred =>
    cases rate with
    | none => exact hlacks "items_per_second"
    | some rate =>
      rw [build_longStream, LongSource.tryNew_ofMillis]
      split
      · exact ⟨nofun, nofun⟩
      · split <;> exact ⟨nofun, nofun⟩

end SourceConfig

/-! ### What is made of a source -/

/-- What a replicated source does, by the values it was made of. -/
structure LongSource.Follows (source : LongSource) (rate : Int) (delay : Nat)
    (preferred : Option Positive) : Prop where
  itemsPerSecond_eq : source.itemsPerSecond = rate
  initialDelay_eq : source.initialDelay = .ofMillis delay
  preferred_eq : source.preferred = preferred
  localParallelism_eq : ∀ engineDefault,
    source.localParallelism engineDefault = preferred.getD engineDefault
  /-- A member starts the delay after the reading it is made at. -/
  startMillis_eq : ∀ {π : Type} (policy : π) (r : Reading),
    (source.member policy r).startMillis = Word.satAdd r.wallMillis delay
  /-- Its instances do at every poll what their configuration says. -/
  polls_eq : ∀ {π : Type} (policy : π) (r r₀ : Reading) (index total : Nat) (rs : List Reading),
    Paced.polls ((source.member policy r).get (LongStream.create · r₀) index total) rs =
      Paced.polls (LongStream.create
        ⟨Word.satAdd r.wallMillis delay, rate, policy, index, total⟩ r₀) rs

/-- The source that is made of some values follows them. -/
theorem LongSource.follows_of_tryNew {rate : Int} {delay : Nat} {preferred : Option Positive}
    {source : LongSource}
    (h : LongSource.tryNew rate (.ofMillis delay) preferred = .ok source) :
    source.Follows rate delay preferred := by
  rw [tryNew_ofMillis] at h
  split at h
  · cases h
  · split at h
    · cases h
    case isFalse hdelay =>
      cases h
      have hmillis : Word.ofCount (Duration.ofMillis delay).millis = delay := by
        rw [Duration.millis_ofMillis]
        exact if_pos (Int.not_lt.mp hdelay)
      have hstart : ∀ {π : Type} (policy : π) (r : Reading),
          ((⟨rate, .ofMillis delay, preferred⟩ : LongSource).member policy r).startMillis =
            Word.satAdd r.wallMillis delay := by
        intro π policy r
        rw [← hmillis]
        rfl
      refine ⟨rfl, rfl, rfl, fun _ => rfl, hstart, ?_⟩
      intro π policy r r₀ index total rs
      rw [MemberSupplier.get, MemberSupplier.configOf, hstart]
      rfl

/-- **Constructions.** For every signed rate, unsigned delay and positive parallelism or none:

* whatever way leads through the configuration of a stream, it leads to what the constructor makes of
  the rate: a stream with that rate, or a refusal of the rate;
* a supplier that is made so has the rate, and its streams do at every poll what a stream does that
  is made of the rate alone;
* whatever way leads through the configuration of a replicated source, it leads to what the
  constructor makes of the values: a source with these values, or a refusal of the rate and then of
  the delay;
* a source that is made so follows its values.

A configuration that lacks a field it needs is refused for that, whatever else is wrong with it, and
no other configuration is. -/
theorem constructions_agree {rate : Int} {delay : Nat} {preferred : Option Positive}
    (hrate : Word.InRange rate) (hdelay : delay < Word.countLimit)
    (hpreferred : ∀ p, preferred = some p → p.val < Word.countLimit) :
    ((∀ built, (SourceConfig.itemStream (some rate)).Route built →
        built = (itemStream rate).map .itemStream) ∧
      (itemStream rate : Except Error (StreamSupplier Empty _)) =
        (if 1 ≤ rate ∧ rate ≤ maxItemsPerSecond then .ok ⟨rate, nanosPerSecond / rate, .slots⟩
        else .error (.invalidRate rate)) ∧
      ∀ supplier : StreamSupplier Empty SimpleEvent, itemStream rate = .ok supplier →
        supplier.itemsPerSecond = rate ∧ ∃ s, ItemStream.ofRate rate .slots = .ok s ∧
          ∀ rs, Paced.polls supplier.create rs = Paced.polls s rs) ∧
    ((∀ built, (SourceConfig.longStream (some rate) delay preferred).Route built →
        built = (LongSource.tryNew rate (.ofMillis delay) preferred).map .longStream) ∧
      LongSource.tryNew rate (.ofMillis delay) preferred =
        (if ¬ (1 ≤ rate ∧ rate ≤ maxItemsPerSecond) then .error (.invalidRate rate)
        else if Word.highest < delay then .error (.delayOutOfRange (.ofMillis delay))
        else .ok ⟨rate, .ofMillis delay, preferred⟩) ∧
      ∀ source, LongSource.tryNew rate (.ofMillis delay) preferred = .ok source →
        source.Follows rate delay preferred) ∧
    ∀ (c : SourceConfig) (name : String),
      c.build = .error (.missing name) ↔ c.missingField? = some name := by
  refine ⟨⟨?_, itemStream_eq rate, ?_⟩, ⟨?_, LongSource.tryNew_ofMillis rate delay preferred, ?_⟩, ?_⟩
  · intro built hroute
    have hproper : (SourceConfig.itemStream (some rate)).Proper := by
      rintro n ⟨⟩
      exact hrate
    rw [hroute.eq_build hproper, SourceConfig.build_itemStream]
  · intro supplier hsupplier
    rw [itemStream_eq] at hsupplier
    split at hsupplier
    case isFalse => cases hsupplier
    case isTrue haccepted =>
      cases hsupplier
      exact ⟨rfl, _, ItemStream.ofRate_eq_ok haccepted .slots, fun rs => rfl⟩
  · intro built hroute
    have hproper : (SourceConfig.longStream (some rate) delay preferred).Proper := by
      refine ⟨?_, hdelay, hpreferred⟩
      rintro n ⟨⟩
      exact hrate
    rw [hroute.eq_build hproper, SourceConfig.build_longStream]
  · intro source hsource
    exact LongSource.follows_of_tryNew hsource
  · intro c name
    exact SourceConfig.build_eq_missing_iff

/-- A quarter of a second and four instances for each member, by a document and by flags; and a delay
of one millisecond too many, which flags can give and no source can keep. -/
theorem constructions_agree_of_quarter_second :
    Word.InRange 1000 ∧ 250 < Word.countLimit ∧ (⟨4, by decide⟩ : Positive).val < Word.countLimit ∧
      (SourceConfig.fromJson (SourceConfig.longStream (some 1000) 250 (some ⟨4, by decide⟩)).print >>=
          SourceConfig.build) =
        .ok (.longStream ⟨1000, .ofMillis 250, some ⟨4, by decide⟩⟩) ∧
      (Cli.sourceFromFlags ⟨.longStream, 1000, none, 250, some ⟨4, by decide⟩, 1, none, none, 10, 64,
          none⟩).build =
        .ok (.longStream ⟨1000, .ofMillis 250, some ⟨4, by decide⟩⟩) ∧
      9223372036854775808 < Word.countLimit ∧
      (Cli.sourceFromFlags ⟨.longStream, 1000, none, 9223372036854775808, none, 1, none, none, 10, 64,
          none⟩).build =
        .error (.delayOutOfRange (.ofMillis 9223372036854775808)) := by
  have hrate : Word.InRange 1000 := by decide
  have hdelay : 250 < Word.countLimit := by decide
  have hlate : 9223372036854775808 < Word.countLimit := by decide
  have hpreferred : ∀ p : Positive, some ⟨4, by decide⟩ = some p → p.val < Word.countLimit := by
    rintro p ⟨⟩
    decide
  obtain ⟨-, ⟨hroutes, hsource, -⟩, -⟩ := constructions_agree hrate hdelay hpreferred
  have hnone : ∀ p : Positive, none = some p → p.val < Word.countLimit := nofun
  obtain ⟨-, ⟨hroutes', hrefused, -⟩, -⟩ := constructions_agree hrate hlate hnone
  refine ⟨hrate, hdelay, hpreferred _ rfl, ?_, ?_, hlate, ?_⟩
  · rw [hroutes _ .written, hsource]
    rfl
  · rw [hroutes _ (.flags _ ⟨rfl, rfl, rfl, rfl⟩), hsource]
    rfl
  · rw [hroutes' _ (.flags _ ⟨rfl, rfl, rfl, rfl⟩), hrefused]
    rfl

end Pacing
