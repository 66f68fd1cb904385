import Pacing.Samples
import Pacing.Proofs.Polling
import Pacing.Proofs.Json.Printing

/-!
# Copies that arrive

A distributed stream runs the copy of its generator that arrives when the generator is sent as text.
It is refused for its rate first, and then for a generator that cannot be written or whose text cannot
be read; nothing else of the generator matters than the text. A generator that is a record of one
string arrives as it was, whatever the string, and so does the generator of simple events.

* `Arrives` and `Lost` are the two fates of a value that is sent.
* `StringField` are the values that travel as a record of one string; `StringField.arrives` is their
  round trip.
* `distributed_streams_run_the_copy` is the main statement.
-/

namespace Pacing

open Json (bind_eq_ok bind_eq_error pure_eq_ok)

/-! ### Sending a value -/

section Sending

variable {γ : Type} [Transportable γ]

/-- The value can be written, and its text is read as the copy. -/
def Arrives (value copy : γ) : Prop :=
  ∃ text, Transportable.encode value = .ok text ∧ Transportable.decode text = .ok copy

/-- Why a value does not arrive: it cannot be written, or its text cannot be read. -/
inductive Lost (value : γ) (fault : Json.Fault) : Prop
  | unwritten : Transportable.encode value = .error fault → Lost value fault
  | unread {text : String} : Transportable.encode value = .ok text →
      Transportable.decode (γ := γ) text = .error fault → Lost value fault

variable {value copy : γ} {name : String}

theorem roundTrip_eq_ok : roundTrip value = .ok copy ↔ Arrives value copy := bind_eq_ok

theorem roundTrip_eq_error {fault : Json.Fault} :
    roundTrip value = .error fault ↔ Lost value fault := by
  rw [roundTrip, bind_eq_error]
  constructor
  · rintro (h | ⟨text, htext, h⟩)
    · exact .unwritten h
    · exact .unread htext h
  · rintro (h | ⟨htext, h⟩)
    · exact .inl h
    · exact .inr ⟨_, htext, h⟩

theorem checkTransportable_eq_ok : checkTransportable name value = .ok copy ↔ Arrives value copy := by
  rw [← roundTrip_eq_ok, checkTransportable]
  cases roundTrip value <;> simp

theorem checkTransportable_eq_error {e : Error} : checkTransportable name value = .error e ↔
    ∃ fault, Lost value fault ∧ .notTransportable name fault = e := by
  simp only [← roundTrip_eq_error, checkTransportable]
  cases roundTrip value <;> simp

/-- Nothing but its text reaches the place a value is sent to. -/
theorem roundTrip_eq_of_encode_eq {value' : γ}
    (h : Transportable.encode value' = Transportable.encode value) :
    roundTrip value' = roundTrip value := by
  rw [roundTrip, roundTrip, h]

end Sending

/-! ### Records of one field -/

namespace Json

variable {depth : Nat} {o : Outline}

theorem Outline.readString_eq {s : String} (h : o.read depth = .ok (.string s)) :
    o.readString = .ok s := by
  cases Outline.standsFor_of_read h with
  | text hs => exact hs

theorem Outline.readInt_eq {n : Int} (h : o.read depth = .ok (.int n))
    (hlong : n ≤ 9223372036854775807) : o.readInt = .ok n := by
  cases Outline.standsFor_of_read h with
  | number hn => simp [readInt, hn, hlong, bind, Except.bind, pure, Except.pure]

/-- The tree of a record of one field, whatever its name. -/
theorem outline_record (name : String) {v : Json} (h : Written depth v (chars v)) : ∃ key o,
    outline (print (.object [(name, v)])).toList = (.object [(key, o)] .closed, false) ∧
      key.read = .ok name ∧ o.read depth = .ok v := by
  have hmember : ReadAs depth (name, v) (name, v) := ⟨rfl, h⟩
  have htext := objectText_chars (.cons hmember .nil)
  obtain ⟨os, houtline, hread⟩ := Around.object_outline (.bare htext (print_toList _))
  match os with
  | [] => cases readEach_nil.symm.trans hread
  | (key, o) :: os =>
    obtain ⟨k, hk, v, hv, rest, hrest, heq⟩ := readEach_cons_eq_ok.mp hread
    cases heq
    match os with
    | [] => exact ⟨key, o, houtline, hk, hv⟩
    | _ :: _ =>
      obtain ⟨_, -, _, -, _, -, heq⟩ := readEach_cons_eq_ok.mp hrest
      cases heq

end Json

/-- A record of one field is read from its text, if the reader of the field takes the value. -/
theorem Samples.oneField_print {β : Type} (name : String) {depth : Nat} {v : Json} {a : β}
    {read : Json.Outline → Except Json.Fault β} (h : Json.Written depth v (Json.chars v))
    (hread : ∀ o : Json.Outline, o.read depth = .ok v → read o = .ok a) :
    oneField name read (Json.print (.object [(name, v)])) = .ok a := by
  obtain ⟨key, o, houtline, hkey, hvalue⟩ := Json.outline_record name h
  have hfields : Json.readFields [⟨name, read⟩] [] [(key, o)] = .ok [(name, a)] := by
    simp [Json.readFields, hkey, hread o hvalue, bind, Except.bind]
  rw [oneField, Json.readText_eq houtline, Json.readRecord, hfields]
  simp [Json.Ending.check, Json.collectFields, bind, Except.bind, pure, Except.pure]

/-- Values that are made of one string and travel as a record of it. -/
structure StringField (γ : Type) [Transportable γ] where
  /-- The name of the field. -/
  name : String
  value : γ → String
  make : String → γ
  make_value : ∀ g, make (value g) = g
  encode_eq : ∀ g, Transportable.encode g = .ok (Json.print (.object [(name, .string (value g))]))
  decode_eq : ∀ text, Transportable.decode text =
    make <$> Samples.oneField name Json.Outline.readString text

/-- **Round trip.** A value made of one string arrives as it was. -/
theorem StringField.arrives {γ : Type} [Transportable γ] (field : StringField γ) (g : γ) :
    Arrives g g := by
  have hstring : Json.Written 0 (.string (field.value g)) (Json.quote (field.value g)) :=
    Json.quote_written _
  have hread := Samples.oneField_print field.name hstring fun _ => Json.Outline.readString_eq
  refine ⟨_, field.encode_eq g, ?_⟩
  rw [field.decode_eq, hread]
  exact congrArg Except.ok (field.make_value g)

/-- Labels travel as a record of their lead text. -/
def Samples.Labelled.field : StringField Samples.Labelled where
  name := "prefix"
  value := Labelled.lead
  make := Labelled.mk
  make_value _ := rfl
  encode_eq _ := rfl
  decode_eq _ := rfl

/-- A pair of which one part travels arrives without the other. -/
theorem Samples.Lossy.arrives (g : Lossy)
    (hkeep : -9223372036854775808 ≤ g.keep ∧ g.keep ≤ 9223372036854775807) :
    Arrives g ⟨g.keep, 0⟩ := by
  have hnumber : Json.Written 0 (.int g.keep) (Json.chars (.int g.keep)) :=
    .number (.int hkeep.1 (by omega))
  have hread := oneField_print "keep" hnumber fun _ h => Json.Outline.readInt_eq h hkeep.2
  refine ⟨_, rfl, ?_⟩
  simp [Transportable.decode, hread]

/-- The generator of simple events arrives, with nothing to carry. -/
theorem SlotGenerator.arrives (g : SlotGenerator) : Arrives g g := ⟨_, rfl, rfl⟩

/-! ### Distributed streams -/

/-- No polls tell the streams of two suppliers apart: at whatever readings a stream of each is polled,
the polls hand over the same, report the same, log the same and leave the streams in the same state. -/
def StreamSupplier.Indistinguishable {ε α : Type} (s s' : StreamSupplier ε α) : Prop :=
  ∀ rs, Paced.polls s.create rs = Paced.polls s'.create rs

section Distributed

variable {γ ε α : Type} [Transportable γ] {run : γ → Generator ε α} {rate : Int} {g : γ}

theorem StreamSupplier.tryNew_eq_ok {generate : Generator ε α} {supplier : StreamSupplier ε α} :
    tryNew rate generate = .ok supplier ↔
      (1 ≤ rate ∧ rate ≤ maxItemsPerSecond) ∧ ⟨rate, nanosPerSecond / rate, generate⟩ = supplier := by
  simp only [tryNew, bind_eq_ok, pure_eq_ok, periodNanos_eq_ok, and_assoc, exists_and_left,
    exists_eq_left]

theorem StreamSupplier.tryNew_eq_error {generate : Generator ε α} {e : Error} :
    tryNew rate generate = .error e ↔
      ¬ (1 ≤ rate ∧ rate ≤ maxItemsPerSecond) ∧ .invalidRate rate = e := by
  rw [tryNew, bind_eq_error, periodNanos_eq_error]
  exact or_iff_left nofun

theorem itemStreamDistributed_eq_ok {supplier : StreamSupplier ε α} :
    itemStreamDistributed rate g run = .ok supplier ↔
      ∃ copy, Arrives g copy ∧ StreamSupplier.tryNew rate (run copy) = .ok supplier := by
  simp only [itemStreamDistributed, bind_eq_ok, checkTransportable_eq_ok]
  constructor
  · rintro ⟨-, -, copy, hcopy, h⟩
    exact ⟨copy, hcopy, h⟩
  · rintro ⟨copy, hcopy, h⟩
    obtain ⟨hrate, -⟩ := StreamSupplier.tryNew_eq_ok.mp h
    exact ⟨_, periodNanos_eq_ok.mpr ⟨hrate, rfl⟩, copy, hcopy, h⟩

theorem itemStreamDistributed_eq_error {e : Error} :
    itemStreamDistributed rate g run = .error e ↔
      ¬ (1 ≤ rate ∧ rate ≤ maxItemsPerSecond) ∧ .invalidRate rate = e ∨
      (1 ≤ rate ∧ rate ≤ maxItemsPerSecond) ∧
        ∃ fault, Lost g fault ∧ .notTransportable "generator_fn" fault = e := by
  simp only [itemStreamDistributed, bind_eq_error, periodNanos_eq_error, periodNanos_eq_ok,
    checkTransportable_eq_error, StreamSupplier.tryNew_eq_error]
  refine or_congr_right ⟨?_, ?_⟩
  · rintro ⟨_, ⟨hrate, -⟩, hlost | ⟨_, -, hnot, -⟩⟩
    · exact ⟨hrate, hlost⟩
    · exact absurd hrate hnot
  · rintro ⟨hrate, hlost⟩
    exact ⟨_, ⟨hrate, rfl⟩, .inl hlost⟩

/-- Streams that are distributed with a generator that arrives are the streams of the copy. -/
theorem itemStreamDistributed_of_arrives {copy : γ} (h : Arrives g copy) :
    itemStreamDistributed rate g run = StreamSupplier.tryNew rate (run copy) := by
  cases hplain : StreamSupplier.tryNew rate (run copy) with
  | ok supplier => exact itemStreamDistributed_eq_ok.mpr ⟨copy, h, hplain⟩
  | error e =>
    exact itemStreamDistributed_eq_error.mpr (.inl (StreamSupplier.tryNew_eq_error.mp hplain))

end Distributed

/-- **Distributed streams.** For every rate and all generators of a kind that can be sent:

* distributed streams are refused for a rate out of range, whatever the generator, and otherwise
  exactly if the generator cannot be written or its text cannot be read, with that fault;
* with a rate in range and a generator of which a copy arrives there are distributed streams, and they
  cannot be told apart from plain streams of the copy;
* of a generator only its text matters: with the same text the same comes of it, also if the
  generators differ in what is not written;
* of a generator that is a record of one string, the copy is the generator itself, so distributed
  and plain streams are the same;
* and so it is with the generator of simple events. -/
theorem distributed_streams_run_the_copy {γ ε α : Type} [Transportable γ]
    (run : γ → Generator ε α) (rate : Int) :
    (∀ (g : γ) (e : Error), itemStreamDistributed rate g run = .error e ↔
      ¬ (1 ≤ rate ∧ rate ≤ maxItemsPerSecond) ∧ .invalidRate rate = e ∨
      (1 ≤ rate ∧ rate ≤ maxItemsPerSecond) ∧
        ∃ fault, Lost g fault ∧ .notTransportable "generator_fn" fault = e) ∧
    (∀ g copy : γ, 1 ≤ rate ∧ rate ≤ maxItemsPerSecond → Arrives g copy →
      checkTransportable "generator_fn" g = .ok copy ∧ ∃ distributed plain,
        itemStreamDistributed rate g run = .ok distributed ∧
        StreamSupplier.tryNew rate (run copy) = .ok plain ∧
        distributed.Indistinguishable plain) ∧
    (∀ g g' : γ, Transportable.encode g' = Transportable.encode g →
      itemStreamDistributed rate g' run = itemStreamDistributed rate g run) ∧
    (∀ (_ : StringField γ) (g : γ), checkTransportable "generator_fn" g = .ok g ∧
      itemStreamDistributed rate g run = StreamSupplier.tryNew rate (run g)) ∧
    ∀ g : SlotGenerator, checkTransportable "generator_fn" g = .ok g ∧
      itemStreamDistributed rate g SlotGenerator.run =
        (itemStream rate : Except Error (StreamSupplier ε SimpleEvent)) := by
  refine ⟨fun g e => itemStreamDistributed_eq_error, fun g copy hrate hcopy => ?_,
    fun g g' h => ?_, fun field g => ?_, fun g => ?_⟩
  · have hplain : StreamSupplier.tryNew rate (run copy) = .ok _ :=
      StreamSupplier.tryNew_eq_ok.mpr ⟨hrate, rfl⟩
    exact ⟨checkTransportable_eq_ok.mpr hcopy, _, _,
      (itemStreamDistributed_of_arrives hcopy).trans hplain, hplain, fun _ => rfl⟩
  · unfold itemStreamDistributed checkTransportable
    rw [roundTrip_eq_of_encode_eq h]
  · exact ⟨checkTransportable_eq_ok.mpr (field.arrives g),
      itemStreamDistributed_of_arrives (field.arrives g)⟩
  · exact ⟨checkTransportable_eq_ok.mpr g.arrives, itemStreamDistributed_of_arrives g.arrives⟩

/-- Two generators that differ in what does not travel, and a label with a quote, a control character
and a character beyond the first plane in it. -/
theorem distributed_streams_run_the_copy_of_samples :
    let lossy : Samples.Lossy := ⟨5, 1⟩
    let other : Samples.Lossy := ⟨5, 9⟩
    let label : Samples.Labelled := ⟨"\"\x01𝄞"⟩
    (1 ≤ (10 : Int) ∧ 10 ≤ maxItemsPerSecond) ∧ Arrives lossy ⟨5, 0⟩ ∧
      Transportable.encode other = Transportable.encode lossy ∧
      (∃ distributed plain, itemStreamDistributed 10 lossy (Samples.Lossy.run (ε := Empty)) =
          .ok distributed ∧
        itemStreamDistributed 10 other Samples.Lossy.run = .ok distributed ∧
        StreamSupplier.tryNew 10 (Samples.Lossy.run ⟨5, 0⟩) = .ok plain ∧
        distributed.Indistinguishable plain) ∧
      itemStreamDistributed 10 label (Samples.Labelled.run (ε := Empty)) =
        StreamSupplier.tryNew 10 label.run := by
  intro lossy other label
  have hrate : 1 ≤ (10 : Int) ∧ 10 ≤ maxItemsPerSecond := by decide
  have harrives : Arrives lossy ⟨5, 0⟩ := Samples.Lossy.arrives lossy (by decide)
  obtain ⟨-, hcopies, htexts, -, -⟩ :=
    distributed_streams_run_the_copy (Samples.Lossy.run (ε := Empty)) 10
  obtain ⟨-, distributed, plain, hdistributed, hplain, halike⟩ := hcopies lossy _ hrate harrives
  obtain ⟨-, -, -, hlabels, -⟩ :=
    distributed_streams_run_the_copy (Samples.Labelled.run (ε := Empty)) 10
  exact ⟨hrate, harrives, rfl, ⟨distributed, plain, hdistributed,
    (htexts lossy other rfl).trans hdistributed, hplain, halike⟩,
    (hlabels Samples.Labelled.field label).2⟩

end Pacing
