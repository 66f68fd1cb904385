import Pacing.Item
import Pacing.Word
import Pacing.Proofs.Json.RecordTexts

/-!
# Events on the wire

An event and an item with its time travel as records. Each has one compact text and many others: the
members in another order, other members among them, blanks everywhere, or an array of the fields. All
of them are read as the same value, and what has a flaw is refused. A timestamped event is a record
inside a record, and the two are read independently of each other.

* `WireFormat` is a format with its laws: its texts are read, flawed texts are refused, and whatever
  is read is within limits.
* `longs`, `events` and `timestamped` are the formats; `timestamped` takes that of the item.
* `WireFormat.survives` is what follows for whole texts, and `events_survive_wire` the statement for
  all three.
-/

namespace Pacing

open Json (Outline Fault Complete treeOf Around RecordText FlawedRecord FieldText FieldFlaw
  bind_eq_ok)

/-! ### Integers -/

namespace Json

/-- An integer in decimal digits, with blanks around it. -/
def IntText (n : Int) (text : List Char) : Prop := Around (fun body => body = (toString n).toList) text

/-- The decimal digits of an integer stand for no other one. -/
theorem exists_numeral_of_int (n : Int) : ∃ m, NumeralText m (toString n).toList ∧
    ∀ i, m.read = .ok (.int i) → i = n := by
  cases n with
  | ofNat k =>
    obtain ⟨ds, hwhole, hvalue⟩ := exists_wholeText k
    have htext : (toString (Int.ofNat k)).toList = Nat.toDigits 10 k := Nat.toList_repr
    refine ⟨⟨false, ds, [], none⟩, ?_, fun i hi => ?_⟩
    · rw [htext]
      simpa using NumeralText.positive (.parts hwhole .absent .absent)
    · obtain ⟨-, -, -, hi⟩ := Numeral.read_eq_int hi
      obtain ⟨-, rfl⟩ | ⟨hsign, -⟩ := wholeNumber_eq_int hi
      · exact congrArg Int.ofNat hvalue
      · cases hsign
  | negSucc k =>
    obtain ⟨ds, hwhole, hvalue⟩ := exists_wholeText (k + 1)
    refine ⟨⟨true, ds, [], none⟩, ?_, fun i hi => ?_⟩
    · rw [toString_negSucc_toList]
      simpa using NumeralText.negative (.parts hwhole .absent .absent)
    · obtain ⟨-, -, -, hi⟩ := Numeral.read_eq_int hi
      obtain ⟨hsign, -⟩ | ⟨-, rfl, -⟩ := wholeNumber_eq_int hi
      · cases hsign
      · rw [hvalue]
        rfl

/-- The tree of an integer is its numeral. -/
theorem IntText.tree {n : Int} {text : List Char} (h : IntText n text) {m : Numeral}
    (hm : NumeralText m (toString n).toList) : Complete text ∧ treeOf text = .number m := by
  refine h.complete (· = .number m) fun body hbody => ?_
  rw [hbody]
  exact complete_and_treeOf hm.lexes (.of_step (fun h => by cases h) fun _ _ _ => rfl)

theorem Outline.readInt_number_eq_ok {m : Numeral} {i : Int} :
    (Outline.number m).readInt = .ok i ↔ m.read = .ok (.int i) ∧ i ≤ Word.highest := by
  rw [readInt, bind_eq_ok]
  constructor
  · rintro ⟨n, hn, h⟩
    cases n with
    | float d => cases h
    | int j =>
      dsimp only at h
      split at h
      · cases h
        exact ⟨hn, ‹_›⟩
      · cases h
  · rintro ⟨hn, hlong⟩
    exact ⟨_, hn, if_pos hlong⟩

/-- Whatever is read as an integer is a signed word. -/
theorem Outline.inRange_of_readInt {o : Outline} {i : Int} (h : o.readInt = .ok i) :
    Word.InRange i := by
  cases o with
  | number m =>
    obtain ⟨hread, hlong⟩ := readInt_number_eq_ok.mp h
    obtain ⟨-, -, -, hvalue⟩ := Numeral.read_eq_int hread
    refine ⟨?_, hlong⟩
    unfold Word.lowest
    obtain ⟨-, rfl⟩ | ⟨-, rfl, -, hlarge⟩ := wholeNumber_eq_int hvalue
    · omega
    · omega
  | null | bool | text | array | object | brokenNumber | missing =>
    rw [readInt] at h
    · exact absurd h Outline.refuse_ne_ok
    all_goals exact nofun

theorem IntText.reads {n : Int} {text : List Char} (h : IntText n text) (hn : Word.InRange n) :
    Complete text ∧ (treeOf text).readInt = .ok n := by
  obtain ⟨hlow, hhigh⟩ := hn
  unfold Word.lowest at hlow
  unfold Word.highest at hhigh
  obtain ⟨m, hm, hread⟩ := (NumberText.int hlow (by omega)).exists_numeral
  obtain ⟨hcomplete, htree⟩ := h.tree hm
  refine ⟨hcomplete, ?_⟩
  rw [htree, Outline.readInt_number_eq_ok]
  exact ⟨hread, hhigh⟩

theorem IntText.refuses {n : Int} {text : List Char} (h : IntText n text) (hn : ¬ Word.InRange n) :
    Complete text ∧ ∀ i, (treeOf text).readInt ≠ .ok i := by
  obtain ⟨m, hm, hunique⟩ := exists_numeral_of_int n
  obtain ⟨hcomplete, htree⟩ := h.tree hm
  refine ⟨hcomplete, fun i hi => hn ?_⟩
  have hrange := Outline.inRange_of_readInt hi
  rw [htree, Outline.readInt_number_eq_ok] at hi
  rwa [← hunique i hi.1]

end Json

/-! ### Formats -/

/-- How values travel: the document a value is written as and the reader of trees, with the values
that travel, the texts of a value and the texts of none. -/
structure WireFormat (α : Type) where
  toJson : α → Json
  read : Outline → Except Fault α
  InRange : α → Prop
  Text : α → List Char → Prop
  Flawed : List Char → Prop
  compact : ∀ {v}, InRange v → Text v (Json.chars (toJson v))
  reads : ∀ {v text}, InRange v → Text v text → Complete text ∧ read (treeOf text) = .ok v
  refuses : ∀ {text}, Flawed text → Complete text ∧ ∀ v, read (treeOf text) ≠ .ok v
  inRange : ∀ {o v}, read o = .ok v → InRange v

/-- What becomes of whole texts: those of a value are read as it, the compact one among them; those
with a flaw are refused; and whatever is accepted is written again as the one text of its value. -/
structure SurvivesWire {α : Type} (parse : String → Except Fault α) (toJson : α → Json)
    (InRange : α → Prop) (Text : α → List Char → Prop) (Flawed : List Char → Prop) : Prop where
  compact : ∀ v, InRange v → parse (toJson v).print = .ok v
  texts : ∀ v text, InRange v → Text v text.toList → parse text = .ok v
  refused : ∀ text, Flawed text.toList → ∃ fault, parse text = .error fault
  accepted : ∀ text v, parse text = .ok v →
    InRange v ∧ Text v (toJson v).print.toList ∧ parse (toJson v).print = .ok v
  canonical : ∀ text text' v v', parse text = .ok v → parse text' = .ok v' →
    ((toJson v).print = (toJson v').print ↔ v = v')

namespace WireFormat

/-- The laws of a format, for whole texts. -/
theorem survives {α : Type} (w : WireFormat α) :
    SurvivesWire (Json.readText w.read) w.toJson w.InRange w.Text w.Flawed := by
  have htexts : ∀ v text, w.InRange v → w.Text v text.toList →
      Json.readText w.read text = .ok v := by
    intro v text hv htext
    obtain ⟨hcomplete, hread⟩ := w.reads hv htext
    rw [hcomplete.readText_eq, hread]
  have hcompact : ∀ v, w.InRange v → w.Text v (w.toJson v).print.toList := by
    intro v hv
    rw [Json.print_toList]
    exact w.compact hv
  have haccepted : ∀ text v, Json.readText w.read text = .ok v → w.InRange v := by
    intro text v h
    obtain ⟨o, -, hread⟩ := Json.readText_eq_ok.mp h
    exact w.inRange hread
  refine ⟨fun v hv => htexts v _ hv (hcompact v hv), htexts, fun text htext => ?_,
    fun text v h => ?_, fun text text' v v' h h' => ⟨fun hsame => ?_, fun hsame => by rw [hsame]⟩⟩
  · obtain ⟨hcomplete, hrefused⟩ := w.refuses htext
    rw [hcomplete.readText_eq]
    cases hread : w.read (treeOf text.toList) with
    | ok v => exact absurd hread (hrefused v)
    | error fault => exact ⟨fault, rfl⟩
  · have hv := haccepted text v h
    exact ⟨hv, hcompact v hv, htexts v _ hv (hcompact v hv)⟩
  · have hv := haccepted text v h
    have hv' := haccepted text' v' h'
    have hread := htexts v _ hv (hcompact v hv)
    rw [hsame, htexts v' _ hv' (hcompact v' hv')] at hread
    cases hread
    rfl

/-- Not a signed word. -/
def NoWord (text : List Char) : Prop := ∃ n, ¬ Word.InRange n ∧ Json.IntText n text

/-- Integers travel as words. -/
def longs : WireFormat Int where
  toJson := Json.int
  read := Outline.readInt
  InRange := Word.InRange
  Text := Json.IntText
  Flawed := NoWord
  compact {n} _ := .bare rfl (by rw [Json.int, Json.chars, Json.Number.print])
  reads hn htext := htext.reads hn
  refuses := fun ⟨_, hn, htext⟩ => htext.refuses hn
  inRange := Outline.inRange_of_readInt

end WireFormat

/-! ### Records of two fields -/

/-- A field of a record: its name and its format, among fields of other types. -/
structure WireField (β φ : Type) where
  name : String
  format : WireFormat β
  wrap : β → φ
  wrap_injective : ∀ {b b'}, wrap b = wrap b' → b = b'

namespace WireField

variable {β φ : Type} (f : WireField β φ)

/-- How the field is read. -/
def field : Json.Field φ := ⟨f.name, fun o => f.wrap <$> f.format.read o⟩

theorem field_read_eq_ok {o : Outline} {x : φ} :
    f.field.read o = .ok x ↔ ∃ b, f.format.read o = .ok b ∧ f.wrap b = x := by
  show f.wrap <$> f.format.read o = .ok x ↔ _
  cases f.format.read o <;> simp [Functor.map, Except.map]

/-- The field with a value and its texts. -/
def text {b : β} (hb : f.format.InRange b) : FieldText φ where
  field := f.field
  value := f.wrap b
  Text := f.format.Text b
  reads htext := by
    obtain ⟨hcomplete, hread⟩ := f.format.reads hb htext
    exact ⟨hcomplete, f.field_read_eq_ok.mpr ⟨b, hread, rfl⟩⟩

/-- The field with the texts of no value. -/
def flaw : FieldFlaw φ where
  field := f.field
  Flawed := f.format.Flawed
  refuses hflawed := by
    obtain ⟨hcomplete, hrefused⟩ := f.format.refuses hflawed
    refine ⟨hcomplete, fun x hx => ?_⟩
    obtain ⟨b, hread, -⟩ := f.field_read_eq_ok.mp hx
    exact hrefused b hread

/-- A value of the field that was read is within limits. -/
theorem inRange_of_read {b : β} (h : ∃ o, f.field.read o = .ok (f.wrap b)) :
    f.format.InRange b := by
  obtain ⟨o, ho⟩ := h
  obtain ⟨b', hread, hwrap⟩ := f.field_read_eq_ok.mp ho
  rw [← f.wrap_injective hwrap]
  exact f.format.inRange hread

theorem nodup_names {β' : Type} {f : WireField β φ} {g : WireField β' φ} (h : f.name ≠ g.name) :
    [f.name, g.name].Nodup := by
  simpa using h

end WireField

section Record

variable {α β₁ β₂ φ : Type} (first : WireField β₁ φ) (second : WireField β₂ φ)
  (get₁ : α → β₁) (get₂ : α → β₂)

/-- **Records.** A value that is read as a record of two fields travels as one, whatever the formats of
the fields. -/
def WireFormat.record (hname : first.name ≠ second.name) (read : Outline → Except Fault α)
    (hread : ∀ {o a}, read o = .ok a ↔
      Json.readRecord [first.field, second.field] o =
        .ok [first.wrap (get₁ a), second.wrap (get₂ a)]) : WireFormat α where
  toJson a := .object [(first.name, first.format.toJson (get₁ a)),
    (second.name, second.format.toJson (get₂ a))]
  read := read
  InRange a := first.format.InRange (get₁ a) ∧ second.format.InRange (get₂ a)
  Text a := Around (RecordText [(first.name, first.format.Text (get₁ a)),
    (second.name, second.format.Text (get₂ a))])
  Flawed := Around (FlawedRecord [(first.name, first.format.Flawed),
    (second.name, second.format.Flawed)])
  compact {a} ha := by
    refine .bare (.object (Json.objectOf_chars _) ?_ ?_) rfl
    · simp only [List.forall_mem_cons, List.map_cons, List.map_nil]
      refine ⟨⟨_, ?_, first.format.compact ha.1⟩, ⟨_, ?_, second.format.compact ha.2⟩,
        List.forall_mem_nil _⟩
      · simp [Json.valuesOf, hname.symm]
      · simp [Json.valuesOf, hname]
    · simp
  reads {a text} ha htext := by
    obtain ⟨hcomplete, hrecord⟩ :=
      RecordText.reads [first.text ha.1, second.text ha.2] (WireField.nodup_names hname) htext
    exact ⟨hcomplete, hread.mpr hrecord⟩
  refuses hflawed := by
    obtain ⟨hcomplete, hrefused⟩ :=
      FlawedRecord.refuses [first.flaw, second.flaw] (WireField.nodup_names hname) hflawed
    exact ⟨hcomplete, fun a ha => hrefused _ (hread.mp ha)⟩
  inRange h := by
    have hnodup : ([first.field, second.field].map Json.Field.name).Nodup :=
      WireField.nodup_names hname
    have hsound := Json.readRecord_sound hnodup (hread.mp h)
    obtain ⟨hfirst, hsecond⟩ := List.forall₂_cons.mp hsound
    exact ⟨first.inRange_of_read hfirst, second.inRange_of_read (List.forall₂_cons.mp hsecond).1⟩

end Record

/-! ### Events -/

namespace SimpleEvent

/-- Both numbers of an event are signed words. -/
def InRange (e : SimpleEvent) : Prop := Word.InRange e.timestamp ∧ Word.InRange e.sequence

/-- The texts of an event: a record of its two numbers. -/
def Text (e : SimpleEvent) : List Char → Prop :=
  Around (RecordText [("timestamp", Json.IntText e.timestamp), ("sequence", Json.IntText e.sequence)])

/-- The texts of no event. -/
def Flawed : List Char → Prop :=
  Around (FlawedRecord [("timestamp", WireFormat.NoWord), ("sequence", WireFormat.NoWord)])

theorem read_eq_ok {o : Outline} {e : SimpleEvent} : read o = .ok e ↔
    Json.readRecord [⟨"timestamp", Outline.readInt⟩, ⟨"sequence", Outline.readInt⟩] o =
      .ok [e.timestamp, e.sequence] := by
  rw [read, bind_eq_ok]
  constructor
  · rintro ⟨vs, hvs, h⟩
    split at h
    · cases h
      exact hvs
    · cases h
  · exact fun h => ⟨_, h, rfl⟩

end SimpleEvent

/-- An integer as a field among integers. -/
def WireField.long (name : String) : WireField Int Int := ⟨name, .longs, id, id⟩

theorem WireField.long_field (name : String) : (long name).field = ⟨name, Outline.readInt⟩ :=
  congrArg (Json.Field.mk name) (funext fun o => id_map o.readInt)

/-- Events travel as records of their two numbers. -/
def WireFormat.events : WireFormat SimpleEvent :=
  .record (.long "timestamp") (.long "sequence") SimpleEvent.timestamp SimpleEvent.sequence
    (by decide) SimpleEvent.read
    (by rw [WireField.long_field, WireField.long_field]; exact SimpleEvent.read_eq_ok)

/-! ### Timestamped items -/

namespace Timestamped

variable {α : Type}

/-- The item is within its limits, and the time is a signed word. -/
def InRange (ItemInRange : α → Prop) (t : Timestamped α) : Prop :=
  ItemInRange t.item ∧ Word.InRange t.timestamp

/-- The texts of a timestamped item, given those of items: a record of the item and the time. -/
def Text (ItemText : α → List Char → Prop) (t : Timestamped α) : List Char → Prop :=
  Around (RecordText [("item", ItemText t.item), ("timestamp", Json.IntText t.timestamp)])

/-- The texts of no timestamped item, given those of no item. -/
def Flawed (ItemFlawed : List Char → Prop) : List Char → Prop :=
  Around (FlawedRecord [("item", ItemFlawed), ("timestamp", WireFormat.NoWord)])

theorem read_eq_ok {readItem : Outline → Except Fault α} {o : Outline} {t : Timestamped α} :
    read readItem o = .ok t ↔
      Json.readRecord (fields readItem) o = .ok [.item t.item, .time t.timestamp] := by
  rw [read, bind_eq_ok]
  constructor
  · rintro ⟨vs, hvs, h⟩
    split at h
    · cases h
      exact hvs
    · cases h
  · exact fun h => ⟨_, h, rfl⟩

end Timestamped

/-- Items with their times travel as records of the two, whatever the format of the items. -/
def WireFormat.timestamped {α : Type} (w : WireFormat α) : WireFormat (Timestamped α) :=
  .record ⟨"item", w, Timestamped.Part.item, fun h => by cases h; rfl⟩
    ⟨"timestamp", .longs, Timestamped.Part.time, fun h => by cases h; rfl⟩
    Timestamped.item Timestamped.timestamp (show "item" ≠ "timestamp" by decide)
    (Timestamped.read w.read)
    Timestamped.read_eq_ok

/-- **Wire formats.** Events, timestamped integers and timestamped events survive the wire: every text
of a value is read as it, the compact text among them, every flawed text is refused, and whatever is
accepted has one text that it is written in. -/
theorem events_survive_wire :
    SurvivesWire SimpleEvent.parse SimpleEvent.toJson SimpleEvent.InRange SimpleEvent.Text
        SimpleEvent.Flawed ∧
      SurvivesWire (Timestamped.parse Outline.readInt) (Timestamped.toJson Json.int)
        (Timestamped.InRange Word.InRange) (Timestamped.Text Json.IntText)
        (Timestamped.Flawed WireFormat.NoWord) ∧
      SurvivesWire (Timestamped.parse SimpleEvent.read) (Timestamped.toJson SimpleEvent.toJson)
        (Timestamped.InRange SimpleEvent.InRange) (Timestamped.Text SimpleEvent.Text)
        (Timestamped.Flawed SimpleEvent.Flawed) :=
  ⟨WireFormat.events.survives, WireFormat.longs.timestamped.survives,
    WireFormat.events.timestamped.survives⟩

open Json in
/-- A timestamped event with a member nobody wants, its time before its item, a blank, and the event
itself as an array. -/
example : Timestamped.Text SimpleEvent.Text ⟨⟨-3, 4⟩, 5⟩
    "\x7b\"note\":null,\"timestamp\": 5,\"item\":[-3,4]\x7d".toList := by
  have hblank : Blank [' '] := List.forall_mem_singleton.mpr rfl
  have htime : IntText 5 " 5".toList := ⟨[' '], ['5'], [], hblank, rfl, Blank.nil, rfl⟩
  have hlast : ElementsOf ["4".toList] "4]".toList := .last
  have hitem : SimpleEvent.Text ⟨-3, 4⟩ "[-3,4]".toList :=
    .bare (.array (.elements (.cons hlast)) (.cons (.bare rfl rfl) (.cons (.bare rfl rfl) .nil))) rfl
  have hmembers : ObjectOf
      [("note", "null".toList), ("timestamp", " 5".toList), ("item", "[-3,4]".toList)]
      ('\x7b' :: (quote "note" ++ ':' :: ("null".toList ++ ',' :: (quote "timestamp" ++ ':' ::
        (" 5".toList ++ ',' :: (quote "item" ++ ':' :: ("[-3,4]".toList ++ ['\x7d']))))))) :=
    .members (.cons (quote_written "note") (.cons (quote_written "timestamp")
      (.last (quote_written "item"))))
  refine .bare (.object hmembers ?_ ?_) (by decide)
  · simp only [List.forall_mem_cons]
    exact ⟨⟨_, by decide, hitem⟩, ⟨_, by decide, htime⟩, List.forall_mem_nil _⟩
  · simp only [List.forall_mem_cons]
    exact ⟨fun _ => ⟨0, .null, .null⟩, fun h => absurd (by decide) h,
      fun h => absurd (by decide) h, List.forall_mem_nil _⟩

end Pacing
