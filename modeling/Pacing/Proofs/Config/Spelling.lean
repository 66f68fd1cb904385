import Pacing.Proofs.Config.Fields
import Pacing.Proofs.Json.Printing

/-!
# Spellings of a configuration

A configuration has many texts. As an object its members may come in any order, the kind last of
all, members that are no field of the kind may stand between them, and a field with its default
may be left out. As an array its fields come in their order, and those at the end may be left out.

* `Describes` and `Lists` say which objects and arrays spell a configuration.
* `ofObject` and `ofArray` read a configuration off the documents of an object's members or an
  array's elements; `fromJson_object` and `fromJson_array` say that a text is read so, whatever
  the order in which the reader finds out about the kind.
* `every_spelling_read` is the main statement, with the objects that are refused.
-/

namespace Pacing

open Json (Around ObjectText ArrayText readEach)

namespace SourceConfig

/-! ### What a document says -/

/-- The documents of all members with a key, in their order. -/
def valuesOf (key : String) : List (String × Json) → List Json
  | [] => []
  | (k, v) :: rest => if k = key then v :: valuesOf key rest else valuesOf key rest

/-- The members of an object spell a configuration, in whatever order and among whatever others:
its kind is given once, and each of its fields once or, with its default, not at all. -/
structure Describes (c : SourceConfig) (members : List (String × Json)) : Prop where
  kind : valuesOf "kind" members = [.string c.kind.name]
  field : ∀ f ∈ c.fields, valuesOf f.name members = [f.value] ∨
    valuesOf f.name members = [] ∧ f.value = f.default

/-- The elements of an array spell a configuration: its kind and its fields in their order, of
which those after the first may be left out at the end if they have their defaults. -/
def Lists (c : SourceConfig) (elements : List Json) : Prop :=
  ∃ n, (∀ f ∈ c.fields.drop (n + 1), f.value = f.default) ∧
    elements = .string c.kind.name :: (c.fields.take (n + 1)).map NamedField.value

/-- The members of an object spell no configuration: the kind or a field of it is repeated, or no
kind has the name that is given. -/
inductive Refused (members : List (String × Json)) : Prop
  | kindRepeated : 1 < (valuesOf "kind" members).length → Refused members
  | fieldRepeated {kind : SourceKind} {name : String} :
      .string kind.name ∈ valuesOf "kind" members → name ∈ fieldNames kind →
      1 < (valuesOf name members).length → Refused members
  | kindUnknown : (∀ kind : SourceKind, .string kind.name ∉ valuesOf "kind" members) →
      Refused members

/-! ### Kinds and members -/

variable {members : List (String × Json)}

/-- The kind a document names. -/
def kindOf? : Json → Option SourceKind
  | .string name => SourceKind.ofName? name
  | _ => none

theorem kindOf?_name (kind : SourceKind) : kindOf? (.string kind.name) = some kind :=
  SourceKind.ofName?_eq_some.mpr rfl

theorem kindOf?_eq_some {v : Json} {kind : SourceKind} (h : kindOf? v = some kind) :
    v = .string kind.name := by
  cases v with
  | string name => rw [SourceKind.ofName?_eq_some.mp h]
  | _ => cases h

/-- The kind in a tree is that of its document, and nothing else is wrong with a tree that is
read. -/
theorem readKind_eq {o : Json.Outline} {v : Json} {depth : Nat} (h : o.read depth = .ok v) :
    readKind o = match kindOf? v with
      | some kind => .ok kind
      | none => .error .mistyped := by
  cases Json.Outline.standsFor_of_read h with
  | text hs =>
    simp only [readKind, Json.Outline.readString, hs, kindOf?]
    rfl
  | number hn =>
    simp only [readKind, Json.Outline.readString, Json.Outline.refuse, hn, kindOf?]
    rfl
  | null | bool | array | object => rfl

/-- The kind that the documents of the members `kind` give, after `known`. -/
def tagOf : (known : Option SourceKind) → List Json → Except Json.Fault (Option SourceKind)
  | known, [] => .ok known
  | some _, _ :: _ => .error .mistyped
  | none, v :: vs =>
    match kindOf? v with
    | some kind => tagOf (some kind) vs
    | none => .error .mistyped

/-- The members that are not the kind. -/
def untagged (members : List (String × Json)) : List (String × Json) :=
  members.filter fun m => m.1 ≠ "kind"

/-- Whatever the order of the members, the reader finds the kind that is given and keeps the other
members. -/
theorem readTagged_eq {os : List (Json.Quoted × Json.Outline)} {known : Option SourceKind}
    (h : readEach innerDepth os = .ok members) :
    readTagged known os =
      (tagOf known (valuesOf "kind" members)).map fun kind => (kind, untagged members) := by
  induction os generalizing members known with
  | nil =>
    rw [Json.readEach_nil] at h
    cases h
    cases known <;> rfl
  | cons o os ih =>
    obtain ⟨k, o⟩ := o
    obtain ⟨key, hkey, v, hv, rest, hrest, rfl⟩ := Json.readEach_cons_eq_ok.mp h
    by_cases hkind : key = "kind"
    case pos =>
      -- The member is the kind: a second one is refused, the first one is looked at here.
      have hvalues : valuesOf "kind" ((key, v) :: rest) = v :: valuesOf "kind" rest := if_pos hkind
      have huntagged : untagged ((key, v) :: rest) = untagged rest := by simp [untagged, hkind]
      rw [hvalues, huntagged]
      cases known with
      | some kind => simp [readTagged, hkey, hkind, tagOf, bind, Except.bind, Except.map]
      | none =>
        simp only [readTagged, hkey, hkind, readKind_eq hv, tagOf, bind, Except.bind, if_true,
          Option.isSome_none, Bool.false_eq_true, if_false]
        cases kindOf? v with
        | none => rfl
        | some kind => exact ih hrest
    case neg =>
      have hvalues : valuesOf "kind" ((key, v) :: rest) = valuesOf "kind" rest := if_neg hkind
      have huntagged : untagged ((key, v) :: rest) = (key, v) :: untagged rest := by
        simp [untagged, hkind]
      rw [hvalues, huntagged]
      simp only [readTagged, hkey, bind, Except.bind, hkind, hv, ih hrest, if_false]
      cases tagOf known (valuesOf "kind" rest) <;> rfl

/-! ### Texts -/

/-- The configuration of an object with the given members. -/
def ofObject (members : List (String × Json)) : Except Json.Fault SourceConfig :=
  match tagOf none (valuesOf "kind" members) with
  | .ok (some kind) => ofMembers kind (untagged members)
  | .ok none => .error .mistyped
  | .error fault => .error fault

/-- The configuration of an array with the given elements. -/
def ofArray : List Json → Except Json.Fault SourceConfig
  | [] => .error .mistyped
  | tag :: elements =>
    match kindOf? tag with
    | some kind => ofElements kind elements
    | none => .error .mistyped

/-- A text that is an object is read as the configuration of its members. -/
theorem fromJson_object {text : String} (h : Around (ObjectText innerDepth members) text.toList) :
    fromJson text = (ofObject members).mapError .invalidConfig := by
  obtain ⟨os, houtline, hread⟩ := h.object_outline
  rw [fromJson, parse, Json.readText_eq houtline, read, readTagged_eq hread, ofObject]
  cases tagOf none (valuesOf "kind" members) with
  | error fault => rfl
  | ok kind => cases kind <;> rfl

/-- A text that is an array is read as the configuration of its elements. -/
theorem fromJson_array {text : String} {elements : List Json}
    (h : Around (ArrayText innerDepth elements) text.toList) :
    fromJson text = (ofArray elements).mapError .invalidConfig := by
  obtain ⟨os, houtline, hread⟩ := h.array_outline
  rw [fromJson, parse, Json.readText_eq houtline]
  cases os with
  | nil =>
    rw [Json.readAll_nil] at hread
    cases hread
    rfl
  | cons o os =>
    obtain ⟨v, hv, rest, hrest, rfl⟩ := Json.readAll_cons_eq_ok.mp hread
    rw [read, readKind_eq hv, hrest, ofArray]
    cases kindOf? v <;> rfl

/-! ### Looking up and repeating -/

theorem lookup_eq_head? (name : String) (members : List (String × Json)) :
    Json.lookup name members = (valuesOf name members).head? := by
  induction members with
  | nil => rfl
  | cons m members ih =>
    obtain ⟨k, v⟩ := m
    by_cases hk : k = name <;> simp [Json.lookup, valuesOf, hk, ih]

theorem valuesOf_eq_nil {key : String} {members : List (String × Json)}
    (h : key ∉ members.map Prod.fst) : valuesOf key members = [] := by
  induction members with
  | nil => rfl
  | cons m members ih =>
    rw [List.map_cons, List.mem_cons, not_or] at h
    rw [valuesOf, if_neg (Ne.symm h.1), ih h.2]

/-- A key that is not repeated has one document. -/
theorem valuesOf_of_nodup {members : List (String × Json)} (h : (members.map Prod.fst).Nodup)
    {key : String} {value : Json} (hmem : (key, value) ∈ members) :
    valuesOf key members = [value] := by
  induction members with
  | nil => cases hmem
  | cons m members ih =>
    rw [List.map_cons, List.nodup_cons] at h
    rcases List.mem_cons.mp hmem with rfl | hlater
    · rw [valuesOf, if_pos rfl, valuesOf_eq_nil h.1]
    · have hkey : m.1 ≠ key := fun heq => h.1 (heq ▸ List.mem_map_of_mem hlater)
      rw [valuesOf, if_neg hkey, ih h.2 hlater]

theorem valuesOf_untagged {name : String} (h : name ≠ "kind") (members : List (String × Json)) :
    valuesOf name (untagged members) = valuesOf name members := by
  induction members with
  | nil => rfl
  | cons m members ih =>
    obtain ⟨k, v⟩ := m
    by_cases hk : k = "kind"
    · have hname : k ≠ name := fun heq => h (heq.symm.trans hk)
      have huntagged : untagged ((k, v) :: members) = untagged members := by simp [untagged, hk]
      rw [huntagged, ih, valuesOf, if_neg hname]
    · have huntagged : untagged ((k, v) :: members) = (k, v) :: untagged members := by
        simp [untagged, hk]
      rw [huntagged, valuesOf, valuesOf, ih]

theorem any_key_iff (name : String) (members : List (String × Json)) :
    members.any (·.1 == name) = true ↔ 0 < (valuesOf name members).length := by
  induction members with
  | nil => simp [valuesOf]
  | cons m members ih =>
    obtain ⟨k, v⟩ := m
    by_cases hk : k = name <;> simp [valuesOf, hk, ih]

/-- A field is repeated exactly if it has more than one document. -/
theorem hasRepeated_iff (names : List String) (members : List (String × Json)) :
    hasRepeated names members = true ↔ ∃ name ∈ names, 1 < (valuesOf name members).length := by
  induction members with
  | nil => simp [hasRepeated, valuesOf]
  | cons m members ih =>
    obtain ⟨k, v⟩ := m
    simp only [hasRepeated, Bool.or_eq_true, Bool.and_eq_true, decide_eq_true_eq, any_key_iff, ih]
    constructor
    · rintro (⟨hk, hmore⟩ | ⟨name, hname, hmore⟩)
      · exact ⟨k, hk, by simpa [valuesOf] using hmore⟩
      · refine ⟨name, hname, ?_⟩
        rw [valuesOf]
        split
        · exact Nat.lt_succ_of_lt hmore
        · exact hmore
    · rintro ⟨name, hname, hmore⟩
      by_cases hk : k = name
      · subst hk
        exact .inl ⟨hname, by simpa [valuesOf] using hmore⟩
      · exact .inr ⟨name, hname, by simpa [valuesOf, hk] using hmore⟩

/-! ### Objects and arrays -/

/-- An object that spells a configuration is read as it. -/
theorem Describes.ofObject_eq {c : SourceConfig} (h : c.Describes members) (hc : c.RateFits) :
    ofObject members = .ok c := by
  have hname : ∀ f ∈ c.fields, f.name ∈ fieldNames c.kind := fun f hf =>
    fields_names c ▸ List.mem_map_of_mem hf
  have hone : hasRepeated (fieldNames c.kind) (untagged members) = false := by
    rw [Bool.eq_false_iff, Ne, hasRepeated_iff]
    rintro ⟨name, hmem, hmore⟩
    obtain ⟨f, hf, rfl⟩ := List.mem_map.mp (fields_names c ▸ hmem)
    rw [valuesOf_untagged (fieldNames_ne_kind hmem)] at hmore
    obtain hvalue | ⟨hvalue, -⟩ := h.field f hf <;> simp [hvalue] at hmore
  have hfields : ofFields c.kind (fun name => Json.lookup name (untagged members)) = .ok c := by
    refine ofFields_eq_ok.mpr ⟨rfl, hc, fun f hf => ?_⟩
    rw [lookup_eq_head?, valuesOf_untagged (fieldNames_ne_kind (hname f hf))]
    obtain hvalue | ⟨hvalue, hdefault⟩ := h.field f hf
    · exact .inl (by rw [hvalue, List.head?_cons])
    · exact .inr ⟨by rw [hvalue, List.head?_nil], hdefault⟩
  simp only [ofObject, h.kind, tagOf, kindOf?_name, ofMembers, hone, hfields, Bool.false_eq_true,
    if_false]

/-- An array that spells a configuration is read as it. -/
theorem Lists.ofArray_eq {c : SourceConfig} {elements : List Json} (h : c.Lists elements)
    (hc : c.RateFits) : ofArray elements = .ok c := by
  obtain ⟨n, hdropped, rfl⟩ := h
  simp only [ofArray, kindOf?_name]
  exact ofElements_eq_ok.mpr ⟨rfl, hc, n, hdropped, rfl⟩

/-- An object that spells no configuration is refused. -/
theorem Refused.ofObject_eq (h : Refused members) : ofObject members = .error .mistyped := by
  unfold ofObject
  -- Only one known kind comes through to the fields.
  cases hkinds : valuesOf "kind" members with
  | nil => rfl
  | cons v vs =>
    rw [tagOf]
    cases hkind : kindOf? v with
    | none => rfl
    | some kind =>
      obtain rfl := kindOf?_eq_some hkind
      cases vs with
      | cons w vs => rfl
      | nil =>
        have hrepeated : hasRepeated (fieldNames kind) (untagged members) = true := by
          cases h with
          | kindRepeated hmore => simp [hkinds] at hmore
          | kindUnknown hunknown => exact absurd (by simp [hkinds]) (hunknown kind)
          | @fieldRepeated kind' name hmem hname hmore =>
            rw [hkinds, List.mem_singleton, Json.string.injEq] at hmem
            obtain rfl := SourceKind.name_injective hmem
            refine (hasRepeated_iff _ _).mpr ⟨name, hname, ?_⟩
            rwa [valuesOf_untagged (fieldNames_ne_kind hname)]
        simp only [tagOf, ofMembers, hrepeated, if_true]

/-! ### Every spelling -/

/-- **Spellings.** A text is read as the configuration it spells, be it an object or an array. An
object that repeats its kind or a field, or names no kind, is refused as such. -/
theorem every_spelling_read (text : String) :
    (∀ (c : SourceConfig) (members : List (String × Json)), c.RateFits →
      Around (ObjectText innerDepth members) text.toList → c.Describes members →
      fromJson text = .ok c) ∧
    (∀ (c : SourceConfig) (elements : List Json), c.RateFits →
      Around (ArrayText innerDepth elements) text.toList → c.Lists elements →
      fromJson text = .ok c) ∧
    (∀ members : List (String × Json), Around (ObjectText innerDepth members) text.toList →
      Refused members → fromJson text = .error (.invalidConfig .mistyped)) := by
  refine ⟨fun c members hc htext h => ?_, fun c elements hc htext h => ?_, fun members htext h => ?_⟩
  · rw [fromJson_object htext, h.ofObject_eq hc]
    rfl
  · rw [fromJson_array htext, h.ofArray_eq hc]
    rfl
  · rw [fromJson_object htext, h.ofObject_eq]
    rfl

/-- The kind behind the fields and another member, an array without its last two fields, and a kind
that is given twice. -/
theorem every_spelling_read_of_late_kind :
    fromJson "\x7b \"weight\": 0.5, \"items_per_second\":10,\n\"kind\":\"long_stream\" \x7d" =
        .ok (.longStream (some 10) 0 none) ∧
      fromJson "[\"long_stream\", 10]" = .ok (.longStream (some 10) 0 none) ∧
      fromJson "\x7b\"kind\":\"items\",\"kind\":\"items\"\x7d" =
        .error (.invalidConfig .mistyped) := by
  have hrate : (SourceConfig.longStream (some 10) 0 none).RateFits := fun n hn => by
    cases hn
    decide
  have hspace : Json.isBlank ' ' = true := rfl
  have hnewline : Json.isBlank '\n' = true := rfl
  have hkind : Json.Written innerDepth (.string "kind") (Json.quote "kind") :=
    Json.quote_written "kind"
  have hten : Json.Written innerDepth (.int 10) (toString (10 : Int)).toList :=
    .number (.int (by decide) (by decide))
  have hhalf : Json.NumberText (.float (.finite false 4503599627370496 (-53))) ['0', '.', '5'] := by
    have hzero : Json.DigitsText [0] ['0'] := .last (by decide)
    have hfive : Json.DigitsText [5] ['5'] := .last (by decide)
    exact .float (.positive (.parts ⟨hzero, fun _ => rfl⟩ (.point hfive) .absent)) rfl
  have hlate := Json.MembersText.cons (.blankBefore hspace (Json.quote_written "weight"))
    (.blankBefore hspace (.number hhalf))
    (.cons (.blankBefore hspace (Json.quote_written "items_per_second")) hten
      (.last (.blankBefore hnewline hkind) (.blankAfter hspace (Json.quote_written "long_stream"))))
  have hshort := Json.ElementsText.cons (Json.quote_written "long_stream")
    (.last (.blankBefore hspace hten))
  have htwice := Json.MembersText.cons hkind (Json.quote_written "items")
    (.last hkind (Json.quote_written "items"))
  exact ⟨(every_spelling_read _).1 _ _ hrate (.bare (.members hlate) rfl)
      ⟨by decide, by decide⟩,
    (every_spelling_read _).2.1 _ _ hrate (.bare (.elements hshort) rfl)
      ⟨0, by decide, by decide⟩,
    (every_spelling_read _).2.2 _ (.bare (.members htwice) rfl)
      (.kindRepeated (by decide))⟩

end SourceConfig

end Pacing
