import Pacing.Config
import Pacing.Proofs.Json.Reading

/-!
# Fields of a configuration

A configuration is its kind and a list of named fields, each with a document. The two readers of
fields, by name and in order, accept exactly these documents: `ofFields_eq_ok` and
`ofElements_eq_ok` say which fields may be left out, and that nothing else is read.
-/

namespace Pacing

open Json (bind_eq_ok pure_eq_ok)

theorem SourceKind.ofName?_eq_some {name : String} {kind : SourceKind} :
    ofName? name = some kind ↔ name = kind.name := by
  constructor
  · intro h
    unfold ofName? at h
    split at h
    · cases h
      assumption
    · split at h
      · cases h
        assumption
      · split at h <;> cases h
        assumption
  · rintro rfl
    cases kind <;> rfl

theorem SourceKind.name_injective {kind kind' : SourceKind} (h : kind.name = kind'.name) :
    kind = kind' :=
  Option.some.inj ((ofName?_eq_some.mpr rfl).symm.trans (ofName?_eq_some.mpr h))

namespace SourceConfig

/-! ### The fields -/

/-- The kind of a configuration. -/
def kind : SourceConfig → SourceKind
  | .items _ => .items
  | .itemStream _ => .itemStream
  | .longStream _ _ _ => .longStream

/-- A field of a configuration: its name, its document, and the document it stands for when it is
left out. -/
structure NamedField where
  name : String
  value : Json
  default : Json

/-- The fields of a configuration in their order. -/
def fields : SourceConfig → List NamedField
  | .items values => [⟨"items", values.elim .null .array, .null⟩]
  | .itemStream rate => [⟨"items_per_second", optionalInt rate, .null⟩]
  | .longStream rate delay preferred =>
    [⟨"items_per_second", optionalInt rate, .null⟩, ⟨"initial_delay_ms", .count delay, .count 0⟩,
      ⟨"preferred_local_parallelism", optionalInt (preferred.map fun p => (p.val : Int)), .null⟩]

/-- The rate is no larger than a signed 64-bit value. -/
def RateFits : SourceConfig → Prop
  | .items _ => True
  | .itemStream rate | .longStream rate _ _ => ∀ n, rate = some n → n ≤ Word.highest

theorem fieldNames_ne_kind {kind : SourceKind} {name : String} (h : name ∈ fieldNames kind) :
    name ≠ "kind" := by
  rintro rfl
  revert h
  cases kind <;> decide

theorem fields_names (c : SourceConfig) : c.fields.map NamedField.name = fieldNames c.kind := by
  cases c <;> rfl

/-! ### Documents of fields -/

theorem readItems_eq_ok {doc : Json} {values : Option (List Json)} :
    readItems doc = .ok values ↔ doc = values.elim .null .array := by
  constructor
  · intro h
    unfold readItems at h
    split at h <;> cases h <;> rfl
  · rintro rfl
    cases values <;> rfl

theorem readRate_eq_ok {doc : Json} {rate : Option Int} :
    readRate doc = .ok rate ↔ doc = optionalInt rate ∧ ∀ n, rate = some n → n ≤ Word.highest := by
  constructor
  · intro h
    unfold readRate at h
    split at h
    · cases h
      exact ⟨rfl, nofun⟩
    · split at h
      case isTrue hn =>
        cases h
        exact ⟨rfl, fun n heq => Option.some.inj heq ▸ hn⟩
      case isFalse => cases h
    · cases h
  · rintro ⟨rfl, hrate⟩
    cases rate with
    | none => rfl
    | some n => exact if_pos (hrate n rfl)

theorem readDelay_eq_ok {doc : Json} {delay : Nat} :
    readDelay doc = .ok delay ↔ doc = .count delay := by
  constructor
  · intro h
    unfold readDelay at h
    split at h
    · split at h
      case isTrue hn =>
        cases h
        rw [Json.count, Int.toNat_of_nonneg hn]
      case isFalse => cases h
    · cases h
  · rintro rfl
    simp [readDelay, Json.count]

theorem readParallelism_eq_ok {doc : Json} {preferred : Option Positive} :
    readParallelism doc = .ok preferred ↔
      doc = optionalInt (preferred.map fun p => (p.val : Int)) := by
  constructor
  · intro h
    unfold readParallelism at h
    split at h
    · cases h
      rfl
    · rename_i n
      unfold Positive.ofNat? at h
      by_cases hn : 0 < n.toNat
      case pos =>
        rw [dif_pos hn] at h
        cases h
        have hcast : (n.toNat : Int) = n := Int.toNat_of_nonneg (by omega)
        exact congrArg Json.int hcast.symm
      case neg =>
        rw [dif_neg hn] at h
        cases h
    · cases h
  · rintro rfl
    cases preferred with
    | none => rfl
    | some p =>
      obtain ⟨n, hn⟩ := p
      have hpositive : Positive.ofNat? n = some ⟨n, hn⟩ := dif_pos hn
      simp [optionalInt, readParallelism, Json.int, hpositive]

section OptionalFields

variable {found : Option Json}

/-- A field that may be left out is read from its document, or has its default without one. -/
theorem orDefault_eq_ok {α : Type} {default value : α} {read : Json → Except Json.Fault α}
    {written writtenDefault : Json} {fits : Prop}
    (hread : ∀ {doc}, read doc = .ok value ↔ doc = written ∧ fits)
    (hdefault : read writtenDefault = .ok default) :
    orDefault default read found = .ok value ↔
      fits ∧ (found = some written ∨ found = none ∧ written = writtenDefault) := by
  cases found with
  | none =>
    simp only [orDefault, Except.ok.injEq, reduceCtorEq, false_or, true_and]
    constructor
    · rintro rfl
      obtain ⟨hsame, hfits⟩ := hread.mp hdefault
      exact ⟨hfits, hsame.symm⟩
    · rintro ⟨hfits, rfl⟩
      exact Except.ok.inj (hdefault.symm.trans (hread.mpr ⟨rfl, hfits⟩))
  | some doc => simp [orDefault, hread, and_comm]

theorem readItems_found {values : Option (List Json)} :
    orDefault none readItems found = .ok values ↔
      found = some (values.elim .null .array) ∨
        found = none ∧ values.elim Json.null .array = .null :=
  (orDefault_eq_ok (readItems_eq_ok.trans (and_iff_left trivial).symm) rfl).trans
    (and_iff_right trivial)

theorem readRate_found {rate : Option Int} :
    orDefault none readRate found = .ok rate ↔ (∀ n, rate = some n → n ≤ Word.highest) ∧
      (found = some (optionalInt rate) ∨ found = none ∧ optionalInt rate = .null) :=
  orDefault_eq_ok readRate_eq_ok rfl

theorem readDelay_found {delay : Nat} :
    orDefault 0 readDelay found = .ok delay ↔
      found = some (.count delay) ∨ found = none ∧ Json.count delay = .count 0 :=
  (orDefault_eq_ok (readDelay_eq_ok.trans (and_iff_left trivial).symm) rfl).trans
    (and_iff_right trivial)

theorem readParallelism_found {preferred : Option Positive} :
    orDefault none readParallelism found = .ok preferred ↔
      found = some (optionalInt (preferred.map fun p => (p.val : Int))) ∨
        found = none ∧ optionalInt (preferred.map fun p => (p.val : Int)) = .null :=
  (orDefault_eq_ok (readParallelism_eq_ok.trans (and_iff_left trivial).symm) rfl).trans
    (and_iff_right trivial)

end OptionalFields

/-- A configuration is built from the documents of its fields, and from no others. -/
theorem ofFields_eq_ok {kind : SourceKind} {field : String → Option Json} {c : SourceConfig} :
    ofFields kind field = .ok c ↔ c.kind = kind ∧ c.RateFits ∧
      ∀ f ∈ c.fields, field f.name = some f.value ∨ field f.name = none ∧ f.value = f.default := by
  constructor
  · intro h
    cases kind <;> simp only [ofFields, bind_eq_ok, pure_eq_ok] at h
    case items =>
      obtain ⟨values, hvalues, rfl⟩ := h
      exact ⟨rfl, trivial, List.forall_mem_singleton.mpr (readItems_found.mp hvalues)⟩
    case itemStream =>
      obtain ⟨rate, hrate, rfl⟩ := h
      obtain ⟨hfits, hfound⟩ := readRate_found.mp hrate
      exact ⟨rfl, hfits, List.forall_mem_singleton.mpr hfound⟩
    case longStream =>
      obtain ⟨rate, hrate, delay, hdelay, preferred, hpreferred, rfl⟩ := h
      obtain ⟨hfits, hfound⟩ := readRate_found.mp hrate
      exact ⟨rfl, hfits, List.forall_mem_cons.mpr ⟨hfound, List.forall_mem_cons.mpr
        ⟨readDelay_found.mp hdelay, List.forall_mem_singleton.mpr
          (readParallelism_found.mp hpreferred)⟩⟩⟩
  · rintro ⟨rfl, hfits, h⟩
    cases c <;> simp only [kind, ofFields, bind_eq_ok, pure_eq_ok]
    case items values =>
      have hvalues := List.forall_mem_singleton.mp h
      exact ⟨values, readItems_found.mpr hvalues, rfl⟩
    case itemStream rate =>
      have hrate := List.forall_mem_singleton.mp h
      exact ⟨rate, readRate_found.mpr ⟨hfits, hrate⟩, rfl⟩
    case longStream rate delay preferred =>
      obtain ⟨hrate, h⟩ := List.forall_mem_cons.mp h
      obtain ⟨hdelay, h⟩ := List.forall_mem_cons.mp h
      have hpreferred := List.forall_mem_singleton.mp h
      exact ⟨rate, readRate_found.mpr ⟨hfits, hrate⟩, delay, readDelay_found.mpr hdelay,
        preferred, readParallelism_found.mpr hpreferred, rfl⟩

theorem parallelism_eq_none {preferred : Option Positive}
    (h : optionalInt (preferred.map fun p => (p.val : Int)) = .null) : preferred = none := by
  cases preferred with
  | none => rfl
  | some p => cases h

theorem delay_eq_zero {delay : Nat} (h : Json.count delay = .count 0) : delay = 0 := by
  simpa [Json.count] using h

/-- A configuration is built again from its fields, also if those at the end that have their
defaults are left out. -/
theorem ofElements_fields {c : SourceConfig} (hfits : c.RateFits) {n : Nat}
    (hdropped : ∀ f ∈ c.fields.drop (n + 1), f.value = f.default) :
    ofElements c.kind ((c.fields.take (n + 1)).map NamedField.value) = .ok c := by
  cases c with
  | items values =>
    simp only [kind, fields, List.take_succ_cons, List.take_nil, List.map_cons, List.map_nil,
      ofElements, bind_eq_ok, pure_eq_ok]
    exact ⟨values, readItems_eq_ok.mpr rfl, rfl⟩
  | itemStream rate =>
    simp only [kind, fields, List.take_succ_cons, List.take_nil, List.map_cons, List.map_nil,
      ofElements, bind_eq_ok, pure_eq_ok]
    exact ⟨rate, readRate_eq_ok.mpr ⟨rfl, hfits⟩, rfl⟩
  | longStream rate delay preferred =>
    have hrate : readRate (optionalInt rate) = .ok rate := readRate_eq_ok.mpr ⟨rfl, hfits⟩
    have hdelay : readDelay (.count delay) = .ok delay := readDelay_eq_ok.mpr rfl
    have hpreferred : readParallelism (optionalInt (preferred.map fun p => (p.val : Int))) =
        .ok preferred := readParallelism_eq_ok.mpr rfl
    simp only [kind, fields, List.take_succ_cons, List.drop_succ_cons] at hdropped ⊢
    match n, hdropped with
    | 0, hdropped =>
      obtain ⟨hzero, hlater⟩ := List.forall_mem_cons.mp hdropped
      obtain ⟨hnone, -⟩ := List.forall_mem_cons.mp hlater
      obtain rfl := delay_eq_zero hzero
      obtain rfl := parallelism_eq_none hnone
      simp only [List.take_zero, List.map_cons, List.map_nil, ofElements, hrate]
      rfl
    | 1, hdropped =>
      obtain ⟨hnone, -⟩ := List.forall_mem_cons.mp hdropped
      obtain rfl := parallelism_eq_none hnone
      simp only [List.take_succ_cons, List.take_zero, List.map_cons, List.map_nil, ofElements,
        hrate, hdelay]
      rfl
    | n + 2, _ =>
      simp only [List.take_succ_cons, List.take_nil, List.map_cons, List.map_nil, ofElements,
        hrate, hdelay, hpreferred]
      rfl

/-- A configuration is built from its fields in their order, of which some at the end may be left
out, and from no others. -/
theorem ofElements_eq_ok {kind : SourceKind} {elements : List Json} {c : SourceConfig} :
    ofElements kind elements = .ok c ↔ c.kind = kind ∧ c.RateFits ∧
      ∃ n, (∀ f ∈ c.fields.drop (n + 1), f.value = f.default) ∧
        elements = (c.fields.take (n + 1)).map NamedField.value := by
  constructor
  · intro h
    unfold ofElements at h
    split at h
    case h_1 values =>
      simp only [bind_eq_ok, pure_eq_ok, readItems_eq_ok] at h
      obtain ⟨values, rfl, rfl⟩ := h
      exact ⟨rfl, trivial, 0, nofun, rfl⟩
    case h_2 rate =>
      simp only [bind_eq_ok, pure_eq_ok, readRate_eq_ok] at h
      obtain ⟨rate, ⟨rfl, hfits⟩, rfl⟩ := h
      exact ⟨rfl, hfits, 0, nofun, rfl⟩
    case h_3 doc rest =>
      simp only [bind_eq_ok, readRate_eq_ok] at h
      obtain ⟨rate, ⟨rfl, hfits⟩, h⟩ := h
      split at h <;> simp only [bind_eq_ok, pure_eq_ok, readDelay_eq_ok, readParallelism_eq_ok,
        reduceCtorEq] at h
      · subst h
        exact ⟨rfl, hfits, 0, List.forall_mem_cons.mpr ⟨rfl, List.forall_mem_singleton.mpr rfl⟩, rfl⟩
      · obtain ⟨delay, rfl, rfl⟩ := h
        exact ⟨rfl, hfits, 1, List.forall_mem_singleton.mpr rfl, rfl⟩
      · obtain ⟨delay, rfl, preferred, rfl, rfl⟩ := h
        exact ⟨rfl, hfits, 2, nofun, rfl⟩
    case h_4 => cases h
  · rintro ⟨rfl, hfits, n, hdropped, rfl⟩
    exact ofElements_fields hfits hdropped

end SourceConfig

end Pacing
