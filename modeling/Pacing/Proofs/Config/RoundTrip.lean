import Pacing.Proofs.Config.Spelling
import Pacing.Proofs.Json.Printing

/-!
# Configurations written and read again

The document that is written for a configuration spells it, so it is read as the configuration.
What was read can therefore be written and read again, as long as all numbers of the text are read
as numbers that their own texts keep: of such a text no other fields are read. Integers of the 64-bit
ranges are kept. Any other number becomes a double, and a double may change when its shortest decimal
is read.

* `Proper` are the configurations within the limits of their fields, and `Kept` those that may also
  hold doubles, as far as their texts keep them.
* `read_eq_ok` traces every field of a configuration back to a part of the text.
* `written_read_again` is the main statement, `large_integer_changes` shows that its bound on the
  numbers is needed.
-/

namespace Pacing

open Json (Around ObjectText ArrayText bind_eq_ok pure_eq_ok)

namespace SourceConfig

/-- A configuration within the limits of its fields: a signed rate, an unsigned delay and
parallelism of 64 bits, and items that are documents within the limits of reading, at most 125
arrays and objects deep. -/
def Proper : SourceConfig → Prop
  | .items values => ∀ vs, values = some vs → ∀ v ∈ vs, Json.Proper 125 v
  | .itemStream rate => ∀ n, rate = some n → Word.InRange n
  | .longStream rate delay preferred => (∀ n, rate = some n → Word.InRange n) ∧
      delay < Word.countLimit ∧ ∀ p, preferred = some p → p.val < Word.countLimit

/-- A configuration that its document keeps: a signed rate, an unsigned delay and parallelism of 64
bits, and items that their compact texts keep, at most 125 arrays and objects deep. -/
def Kept : SourceConfig → Prop
  | .items values => ∀ vs, values = some vs → ∀ v ∈ vs, Json.Kept 125 v
  | .itemStream rate => ∀ n, rate = some n → Word.InRange n
  | .longStream rate delay preferred => (∀ n, rate = some n → Word.InRange n) ∧
      delay < Word.countLimit ∧ ∀ p, preferred = some p → p.val < Word.countLimit

variable {c : SourceConfig}

theorem Proper.kept (h : c.Proper) : c.Kept := by
  cases c with
  | items values => exact fun vs hvs v hv => (h vs hvs v hv).kept
  | itemStream | longStream => exact h

theorem optionalInt_kept {n : Option Int} :
    Json.Kept innerDepth (optionalInt n) ↔
      ∀ k, n = some k → -9223372036854775808 ≤ k ∧ k < 18446744073709551616 := by
  cases n with
  | none => exact ⟨fun _ => nofun, fun _ => .null⟩
  | some n =>
    simp only [Option.some.injEq, forall_eq']
    exact Json.int_kept

theorem array_kept {vs : List Json} :
    Json.Kept innerDepth (.array vs) ↔ ∀ v ∈ vs, Json.Kept 125 v := by
  constructor
  · intro h
    have hdepth : Json.Kept (125 + 1) (.array vs) := h
    cases hdepth with
    | array hvs => exact hvs
  · exact fun h => Json.Kept.array h

theorem rate_kept {rate : Option Int} :
    (∀ n, rate = some n → Word.InRange n) ↔
      (∀ n, rate = some n → n ≤ Word.highest) ∧ Json.Kept innerDepth (optionalInt rate) := by
  simp only [optionalInt_kept, Word.InRange, Word.lowest, Word.highest]
  constructor
  · intro h
    refine ⟨fun n hn => (h n hn).2, fun n hn => ⟨(h n hn).1, ?_⟩⟩
    have := (h n hn).2
    omega
  · rintro ⟨hhigh, hlow⟩ n hn
    exact ⟨(hlow n hn).1, hhigh n hn⟩

theorem delay_kept {delay : Nat} :
    Json.Kept innerDepth (.count delay) ↔ delay < Word.countLimit := by
  refine Json.int_kept.trans ⟨fun ⟨_, hhigh⟩ => Int.ofNat_lt.mp hhigh, fun h => ?_⟩
  exact ⟨by omega, Int.ofNat_lt.mpr h⟩

theorem parallelism_kept {preferred : Option Positive} :
    Json.Kept innerDepth (optionalInt (preferred.map fun p => (p.val : Int))) ↔
      ∀ p, preferred = some p → p.val < Word.countLimit := by
  cases preferred with
  | none => exact ⟨fun _ => nofun, fun _ => .null⟩
  | some p =>
    simp only [Option.some.injEq, forall_eq']
    exact delay_kept

/-- A configuration is kept exactly if the documents of its fields are. -/
theorem kept_iff : c.Kept ↔ c.RateFits ∧ ∀ f ∈ c.fields, Json.Kept innerDepth f.value := by
  cases c with
  | items values =>
    simp only [Kept, RateFits, fields, List.forall_mem_singleton, true_and]
    cases values with
    | none =>
      refine ⟨fun _ => .null, fun _ vs hvs => ?_⟩
      cases hvs
    | some vs => simp [array_kept]
  | itemStream rate =>
    simp only [Kept, RateFits, fields, List.forall_mem_singleton, rate_kept]
  | longStream rate delay preferred =>
    simp only [Kept, RateFits, fields, List.forall_mem_cons, rate_kept, delay_kept,
      parallelism_kept, List.not_mem_nil, false_imp_iff, implies_true, and_true, and_assoc]

theorem default_kept {f : NamedField} (h : f ∈ c.fields) : Json.Kept innerDepth f.default := by
  have hdefault : f.default = .null ∨ f.default = .count 0 := by
    cases c <;> simp only [fields, List.mem_cons, List.not_mem_nil, or_false] at h
    all_goals grind
  rcases hdefault with hdefault | hdefault <;> rw [hdefault]
  · exact .null
  · exact delay_kept.mpr (by decide)

/-! ### Writing -/

/-- The members of the written document. -/
def members (c : SourceConfig) : List (String × Json) :=
  ("kind", .string c.kind.name) :: c.fields.map fun f => (f.name, f.value)

theorem toJson_eq (c : SourceConfig) : c.toJson = .object c.members := by
  cases c <;> rfl

/-- The members of the written document spell the configuration. -/
theorem describes_members (c : SourceConfig) : c.Describes c.members := by
  have hkeys : c.members.map Prod.fst = "kind" :: fieldNames c.kind := by
    cases c <;> rfl
  have hnodup : (c.members.map Prod.fst).Nodup := by
    rw [hkeys]
    cases c.kind <;> decide
  exact ⟨valuesOf_of_nodup hnodup (List.mem_cons_self ..), fun f hf =>
    .inl (valuesOf_of_nodup hnodup (List.mem_cons_of_mem _ (List.mem_map_of_mem hf)))⟩

/-- A text of these members is read as the configuration. -/
theorem fromJson_members {text : String} (hrate : c.RateFits)
    (h : Around (ObjectText innerDepth c.members) text.toList) : fromJson text = .ok c := by
  rw [fromJson_object h, (describes_members c).ofObject_eq hrate]
  rfl

/-- The text of a configuration is read as the configuration. -/
theorem Kept.fromJson_print (hc : c.Kept) : fromJson c.print = .ok c := by
  obtain ⟨hrate, hfields⟩ := kept_iff.mp hc
  have hmembers : ∀ m ∈ c.members, Json.Kept innerDepth m.2 :=
    List.forall_mem_cons.mpr ⟨.string, List.forall_mem_map.mpr hfields⟩
  have htext := Json.objectText_chars (List.forall₂_same.mpr fun m hm =>
    ⟨rfl, (hmembers m hm).written⟩)
  refine fromJson_members hrate ?_
  rw [print, Json.print_toList, toJson_eq]
  exact .bare htext rfl

/-! ### Reading -/

/-- Every member that is kept is read from a member of the text. -/
theorem readTagged_mem {os : List (Json.Quoted × Json.Outline)} {known kind : Option SourceKind}
    {members : List (String × Json)} (h : readTagged known os = .ok (kind, members)) :
    ∀ m ∈ members, ∃ o ∈ os, o.2.read innerDepth = .ok m.2 := by
  induction os generalizing known kind members with
  | nil =>
    cases h
    exact List.forall_mem_nil _
  | cons o os ih =>
    obtain ⟨k, o⟩ := o
    simp only [readTagged, bind_eq_ok] at h
    obtain ⟨key, -, h⟩ := h
    split at h
    · split at h
      · cases h
      · obtain ⟨kind', -, h⟩ := bind_eq_ok.mp h
        intro m hm
        obtain ⟨o', ho', hread⟩ := ih h m hm
        exact ⟨o', List.mem_cons_of_mem _ ho', hread⟩
    · obtain ⟨v, hv, h⟩ := bind_eq_ok.mp h
      obtain ⟨⟨kind', rest⟩, hrest, h⟩ := bind_eq_ok.mp h
      cases pure_eq_ok.mp h
      refine List.forall_mem_cons.mpr ⟨⟨_, List.mem_cons_self .., hv⟩, fun m hm => ?_⟩
      obtain ⟨o', ho', hread⟩ := ih hrest m hm
      exact ⟨o', List.mem_cons_of_mem _ ho', hread⟩

theorem mem_of_lookup {name : String} {members : List (String × Json)} {v : Json}
    (h : Json.lookup name members = some v) : ∃ m ∈ members, m.2 = v := by
  induction members with
  | nil => cases h
  | cons m members ih =>
    obtain ⟨k, w⟩ := m
    unfold Json.lookup at h
    split at h
    · cases h
      exact ⟨_, List.mem_cons_self .., rfl⟩
    · obtain ⟨m', hm', hvalue⟩ := ih h
      exact ⟨m', List.mem_cons_of_mem _ hm', hvalue⟩

/-- Every field of a configuration that was read has its default or is read from a part of the
tree. -/
theorem read_eq_ok {o : Json.Outline} (h : read o = .ok c) : c.RateFits ∧
    ∀ f ∈ c.fields, f.value = f.default ∨
      ∃ part : Json.Outline, (∀ m ∈ part.numerals, m ∈ o.numerals) ∧
        part.read innerDepth = .ok f.value := by
  cases o with
  | object os ending =>
    simp only [read, bind_eq_ok] at h
    obtain ⟨⟨kind, members⟩, htagged, -, -, h⟩ := h
    cases kind with
    | none => cases h
    | some kind =>
      dsimp only at h
      unfold ofMembers at h
      split at h
      · cases h
      · obtain ⟨-, hrate, hfields⟩ := ofFields_eq_ok.mp h
        refine ⟨hrate, fun f hf => ?_⟩
        rcases hfields f hf with hfound | ⟨-, hdefault⟩
        · obtain ⟨m, hm, hvalue⟩ := mem_of_lookup hfound
          obtain ⟨part, hpart, hread⟩ := readTagged_mem htagged m hm
          exact .inr ⟨part.2, Json.numeralsEach_of_mem hpart, hvalue ▸ hread⟩
        · exact .inl hdefault
  | array os ending =>
    cases os with
    | nil =>
      obtain ⟨-, -, h⟩ := bind_eq_ok.mp h
      cases h
    | cons tag os =>
      simp only [read, bind_eq_ok] at h
      obtain ⟨kind, -, elements, helements, -, -, h⟩ := h
      obtain ⟨-, hrate, n, hdropped, rfl⟩ := ofElements_eq_ok.mp h
      refine ⟨hrate, fun f hf => ?_⟩
      rw [← List.take_append_drop (n + 1) c.fields] at hf
      rcases List.mem_append.mp hf with hgiven | hlater
      · obtain ⟨part, hpart, hread⟩ := Json.readAll_mem helements _ (List.mem_map_of_mem hgiven)
        exact .inr ⟨part, Json.numeralsAll_of_mem (List.mem_cons_of_mem _ hpart), hread⟩
      · exact .inl (hdropped f hlater)
  | _ =>
    simp only [read] at h
    exact absurd h Json.Outline.refuse_ne_ok

theorem fromJson_eq_ok {text : String} (h : fromJson text = .ok c) :
    read (Json.outline text.toList).1 = .ok c := by
  rw [fromJson] at h
  cases hparse : parse text with
  | error fault => rw [hparse] at h; cases h
  | ok result =>
    rw [hparse] at h
    cases h
    obtain ⟨o, houtline, hread⟩ := Json.readText_eq_ok.mp hparse
    rw [houtline]
    exact hread

/-! ### Both ways -/

/-- **Round trip.** A configuration that its document keeps, as it does one within the limits, is
read from the text it is written in. So is every configuration that was itself read from a text whose
numbers are kept, as integers of the 64-bit ranges are. -/
theorem written_read_again (c : SourceConfig) :
    ((c.Proper → c.Kept) ∧ (c.Kept → fromJson c.print = .ok c)) ∧
    (∀ m : Json.Numeral, m.IsWord → m.IsKept) ∧
    ∀ text, fromJson text = .ok c → (∀ m ∈ Json.numeralsOf text, m.IsKept) →
      fromJson c.print = .ok c := by
  refine ⟨⟨Proper.kept, Kept.fromJson_print⟩, fun m => Json.Numeral.IsWord.isKept,
    fun text htext hkept => ?_⟩
  obtain ⟨hrate, hfields⟩ := read_eq_ok (fromJson_eq_ok htext)
  refine (kept_iff.mpr ⟨hrate, fun f hf => ?_⟩).fromJson_print
  rcases hfields f hf with hdefault | ⟨part, hpart, hread⟩
  · rw [hdefault]
    exact default_kept hf
  · exact Json.Outline.read_kept hread fun m hm => hkept m (hpart m hm)

/-- Items of several shapes, minus zero and `1e20` among them, and a configuration that was read from
an array. -/
theorem written_read_again_of_nested_items :
    let items : SourceConfig := .items (some [.string "\n", .array [.null, .int (-3)],
      .number (.float (.zero true)), .number (.float (.finite false 6103515625000000 14))])
    fromJson items.print = .ok items ∧
    fromJson (print (.longStream (some 10) 0 none)) = .ok (.longStream (some 10) 0 none) := by
  intro items
  have hkept : items.Kept := by
    rintro vs ⟨⟩ v hv
    simp only [List.mem_cons, List.not_mem_nil, or_false] at hv
    rcases hv with rfl | rfl | rfl | rfl
    · exact .string
    · refine .array (List.forall_mem_cons.mpr ⟨.null, List.forall_mem_singleton.mpr ?_⟩)
      exact .number (.int (by decide) (by decide))
    · exact .number Json.minusZero_text
    · have hone : Json.DigitsText [1] ['1'] := .last (by decide)
      have htwenty : Json.DigitsText [2, 0] ['2', '0'] := .cons (d := 2) (by decide) (.last (by decide))
      have hprint : (Json.Number.float (.finite false 6103515625000000 14)).print.toList =
          ['1', 'e', '+', '2', '0'] := by decide +kernel
      refine .number ?_
      rw [hprint]
      exact .float (.positive (.parts ⟨hone, by decide⟩ .absent (.plus (.inl rfl) htwenty))) rfl
  have hread : fromJson "[\"long_stream\",10]" = .ok (.longStream (some 10) 0 none) := by
    have hten : Json.Written innerDepth (.int 10) (toString (10 : Int)).toList :=
      .number (.int (by decide) (by decide))
    have helements := Json.ElementsText.cons (Json.quote_written "long_stream") (.last hten)
    rw [fromJson_array (.bare (.elements helements) rfl)]
    rfl
  have hnumerals : Json.numeralsOf "[\"long_stream\",10]" = [⟨false, [1, 0], [], none⟩] := by
    decide +kernel
  obtain ⟨-, hword, hagain⟩ := written_read_again (.longStream (some 10) 0 none)
  refine ⟨(written_read_again items).1.2 hkept, hagain _ hread ?_⟩
  rw [hnumerals]
  exact List.forall_mem_singleton.mpr (hword _ ⟨rfl, rfl, nofun, by decide⟩)

/-! ### Doubles -/

/-- A text with one number for an item. -/
theorem fromJson_item {text : String} {n : Json.Number} {digits : List Char}
    (hdigits : Json.NumberText n digits)
    (htext : text.toList = "\x7b\"kind\":\"items\",\"items\":[".toList ++ (digits ++ [']', '\x7d'])) :
    fromJson text = .ok (.items (some [.number n])) := by
  have hitems : Json.Written innerDepth (.array [.number n]) ('[' :: (digits ++ [']'])) :=
    .array (.elements (.last (.number hdigits)))
  have hmembers := Json.MembersText.cons (Json.quote_written "kind") (Json.quote_written "items")
    (.last (Json.quote_written "items") hitems)
  refine fromJson_members trivial (.bare (.members hmembers) ?_)
  rw [htext]
  simp only [List.cons_append, List.append_assoc]
  rfl

/-- A large integer is read as a double, and its text with an exponent as a smaller one. -/
theorem large_integer_changes : ∃ text c c',
    text = "\x7b\"kind\":\"items\",\"items\":[300000000000000000000000]\x7d" ∧
    (∀ m ∈ Json.numeralsOf text, m.fraction = [] ∧ m.exponent = none) ∧
    fromJson text = .ok c ∧ fromJson c.print = .ok c' ∧ c' ≠ c := by
  have hzeros : ∀ n, Json.DigitsText (List.replicate (n + 1) 0) (List.replicate (n + 1) '0') := by
    intro n
    induction n with
    | zero => exact .last (d := 0) (by decide)
    | succ n ih => exact .cons (d := 0) (by decide) ih
  have hthree : Json.DigitsText [3] ['3'] := .last (by decide)
  have hexponent : Json.DigitsText [2, 3] ['2', '3'] := .cons (d := 2) (by decide) hthree
  have hinteger : Json.NumberText (.float (.finite false 8940696716308594 25))
      ('3' :: List.replicate 23 '0') :=
    .float (.positive (.parts ⟨.cons (d := 3) (by decide) (hzeros 22), by decide⟩ .absent .absent)) rfl
  have hpower : Json.NumberText (.float (.finite false 8940696716308593 25))
      ['3', 'e', '+', '2', '3'] :=
    .float (.positive (.parts ⟨hthree, by decide⟩ .absent (.plus (.inl rfl) hexponent))) rfl
  have hprint : (print (.items (some [.number (.float (.finite false 8940696716308594 25))]))).toList =
      "\x7b\"kind\":\"items\",\"items\":[3e+23]\x7d".toList := by decide +kernel
  exact ⟨_, _, _, rfl, by decide +kernel, fromJson_item hinteger rfl, fromJson_item hpower hprint,
    by decide⟩

end SourceConfig

end Pacing
