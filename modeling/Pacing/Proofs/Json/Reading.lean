import Pacing.Proofs.Json.Lexing

/-!
# Reading a text of a document

Every text of a document is read as that document. The stages of reading are followed one by one:
the text gives its tokens, the tokens give a tree without a fault, and the tree gives the document.
The texts of the grammar come with a bound on their depth, which is the bound under which the tree
is read.

* `NumberText.exists_numeral`: an integer of the 64-bit ranges is read from its decimal digits.
* `Parses` is the statement about tokens, whatever tokens come after them.
* `Written.reads` is the main statement, by recursion over the grammar.
-/

namespace Pacing.Json

/-! ### Integers -/

/-- The number with the given decimal digits, after `start`. -/
def digitsValue (start : Nat) (ds : List Nat) : Nat := ds.foldl (fun v d => v * 10 + d) start

theorem le_digitsValue (start : Nat) (ds : List Nat) : start ≤ digitsValue start ds := by
  induction ds generalizing start with
  | nil => exact Nat.le_refl _
  | cons d ds ih =>
    have := ih (start * 10 + d)
    show start ≤ digitsValue (start * 10 + d) ds
    omega

/-- Digits that fit in a word are all taken. -/
theorem takeDigits_of_lt {start : Nat} {ds : List Nat}
    (h : digitsValue start ds < 18446744073709551616) :
    takeDigits ds start = (digitsValue start ds, 0) := by
  induction ds generalizing start with
  | nil => rfl
  | cons d ds ih =>
    have hnext : start * 10 + d < 18446744073709551616 :=
      Nat.lt_of_le_of_lt (le_digitsValue _ ds) h
    simp only [takeDigits, hnext, if_true]
    exact ih h

theorem DigitsText.snoc {ds : List Nat} {text : List Char} (h : DigitsText ds text) {d : Nat}
    (hd : d < 10) : DigitsText (ds ++ [d]) (text ++ [Nat.digitChar d]) := by
  induction h with
  | last hd' => exact .cons hd' (.last hd)
  | cons hd' _ ih => exact .cons hd' ih

/-- The decimal digits of a natural number. -/
theorem exists_wholeText (n : Nat) :
    ∃ ds, WholeText ds (Nat.toDigits 10 n) ∧ digitsValue 0 ds = n := by
  induction n using Nat.strongRecOn with
  | ind n ih =>
    rw [Nat.toDigits_eq_if (by decide)]
    split
    case isTrue hn =>
      refine ⟨[n], ⟨.last hn, ?_⟩, by simp [digitsValue]⟩
      simp
    case isFalse hn =>
      obtain ⟨ds, ⟨hdigits, hzero⟩, hvalue⟩ := ih (n / 10) (by omega)
      refine ⟨ds ++ [n % 10], ⟨hdigits.snoc (Nat.mod_lt n (by decide)), ?_⟩, ?_⟩
      · -- The digits of a number that is not zero do not start with one.
        intro hhead
        obtain ⟨d, more, -, -, rfl, -⟩ := hdigits.eq_cons
        have hsole := hzero hhead
        rw [hsole] at hvalue
        have : n / 10 = 0 := hvalue.symm
        omega
      · show (ds ++ [n % 10]).foldl (fun v d => v * 10 + d) 0 = n
        rw [List.foldl_append]
        show digitsValue 0 ds * 10 + n % 10 = n
        omega

theorem read_whole {negative : Bool} {ds : List Nat}
    (h : digitsValue 0 ds < 18446744073709551616) :
    Numeral.read ⟨negative, ds, [], none⟩ = .ok (wholeNumber negative (digitsValue 0 ds)) := by
  simp [Numeral.read, takeDigits_of_lt h, takeDigits]

theorem toString_negSucc_toList (k : Nat) :
    (toString (Int.negSucc k)).toList = '-' :: Nat.toDigits 10 (k + 1) := by
  have hsign : toString (Int.negSucc k) = "-" ++ (k + 1).repr := rfl
  rw [hsign, String.toList_append, Nat.toList_repr]
  rfl

/-- Every text of a number is a numeral that stands for it. -/
theorem NumberText.exists_numeral {n : Number} {text : List Char} (h : NumberText n text) :
    ∃ m, NumeralText m text ∧ m.read = .ok n := by
  cases h with
  | float hnumeral hread => exact ⟨_, hnumeral, hread⟩
  | @int n hlow hhigh =>
    cases n with
    | ofNat k =>
      obtain ⟨ds, hwhole, hvalue⟩ := exists_wholeText k
      have hfits : k < 18446744073709551616 := Int.ofNat_lt.mp hhigh
      have htext : (toString (Int.ofNat k)).toList = Nat.toDigits 10 k := Nat.toList_repr
      refine ⟨⟨false, ds, [], none⟩, ?_, ?_⟩
      · rw [htext]
        simpa using NumeralText.positive (.parts hwhole .absent .absent)
      · rw [read_whole (hvalue ▸ hfits), hvalue]
        rfl
    | negSucc k =>
      obtain ⟨ds, hwhole, hvalue⟩ := exists_wholeText (k + 1)
      refine ⟨⟨true, ds, [], none⟩, ?_, ?_⟩
      · rw [toString_negSucc_toList]
        simpa using NumeralText.negative (.parts hwhole .absent .absent)
      · have hbound : ¬ (k + 1 = 0 ∨ 9223372036854775808 < k + 1) := by omega
        have hfits : k + 1 < 18446744073709551616 := by omega
        rw [read_whole (hvalue ▸ hfits), hvalue, wholeNumber, if_neg (by decide),
          if_neg hbound, Int.negSucc_eq]
        rfl

/-! ### Trees of tokens -/

/-- The tokens are those of one value, whatever tokens follow them, and they do not start with the
end of an array. -/
structure Parses (tokens : List Token) (o : Outline) : Prop where
  head_ne : ∃ t ts, tokens = t :: ts ∧ t ≠ .endArray
  readValue_eq : ∀ fuel rest, 2 * tokens.length ≤ fuel + 1 →
    readValue fuel (tokens ++ rest) = (o, rest)

/-- The tokens are elements up to the end of their array. -/
structure ParsesElements (tokens : List Token) (os : List Outline) : Prop where
  head_ne : ∃ t ts, tokens = t :: ts ∧ t ≠ .endArray
  readElements_eq : ∀ fuel rest, 2 * tokens.length ≤ fuel →
    readElements fuel (tokens ++ rest) = (os, .closed, rest)

/-- The tokens are members up to the end of their object. -/
structure ParsesMembers (tokens : List Token) (os : List (Quoted × Outline)) : Prop where
  head_eq : ∃ t ts, tokens = .text t :: ts
  readMembers_eq : ∀ fuel rest, 2 * tokens.length ≤ fuel →
    readMembers fuel (tokens ++ rest) = (os, .closed, rest)

/-- There is fuel for the first token, and what it leaves is enough for the others. -/
theorem Parses.of_step {t : Token} {ts : List Token} {o : Outline} (ht : t ≠ .endArray)
    (h : ∀ fuel rest, 2 * ts.length ≤ fuel → readValue (fuel + 1) (t :: (ts ++ rest)) = (o, rest)) :
    Parses (t :: ts) o where
  head_ne := ⟨t, ts, rfl, ht⟩
  readValue_eq fuel rest hfuel := by
    rw [List.length_cons] at hfuel
    obtain ⟨fuel, rfl⟩ : ∃ n, fuel = n + 1 := Nat.exists_eq_add_one_of_ne_zero (by omega)
    exact h fuel rest (by omega)

theorem Parses.array_nil : Parses [.beginArray, .endArray] (.array [] .closed) :=
  .of_step nofun fun _ _ _ => rfl

theorem Parses.object_nil : Parses [.beginObject, .endObject] (.object [] .closed) :=
  .of_step nofun fun _ _ _ => rfl

theorem ParsesElements.array {tokens : List Token} {os : List Outline}
    (h : ParsesElements tokens os) : Parses (.beginArray :: tokens) (.array os .closed) := by
  refine .of_step nofun fun fuel rest hfuel => ?_
  have helements := h.readElements_eq fuel rest hfuel
  obtain ⟨t, ts, rfl, ht⟩ := h.head_ne
  simp only [List.cons_append] at helements ⊢
  unfold readValue
  split <;> simp_all

theorem ParsesMembers.object {tokens : List Token} {os : List (Quoted × Outline)}
    (h : ParsesMembers tokens os) : Parses (.beginObject :: tokens) (.object os .closed) := by
  refine .of_step nofun fun fuel rest hfuel => ?_
  have hmembers := h.readMembers_eq fuel rest hfuel
  obtain ⟨t, ts, rfl⟩ := h.head_eq
  simp only [List.cons_append] at hmembers ⊢
  simp [readValue, hmembers]

theorem Parses.last_element {tokens : List Token} {o : Outline} (h : Parses tokens o) :
    ParsesElements (tokens ++ [.endArray]) [o] where
  head_ne := by
    obtain ⟨t, ts, rfl, ht⟩ := h.head_ne
    exact ⟨t, _, rfl, ht⟩
  readElements_eq fuel rest hfuel := by
    rw [List.length_append, List.length_singleton] at hfuel
    obtain ⟨fuel, rfl⟩ : ∃ n, fuel = n + 1 := Nat.exists_eq_add_one_of_ne_zero (by omega)
    rw [List.append_assoc, readElements, h.readValue_eq fuel _ (by omega)]
    rfl

theorem Parses.cons_element {tokens more : List Token} {o : Outline} {os : List Outline}
    (h : Parses tokens o) (hmore : ParsesElements more os) :
    ParsesElements (tokens ++ .comma :: more) (o :: os) where
  head_ne := by
    obtain ⟨t, ts, rfl, ht⟩ := h.head_ne
    exact ⟨t, _, rfl, ht⟩
  readElements_eq fuel rest hfuel := by
    rw [List.length_append, List.length_cons] at hfuel
    obtain ⟨fuel, rfl⟩ : ∃ n, fuel = n + 1 := Nat.exists_eq_add_one_of_ne_zero (by omega)
    rw [List.append_assoc, readElements, h.readValue_eq fuel _ (by omega)]
    simp only [List.cons_append, hmore.readElements_eq fuel rest (by omega)]

theorem Parses.last_member {tokens : List Token} {o : Outline} (h : Parses tokens o)
    (key : Quoted) : ParsesMembers (.text key :: .colon :: (tokens ++ [.endObject])) [(key, o)] where
  head_eq := ⟨key, _, rfl⟩
  readMembers_eq fuel rest hfuel := by
    simp only [List.length_append, List.length_cons, List.length_nil] at hfuel
    obtain ⟨fuel, rfl⟩ : ∃ n, fuel = n + 1 := Nat.exists_eq_add_one_of_ne_zero (by omega)
    simp only [List.cons_append, List.append_assoc, readMembers,
      h.readValue_eq fuel _ (by omega)]
    rfl

theorem Parses.cons_member {tokens more : List Token} {o : Outline} {os : List (Quoted × Outline)}
    (h : Parses tokens o) (key : Quoted) (hmore : ParsesMembers more os) :
    ParsesMembers (.text key :: .colon :: (tokens ++ .comma :: more)) ((key, o) :: os) where
  head_eq := ⟨key, _, rfl⟩
  readMembers_eq fuel rest hfuel := by
    simp only [List.length_append, List.length_cons] at hfuel
    obtain ⟨fuel, rfl⟩ : ∃ n, fuel = n + 1 := Nat.exists_eq_add_one_of_ne_zero (by omega)
    simp only [List.cons_append, List.append_assoc, readMembers,
      h.readValue_eq fuel _ (by omega), hmore.readMembers_eq fuel rest (by omega)]

/-! ### Documents of trees -/

/-- A computation in steps succeeds if each step does. -/
theorem bind_eq_ok {ε α β : Type} {x : Except ε α} {f : α → Except ε β} {b : β} :
    (x >>= f) = .ok b ↔ ∃ a, x = .ok a ∧ f a = .ok b := by
  cases x <;> simp [bind, Except.bind]

/-- And fails if the first step that does not succeed fails. -/
theorem bind_eq_error {ε α β : Type} {x : Except ε α} {f : α → Except ε β} {e : ε} :
    (x >>= f) = .error e ↔ x = .error e ∨ ∃ a, x = .ok a ∧ f a = .error e := by
  cases x <;> simp [bind, Except.bind]

theorem pure_eq_ok {ε α : Type} {a b : α} : (pure a : Except ε α) = .ok b ↔ a = b := by
  simp [pure, Except.pure]

/-- A reader of scalars that meets another kind of value does not succeed. -/
theorem Outline.refuse_ne_ok {α : Type} {o : Outline} {a : α} : o.refuse ≠ .ok a := by
  intro h
  unfold refuse at h
  split at h
  case h_5 | h_6 =>
    obtain ⟨_, -, h⟩ := bind_eq_ok.mp h
    cases h
  all_goals cases h

theorem Ending.check_eq_ok {ending : Ending} {u : Unit} : ending.check = .ok u ↔ ending = .closed := by
  cases ending <;> simp [check]

variable {depth : Nat}

@[simp]
theorem readAll_nil : readAll depth [] = .ok [] := by simp [readAll]

@[simp]
theorem readEach_nil : readEach depth [] = .ok [] := by simp [readEach]

theorem readAll_cons_eq_ok {o : Outline} {os : List Outline} {vs : List Json} :
    readAll depth (o :: os) = .ok vs ↔
      ∃ v, o.read depth = .ok v ∧ ∃ rest, readAll depth os = .ok rest ∧ v :: rest = vs := by
  simp only [readAll, bind_eq_ok, pure_eq_ok]

/-- Every document of a list is read from one of the trees. -/
theorem readAll_mem {os : List Outline} {vs : List Json}
    (h : readAll depth os = .ok vs) : ∀ v ∈ vs, ∃ o ∈ os, o.read depth = .ok v := by
  induction os generalizing vs with
  | nil =>
    rw [readAll_nil] at h
    cases h
    exact List.forall_mem_nil _
  | cons o os ih =>
    obtain ⟨v, hv, rest, hrest, rfl⟩ := readAll_cons_eq_ok.mp h
    refine List.forall_mem_cons.mpr ⟨⟨o, List.mem_cons_self .., hv⟩, fun w hw => ?_⟩
    obtain ⟨o', ho', hread⟩ := ih hrest w hw
    exact ⟨o', List.mem_cons_of_mem _ ho', hread⟩

theorem readEach_cons_eq_ok {k : Quoted} {o : Outline} {os : List (Quoted × Outline)}
    {members : List (String × Json)} :
    readEach depth ((k, o) :: os) = .ok members ↔
      ∃ key, k.read = .ok key ∧ ∃ v, o.read depth = .ok v ∧
        ∃ rest, readEach depth os = .ok rest ∧ (key, v) :: rest = members := by
  simp only [readEach, bind_eq_ok, pure_eq_ok]

theorem Outline.read_number_eq_ok {m : Numeral} {v : Json} :
    (Outline.number m).read depth = .ok v ↔ ∃ n, m.read = .ok n ∧ .number n = v := by
  simp only [read, bind_eq_ok, pure_eq_ok]

theorem Outline.read_text_eq_ok {t : Quoted} {v : Json} :
    (Outline.text t).read depth = .ok v ↔ ∃ s, t.read = .ok s ∧ .string s = v := by
  simp only [read, bind_eq_ok, pure_eq_ok]

theorem Outline.read_array_eq_ok {os : List Outline} {ending : Ending} {v : Json} :
    (Outline.array os ending).read depth = .ok v ↔
      ∃ inner, depth = inner + 1 ∧ ending = .closed ∧
        ∃ vs, readAll inner os = .ok vs ∧ .array vs = v := by
  cases depth with
  | zero => simp [read]
  | succ inner =>
    simp only [read, bind_eq_ok, pure_eq_ok, Ending.check_eq_ok]
    constructor
    · rintro ⟨vs, hvs, -, hclosed, hv⟩
      exact ⟨inner, rfl, hclosed, vs, hvs, hv⟩
    · rintro ⟨_, hinner, hclosed, vs, hvs, hv⟩
      cases hinner
      exact ⟨vs, hvs, (), hclosed, hv⟩

theorem Outline.read_object_eq_ok {os : List (Quoted × Outline)} {ending : Ending} {v : Json} :
    (Outline.object os ending).read depth = .ok v ↔
      ∃ inner, depth = inner + 1 ∧ ending = .closed ∧
        ∃ members, readEach inner os = .ok members ∧ .object (sortMembers members) = v := by
  cases depth with
  | zero => simp [read]
  | succ inner =>
    simp only [read, bind_eq_ok, pure_eq_ok, Ending.check_eq_ok]
    constructor
    · rintro ⟨members, hmembers, -, hclosed, hv⟩
      exact ⟨inner, rfl, hclosed, members, hmembers, hv⟩
    · rintro ⟨_, hinner, hclosed, members, hmembers, hv⟩
      cases hinner
      exact ⟨members, hmembers, (), hclosed, hv⟩

/-- The value a tree stands for, as far as it is not inside an array or an object. -/
inductive Outline.StandsFor : Outline → Json → Prop
  | null : StandsFor .null .null
  | bool (b : Bool) : StandsFor (.bool b) (.bool b)
  | number {m : Numeral} {n : Number} : m.read = .ok n → StandsFor (.number m) (.number n)
  | text {t : Quoted} {s : String} : t.read = .ok s → StandsFor (.text t) (.string s)
  | array {os : List Outline} {ending : Ending} {vs : List Json} :
      StandsFor (.array os ending) (.array vs)
  | object {os : List (Quoted × Outline)} {ending : Ending} {ms : List (String × Json)} :
      StandsFor (.object os ending) (.object ms)

theorem Outline.standsFor_of_read {o : Outline} {v : Json} (h : o.read depth = .ok v) : o.StandsFor v := by
  cases o with
  | null =>
    rw [Outline.read] at h
    cases h
    exact .null
  | bool b =>
    rw [Outline.read] at h
    cases h
    exact .bool b
  | number m =>
    obtain ⟨n, hn, rfl⟩ := Outline.read_number_eq_ok.mp h
    exact .number hn
  | text t =>
    obtain ⟨s, hs, rfl⟩ := Outline.read_text_eq_ok.mp h
    exact .text hs
  | array os ending =>
    obtain ⟨_, -, -, _, -, rfl⟩ := Outline.read_array_eq_ok.mp h
    exact .array
  | object os ending =>
    obtain ⟨_, -, -, _, -, rfl⟩ := Outline.read_object_eq_ok.mp h
    exact .object
  | brokenNumber | missing =>
    rw [Outline.read] at h
    cases h

/-! ### Documents of texts -/

/-- The text of a string gives that one token. -/
theorem Written.lexes_string {depth : Nat} {v : Json} {text : List Char} (h : Written depth v text)
    {s : String} (hv : v = .string s) :
    ∃ quoted : Quoted, quoted.read = .ok s ∧ Lexes text [.text quoted] := by
  match h with
  | .string hstring =>
    cases hv
    exact hstring.lexes
  | .blankBefore hb h =>
    obtain ⟨quoted, hread, hlexes⟩ := h.lexes_string hv
    exact ⟨quoted, hread, hlexes.blank hb⟩
  | .blankAfter hb h =>
    obtain ⟨quoted, hread, hlexes⟩ := h.lexes_string hv
    exact ⟨quoted, hread, hlexes.blanks_after (List.forall_mem_singleton.mpr hb)⟩
  | .null | .true | .false | .number _ | .array _ | .object _ => cases hv

/-- A document of one token. -/
theorem reads_token {text : List Char} {t : Token} {o : Outline} {v : Json} (hlexes : Lexes text [t])
    (ht : t ≠ .endArray) (hparses : ∀ fuel rest, readValue (fuel + 1) (t :: rest) = (o, rest))
    (hread : o.read depth = .ok v) :
    ∃ tokens o, Lexes text tokens ∧ Parses tokens o ∧ o.read depth = .ok v :=
  ⟨[t], o, hlexes, .of_step ht fun fuel rest _ => hparses fuel rest, hread⟩

mutual

/-- **Reading.** A text of a document gives a tree that is read as the document. -/
theorem Written.reads {depth : Nat} {v : Json} {text : List Char} (h : Written depth v text) :
    ∃ tokens o, Lexes text tokens ∧ Parses tokens o ∧ o.read depth = .ok v := by
  match h with
  | .null =>
    exact reads_token (Lexes.token rfl fun _ _ => rfl) nofun (fun _ _ => rfl) (by rw [Outline.read])
  | .true =>
    exact reads_token (Lexes.token rfl fun _ _ => rfl) nofun (fun _ _ => rfl) (by rw [Outline.read])
  | .false =>
    exact reads_token (Lexes.token rfl fun _ _ => rfl) nofun (fun _ _ => rfl) (by rw [Outline.read])
  | .number hnumber =>
    obtain ⟨m, htext, hread⟩ := hnumber.exists_numeral
    exact reads_token htext.lexes nofun (fun _ _ => rfl)
      (Outline.read_number_eq_ok.mpr ⟨_, hread, rfl⟩)
  | .string hstring =>
    obtain ⟨quoted, hread, hlexes⟩ := hstring.lexes
    exact reads_token hlexes nofun (fun _ _ => rfl) (Outline.read_text_eq_ok.mpr ⟨_, hread, rfl⟩)
  | .array harray =>
    obtain ⟨tokens, os, hlexes, hparses, hread⟩ := harray.reads
    exact ⟨tokens, _, hlexes, hparses, Outline.read_array_eq_ok.mpr ⟨_, rfl, rfl, _, hread, rfl⟩⟩
  | .object hobject =>
    obtain ⟨tokens, os, hlexes, hparses, hread⟩ := hobject.reads
    exact ⟨tokens, _, hlexes, hparses, Outline.read_object_eq_ok.mpr ⟨_, rfl, rfl, _, hread, rfl⟩⟩
  | .blankBefore hb h =>
    obtain ⟨tokens, o, hlexes, hrest⟩ := h.reads
    exact ⟨tokens, o, hlexes.blank hb, hrest⟩
  | .blankAfter hb h =>
    obtain ⟨tokens, o, hlexes, hrest⟩ := h.reads
    exact ⟨tokens, o, hlexes.blanks_after (List.forall_mem_singleton.mpr hb), hrest⟩

theorem ArrayText.reads {depth : Nat} {vs : List Json} {text : List Char}
    (h : ArrayText depth vs text) :
    ∃ tokens os, Lexes text tokens ∧ Parses tokens (.array os .closed) ∧
      readAll depth os = .ok vs := by
  match h with
  | .empty hblank =>
    have hclose : Lexes [']'] [.endArray] := Lexes.nil.mark rfl fun _ => rfl
    exact ⟨_, [], (hclose.blanks hblank).mark rfl fun _ => rfl, .array_nil, readAll_nil⟩
  | .elements h =>
    obtain ⟨tokens, os, hlexes, hparses, hread⟩ := h.reads
    exact ⟨_, os, hlexes.mark rfl fun _ => rfl, hparses.array, hread⟩

theorem ElementsText.reads {depth : Nat} {vs : List Json} {text : List Char}
    (h : ElementsText depth vs text) :
    ∃ tokens os, Lexes text tokens ∧ ParsesElements tokens os ∧ readAll depth os = .ok vs := by
  match h with
  | .last hvalue =>
    obtain ⟨tokens, o, hlexes, hparses, hread⟩ := hvalue.reads
    have hclose : Lexes [']'] [.endArray] := Lexes.nil.mark rfl fun _ => rfl
    exact ⟨_, [o], hlexes.append rfl hclose, hparses.last_element,
      readAll_cons_eq_ok.mpr ⟨_, hread, _, readAll_nil, rfl⟩⟩
  | .cons hvalue hmore =>
    obtain ⟨tokens, o, hlexes, hparses, hread⟩ := hvalue.reads
    obtain ⟨later, os, hlater, hparsesLater, hreadLater⟩ := hmore.reads
    exact ⟨_, o :: os, hlexes.append rfl (hlater.mark rfl fun _ => rfl),
      hparses.cons_element hparsesLater, readAll_cons_eq_ok.mpr ⟨_, hread, _, hreadLater, rfl⟩⟩

theorem ObjectText.reads {depth : Nat} {members : List (String × Json)} {text : List Char}
    (h : ObjectText depth members text) :
    ∃ tokens os, Lexes text tokens ∧ Parses tokens (.object os .closed) ∧
      readEach depth os = .ok members := by
  match h with
  | .empty hblank =>
    have hclose : Lexes ['\x7d'] [.endObject] := Lexes.nil.mark rfl fun _ => rfl
    exact ⟨_, [], (hclose.blanks hblank).mark rfl fun _ => rfl, .object_nil, readEach_nil⟩
  | .members h =>
    obtain ⟨tokens, os, hlexes, hparses, hread⟩ := h.reads
    exact ⟨_, os, hlexes.mark rfl fun _ => rfl, hparses.object, hread⟩

theorem MembersText.reads {depth : Nat} {members : List (String × Json)} {text : List Char}
    (h : MembersText depth members text) :
    ∃ tokens os, Lexes text tokens ∧ ParsesMembers tokens os ∧
      readEach depth os = .ok members := by
  match h with
  | .last hkey hvalue =>
    obtain ⟨quoted, hreadKey, hlexesKey⟩ := hkey.lexes_string rfl
    obtain ⟨tokens, o, hlexes, hparses, hread⟩ := hvalue.reads
    have hclose : Lexes ['\x7d'] [.endObject] := Lexes.nil.mark rfl fun _ => rfl
    exact ⟨_, [(quoted, o)], hlexesKey.append rfl ((hlexes.append rfl hclose).mark rfl fun _ => rfl),
      hparses.last_member quoted,
      readEach_cons_eq_ok.mpr ⟨_, hreadKey, _, hread, _, readEach_nil, rfl⟩⟩
  | .cons hkey hvalue hmore =>
    obtain ⟨quoted, hreadKey, hlexesKey⟩ := hkey.lexes_string rfl
    obtain ⟨tokens, o, hlexes, hparses, hread⟩ := hvalue.reads
    obtain ⟨later, os, hlater, hparsesLater, hreadLater⟩ := hmore.reads
    have hcomma := hlexes.append (c := ',') rfl (hlater.mark rfl fun _ => rfl)
    exact ⟨_, (quoted, o) :: os, hlexesKey.append rfl (hcomma.mark rfl fun _ => rfl),
      hparses.cons_member quoted hparsesLater,
      readEach_cons_eq_ok.mpr ⟨_, hreadKey, _, hread, _, hreadLater, rfl⟩⟩

end

/-! ### Whole texts -/

/-- A text whose tokens are one value has this tree and nothing after it. -/
theorem outline_eq {text : List Char} {tokens : List Token} {o : Outline}
    (hlexes : Lexes text tokens) (hparses : Parses tokens o) : outline text = (o, false) := by
  have hvalue := hparses.readValue_eq (2 * tokens.length + 2) [] (by omega)
  rw [List.append_nil] at hvalue
  simp [outline, hlexes.lex_eq, hvalue]

/-- A reader that takes the tree takes the text. -/
theorem readText_eq {α : Type} {text : String} {o : Outline}
    (h : outline text.toList = (o, false)) (read : Outline → Except Fault α) :
    readText read text = read o := by
  simp only [readText, h]
  cases read o <;> rfl

/-- A reader takes a text exactly if it takes its tree and nothing follows the tree. -/
theorem readText_eq_ok {α : Type} {read : Outline → Except Fault α} {text : String} {a : α} :
    readText read text = .ok a ↔ ∃ o, outline text.toList = (o, false) ∧ read o = .ok a := by
  refine ⟨fun h => ?_, fun ⟨o, houtline, hread⟩ => (readText_eq houtline read).trans hread⟩
  unfold readText at h
  generalize outline text.toList = tree at h ⊢
  obtain ⟨o, more⟩ := tree
  obtain ⟨a', ha', h⟩ := bind_eq_ok.mp h
  cases more with
  | true => cases h
  | false =>
    cases h
    exact ⟨o, rfl, ha'⟩

/-- Every text of a document is read as the document. -/
theorem Written.parseWithin_eq {v : Json} {text : String} (h : Written depth v text.toList) :
    parseWithin depth text = .ok v := by
  obtain ⟨tokens, o, hlexes, hparses, hread⟩ := h.reads
  rw [parseWithin, readText_eq (outline_eq hlexes hparses), hread]

theorem Around.lexes {inner : List Char → Prop} {text : List Char} (h : Around inner text) :
    ∃ body, inner body ∧ ∀ tokens, Lexes body tokens → Lexes text tokens := by
  obtain ⟨before, body, after, hbefore, hbody, hafter, rfl⟩ := h
  exact ⟨body, hbody, fun tokens htokens => (htokens.blanks_after hafter).blanks hbefore⟩

/-- The tree of a text that is an object holds its members in order. -/
theorem Around.object_outline {members : List (String × Json)} {text : List Char}
    (h : Around (ObjectText depth members) text) :
    ∃ os, outline text = (.object os .closed, false) ∧ readEach depth os = .ok members := by
  obtain ⟨body, hbody, hblanks⟩ := h.lexes
  obtain ⟨tokens, os, hlexes, hparses, hread⟩ := hbody.reads
  exact ⟨os, outline_eq (hblanks tokens hlexes) hparses, hread⟩

/-- The tree of a text that is an array holds its elements in order. -/
theorem Around.array_outline {vs : List Json} {text : List Char}
    (h : Around (ArrayText depth vs) text) :
    ∃ os, outline text = (.array os .closed, false) ∧ readAll depth os = .ok vs := by
  obtain ⟨body, hbody, hblanks⟩ := h.lexes
  obtain ⟨tokens, os, hlexes, hparses, hread⟩ := hbody.reads
  exact ⟨os, outline_eq (hblanks tokens hlexes) hparses, hread⟩

end Pacing.Json
