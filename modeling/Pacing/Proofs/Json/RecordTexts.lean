import Mathlib.Data.List.Nodup
import Pacing.Proofs.Json.Parts

/-!
# Records in texts

A record is read from an object with each of its fields once, in any order and among any other
members, or from an array of exactly its fields. This is an equivalence, so it also says what is
refused: a field that is repeated or missing, an array of another length, and a field that is itself
refused.

* `readRecord_object_eq_ok` and `readPositions_eq_ok` are the two forms, on trees.
* `RecordText` are the texts of a record and `FlawedRecord` the texts of none, both stated from the
  texts of the fields.
* `RecordText.reads` and `FlawedRecord.refuses` are what becomes of them.
-/

namespace Pacing.Json

variable {β φ : Type} {name : String}

/-! ### The values of a key -/

/-- The values of the members with a key, in order. -/
def valuesOf (name : String) (members : List (String × β)) : List β :=
  (members.filter fun m => m.1 = name).map Prod.snd

theorem valuesOf_cons_self (m : String × β) (members : List (String × β)) :
    valuesOf m.1 (m :: members) = m.2 :: valuesOf m.1 members := by
  simp [valuesOf]

theorem valuesOf_cons_ne {m : String × β} (h : m.1 ≠ name) (members : List (String × β)) :
    valuesOf name (m :: members) = valuesOf name members := by
  simp [valuesOf, h]

theorem valuesOf_memberTrees (name : String) (members : List (String × List Char)) :
    valuesOf name (memberTrees members) = (valuesOf name members).map treeOf := by
  simp [valuesOf, memberTrees, List.filter_map, Function.comp_def]

theorem head?_valuesOf (name : String) (found : List (String × φ)) :
    (valuesOf name found).head? = (found.find? fun p => p.1 = name).map Prod.snd := by
  simp [valuesOf, List.head?_map, List.head?_filter]

theorem any_key_eq_false_iff {found : List (String × φ)} :
    (found.any fun p => p.1 = name) = false ↔ valuesOf name found = [] := by
  simp [valuesOf]

/-! ### Reading by name -/

variable {fields : List (Field φ)} {found found' : List (String × φ)}
  {o : Quoted × Outline} {os : List (Quoted × Outline)} {m : String × Outline}
  {ms : List (String × Outline)} {f : Field φ} {vs : List φ}

/-- A member that is no field is passed over. -/
theorem readFields_cons_of_notMem (hm : Keyed o m) (hnone : m.1 ∉ fields.map Field.name) :
    readFields fields found (o :: os) = .ok found' ↔
      m.2.skip = .ok () ∧ readFields fields found os = .ok found' := by
  have hfind : fields.find? (fun f => f.name = m.1) = none := by
    rw [List.find?_eq_none]
    intro f hf
    rw [decide_eq_true_iff]
    intro hname
    exact hnone (hname ▸ List.mem_map_of_mem hf)
  obtain ⟨k, value⟩ := o
  obtain ⟨hkey, rfl⟩ := hm
  simp only [readFields, hkey, bind, Except.bind, hfind]
  cases m.2.skip <;> simp

/-- A member that is a field is read, if the field was not found before. -/
theorem readFields_cons_of_mem (hnodup : (fields.map Field.name).Nodup) (hm : Keyed o m)
    (hf : f ∈ fields) (hname : f.name = m.1) :
    readFields fields found (o :: os) = .ok found' ↔ valuesOf m.1 found = [] ∧
      ∃ v, f.read m.2 = .ok v ∧ readFields fields ((m.1, v) :: found) os = .ok found' := by
  have hfind : fields.find? (fun f => f.name = m.1) = some f := by
    cases hg : fields.find? fun f => f.name = m.1 with
    | none => exact absurd hname (by simpa using List.find?_eq_none.mp hg f hf)
    | some g =>
      have hsame : g.name = m.1 := by simpa using List.find?_some hg
      rw [List.inj_on_of_nodup_map hnodup (List.mem_of_find?_eq_some hg) hf
        (hsame.trans hname.symm)]
  obtain ⟨k, value⟩ := o
  obtain ⟨hkey, rfl⟩ := hm
  simp only [readFields, hkey, hfind, ← any_key_eq_false_iff, bind, Except.bind]
  cases found.any fun p => p.1 = m.1 with
  | true => simp
  | false => cases f.read m.2 <;> simp

/-- What some members add to what was found of a field: nothing, or the value of the only one. -/
inductive Settles (f : Field φ) (found : List (String × φ)) (ms : List (String × Outline))
    (found' : List (String × φ)) : Prop
  | absent : valuesOf f.name ms = [] → valuesOf f.name found' = valuesOf f.name found →
      Settles f found ms found'
  | only {o : Outline} {v : φ} : valuesOf f.name ms = [o] → f.read o = .ok v →
      valuesOf f.name found = [] → valuesOf f.name found' = [v] → Settles f found ms found'

/-- A member with another key does not matter to a field. -/
theorem Settles.cons_ne (h : Settles f found ms found') (hm : m.1 ≠ f.name) :
    Settles f found (m :: ms) found' := by
  cases h with
  | absent hms hfound => exact .absent (by rw [valuesOf_cons_ne hm, hms]) hfound
  | only hms hread hfound hfound' =>
    exact .only (by rw [valuesOf_cons_ne hm, hms]) hread hfound hfound'

/-- Nor does a value that was found for another key. -/
theorem Settles.of_found_ne {key : String} {v : φ} (h : Settles f ((key, v) :: found) ms found')
    (hkey : key ≠ f.name) : Settles f found ms found' := by
  have hsame := valuesOf_cons_ne (m := (key, v)) hkey found
  cases h with
  | absent hms hfound => exact .absent hms (hfound.trans hsame)
  | only hms hread hfound hfound' => exact .only hms hread (hsame.symm.trans hfound) hfound'

/-- The field of a member that is read is settled by it, and by none after it. -/
theorem Settles.cons_self {v : φ} (h : Settles f ((f.name, v) :: found) ms found')
    (hm : m.1 = f.name) (hread : f.read m.2 = .ok v) (hnew : valuesOf f.name found = []) :
    Settles f found (m :: ms) found' := by
  have hself : valuesOf f.name ((f.name, v) :: found) = [v] := by
    rw [valuesOf_cons_self (f.name, v), hnew]
  cases h with
  | absent hms hfound =>
    refine .only ?_ hread hnew (hfound.trans hself)
    rw [← hm, valuesOf_cons_self, hm, hms]
  | only _ _ hfound _ =>
    rw [hself] at hfound
    cases hfound

/-- Members that are read settle every field, and none of the others stops the reading. -/
theorem readFields_sound (hnodup : (fields.map Field.name).Nodup) (hkeyed : List.Forall₂ Keyed os ms)
    (h : readFields fields found os = .ok found') :
    (∀ f ∈ fields, Settles f found ms found') ∧
      ∀ m ∈ ms, m.1 ∉ fields.map Field.name → m.2.skip = .ok () := by
  induction hkeyed generalizing found with
  | nil =>
    rw [readFields] at h
    cases h
    exact ⟨fun f _ => .absent rfl rfl, List.forall_mem_nil _⟩
  | @cons o m os ms hm _ ih =>
    by_cases hmem : m.1 ∈ fields.map Field.name
    · obtain ⟨f, hf, hname⟩ := List.mem_map.mp hmem
      obtain ⟨hnew, v, hv, hrest⟩ := (readFields_cons_of_mem hnodup hm hf hname).mp h
      obtain ⟨hsettles, hskip⟩ := ih hrest
      refine ⟨fun g hg => ?_, List.forall_mem_cons.mpr ⟨fun hnot => absurd hmem hnot, hskip⟩⟩
      by_cases hgm : m.1 = g.name
      · obtain rfl := List.inj_on_of_nodup_map hnodup hf hg (hname.trans hgm)
        exact (hname ▸ hsettles f hg).cons_self hname.symm hv (hname ▸ hnew)
      · exact ((hsettles g hg).of_found_ne hgm).cons_ne hgm
    · obtain ⟨hpass, hrest⟩ := (readFields_cons_of_notMem hm hmem).mp h
      obtain ⟨hsettles, hskip⟩ := ih hrest
      refine ⟨fun g hg => ?_, List.forall_mem_cons.mpr ⟨fun _ => hpass, hskip⟩⟩
      exact (hsettles g hg).cons_ne fun hsame => hmem (hsame ▸ List.mem_map_of_mem hg)

/-- Members are read if each field comes at most once, where it was not found before, and none of
the others stops the reading. -/
theorem readFields_complete (hnodup : (fields.map Field.name).Nodup)
    (hkeyed : List.Forall₂ Keyed os ms)
    (hfields : ∀ f ∈ fields, valuesOf f.name ms = [] ∨ valuesOf f.name found = [] ∧
      ∃ o v, valuesOf f.name ms = [o] ∧ f.read o = .ok v)
    (hothers : ∀ m ∈ ms, m.1 ∉ fields.map Field.name → m.2.skip = .ok ()) :
    ∃ found', readFields fields found os = .ok found' := by
  induction hkeyed generalizing found with
  | nil => exact ⟨found, by rw [readFields]⟩
  | @cons o m os ms hm _ ih =>
    obtain ⟨hpass, hothers⟩ := List.forall_mem_cons.mp hothers
    by_cases hmem : m.1 ∈ fields.map Field.name
    · obtain ⟨f, hf, hname⟩ := List.mem_map.mp hmem
      obtain ⟨hnew, tree, v, hone, hv⟩ : valuesOf f.name found = [] ∧
          ∃ o v, valuesOf f.name (m :: ms) = [o] ∧ f.read o = .ok v := by
        refine (hfields f hf).resolve_left ?_
        rw [hname, valuesOf_cons_self]
        exact List.cons_ne_nil _ _
      rw [hname, valuesOf_cons_self, List.cons.injEq] at hone
      obtain ⟨rfl, hnone⟩ := hone
      have hlater : ∀ g ∈ fields, valuesOf g.name ms = [] ∨
          valuesOf g.name ((m.1, v) :: found) = [] ∧
            ∃ o v, valuesOf g.name ms = [o] ∧ g.read o = .ok v := by
        intro g hg
        by_cases hgm : m.1 = g.name
        · exact .inl (by rw [← hgm, hnone])
        · have hfits := hfields g hg
          rw [valuesOf_cons_ne hgm] at hfits
          rwa [valuesOf_cons_ne (m := (m.1, v)) hgm]
      obtain ⟨found', hfound'⟩ := ih hlater hothers
      exact ⟨found', (readFields_cons_of_mem hnodup hm hf hname).mpr
        ⟨by rw [← hname, hnew], v, hv, hfound'⟩⟩
    · have hlater : ∀ g ∈ fields, valuesOf g.name ms = [] ∨ valuesOf g.name found = [] ∧
          ∃ o v, valuesOf g.name ms = [o] ∧ g.read o = .ok v := by
        intro g hg
        have hgm : m.1 ≠ g.name := fun hsame => hmem (hsame ▸ List.mem_map_of_mem hg)
        have hfits := hfields g hg
        rwa [valuesOf_cons_ne hgm] at hfits
      obtain ⟨found', hfound'⟩ := ih hlater hothers
      exact ⟨found', (readFields_cons_of_notMem hm hmem).mpr ⟨hpass hmem, hfound'⟩⟩

/-- Of members that are read, every key is. -/
theorem exists_keyed (h : readFields fields found os = .ok found') :
    ∃ ms, List.Forall₂ Keyed os ms := by
  induction os generalizing found with
  | nil => exact ⟨[], .nil⟩
  | cons o os ih =>
    obtain ⟨k, value⟩ := o
    rw [readFields] at h
    obtain ⟨key, hkey, h⟩ := bind_eq_ok.mp h
    have hrest : ∃ later, readFields fields later os = .ok found' := by
      cases hfind : fields.find? (fun f => f.name = key) with
      | none =>
        rw [hfind] at h
        obtain ⟨-, -, hrest⟩ := bind_eq_ok.mp h
        exact ⟨found, hrest⟩
      | some f =>
        rw [hfind] at h
        dsimp only at h
        split at h
        · cases h
        · obtain ⟨v, -, hrest⟩ := bind_eq_ok.mp h
          exact ⟨_, hrest⟩
    obtain ⟨later, hlater⟩ := hrest
    obtain ⟨ms, hms⟩ := ih hlater
    exact ⟨(key, value) :: ms, .cons ⟨hkey, rfl⟩ hms⟩

theorem collectFields_eq_ok : collectFields found fields = .ok vs ↔
    List.Forall₂ (fun f v => (valuesOf f.name found).head? = some v) fields vs := by
  induction fields generalizing vs with
  | nil =>
    rw [collectFields, List.forall₂_nil_left_iff, Except.ok.injEq]
    exact eq_comm
  | cons f fields ih =>
    rw [List.forall₂_cons_left_iff, collectFields]
    cases hfind : found.find? fun p => p.1 = f.name with
    | none =>
      simp [head?_valuesOf, hfind]
    | some p =>
      simp only [bind_eq_ok, pure_eq_ok, ih, head?_valuesOf, hfind, Option.map_some,
        Option.some.injEq]
      constructor
      · rintro ⟨vs, hvs, rfl⟩
        exact ⟨p.2, vs, rfl, hvs, rfl⟩
      · rintro ⟨_, vs, rfl, hvs, rfl⟩
        exact ⟨vs, hvs, rfl⟩

/-- A record is read from an object exactly if it has each field once and no fault in the others. -/
theorem readRecord_object_eq_ok {ending : Ending} (hnodup : (fields.map Field.name).Nodup)
    (hkeyed : List.Forall₂ Keyed os ms) :
    readRecord fields (.object os ending) = .ok vs ↔ ending = .closed ∧
      List.Forall₂ (fun f v => ∃ o, valuesOf f.name ms = [o] ∧ f.read o = .ok v) fields vs ∧
      ∀ m ∈ ms, m.1 ∉ fields.map Field.name → m.2.skip = .ok () := by
  simp only [readRecord, bind_eq_ok, Ending.check_eq_ok, collectFields_eq_ok]
  constructor
  · rintro ⟨found, hfound, -, hclosed, hcollect⟩
    obtain ⟨hsettles, hothers⟩ := readFields_sound hnodup hkeyed hfound
    refine ⟨hclosed, ?_, hothers⟩
    refine ((List.forall₂_and_left _ _).mpr ⟨hsettles, hcollect⟩).imp fun f v ⟨hf, hv⟩ => ?_
    cases hf with
    | absent _ hnone =>
      rw [hnone] at hv
      cases hv
    | only hone hread _ hvalue =>
      rw [hvalue] at hv
      cases hv
      exact ⟨_, hone, hread⟩
  · rintro ⟨hclosed, hfields, hothers⟩
    have hone : ∀ f ∈ fields, ∃ o v, valuesOf f.name ms = [o] ∧ f.read o = .ok v := by
      intro f hf
      obtain ⟨i, hi, rfl⟩ := List.getElem_of_mem hf
      obtain ⟨o, ho, hread⟩ := hfields.get hi (hfields.length_eq ▸ hi)
      exact ⟨o, _, ho, hread⟩
    obtain ⟨found, hfound⟩ : ∃ found, readFields fields [] os = .ok found :=
      readFields_complete hnodup hkeyed (fun f hf => .inr ⟨rfl, hone f hf⟩) hothers
    refine ⟨found, hfound, (), hclosed, ?_⟩
    obtain ⟨hsettles, -⟩ := readFields_sound hnodup hkeyed hfound
    refine ((List.forall₂_and_left _ _).mpr ⟨hsettles, hfields⟩).imp fun f v ⟨hf, o, ho, hread⟩ => ?_
    cases hf with
    | absent hnone _ =>
      rw [hnone] at ho
      cases ho
    | only hone hread' _ hvalue =>
      rw [hone] at ho
      cases ho
      rw [hread] at hread'
      cases hread'
      rw [hvalue, List.head?_cons]

/-! ### Reading by position -/

/-- A record is read from an array exactly if it has the fields and nothing else. -/
theorem readPositions_eq_ok {os : List Outline} {ending : Ending} :
    readPositions fields os ending = .ok vs ↔ ending = .closed ∧ os.length = fields.length ∧
      List.Forall₂ (fun (p : Field φ × Outline) v => p.1.read p.2 = .ok v) (fields.zip os) vs := by
  induction fields generalizing os vs with
  | nil =>
    cases os with
    | nil =>
      simp only [readPositions, bind_eq_ok, pure_eq_ok, Ending.check_eq_ok, List.zip_nil_left,
        List.forall₂_nil_left_iff]
      exact ⟨fun ⟨_, hclosed, hvs⟩ => ⟨hclosed, rfl, hvs.symm⟩,
        fun ⟨hclosed, _, hvs⟩ => ⟨(), hclosed, hvs.symm⟩⟩
    | cons o os => simp [readPositions]
  | cons f fields ih =>
    cases os with
    | nil => simp [readPositions, bind_eq_ok]
    | cons o os =>
      simp only [readPositions, bind_eq_ok, pure_eq_ok, ih, List.zip_cons_cons,
        List.forall₂_cons_left_iff, List.length_cons, Nat.add_right_cancel_iff]
      constructor
      · rintro ⟨v, hv, vs, ⟨hclosed, hlength, hvs⟩, rfl⟩
        exact ⟨hclosed, hlength, v, vs, hv, hvs, rfl⟩
      · rintro ⟨hclosed, hlength, v, vs, hv, hvs, rfl⟩
        exact ⟨v, hv, vs, ⟨hclosed, hlength, hvs⟩, rfl⟩

/-! ### Whatever is read -/

/-- Every value of a record was read by its field, whatever the record was read from. -/
theorem readRecord_sound (hnodup : (fields.map Field.name).Nodup) {o : Outline}
    (h : readRecord fields o = .ok vs) :
    List.Forall₂ (fun f v => ∃ o, f.read o = .ok v) fields vs := by
  cases o with
  | object members ending =>
    obtain ⟨found, hfound, -⟩ := bind_eq_ok.mp h
    obtain ⟨ms, hkeyed⟩ := exists_keyed hfound
    obtain ⟨-, hfields, -⟩ := (readRecord_object_eq_ok hnodup hkeyed).mp h
    exact hfields.imp fun _ _ ⟨o, _, hread⟩ => ⟨o, hread⟩
  | array elements ending =>
    obtain ⟨-, hlength, hfields⟩ := readPositions_eq_ok.mp h
    refine List.forall₂_of_length_eq_of_get ?_ fun i hi hi' => ?_
    · rw [← hfields.length_eq, List.length_zip, hlength, Nat.min_self]
    · have hzip : i < (fields.zip elements).length := by rw [hfields.length_eq]; exact hi'
      have hget := hfields.get hzip hi'
      rw [List.get_eq_getElem, List.getElem_zip] at hget
      exact ⟨_, hget⟩
  | null | bool | number | text | brokenNumber | missing =>
    rw [readRecord] at h
    · exact absurd h Outline.refuse_ne_ok
    all_goals exact nofun

/-! ### Records in texts -/

/-- The members of an object in a text, seen by a record: each field once, and no fault in others. -/
theorem ObjectOf.readRecord_eq_ok {members : List (String × List Char)} {text : List Char}
    (h : ObjectOf members text) (hcomplete : ∀ m ∈ members, Complete m.2)
    (hnodup : (fields.map Field.name).Nodup) :
    readRecord fields (treeOf text) = .ok vs ↔
      List.Forall₂ (fun f v => ∃ value, valuesOf f.name members = [value] ∧
        f.read (treeOf value) = .ok v) fields vs ∧
      ∀ m ∈ members, m.1 ∉ fields.map Field.name → (treeOf m.2).skip = .ok () := by
  obtain ⟨-, os, htree, hkeyed⟩ := h.tree hcomplete
  have hvalue : ∀ (f : Field φ) (v : φ),
      (∃ o, valuesOf f.name (memberTrees members) = [o] ∧ f.read o = .ok v) ↔
        ∃ value, valuesOf f.name members = [value] ∧ f.read (treeOf value) = .ok v := by
    intro f v
    simp only [valuesOf_memberTrees, List.map_eq_singleton_iff]
    exact ⟨fun ⟨_, ⟨value, hvalue, rfl⟩, hread⟩ => ⟨value, hvalue, hread⟩,
      fun ⟨value, hvalue, hread⟩ => ⟨_, ⟨value, hvalue, rfl⟩, hread⟩⟩
  have hothers : (∀ m ∈ memberTrees members, m.1 ∉ fields.map Field.name → m.2.skip = .ok ()) ↔
      ∀ m ∈ members, m.1 ∉ fields.map Field.name → (treeOf m.2).skip = .ok () :=
    List.forall_mem_map
  rw [htree, readRecord_object_eq_ok hnodup hkeyed, hothers]
  simp only [hvalue, true_and]

/-- The elements of an array in a text, seen by a record: exactly its fields. -/
theorem ArrayOf.readRecord_eq_ok {elements : List (List Char)} {text : List Char}
    (h : ArrayOf elements text) (hcomplete : ∀ e ∈ elements, Complete e) :
    readRecord fields (treeOf text) = .ok vs ↔ elements.length = fields.length ∧
      List.Forall₂ (fun (p : Field φ × List Char) v => p.1.read (treeOf p.2) = .ok v)
        (fields.zip elements) vs := by
  rw [(h.tree hcomplete).2, readRecord, readPositions_eq_ok, List.length_map, List.zip_map_right,
    List.forall₂_map_left_iff]
  exact and_iff_right rfl

/-- A text of a record, given the texts that the value of each of its fields may have: an object with
each field once, in any order, and with any documents as other members, or an array of the fields. -/
inductive RecordText (wanted : List (String × (List Char → Prop))) : List Char → Prop
  | object {members : List (String × List Char)} {text : List Char} : ObjectOf members text →
      (∀ w ∈ wanted, ∃ value, valuesOf w.1 members = [value] ∧ w.2 value) →
      (∀ m ∈ members, m.1 ∉ wanted.map Prod.fst → Document m.2) → RecordText wanted text
  | array {elements : List (List Char)} {text : List Char} : ArrayOf elements text →
      List.Forall₂ (fun w value => w.2 value) wanted elements → RecordText wanted text

/-- The parts of a flawed record are documents or, where a field is itself flawed, texts of that. -/
def Passable (flaws : List (String × (List Char → Prop))) (value : List Char) : Prop :=
  Document value ∨ ∃ k ∈ flaws, k.2 value

/-- The values of a field are not one value without a flaw. -/
inductive Misfit (Flawed : List Char → Prop) : List (List Char) → Prop
  | absent : Misfit Flawed []
  | repeated {values : List (List Char)} : 2 ≤ values.length → Misfit Flawed values
  | flawed {value : List Char} {values : List (List Char)} : value ∈ values → Flawed value →
      Misfit Flawed values

theorem Misfit.of_singleton {Flawed : List Char → Prop} {value : List Char}
    (h : Misfit Flawed [value]) : Flawed value := by
  cases h with
  | repeated hlength =>
    rw [List.length_singleton] at hlength
    exact absurd hlength (by decide)
  | flawed hmem hflawed =>
    rw [List.mem_singleton] at hmem
    rwa [← hmem]

/-- A text that is no record's, given the flaws that the value of each field may have: a field is
repeated, missing or flawed, or an array has another length. -/
inductive FlawedRecord (flaws : List (String × (List Char → Prop))) : List Char → Prop
  | object {members : List (String × List Char)} {text : List Char}
      {k : String × (List Char → Prop)} : ObjectOf members text →
      (∀ m ∈ members, Passable flaws m.2) → k ∈ flaws → Misfit k.2 (valuesOf k.1 members) →
      FlawedRecord flaws text
  | length {elements : List (List Char)} {text : List Char} : ArrayOf elements text →
      (∀ e ∈ elements, Passable flaws e) → elements.length ≠ flaws.length →
      FlawedRecord flaws text
  | element {elements : List (List Char)} {text value : List Char}
      {k : String × (List Char → Prop)} : ArrayOf elements text →
      (∀ e ∈ elements, Passable flaws e) → (k, value) ∈ flaws.zip elements → k.2 value →
      FlawedRecord flaws text

theorem mem_valuesOf {m : String × β} {members : List (String × β)} (h : m ∈ members) :
    m.2 ∈ valuesOf m.1 members :=
  List.mem_map_of_mem (List.mem_filter.mpr ⟨h, decide_eq_true rfl⟩)

/-- A field with a value of it, and texts that are read as the value. -/
structure FieldText (φ : Type) where
  field : Field φ
  value : φ
  Text : List Char → Prop
  reads : ∀ {text : List Char}, Text text → Complete text ∧ field.read (treeOf text) = .ok value

/-- An object with each field once is read as the values of the fields. -/
theorem ObjectOf.reads {parts : List (FieldText φ)} {members : List (String × List Char)}
    {text : List Char} (h : ObjectOf members text)
    (hnodup : (parts.map fun p => p.field.name).Nodup)
    (hfields : ∀ p ∈ parts, ∃ value, valuesOf p.field.name members = [value] ∧ p.Text value)
    (hothers : ∀ m ∈ members, m.1 ∉ parts.map (fun p => p.field.name) → Document m.2) :
    Complete text ∧
      readRecord (parts.map FieldText.field) (treeOf text) = .ok (parts.map FieldText.value) := by
  have hcomplete : ∀ m ∈ members, Complete m.2 := by
    intro m hm
    by_cases hmem : m.1 ∈ parts.map fun p => p.field.name
    · obtain ⟨p, hp, hname⟩ := List.mem_map.mp hmem
      obtain ⟨value, hvalue, htext⟩ := hfields p hp
      have hsame := mem_valuesOf hm
      rw [← hname, hvalue, List.mem_singleton] at hsame
      rw [hsame]
      exact (p.reads htext).1
    · exact (hothers m hm hmem).skip.1
  refine ⟨(h.tree hcomplete).1, (h.readRecord_eq_ok hcomplete ?_).mpr ⟨?_, ?_⟩⟩
  · rwa [List.map_map]
  · rw [List.forall₂_map_left_iff, List.forall₂_map_right_iff, List.forall₂_same]
    intro p hp
    obtain ⟨value, hvalue, htext⟩ := hfields p hp
    exact ⟨value, hvalue, (p.reads htext).2⟩
  · rw [List.map_map]
    exact fun m hm hnone => (hothers m hm hnone).skip.2

/-- An array of the fields is read as their values. -/
theorem ArrayOf.reads {parts : List (FieldText φ)} {elements : List (List Char)} {text : List Char}
    (h : ArrayOf elements text)
    (hfields : List.Forall₂ (fun p value => FieldText.Text p value) parts elements) :
    Complete text ∧
      readRecord (parts.map FieldText.field) (treeOf text) = .ok (parts.map FieldText.value) := by
  have hcomplete : ∀ e ∈ elements, Complete e := by
    intro e he
    obtain ⟨i, hi, rfl⟩ := List.getElem_of_mem he
    have hget := hfields.get (hfields.length_eq ▸ hi) hi
    exact (FieldText.reads _ hget).1
  refine ⟨(h.tree hcomplete).1, (h.readRecord_eq_ok hcomplete).mpr ⟨?_, ?_⟩⟩
  · rw [List.length_map, hfields.length_eq]
  · clear hcomplete h
    induction hfields with
    | nil => exact .nil
    | cons htext _ ih => exact .cons (FieldText.reads _ htext).2 ih

/-- **Records are read.** A text of a record is read as the values of its fields. -/
theorem RecordText.reads (parts : List (FieldText φ))
    (hnodup : (parts.map fun p => p.field.name).Nodup) {text : List Char}
    (h : Around (RecordText (parts.map fun p => (p.field.name, p.Text))) text) :
    Complete text ∧
      readRecord (parts.map FieldText.field) (treeOf text) = .ok (parts.map FieldText.value) := by
  refine h.complete (readRecord _ · = .ok _) fun body hbody => ?_
  cases hbody with
  | object hobject hwanted hothers =>
    rw [List.forall_mem_map] at hwanted
    rw [List.map_map] at hothers
    exact hobject.reads hnodup hwanted hothers
  | array harray hwanted =>
    rw [List.forall₂_map_left_iff] at hwanted
    exact harray.reads hwanted

/-- A field with texts that are refused. -/
structure FieldFlaw (φ : Type) where
  field : Field φ
  Flawed : List Char → Prop
  refuses : ∀ {text : List Char}, Flawed text → Complete text ∧
    ∀ v, field.read (treeOf text) ≠ .ok v

theorem Passable.complete {parts : List (FieldFlaw φ)} {value : List Char}
    (h : Passable (parts.map fun p => (p.field.name, p.Flawed)) value) : Complete value := by
  obtain hdocument | ⟨k, hk, hflawed⟩ := h
  · exact hdocument.skip.1
  · obtain ⟨p, -, rfl⟩ := List.mem_map.mp hk
    exact (p.refuses hflawed).1

/-- **Flawed records are refused.** A text of no record is one value, but not read as a record. -/
theorem FlawedRecord.refuses (parts : List (FieldFlaw φ))
    (hnodup : (parts.map fun p => p.field.name).Nodup) {text : List Char}
    (h : Around (FlawedRecord (parts.map fun p => (p.field.name, p.Flawed))) text) :
    Complete text ∧ ∀ vs, readRecord (parts.map FieldFlaw.field) (treeOf text) ≠ .ok vs := by
  refine h.complete (fun o => ∀ vs, readRecord _ o ≠ .ok vs) fun body hbody => ?_
  cases hbody with
  | @object members _ k hobject hparts hk hmisfit =>
    have hcomplete : ∀ m ∈ members, Complete m.2 := fun m hm => (hparts m hm).complete
    refine ⟨(hobject.tree hcomplete).1, fun vs hread => ?_⟩
    obtain ⟨hfields, -⟩ := (hobject.readRecord_eq_ok hcomplete (by rwa [List.map_map])).mp hread
    rw [List.forall₂_map_left_iff] at hfields
    obtain ⟨p, hp, rfl⟩ := List.mem_map.mp hk
    obtain ⟨i, hi, rfl⟩ := List.getElem_of_mem hp
    obtain ⟨value, hvalue, hv⟩ := hfields.get hi (hfields.length_eq ▸ hi)
    rw [List.get_eq_getElem] at hvalue hv
    rw [hvalue] at hmisfit
    exact (FieldFlaw.refuses _ hmisfit.of_singleton).2 _ hv
  | @length elements _ harray hparts hlength =>
    have hcomplete : ∀ e ∈ elements, Complete e := fun e he => (hparts e he).complete
    refine ⟨(harray.tree hcomplete).1, fun vs hread => hlength ?_⟩
    rw [((harray.readRecord_eq_ok hcomplete).mp hread).1, List.length_map, List.length_map]
  | @element elements _ flawed k harray hparts hk hflawed =>
    have hcomplete : ∀ e ∈ elements, Complete e := fun e he => (hparts e he).complete
    refine ⟨(harray.tree hcomplete).1, fun vs hread => ?_⟩
    obtain ⟨-, hfields⟩ := (harray.readRecord_eq_ok hcomplete).mp hread
    rw [List.zip_map_left] at hk hfields
    obtain ⟨⟨p, value⟩, hp, heq⟩ := List.mem_map.mp hk
    cases heq
    rw [List.forall₂_map_left_iff] at hfields
    obtain ⟨i, hi, hget⟩ := List.getElem_of_mem hp
    have hv := hfields.get hi (hfields.length_eq ▸ hi)
    simp only [List.get_eq_getElem, hget] at hv
    exact (p.refuses hflawed).2 _ hv

end Pacing.Json
