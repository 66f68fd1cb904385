import Mathlib.Data.List.Forall2
import Pacing.Proofs.Json.Printing
import Pacing.Proofs.Json.Recognition

/-!
# The parts of a text

An array is cut into the texts of its elements and an object into the texts of its members, and the
tree of the whole is put together from the trees of the parts. The parts themselves may be any
values. This is what a reader of records needs, which reads some members and passes over others: a
member that is read need not be a document, a number beyond all limits for instance.

* `treeOf` is the tree of a text, `Complete` that the text is one value from end to end.
* `ArrayOf` and `ObjectOf` say which texts an array and an object with given parts have.
* `ArrayOf.tree` and `ObjectOf.tree` are the trees of such texts.
* `Document` is a text of any document; a reader that does not want it passes over it.
-/

namespace Pacing.Json

/-! ### Trees of texts -/

/-- The tree of a text. -/
def treeOf (text : List Char) : Outline := (outline text).1

/-- A text is one value, with nothing missing and nothing after it. -/
def Complete (text : List Char) : Prop :=
  ∃ tokens, Lexes text tokens ∧ Parses tokens (treeOf text)

/-- A text whose tokens are one value is complete, and that value is its tree. -/
theorem complete_and_treeOf {text : List Char} {tokens : List Token} {o : Outline}
    (hlexes : Lexes text tokens) (hparses : Parses tokens o) : Complete text ∧ treeOf text = o := by
  have htree : treeOf text = o := by rw [treeOf, outline_eq hlexes hparses]
  exact ⟨⟨tokens, hlexes, htree ▸ hparses⟩, htree⟩

/-- A reader takes a complete text exactly as it takes its tree. -/
theorem Complete.readText_eq {α : Type} {text : String} (h : Complete text.toList)
    (read : Outline → Except Fault α) : readText read text = read (treeOf text.toList) := by
  obtain ⟨tokens, hlexes, hparses⟩ := h
  exact Json.readText_eq (outline_eq hlexes hparses) read

/-- Blanks around a value do not show in its tree. -/
theorem Around.complete {inner : List Char → Prop} {text : List Char} (h : Around inner text)
    (P : Outline → Prop) (hinner : ∀ body, inner body → Complete body ∧ P (treeOf body)) :
    Complete text ∧ P (treeOf text) := by
  obtain ⟨body, hbody, hblanks⟩ := h.lexes
  obtain ⟨⟨tokens, hlexes, hparses⟩, hP⟩ := hinner body hbody
  obtain ⟨hcomplete, htree⟩ := complete_and_treeOf (hblanks tokens hlexes) hparses
  exact ⟨hcomplete, htree ▸ hP⟩

/-! ### Parts of arrays and objects -/

/-- The elements of an array, each with its text, and its closing bracket. -/
inductive ElementsOf : List (List Char) → (text : List Char) → Prop
  | last {element : List Char} : ElementsOf [element] (element ++ [']'])
  | cons {element : List Char} {elements : List (List Char)} {rest : List Char} :
      ElementsOf elements rest → ElementsOf (element :: elements) (element ++ ',' :: rest)

/-- An array from bracket to bracket, with the texts of its elements. -/
inductive ArrayOf : List (List Char) → (text : List Char) → Prop
  | empty {blanks : List Char} : Blank blanks → ArrayOf [] ('[' :: (blanks ++ [']']))
  | elements {elements : List (List Char)} {text : List Char} :
      ElementsOf elements text → ArrayOf elements ('[' :: text)

/-- The members of an object, each a key and the text of its value, and its closing bracket. -/
inductive MembersOf : List (String × List Char) → (text : List Char) → Prop
  | last {k : String} {key value : List Char} : Written 0 (.string k) key →
      MembersOf [(k, value)] (key ++ ':' :: (value ++ ['\x7d']))
  | cons {k : String} {key value : List Char} {members : List (String × List Char)}
      {rest : List Char} : Written 0 (.string k) key → MembersOf members rest →
      MembersOf ((k, value) :: members) (key ++ ':' :: (value ++ ',' :: rest))

/-- An object from bracket to bracket, with the keys and the texts of its members. -/
inductive ObjectOf : List (String × List Char) → (text : List Char) → Prop
  | empty {blanks : List Char} : Blank blanks → ObjectOf [] ('\x7b' :: (blanks ++ ['\x7d']))
  | members {members : List (String × List Char)} {text : List Char} :
      MembersOf members text → ObjectOf members ('\x7b' :: text)

/-- A member of a tree with its key read. -/
structure Keyed (o : Quoted × Outline) (m : String × Outline) : Prop where
  key : o.1.read = .ok m.1
  value : o.2 = m.2

/-- The trees of members, each with its key. -/
def memberTrees (members : List (String × List Char)) : List (String × Outline) :=
  members.map fun m => (m.1, treeOf m.2)

theorem ElementsOf.parses {elements : List (List Char)} {text : List Char}
    (h : ElementsOf elements text) (helements : ∀ e ∈ elements, Complete e) :
    ∃ tokens, Lexes text tokens ∧ ParsesElements tokens (elements.map treeOf) := by
  induction h with
  | last =>
    obtain ⟨tokens, hlexes, hparses⟩ := helements _ (List.mem_singleton_self _)
    have hclose : Lexes [']'] [.endArray] := Lexes.nil.mark rfl fun _ => rfl
    exact ⟨_, hlexes.append rfl hclose, hparses.last_element⟩
  | cons _ ih =>
    obtain ⟨⟨tokens, hlexes, hparses⟩, hrest⟩ := List.forall_mem_cons.mp helements
    obtain ⟨later, hlater, hparsesLater⟩ := ih hrest
    exact ⟨_, hlexes.append rfl (hlater.mark rfl fun _ => rfl), hparses.cons_element hparsesLater⟩

/-- The tree of an array has the trees of its elements. -/
theorem ArrayOf.tree {elements : List (List Char)} {text : List Char} (h : ArrayOf elements text)
    (helements : ∀ e ∈ elements, Complete e) :
    Complete text ∧ treeOf text = .array (elements.map treeOf) .closed := by
  cases h with
  | empty hblank =>
    have hclose : Lexes [']'] [.endArray] := Lexes.nil.mark rfl fun _ => rfl
    exact complete_and_treeOf ((hclose.blanks hblank).mark rfl fun _ => rfl) .array_nil
  | elements h =>
    obtain ⟨tokens, hlexes, hparses⟩ := h.parses helements
    exact complete_and_treeOf (hlexes.mark rfl fun _ => rfl) hparses.array

theorem MembersOf.parses {members : List (String × List Char)} {text : List Char}
    (h : MembersOf members text) (hmembers : ∀ m ∈ members, Complete m.2) :
    ∃ tokens os, Lexes text tokens ∧ ParsesMembers tokens os ∧
      List.Forall₂ Keyed os (memberTrees members) := by
  induction h with
  | last hkey =>
    obtain ⟨quoted, hread, hlexesKey⟩ := hkey.lexes_string rfl
    obtain ⟨tokens, hlexes, hparses⟩ := hmembers _ (List.mem_singleton_self _)
    have hclose : Lexes ['\x7d'] [.endObject] := Lexes.nil.mark rfl fun _ => rfl
    exact ⟨_, _, hlexesKey.append rfl ((hlexes.append rfl hclose).mark rfl fun _ => rfl),
      hparses.last_member quoted, .cons ⟨hread, rfl⟩ .nil⟩
  | cons hkey _ ih =>
    obtain ⟨quoted, hread, hlexesKey⟩ := hkey.lexes_string rfl
    obtain ⟨⟨tokens, hlexes, hparses⟩, hrest⟩ := List.forall_mem_cons.mp hmembers
    obtain ⟨later, os, hlater, hparsesLater, htrees⟩ := ih hrest
    have hcomma := hlexes.append (c := ',') rfl (hlater.mark rfl fun _ => rfl)
    exact ⟨_, _, hlexesKey.append rfl (hcomma.mark rfl fun _ => rfl),
      hparses.cons_member quoted hparsesLater, .cons ⟨hread, rfl⟩ htrees⟩

/-- The tree of an object has the keys and the trees of its members, in order. -/
theorem ObjectOf.tree {members : List (String × List Char)} {text : List Char}
    (h : ObjectOf members text) (hmembers : ∀ m ∈ members, Complete m.2) :
    Complete text ∧
      ∃ os, treeOf text = .object os .closed ∧ List.Forall₂ Keyed os (memberTrees members) := by
  cases h with
  | empty hblank =>
    have hclose : Lexes ['\x7d'] [.endObject] := Lexes.nil.mark rfl fun _ => rfl
    have hopen := (hclose.blanks hblank).mark (c := '\x7b') rfl fun _ => rfl
    obtain ⟨hcomplete, htree⟩ := complete_and_treeOf hopen .object_nil
    exact ⟨hcomplete, [], htree, .nil⟩
  | members h =>
    obtain ⟨tokens, os, hlexes, hparses, htrees⟩ := h.parses hmembers
    have hopen := hlexes.mark (c := '\x7b') rfl fun _ => rfl
    obtain ⟨hcomplete, htree⟩ := complete_and_treeOf hopen hparses.object
    exact ⟨hcomplete, os, htree, htrees⟩

/-- The compact text of an object is cut into the compact texts of its members. -/
theorem objectOf_chars (members : List (String × Json)) :
    ObjectOf (members.map fun m => (m.1, chars m.2)) (chars (.object members)) := by
  match members with
  | [] => exact .empty Blank.nil
  | (k, v) :: rest =>
    refine .members ?_
    induction rest generalizing k v with
    | nil => exact .last (quote_written k)
    | cons m rest ih => exact .cons (quote_written k) (ih m.1 m.2)

/-! ### Documents nobody wants -/

theorem Quoted.skip_of_read {t : Quoted} {s : String} (h : t.read = .ok s) : t.skip = .ok () := by
  obtain ⟨cs, hcs, -⟩ := bind_eq_ok.mp h
  rw [Quoted.skip, assemble_closed hcs]

mutual

/-- What can be read can be passed over. -/
theorem Outline.skip_of_read {depth : Nat} {o : Outline} {v : Json} (h : o.read depth = .ok v) :
    o.skip = .ok () := by
  match o with
  | .null | .bool _ | .number _ => rw [Outline.skip]
  | .text t =>
    obtain ⟨s, hs, -⟩ := Outline.read_text_eq_ok.mp h
    rw [Outline.skip]
    exact Quoted.skip_of_read hs
  | .array os ending =>
    obtain ⟨inner, -, rfl, vs, hvs, -⟩ := Outline.read_array_eq_ok.mp h
    rw [Outline.skip, skipAll_of_readAll hvs]
    rfl
  | .object os ending =>
    obtain ⟨inner, -, rfl, members, hmembers, -⟩ := Outline.read_object_eq_ok.mp h
    rw [Outline.skip, skipEach_of_readEach hmembers]
    rfl
  | .brokenNumber _ | .missing _ =>
    rw [Outline.read] at h
    cases h

theorem skipAll_of_readAll {depth : Nat} {os : List Outline} {vs : List Json}
    (h : readAll depth os = .ok vs) : skipAll os = .ok () := by
  match os with
  | [] => rw [skipAll]
  | o :: os =>
    obtain ⟨v, hv, rest, hrest, -⟩ := readAll_cons_eq_ok.mp h
    rw [skipAll, Outline.skip_of_read hv]
    exact skipAll_of_readAll hrest

theorem skipEach_of_readEach {depth : Nat} {os : List (Quoted × Outline)}
    {members : List (String × Json)} (h : readEach depth os = .ok members) :
    skipEach os = .ok () := by
  match os with
  | [] => rw [skipEach]
  | (k, o) :: os =>
    obtain ⟨key, hkey, v, hv, rest, hrest, -⟩ := readEach_cons_eq_ok.mp h
    rw [skipEach, Quoted.skip_of_read hkey, Outline.skip_of_read hv]
    exact skipEach_of_readEach hrest

end

/-- A text of any document, nested however deep. -/
def Document (text : List Char) : Prop := ∃ depth v, Written depth v text

/-- A document is one value, which can be passed over. -/
theorem Document.skip {text : List Char} (h : Document text) :
    Complete text ∧ (treeOf text).skip = .ok () := by
  obtain ⟨depth, v, hwritten⟩ := h
  obtain ⟨tokens, o, hlexes, hparses, hread⟩ := hwritten.reads
  obtain ⟨hcomplete, htree⟩ := complete_and_treeOf hlexes hparses
  exact ⟨hcomplete, by rw [htree]; exact Outline.skip_of_read hread⟩

end Pacing.Json
