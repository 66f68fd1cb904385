import Pacing.Word
import Pacing.Proofs.Json.Printing
import Pacing.Proofs.Json.Recognition
import Pacing.Proofs.Lines

/-!
# Lines read again

An output is cut at its line ends, and each line is read on its own. The cut gives the records'
lines back because no line has an end inside, and a line is read as the document of its record, with
the members in the order of their keys.

* `splitOn_linesOf` is the fact about cutting, in bytes.
* `Record.parse_text` is the fact about one line: its item is whatever document the item's own text
  is read as. `Record.Kept.parse_text` says when that is the item itself.
-/

namespace Pacing

/-! ### Cutting -/

/-- The bytes of a record's line, without its end. -/
def Record.bytes (r : Record) : List UInt8 := r.text.toUTF8.data.toList

theorem Record.newline_notMem_bytes (r : Record) : 10 ∉ r.bytes := by
  have hcount : lineCount r.text.toUTF8 = 0 := by
    rw [lineCount_toUTF8]
    exact List.count_eq_zero.mpr r.newline_notMem_text
  exact List.count_eq_zero.mp hcount

theorem Record.bytes_ne_nil (r : Record) : r.bytes ≠ [] := by
  intro h
  have hsize : r.text.utf8ByteSize = 0 := by
    have hlength : r.bytes.length = r.text.utf8ByteSize := by simp [bytes]
    rw [← hlength, h, List.length_nil]
  have hempty : r.text = "" := String.utf8ByteSize_eq_zero_iff.mp hsize
  have hchars : r.toJson.chars = [] := by
    rw [← Json.print_toList, ← text, hempty, String.toList_empty]
  cases hchars

theorem linesOf_append (records later : List Record) :
    linesOf (records ++ later) = linesOf records ++ linesOf later := by
  simp [linesOf]

theorem linesOf_cons (r : Record) (records : List Record) :
    linesOf (r :: records) = r.text ++ "\n" ++ linesOf records := by
  simp [linesOf]

/-- The bytes of an output are those of its lines, each with its end. -/
theorem linesOf_bytes (records : List Record) :
    (linesOf records).toUTF8.data.toList = records.flatMap fun r => r.bytes ++ [10] := by
  induction records with
  | nil => rfl
  | cons r records ih =>
    rw [linesOf_cons, List.flatMap_cons, ← ih]
    have hend : "\n".toByteArray.data.toList = [10] := rfl
    simp [Record.bytes, hend]

/-- **Cutting.** An output is cut at its line ends into the lines of its records; nothing follows
the last end. -/
theorem splitOn_linesOf (records : List Record) :
    (linesOf records).toUTF8.data.toList.splitOn 10 = records.map Record.bytes ++ [[]] := by
  rw [linesOf_bytes]
  induction records with
  | nil => rfl
  | cons r records ih =>
    rw [List.flatMap_cons, List.append_assoc, List.singleton_append,
      List.splitOn_append_cons_self_of_not_mem r.newline_notMem_bytes, ih]
    rfl

/-! ### Members in reverse -/

/-- A key before all others goes to the front. -/
theorem Json.insertMember_of_forall_lt {key : String} {value : Json}
    {members : List (String × Json)} (h : ∀ m ∈ members, key < m.1) :
    insertMember key value members = (key, value) :: members := by
  cases members with
  | nil => rfl
  | cons m members => exact if_pos (h m (List.mem_cons_self ..))

/-- Members in the opposite order of their keys are turned round. -/
theorem Json.sortMembers_of_descending {members : List (String × Json)}
    (h : (members.map Prod.fst).Pairwise fun k k' => k' < k) :
    sortMembers members = members.reverse := by
  have hpairs : members.Pairwise fun m m' => m'.1 < m.1 := List.pairwise_map.mp h
  -- What has been sorted so far is turned round, and all its keys are beyond those to come.
  have hrun : ∀ sorted later : List (String × Json), later.Pairwise (fun m m' => m'.1 < m.1) →
      (∀ m ∈ later, ∀ m' ∈ sorted, m.1 < m'.1) →
      later.foldl (fun sorted m => insertMember m.1 m.2 sorted) sorted = later.reverse ++ sorted := by
    intro sorted later
    induction later generalizing sorted with
    | nil => exact fun _ _ => rfl
    | cons m later ih =>
      intro hpairwise hbeyond
      obtain ⟨hm, hlater⟩ := List.pairwise_cons.mp hpairwise
      obtain ⟨hfirst, hrest⟩ := List.forall_mem_cons.mp hbeyond
      rw [List.foldl_cons, insertMember_of_forall_lt hfirst, ih _ hlater fun m' hm' =>
        List.forall_mem_cons.mpr ⟨hm m' hm', hrest m' hm'⟩]
      simp
  simpa [sortMembers] using hrun [] members hpairs nofun

/-- An object whose keys are written in the opposite order is read with its members turned round. -/
theorem Json.written_descending {depth : Nat} {members read : List (String × Json)}
    (h : List.Forall₂ (ReadAs depth) members read)
    (hkeys : (read.map Prod.fst).Pairwise fun k k' => k' < k) :
    Written (depth + 1) (.object read.reverse) (chars (.object members)) :=
  sortMembers_of_descending hkeys ▸ .object (objectText_chars h)

/-! ### Reading a line -/

/-- The document an item is read as: the members of an event stand in the order of their keys. -/
def Item.document : Item → Json
  | .event e => .object [("sequence", .int e.sequence), ("timestamp", .int e.timestamp)]
  | .long n => .int n
  | .value v => v

/-- An item that its text keeps: 64-bit integers, or a document that its compact text keeps, at most
126 arrays and objects deep. -/
def Item.Kept : Item → Prop
  | .event e => Word.InRange e.timestamp ∧ Word.InRange e.sequence
  | .long n => Word.InRange n
  | .value v => Json.Kept 126 v

theorem int_written {n : Int} (h : Word.InRange n) {depth : Nat} :
    Json.Written depth (.int n) (Json.chars (.int n)) := by
  have hhigh : n ≤ 9223372036854775807 := h.2
  exact .number (.int h.1 (by omega))

theorem Item.Kept.written {item : Item} (h : item.Kept) :
    Json.Written 126 item.document (Json.chars item.toJson) := by
  cases item with
  | event e =>
    have hmembers : List.Forall₂ (Json.ReadAs 125)
        [("timestamp", .int e.timestamp), ("sequence", .int e.sequence)]
        [("timestamp", .int e.timestamp), ("sequence", .int e.sequence)] :=
      .cons ⟨rfl, int_written h.1⟩ (.cons ⟨rfl, int_written h.2⟩ .nil)
    have hkeys : ["timestamp", "sequence"].Pairwise fun k k' => k' < k := by decide
    exact Json.written_descending hmembers hkeys
  | long n => exact int_written h
  | value v => exact Json.Kept.written h

namespace Record

/-- A record whose worker and time are within the limits of their fields. -/
structure InWords (r : Record) : Prop where
  worker : r.worker < Word.countLimit
  timestamp : ∀ t, r.timestamp = some t → Word.InRange t

/-- A record that its line keeps. -/
structure Kept (r : Record) : Prop extends r.InWords where
  item : r.item.Kept

/-- The members of the document a record is read as: the document its item is read as, its time if
it has one, and the worker. -/
def membersWith (r : Record) (item : Json) : List (String × Json) :=
  ("item", item)
    :: (r.timestamp.elim [] fun t => [("timestamp", .int t)])
    ++ [("worker", .count r.worker)]

/-- The members of a record whose item is read as it was. -/
def members (r : Record) : List (String × Json) := r.membersWith r.item.document

/-- The line of a record: its worker, its time if it has one, and the compact text of its item. -/
theorem text_eq (r : Record) : r.text = "\x7b\"worker\":" ++ toString r.worker ++
    (r.timestamp.elim "" fun t => ",\"timestamp\":" ++ toString t) ++
    ",\"item\":" ++ r.item.toJson.print ++ "\x7d" := by
  have hworker : Json.quote "worker" = "\"worker\"".toList := by decide
  have htimestamp : Json.quote "timestamp" = "\"timestamp\"".toList := by decide
  have hitem : Json.quote "item" = "\"item\"".toList := by decide
  have hcount : (r.worker : Int).repr = r.worker.repr := rfl
  rw [← String.toList_inj, text, Json.print_toList, toJson]
  cases r.timestamp with
  | none | some t =>
    simp [Json.chars, Json.memberChars, Json.print_toList, Json.count, Json.int, Json.Number.print,
      hworker, htimestamp, hitem, hcount]

/-- **Reading a line.** The text of a record is read as its worker, its time if it has one, and
what the text of its item is read as on its own. -/
theorem parse_text {r : Record} (h : r.InWords) {v : Json}
    (hitem : Json.parseWithin 126 r.item.toJson.print = .ok v) :
    Json.parse r.text = .ok (.object (r.membersWith v)) := by
  have hworker : Json.Written 126 (.count r.worker) (Json.chars (.count r.worker)) :=
    .number (.int (by omega) (Int.ofNat_lt.mpr h.worker))
  have hvalue : Json.Written 126 v (Json.chars r.item.toJson) := by
    rw [← Json.print_toList]
    exact Json.parseWithin_eq_ok.mp hitem
  have hlast : List.Forall₂ (Json.ReadAs 126) [("item", r.item.toJson)] [("item", v)] :=
    .cons ⟨rfl, hvalue⟩ .nil
  have htext : Json.Written 127 (.object (r.membersWith v)) (Json.chars r.toJson) := by
    unfold membersWith toJson
    cases htimestamp : r.timestamp with
    | none =>
      have hmembers : List.Forall₂ (Json.ReadAs 126)
          [("worker", .count r.worker), ("item", r.item.toJson)]
          [("worker", .count r.worker), ("item", v)] := .cons ⟨rfl, hworker⟩ hlast
      have hkeys : ["worker", "item"].Pairwise fun k k' => k' < k := by decide
      exact Json.written_descending hmembers hkeys
    | some t =>
      have hmembers : List.Forall₂ (Json.ReadAs 126)
          [("worker", .count r.worker), ("timestamp", .int t), ("item", r.item.toJson)]
          [("worker", .count r.worker), ("timestamp", .int t), ("item", v)] :=
        .cons ⟨rfl, hworker⟩ (.cons ⟨rfl, int_written (h.timestamp t htimestamp)⟩ hlast)
      have hkeys : ["worker", "timestamp", "item"].Pairwise fun k k' => k' < k := by decide
      exact Json.written_descending hmembers hkeys
  exact Json.Written.parseWithin_eq (by rw [text, Json.print_toList]; exact htext)

/-- A record that its line keeps is found again in it. -/
theorem Kept.parse_text {r : Record} (h : r.Kept) : Json.parse r.text = .ok (.object r.members) :=
  Record.parse_text h.toInWords
    (Json.Written.parseWithin_eq (by rw [Json.print_toList]; exact h.item.written))

end Record

end Pacing
