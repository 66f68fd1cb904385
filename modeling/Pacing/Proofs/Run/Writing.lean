import Pacing.Proofs.Records
import Pacing.Proofs.Run.Output

/-!
# What a whole output is

A writer that is handed batches writes the lines of their records, in order. When the sink fails
it stops, wherever it is, also inside a line; what the sink has taken by then is the beginning of
those lines. The lines themselves are told apart and read again one by one.

* `Wrote.advance_cases` says all that one step of writing a batch can do, and from it
  `Wrote.advanceTimes` and `Wrote.writeAll` what a batch and all batches come to.
* `output_decodes` is the main statement.
-/

namespace Pacing.Run

/-! ### The beginning of an output -/

/-- The sink's bytes are the beginning of the lines of these records. -/
def Sink.TookPrefix (s : Sink) (records : List Record) : Prop :=
  ∃ more : ByteArray, s.taken ++ more = (linesOf records).toUTF8

theorem Sink.TookPrefix.append {s : Sink} {records : List Record} (h : s.TookPrefix records)
    (later : List Record) : s.TookPrefix (records ++ later) := by
  obtain ⟨more, hmore⟩ := h
  refine ⟨more ++ (linesOf later).toUTF8, ?_⟩
  rw [← ByteArray.append_assoc, hmore, linesOf_append]
  simp only [String.toUTF8_eq_toByteArray, String.toByteArray_append]

/-- However a write ends, the sink has taken some first part of the bytes and nothing else. -/
theorem Sink.taken_append_of_writeBytes (calls : Nat) (bytes : ByteArray) (s : Sink) :
    ∃ more, (writeBytes calls bytes s).1.taken ++ more = s.taken ++ bytes := by
  induction calls generalizing bytes s with
  | zero => exact ⟨bytes, rfl⟩
  | succ calls ih =>
    unfold writeBytes
    split
    case isTrue => exact ⟨bytes, rfl⟩
    case isFalse =>
      dsimp only
      split
      · exact ⟨bytes, rfl⟩
      · split
        · exact ⟨bytes, rfl⟩
        · obtain ⟨more, hmore⟩ := ih _ _
          refine ⟨more, hmore.trans ?_⟩
          rw [ByteArray.append_assoc,
            ← ByteArray.extract_eq_extract_append_extract _ (Nat.zero_le _) (Nat.min_le_right _ _),
            ByteArray.extract_zero_size]

theorem Sink.tookPrefix_of_writeRecord {s : Sink} {records : List Record}
    (h : s.taken = (linesOf records).toUTF8) (r : Record) :
    (s.writeRecord r).1.TookPrefix (records ++ [r]) := by
  obtain ⟨more, hmore⟩ := taken_append_of_writeBytes (r.text ++ "\n").toUTF8.size
    (r.text ++ "\n").toUTF8 s
  refine ⟨more, ?_⟩
  rw [writeRecord, hmore, h, linesOf_snoc]
  simp only [String.toUTF8_eq_toByteArray, String.toByteArray_append]

/-! ### Sinks that never fail -/

/-- No call fails, and every call takes a byte. -/
structure SinkPlan.NeverFails (plan : SinkPlan) : Prop where
  writes : ∀ n, plan.writeFails n = false
  flushes : ∀ n, plan.flushFails n = false
  chunk : ∀ n, plan.chunk n ≠ some 0

section NeverFails

variable {plan : SinkPlan}

theorem Sink.writeBytes_of_neverFails (h : plan.NeverFails) (calls : Nat) (bytes : ByteArray)
    {s : Sink} (hs : s.plan = plan) :
    ∃ s', writeBytes calls bytes s = (s', .ok ()) ∧ s'.plan = plan := by
  induction calls generalizing bytes s with
  | zero => exact ⟨s, rfl, hs⟩
  | succ calls ih =>
    unfold writeBytes
    split
    case isTrue => exact ⟨s, rfl, hs⟩
    case isFalse hsome =>
      have haccepted : min ((plan.chunk s.writes).getD bytes.size) bytes.size ≠ 0 := by
        have hchunk : (plan.chunk s.writes).getD bytes.size ≠ 0 := by
          cases hc : plan.chunk s.writes with
          | none => exact hsome
          | some n => exact fun hzero => h.chunk _ (hc.trans (congrArg some hzero))
        omega
      simp only [hs, h.writes, haccepted, Bool.false_eq_true, if_false]
      exact ih _ rfl

theorem Sink.flush_of_neverFails (h : plan.NeverFails) {s : Sink} (hs : s.plan = plan) :
    ∃ s', s.flush = (s', .ok ()) ∧ s'.plan = plan := by
  simp only [flush, hs, h.flushes, Bool.false_eq_true, if_false]
  exact ⟨_, rfl, rfl⟩

namespace Writer

/-- A writer that has not failed, with a sink that never does. -/
structure Safe (plan : SinkPlan) (w : Writer) : Prop where
  plan_eq : w.sink.plan = plan
  isOpen : w.isOpen = true

theorem Safe.advance {w : Writer} (h : plan.NeverFails) (hw : w.Safe plan) : w.advance.Safe plan := by
  obtain ⟨hplan, hopen⟩ := hw
  unfold Writer.advance
  split
  · rename_i r rest hphase
    obtain ⟨s', hwrite, hplan'⟩ := Sink.writeBytes_of_neverFails h (r.text ++ "\n").toUTF8.size
      (r.text ++ "\n").toUTF8 hplan
    rw [show w.sink.writeRecord r = (s', .ok ()) from hwrite]
    exact ⟨hplan', rfl⟩
  · obtain ⟨s', hflush, hplan'⟩ := Sink.flush_of_neverFails h hplan
    rw [hflush]
    exact ⟨hplan', rfl⟩
  · exact ⟨hplan, hopen⟩

theorem Safe.advanceTimes {w : Writer} (h : plan.NeverFails) (hw : w.Safe plan) (n : Nat) :
    (Writer.advanceTimes n w).Safe plan := by
  induction n generalizing w with
  | zero => exact hw
  | succ n ih => exact ih (hw.advance h)

theorem Safe.writeAll {w : Writer} (h : plan.NeverFails) (hw : w.Safe plan)
    (batches : List (List Record)) : (Writer.writeAll batches w).Safe plan := by
  induction batches generalizing w with
  | nil => exact ⟨hw.plan_eq, rfl⟩
  | cons batch batches ih =>
    have hreceived : (w.receive batch).Safe plan := ⟨hw.plan_eq, rfl⟩
    have hbatch := hreceived.advanceTimes h (batch.length + 1)
    rw [Writer.writeAll, if_pos hbatch.isOpen]
    exact ih hbatch

end Writer

end NeverFails

namespace Writer

variable {w : Writer} {records rest : List Record}

/-! ### One step, one batch, all batches -/

/-- **One step of a batch.** A writer that has written some records and has others left in its
batch fails, with some beginning of the lines of all of them in its sink, or ends the batch, or
writes the next record. -/
theorem Wrote.advance_cases (h : w.Wrote records) (hphase : w.phase = .writing rest) :
    (∃ failure, w.advance.phase = .failed failure ∧ w.advance.sink.TookPrefix (records ++ rest)) ∨
    (rest = [] ∧ w.advance.phase = .idle ∧ w.advance.Wrote records) ∨
    ∃ r later, rest = r :: later ∧ w.advance.phase = .writing later ∧
      w.advance.Wrote (records ++ [r]) := by
  unfold Writer.advance
  rw [hphase]
  cases rest with
  | nil =>
    have htaken := w.sink.flush_taken
    dsimp only
    split
    · rename_i sink hflush
      rw [hflush] at htaken
      exact .inr (.inl ⟨rfl, rfl, h.written_eq, htaken.trans h.taken_eq⟩)
    · rename_i sink e hflush
      rw [hflush] at htaken
      refine .inl ⟨_, rfl, .empty, ?_⟩
      rw [List.append_nil, ByteArray.append_empty]
      exact htaken.trans h.taken_eq
  | cons r later =>
    dsimp only
    split
    · rename_i sink hwrite
      refine .inr (.inr ⟨r, later, rfl, rfl, ?_, ?_⟩)
      · simp [h.written_eq]
      · simp only [Sink.taken_of_writeRecord hwrite, h.taken_eq, linesOf_snoc,
          String.toUTF8_eq_toByteArray, String.toByteArray_append]
    · rename_i sink e hwrite
      have hprefix := (Sink.tookPrefix_of_writeRecord h.taken_eq r).append later
      rw [hwrite, List.append_assoc] at hprefix
      exact .inl ⟨_, rfl, hprefix⟩

theorem advanceTimes_of_failed {failure : Failure} (h : w.phase = .failed failure) (n : Nat) :
    advanceTimes n w = w := by
  induction n with
  | zero => rfl
  | succ n ih =>
    have hstays : w.advance = w := by
      unfold advance
      rw [h]
    rw [advanceTimes, hstays, ih]

/-- What the writer comes to when it is through with some records: it has written them all and is
in a phase where nothing is left to write, or it has failed within their lines. -/
def CameTo (w : Writer) (phase : WriterPhase) (records : List Record) : Prop :=
  (w.phase = phase ∧ w.Wrote records) ∨
    ∃ failure, w.phase = .failed failure ∧ w.sink.TookPrefix records

/-- A batch is written and flushed, or the writer fails. -/
theorem Wrote.advanceTimes (h : w.Wrote records) (hphase : w.phase = .writing rest) :
    (Writer.advanceTimes (rest.length + 1) w).CameTo .idle (records ++ rest) := by
  induction rest generalizing w records with
  | nil =>
    rcases h.advance_cases hphase with
      ⟨failure, hfailed, hprefix⟩ | ⟨-, hidle, hwrote⟩ | ⟨r, later, hcons, -⟩
    · exact .inr ⟨failure, hfailed, hprefix⟩
    · exact .inl ⟨hidle, by rwa [List.append_nil]⟩
    · cases hcons
  | cons r rest ih =>
    rw [List.length_cons, Writer.advanceTimes]
    rcases h.advance_cases hphase with
      ⟨failure, hfailed, hprefix⟩ | ⟨hnil, -⟩ | ⟨r', later, hcons, hnext, hwrote⟩
    · rw [advanceTimes_of_failed hfailed]
      exact .inr ⟨failure, hfailed, hprefix⟩
    · cases hnil
    · cases hcons
      have hrest := ih hwrote hnext
      rwa [List.append_assoc] at hrest

/-- **All batches.** The writer finishes with all lines written, or fails within them. -/
theorem Wrote.writeAll (h : w.Wrote records) (batches : List (List Record)) :
    (Writer.writeAll batches w).CameTo .finished (records ++ batches.flatten) := by
  induction batches generalizing w records with
  | nil => exact .inl ⟨rfl, by simpa using ⟨h.written_eq, h.taken_eq⟩⟩
  | cons batch batches ih =>
    have hreceived : (w.receive batch).Wrote records := ⟨h.written_eq, h.taken_eq⟩
    have hphase : (w.receive batch).phase = .writing batch := rfl
    rw [List.flatten_cons, ← List.append_assoc, Writer.writeAll]
    rcases hreceived.advanceTimes hphase with ⟨hidle, hwrote⟩ | ⟨failure, hfailed, hprefix⟩
    · have hopen : (Writer.advanceTimes (batch.length + 1) (w.receive batch)).isOpen = true := by
        rw [isOpen, hidle]
      rw [if_pos hopen]
      exact ih hwrote
    · have hclosed : (Writer.advanceTimes (batch.length + 1) (w.receive batch)).isOpen = false := by
        rw [isOpen, hfailed]
      rw [hclosed]
      exact .inr ⟨failure, hfailed, hprefix.append _⟩

/-- With a sink that never fails, all lines are written. -/
theorem writeAll_of_neverFails {plan : SinkPlan} (h : plan.NeverFails)
    (batches : List (List Record)) :
    (writeAll batches (.start plan)).phase = .finished ∧
      (writeAll batches (.start plan)).Wrote batches.flatten := by
  have hcame := (wrote_start plan).writeAll batches
  have hstart : (start plan).Safe plan := ⟨rfl, rfl⟩
  have hopen := (hstart.writeAll h batches).isOpen
  rw [List.nil_append] at hcame
  refine hcame.resolve_right ?_
  rintro ⟨failure, hfailed, -⟩
  rw [isOpen, hfailed] at hopen
  cases hopen

theorem result_of_finished {w : Writer} {records : List Record} (hfinished : w.phase = .finished)
    (hwrote : w.Wrote records) : w.result = .ok records.length := by
  rw [result, hfinished, hwrote.written_eq]

end Writer

/-! ### The whole output -/

/-- **Output.** Handed batches of records, the writer writes their lines. It counts the lines, and
with a sink that never fails it writes them all; a failure leaves the beginning of them. The output
is cut at its line ends into the lines, and none of them is empty. Each has the worker of its record
in it, the time if there is one, and the text of the item; it is read as the worker, the time, and
what the item's text is read as on its own. That is the item itself if the record is one that its
line keeps. -/
theorem output_decodes (plan : SinkPlan) (batches : List (List Record)) :
    let w := Writer.writeAll batches (.start plan)
    let records := batches.flatten
    (∀ n, w.result = .ok n → n = records.length ∧ w.sink.taken = (linesOf records).toUTF8) ∧
    (plan.NeverFails → w.result = .ok records.length) ∧
    (∀ failure, w.result = .error failure →
      ∃ more, w.sink.taken ++ more = (linesOf records).toUTF8) ∧
    (linesOf records).toUTF8.data.toList.splitOn 10 = records.map Record.bytes ++ [[]] ∧
    ∀ r ∈ records, r.bytes ≠ [] ∧ 10 ∉ r.bytes ∧
      (r.text = "\x7b\"worker\":" ++ toString r.worker ++
        (r.timestamp.elim "" fun t => ",\"timestamp\":" ++ toString t) ++
        ",\"item\":" ++ r.item.toJson.print ++ "\x7d") ∧
      (r.InWords → ∀ v, Json.parseWithin 126 r.item.toJson.print = .ok v →
        Json.parse r.text = .ok (.object (r.membersWith v))) ∧
      (r.Kept → Json.parse r.text = .ok (.object r.members)) := by
  intro w records
  have hcame : w.CameTo .finished records := by
    simpa using (Writer.wrote_start plan).writeAll batches
  refine ⟨fun n hn => ?_, fun hnever => ?_, fun failure hfailure => ?_, splitOn_linesOf _,
    fun r _ => ⟨r.bytes_ne_nil, r.newline_notMem_bytes, r.text_eq, fun h _ => Record.parse_text h,
      Record.Kept.parse_text⟩⟩
  · rcases hcame with ⟨hfinished, hwrote⟩ | ⟨failure, hfailed, -⟩
    · rw [Writer.result_of_finished hfinished hwrote] at hn
      exact ⟨(Except.ok.inj hn).symm, hwrote.taken_eq⟩
    · rw [Writer.result, hfailed] at hn
      cases hn
  · obtain ⟨hfinished, hwrote⟩ := Writer.writeAll_of_neverFails hnever batches
    exact Writer.result_of_finished hfinished hwrote
  · rcases hcame with ⟨hfinished, hwrote⟩ | ⟨failure, -, hprefix⟩
    · rw [Writer.result_of_finished hfinished hwrote] at hfailure
      cases hfailure
    · exact hprefix

/-- An event, and a string with a line end in it, to a sink that takes one byte more in every call;
and the same with the second call failing. -/
theorem output_decodes_of_two_batches :
    let growing : SinkPlan := ⟨fun n => some (n + 1), fun _ => false, fun _ => false⟩
    let failing : SinkPlan := { growing with writeFails := fun n => n == 1 }
    let value : Record := ⟨1, none, .value (.string "a\nb")⟩
    let batches : List (List Record) := [[⟨0, some 1000, .event ⟨1000, 3⟩⟩], [value]]
    (Writer.writeAll batches (.start growing)).result = .ok 2 ∧
    (∃ more, (Writer.writeAll batches (.start failing)).sink.taken ++ more =
      (linesOf batches.flatten).toUTF8) ∧
    Json.parse value.text = .ok (.object [("item", .string "a\nb"), ("worker", .count 1)]) := by
  intro growing failing value batches
  obtain ⟨-, hcount, -, -, hlines⟩ := output_decodes growing batches
  have hnever : growing.NeverFails := ⟨fun _ => rfl, fun _ => rfl, by simp [growing]⟩
  have hfailed : (Writer.writeAll batches (.start failing)).result =
      .error ⟨"failed to write record", ["disk full"]⟩ := by decide +kernel
  exact ⟨hcount hnever, (output_decodes failing batches).2.2.1 _ hfailed,
    (hlines value (by simp [batches])).2.2.2.2 ⟨⟨by decide, nofun⟩, .string⟩⟩

/-- A double that is an integer, `3e23`: its line is written, and the item that is read from it is
another double. -/
theorem large_double_line_changes : ∃ v w : Json,
    v = .number (.float (.finite false 8940696716308594 25)) ∧
    (Writer.writeAll [[⟨0, none, .value v⟩]] (.start .willing)).result = .ok 1 ∧
    (Writer.writeAll [[⟨0, none, .value v⟩]] (.start .willing)).sink.taken =
      "\x7b\"worker\":0,\"item\":3e+23\x7d\n".toUTF8 ∧
    Json.parse (Record.mk 0 none (.value v)).text =
      .ok (.object [("item", w), ("worker", .count 0)]) ∧ w ≠ v := by
  let r : Record := ⟨0, none, .value (.number (.float (.finite false 8940696716308594 25)))⟩
  have htext : r.text = "\x7b\"worker\":0,\"item\":3e+23\x7d" := by decide +kernel
  have hread : Json.parse "\x7b\"worker\":0,\"item\":3e+23\x7d" = .ok (.object
      [("item", .number (.float (.finite false 8940696716308593 25))), ("worker", .count 0)]) := by
    decide +kernel
  have hnever : SinkPlan.willing.NeverFails := ⟨fun _ => rfl, fun _ => rfl, fun _ => nofun⟩
  obtain ⟨hfinished, hwrote⟩ := Writer.writeAll_of_neverFails hnever [[r]]
  have hlines : linesOf [[r]].flatten = "\x7b\"worker\":0,\"item\":3e+23\x7d\n" := by
    rw [List.flatten_singleton, linesOf_cons, htext]
    rfl
  refine ⟨_, _, rfl, Writer.result_of_finished hfinished hwrote, ?_, htext ▸ hread, by decide⟩
  rw [hwrote.taken_eq, hlines]

end Pacing.Run
