import Pacing.Run.Sink
import Pacing.Proofs.Lines

/-!
# What a writer has put out

A sink may take the bytes of a line in any number of pieces. As long as no call fails, what it has
taken are whole lines, one for each record the writer counts, and the batch a writer is at loses
exactly the records that are written.
-/

namespace Pacing.Run

/-- A write that succeeds has handed over all bytes, in whatever pieces. -/
theorem Sink.taken_of_writeBytes {calls : Nat} {bytes : ByteArray} {s s' : Sink}
    (hcalls : bytes.size ≤ calls) (h : writeBytes calls bytes s = (s', .ok ())) :
    s'.taken = s.taken ++ bytes := by
  induction calls generalizing bytes s with
  | zero =>
    have hempty : bytes = .empty := ByteArray.size_eq_zero_iff.mp (by omega)
    cases h
    rw [hempty, ByteArray.append_empty]
  | succ calls ih =>
    unfold writeBytes at h
    split at h
    case isTrue hempty =>
      cases h
      rw [ByteArray.size_eq_zero_iff.mp hempty, ByteArray.append_empty]
    case isFalse hsome =>
      dsimp only at h
      split at h
      · cases h
      · split at h
        · cases h
        case isFalse haccepted =>
          -- Every call takes at least one byte, so that the calls left are enough for the rest.
          have hrest := ih (by rw [ByteArray.size_extract]; omega) h
          rw [hrest, ByteArray.append_assoc,
            ← ByteArray.extract_eq_extract_append_extract _ (Nat.zero_le _) (Nat.min_le_right _ _),
            ByteArray.extract_zero_size]

/-- A record that is written adds its line. -/
theorem Sink.taken_of_writeRecord {s s' : Sink} {r : Record}
    (h : s.writeRecord r = (s', .ok ())) : s'.taken = s.taken ++ (r.text ++ "\n").toUTF8 :=
  taken_of_writeBytes (Nat.le_refl _) h

theorem Sink.flush_taken (s : Sink) : s.flush.1.taken = s.taken := by
  unfold flush
  dsimp only
  split <;> rfl

namespace Writer

/-- The records of its batch that a writer has not written yet. -/
def batch (w : Writer) : List Record :=
  match w.phase with
  | .writing rest => rest
  | _ => []

/-- The writer counts these records, and the sink has taken their lines and nothing else. -/
structure Wrote (w : Writer) (records : List Record) : Prop where
  written_eq : w.written = records.length
  taken_eq : w.sink.taken = (linesOf records).toUTF8

theorem wrote_start (plan : SinkPlan) : (start plan).Wrote [] := ⟨rfl, rfl⟩

/-- **Writing.** Unless it fails, a writer that goes on with its batch moves the next record from
the batch to the output, or has no record left. -/
theorem Wrote.advance {w : Writer} {records rest : List Record} (h : w.Wrote records)
    (hphase : w.phase = .writing rest) (hopen : w.advance.isOpen = true) :
    ∃ more, w.advance.Wrote (records ++ more) ∧ more ++ w.advance.batch = rest ∧
      w.advance.phase ≠ .finished := by
  unfold Writer.advance at hopen ⊢
  rw [hphase] at hopen ⊢
  cases rest with
  | nil =>
    dsimp only at hopen ⊢
    have htaken := w.sink.flush_taken
    split at hopen
    · rename_i sink hflush
      simp only [hflush] at htaken ⊢
      exact ⟨[], ⟨by simpa using h.written_eq, by simpa [htaken] using h.taken_eq⟩, rfl, nofun⟩
    · simp [isOpen, fail] at hopen
  | cons r rest =>
    dsimp only at hopen ⊢
    split at hopen
    · rename_i sink hwrite
      have htaken := Sink.taken_of_writeRecord hwrite
      dsimp only
      refine ⟨[r], ⟨?_, ?_⟩, rfl, nofun⟩
      · simp [h.written_eq]
      · simp only [htaken, h.taken_eq, linesOf_snoc, String.toUTF8_eq_toByteArray,
          String.toByteArray_append]
    · simp [isOpen, fail] at hopen

end Writer

end Pacing.Run
