import Mathlib
import Pacing.Event

/-!
# How events are shown

An event is shown with the time of day of its timestamp in UTC and with its number. Every part of
the time has its own number of digits, so a shown event can be read again from the left: two events
are shown alike exactly when they have the same number and are whole days apart.

* `padded_fixedWidth`: the digits of a part stand for it.
* `SimpleEvent.Shows.unique`: a text shows one time of day and one number.
* `SimpleEvent.display_shows`: the text of an event shows its time of day and its number.
* `SimpleEvent.display_faithful` puts them together.
-/

namespace Pacing

/-! ### Texts of a fixed width -/

/-- A text of a number in exactly so many decimal digits. -/
structure FixedWidth (width : Nat) (text : String) (n : Nat) : Prop where
  length : text.length = width
  digits : ∀ c ∈ text.toList, c.isDigit
  value : text.toNat? = some n

namespace Duration

theorem length_fixedDigits (width n : Nat) : (fixedDigits width n).length = width := by
  induction width generalizing n with
  | zero => rfl
  | succ width ih => rw [fixedDigits, List.length_append, ih, List.length_singleton]

theorem isDigit_of_mem_fixedDigits {width n : Nat} {c : Char} (h : c ∈ fixedDigits width n) :
    c.isDigit := by
  induction width generalizing n with
  | zero => cases h
  | succ width ih =>
    obtain hearlier | hlast := List.mem_append.mp h
    · exact ih hearlier
    · rw [List.mem_singleton.mp hlast, Nat.isDigit_digitChar, decide_eq_true_iff]
      exact Nat.mod_lt n (by decide)

/-- The digits of a number stand for what is left of it modulo the power of their count. -/
theorem ofDigitChars_fixedDigits (width n : Nat) :
    Nat.ofDigitChars 10 (fixedDigits width n) 0 = n % 10 ^ width := by
  induction width generalizing n with
  | zero => exact (Nat.mod_one n).symm
  | succ width ih =>
    have hdigit : n % 10 < 10 := Nat.mod_lt n (by decide)
    rw [fixedDigits, Nat.ofDigitChars_append, ih, Nat.ofDigitChars_cons, Nat.ofDigitChars_nil,
      Nat.toNat_digitChar_of_lt_ten hdigit, Nat.pow_succ, Nat.mul_comm (10 ^ width), Nat.mod_mul]
    show 10 * (n / 10 % 10 ^ width) + (48 + n % 10 - 48) = _
    omega

end Duration

theorem isDigit_of_mem_padded {width n : Nat} {c : Char}
    (h : c ∈ (SimpleEvent.padded width n).toList) : c.isDigit := by
  rw [SimpleEvent.padded, String.toList_ofList] at h
  exact Duration.isDigit_of_mem_fixedDigits h

theorem length_padded (width n : Nat) : (SimpleEvent.padded width n).length = width := by
  rw [SimpleEvent.padded, String.length_ofList, Duration.length_fixedDigits]

theorem toNat?_padded {width : Nat} (hwidth : 0 < width) (n : Nat) :
    (SimpleEvent.padded width n).toNat? = some (n % 10 ^ width) := by
  have hsome : SimpleEvent.padded width n ≠ "" := by
    intro hnone
    have hlength := length_padded width n
    rw [hnone, String.length_empty] at hlength
    exact Nat.ne_of_lt hwidth hlength
  -- Digits could be grouped by underscores in the reading of a number; here there are none.
  have hplain : ∀ c ∈ (SimpleEvent.padded width n).toList, (c != '_') = true := by
    intro c hc
    have hdigit := isDigit_of_mem_padded hc
    rw [bne_iff_ne]
    rintro rfl
    exact absurd hdigit (by decide)
  rw [String.toNat?_eq_some_ofDigitChars
      (String.isNat_of_isDigit hsome fun _ => isDigit_of_mem_padded),
    List.filter_eq_self.mpr hplain, SimpleEvent.padded, String.toList_ofList,
    Duration.ofDigitChars_fixedDigits]

/-- A number that fits is padded to its own digits. -/
theorem padded_fixedWidth {width n : Nat} (hwidth : 0 < width) (h : n < 10 ^ width) :
    FixedWidth width (SimpleEvent.padded width n) n where
  length := length_padded width n
  digits _ := isDigit_of_mem_padded
  value := by rw [toNat?_padded hwidth, Nat.mod_eq_of_lt h]

/-- Two texts that begin with a number of the same width begin with the same number. -/
theorem FixedWidth.append_inj {width n n' : Nat} {text text' rest rest' : String}
    (h : FixedWidth width text n) (h' : FixedWidth width text' n')
    (heq : text ++ rest = text' ++ rest') : n = n' ∧ rest = rest' := by
  have hchars : text.toList ++ rest.toList = text'.toList ++ rest'.toList := by
    rw [← String.toList_append, ← String.toList_append, heq]
  have hlength : text.toList.length = text'.toList.length := by
    rw [String.length_toList, String.length_toList, h.length, h'.length]
  obtain ⟨htext, hrest⟩ := List.append_inj hchars hlength
  refine ⟨Option.some.inj ?_, String.toList_inj.mp hrest⟩
  rw [← h.value, ← h'.value, String.toList_inj.mp htext]

/-! ### Times of day -/

/-- A time of day, down to the millisecond. -/
@[ext]
structure TimeOfDay where
  hours : Nat
  minutes : Nat
  seconds : Nat
  millis : Nat
  hours_lt : hours < 24
  minutes_lt : minutes < 60
  seconds_lt : seconds < 60
  millis_lt : millis < 1000

/-- Milliseconds since midnight. -/
def TimeOfDay.sinceMidnight (time : TimeOfDay) : Nat :=
  ((time.hours * 60 + time.minutes) * 60 + time.seconds) * 1000 + time.millis

namespace SimpleEvent

theorem millisOfDay_eq (e : SimpleEvent) : (e.millisOfDay : Int) = e.timestamp % millisPerDay :=
  Int.toNat_of_nonneg (Int.emod_nonneg e.timestamp (by decide))

theorem millisOfDay_lt (e : SimpleEvent) : e.millisOfDay < 86400000 := by
  have hday : e.timestamp % millisPerDay < millisPerDay :=
    Int.emod_lt_of_pos e.timestamp (by decide)
  rw [← millisOfDay_eq, millisPerDay] at hday
  omega

/-- Two events have one time of day exactly when they are whole days apart. -/
theorem millisOfDay_eq_iff {e e' : SimpleEvent} : e.millisOfDay = e'.millisOfDay ↔
    ∃ days : Int, e.timestamp - e'.timestamp = days * millisPerDay := by
  rw [← Int.natCast_inj, millisOfDay_eq, millisOfDay_eq, Int.emod_eq_emod_iff_emod_sub_eq_zero,
    ← Int.dvd_iff_emod_eq_zero]
  exact ⟨fun ⟨days, h⟩ => ⟨days, by rw [h, Int.mul_comm]⟩,
    fun ⟨days, h⟩ => ⟨days, by rw [h, Int.mul_comm]⟩⟩

/-- The time of day of an event. -/
def time (e : SimpleEvent) : TimeOfDay where
  hours := e.millisOfDay / 3600000
  minutes := e.millisOfDay / 60000 % 60
  seconds := e.millisOfDay / 1000 % 60
  millis := e.millisOfDay % 1000
  hours_lt := by
    have h := e.millisOfDay_lt
    omega
  minutes_lt := Nat.mod_lt _ (by decide)
  seconds_lt := Nat.mod_lt _ (by decide)
  millis_lt := Nat.mod_lt _ (by decide)

theorem time_sinceMidnight (e : SimpleEvent) : e.time.sinceMidnight = e.millisOfDay := by
  unfold TimeOfDay.sinceMidnight time
  dsimp only
  omega

/-! ### Shown events -/

/-- A text shows a time of day, in as many digits as each of its parts has, and a number. -/
inductive Shows : String → TimeOfDay → Int → Prop where
  | intro {time : TimeOfDay} {sequence : Int} {hours minutes seconds millis number : String}
      (hhours : FixedWidth 2 hours time.hours) (hminutes : FixedWidth 2 minutes time.minutes)
      (hseconds : FixedWidth 2 seconds time.seconds) (hmillis : FixedWidth 3 millis time.millis)
      (hnumber : number.toInt? = some sequence) :
      Shows ("SimpleEvent(timestamp=" ++ hours ++ ":" ++ minutes ++ ":" ++ seconds ++ "." ++ millis
        ++ ", sequence=" ++ number ++ ")") time sequence

/-- A text shows one time of day and one number. -/
theorem Shows.unique {text text' : String} {time time' : TimeOfDay} {sequence sequence' : Int}
    (h : Shows text time sequence) (h' : Shows text' time' sequence') (heq : text = text') :
    time = time' ∧ sequence = sequence' := by
  obtain ⟨hhours, hminutes, hseconds, hmillis, hnumber⟩ := h
  obtain ⟨hhours', hminutes', hseconds', hmillis', hnumber'⟩ := h'
  -- Read from the left: every part but the number ends where its digits do.
  simp only [String.append_assoc, String.append_right_inj] at heq
  obtain ⟨h₁, heq⟩ := hhours.append_inj hhours' heq
  obtain ⟨h₂, heq⟩ := hminutes.append_inj hminutes' ((String.append_right_inj _).mp heq)
  obtain ⟨h₃, heq⟩ := hseconds.append_inj hseconds' ((String.append_right_inj _).mp heq)
  obtain ⟨h₄, heq⟩ := hmillis.append_inj hmillis' ((String.append_right_inj _).mp heq)
  have hsame := (String.append_left_inj _).mp ((String.append_right_inj _).mp heq)
  refine ⟨TimeOfDay.ext h₁ h₂ h₃ h₄, Option.some.inj ?_⟩
  rw [← hnumber, ← hnumber', hsame]

/-- The text of an event shows its time of day and its number. -/
theorem display_shows (e : SimpleEvent) : Shows e.display e.time e.sequence := by
  have hhours : e.time.hours < 10 ^ 2 := Nat.lt_trans e.time.hours_lt (by decide)
  have hminutes : e.time.minutes < 10 ^ 2 := Nat.lt_trans e.time.minutes_lt (by decide)
  have hseconds : e.time.seconds < 10 ^ 2 := Nat.lt_trans e.time.seconds_lt (by decide)
  have htext : e.display = "SimpleEvent(timestamp=" ++ padded 2 e.time.hours ++ ":"
      ++ padded 2 e.time.minutes ++ ":" ++ padded 2 e.time.seconds ++ "."
      ++ padded 3 e.time.millis ++ ", sequence=" ++ toString e.sequence ++ ")" := by
    unfold display timeOfDay
    simp only [String.append_assoc]
    rfl
  rw [htext]
  exact .intro (padded_fixedWidth (by decide) hhours) (padded_fixedWidth (by decide) hminutes)
    (padded_fixedWidth (by decide) hseconds) (padded_fixedWidth (by decide) e.time.millis_lt)
    (Int.toInt?_repr e.sequence)

theorem display_eq_of_millisOfDay_eq {e e' : SimpleEvent} (htime : e.millisOfDay = e'.millisOfDay)
    (hsequence : e.sequence = e'.sequence) : e.display = e'.display := by
  unfold display timeOfDay
  rw [htime, hsequence]

/-- **Faithful display.** What is shown of an event is the time of day of its timestamp and its
number, so two events are shown alike exactly when they have one number and are whole days apart. -/
theorem display_faithful (e : SimpleEvent) :
    (∃ time : TimeOfDay, Shows e.display time e.sequence ∧
      (((time.hours * 60 + time.minutes) * 60 + time.seconds) * 1000 + time.millis : Int)
        = e.timestamp % 86400000) ∧
      ∀ e' : SimpleEvent, e.display = e'.display ↔
        e.sequence = e'.sequence ∧ ∃ days : Int, e.timestamp - e'.timestamp = days * 86400000 := by
  refine ⟨⟨e.time, e.display_shows, ?_⟩, fun e' => ⟨fun h => ?_, fun ⟨hsequence, hdays⟩ => ?_⟩⟩
  · have hsum := congrArg (Nat.cast : Nat → Int) e.time_sinceMidnight
    rw [millisOfDay_eq] at hsum
    exact hsum
  · obtain ⟨htime, hsequence⟩ := e.display_shows.unique e'.display_shows h
    refine ⟨hsequence, millisOfDay_eq_iff.mp ?_⟩
    rw [← time_sinceMidnight, ← time_sinceMidnight, htime]
  · exact display_eq_of_millisOfDay_eq (millisOfDay_eq_iff.mpr hdays) hsequence

/-- One millisecond before the epoch is the end of a day. -/
example : display ⟨-1, 1⟩ = "SimpleEvent(timestamp=23:59:59.999, sequence=1)" := by decide

end SimpleEvent

end Pacing
