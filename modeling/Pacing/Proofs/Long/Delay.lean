import Pacing.Proofs.Hints
import Pacing.Proofs.Long.Parallelism

/-!
# The initial delay

A member's start is its wall clock when it is made and the initial delay, both rounded down to
milliseconds; an instance moves it to the monotonic clock. Neither rounding takes as much as a
millisecond, so the first value comes up to two milliseconds before the delay is over, and never
after it.

* `member_startMillis` is the start, and `start_within` what is lost by rounding.
* `create_dueAt_zero` is the instant at which value 0 is due, and `polls_around_start` what polls do
  before and from then on.
* `initial_delay_kept` is the statement about members and their instances.
-/

namespace Pacing

variable {π : Type}

/-- The start of a member before it is made a word. -/
def delayedMillis (memberAt : Reading) (delay : Duration) : Int :=
  memberAt.wallMillis + delay.millis

/-- The start of a member is a word on both clocks. -/
structure DelayFits (memberAt : Reading) (delay : Duration) : Prop where
  wall : Word.InRange (delayedMillis memberAt delay * nanosPerMilli)
  monotonic : Word.InRange (delayedMillis memberAt delay * nanosPerMilli - memberAt.offset)

instance (memberAt : Reading) (delay : Duration) : Decidable (DelayFits memberAt delay) :=
  decidable_of_iff
    (Word.InRange (delayedMillis memberAt delay * nanosPerMilli) ∧
      Word.InRange (delayedMillis memberAt delay * nanosPerMilli - memberAt.offset))
    ⟨fun ⟨hwall, hmonotonic⟩ => ⟨hwall, hmonotonic⟩,
      fun ⟨hwall, hmonotonic⟩ => ⟨hwall, hmonotonic⟩⟩

section Delay

variable {memberAt : Reading} {delay : Duration}

/-- A delay that fits is added to the time at which a member is made. -/
theorem member_startMillis {source : LongSource} (policy : π)
    (hdelay : (source.initialDelay.millis : Int) ≤ Word.highest)
    (hfits : DelayFits memberAt source.initialDelay) :
    (source.member policy memberAt).startMillis = delayedMillis memberAt source.initialDelay := by
  have hmillis : Word.InRange (delayedMillis memberAt source.initialDelay) := by
    have hnanos := hfits.wall
    unfold Word.InRange Word.lowest Word.highest nanosPerMilli at *
    omega
  have hstart : (source.member policy memberAt).startMillis =
      Word.clamp (memberAt.wallMillis + Word.ofCount source.initialDelay.millis) := rfl
  rw [hstart, LongStream.ofCount_of_le hdelay]
  exact Word.clamp_of_inRange hmillis

/-- On the monotonic clock the start comes before the delay is over, by less than two milliseconds. -/
theorem start_within (memberAt : Reading) (delay : Duration) :
    memberAt.monotonic + delay.nanos - 2 * nanosPerMilli <
        delayedMillis memberAt delay * nanosPerMilli - memberAt.offset ∧
      delayedMillis memberAt delay * nanosPerMilli - memberAt.offset ≤
        memberAt.monotonic + delay.nanos := by
  unfold delayedMillis Reading.wallMillis Reading.offset Duration.millis nanosPerMilli
  omega

end Delay

namespace LongStream

section Due

variable (config : InstanceConfig π) (madeAt : Reading)

/-- Value 0 is due at the start, for every instance. -/
theorem create_dueAt_zero (hstarted : Word.InRange (config.startMillis * nanosPerMilli))
    (hshifted : Word.InRange (config.startMillis * nanosPerMilli - madeAt.offset)) :
    (create config madeAt).dueAt 0 = config.startMillis * nanosPerMilli - madeAt.offset := by
  have hzero : Word.satMul 0 (create config madeAt).period = 0 := by
    rw [Word.satMul, Int.zero_mul]
    rfl
  rw [dueAt, hzero, create_start config madeAt hstarted hshifted, Word.satAdd, Int.add_zero,
    Word.clamp_of_inRange hshifted]

/-- Value 0 is dated the start. -/
theorem create_stamp_zero (hstarted : Word.InRange (config.startMillis * nanosPerMilli))
    (hshifted : Word.InRange (config.startMillis * nanosPerMilli - madeAt.offset)) :
    (create config madeAt).stamp 0 = config.startMillis := by
  have hoffset : (create config madeAt).offset = madeAt.offset := rfl
  rw [stamp, create_dueAt_zero config madeAt hstarted hshifted, hoffset, Word.satAdd,
    Int.sub_add_cancel, Word.clamp_of_inRange hstarted]
  exact Int.mul_ediv_cancel _ (by decide)

end Due

/-- An instance is pending until its next value is due, and the first poll from then on begins with
that value. -/
theorem polls_around_due (s : LongStream π) (rs : List Reading)
    (hbefore : ∀ q ∈ rs, q.monotonic < s.dueAt s.next) (r : Reading) :
    let p := Paced.poll (Paced.after s rs) r
    (r.monotonic < s.dueAt s.next →
      p.added = [] ∧ ∃ yieldFor, p.outcome = .ok (.pending yieldFor)) ∧
    (s.dueAt s.next ≤ r.monotonic →
      p.added.head? = some ⟨s.next, s.stamp s.next⟩ ∧ p.outcome = .ok (.ready p.added.length)) := by
  intro p
  have hpoll : p = Paced.poll s r := congrArg (Paced.poll · r) (s.awaits.after_eq hbefore)
  rw [hpoll]
  constructor
  · intro hearly
    rw [s.awaits.early r hearly]
    exact ⟨rfl, _, rfl⟩
  · intro hcome
    have hhead : (Paced.poll s r).added.head? = some ⟨s.next, s.stamp s.next⟩ :=
      s.awaits.onward r hcome
    refine ⟨hhead, poll_ready ?_⟩
    intro hnone
    rw [paced_poll, hnone] at hhead
    cases hhead

/-- The first instance of a member is pending until the member's start, and then begins with value 0,
dated that start. -/
theorem polls_around_start (m : MemberSupplier π) {madeAt : Reading}
    (hstarted : Word.InRange (m.startMillis * nanosPerMilli))
    (hshifted : Word.InRange (m.startMillis * nanosPerMilli - madeAt.offset)) (total : Nat)
    (rs : List Reading)
    (hbefore : ∀ q ∈ rs, q.monotonic < m.startMillis * nanosPerMilli - madeAt.offset) (r : Reading) :
    let p := Paced.poll (Paced.after (create (m.configOf 0 total) madeAt) rs) r
    (r.monotonic < m.startMillis * nanosPerMilli - madeAt.offset →
      p.added = [] ∧ ∃ yieldFor, p.outcome = .ok (.pending yieldFor)) ∧
    (m.startMillis * nanosPerMilli - madeAt.offset ≤ r.monotonic →
      p.added.head? = some ⟨0, m.startMillis⟩ ∧ p.outcome = .ok (.ready p.added.length)) := by
  have hnext : (create (m.configOf 0 total) madeAt).next = 0 :=
    create_next (m.configOf 0 total) madeAt (show ((0 : Nat) : Int) ≤ Word.highest by decide)
  have hdue : (create (m.configOf 0 total) madeAt).dueAt 0 =
      m.startMillis * nanosPerMilli - madeAt.offset := create_dueAt_zero _ _ hstarted hshifted
  have hstamp : (create (m.configOf 0 total) madeAt).stamp 0 = m.startMillis :=
    create_stamp_zero _ _ hstarted hshifted
  have hpolls := polls_around_due (create (m.configOf 0 total) madeAt) rs
  rw [hnext, hdue, hstamp] at hpolls
  exact hpolls hbefore r

end LongStream

/-- **Initial delay.** A member of a new source of any accepted rate and delay starts at its wall
clock and the delay, each rounded down to milliseconds, if that is a word on both clocks. On the
monotonic clock there is one instant for the start, before the delay is over by less than two
milliseconds and not after it. For every instance the member's supplier makes, at any reading at
which the wall clock is as far ahead, value 0 is due at this instant; and whatever the wall clock
shows,

* the instance with index 0 is pending at all readings before it;
* the first poll from then on begins with value 0, dated the member's start. -/
theorem initial_delay_kept {rate : Int} (hrate : 1 ≤ rate ∧ rate ≤ maxItemsPerSecond)
    {delay : Duration} (hdelay : (delay.millis : Int) ≤ Word.highest) (preferred : Option Positive) :
    ∃ source, LongSource.tryNew rate delay preferred = .ok source ∧
      ∀ (policy : π) (memberAt : Reading), DelayFits memberAt delay →
        let member := source.member policy memberAt
        member.startMillis = memberAt.wall / nanosPerMilli + delay.nanos / nanosPerMilli ∧
        ∃ due, memberAt.monotonic + delay.nanos - 2 * nanosPerMilli < due ∧
          due ≤ memberAt.monotonic + delay.nanos ∧
          ∀ madeAt : Reading, madeAt.offset = memberAt.offset →
            (∀ index total, (member.get (LongStream.create · madeAt) index total).dueAt 0 = due) ∧
            ∀ (total : Nat) (rs : List Reading) (r : Reading),
              (∀ q ∈ rs, q.monotonic < due) →
              let s := member.get (LongStream.create · madeAt) 0 total
              let p := Paced.poll (Paced.after s rs) r
              (r.monotonic < due →
                p.added = [] ∧ ∃ yieldFor, p.outcome = .ok (.pending yieldFor)) ∧
              (due ≤ r.monotonic →
                p.added.head? = some ⟨0, member.startMillis⟩ ∧
                  p.outcome = .ok (.ready p.added.length)) := by
  refine ⟨_, LongSource.tryNew_eq_ok hrate hdelay preferred, ?_⟩
  intro policy memberAt hfits member
  have hstart : member.startMillis = delayedMillis memberAt delay :=
    member_startMillis policy hdelay hfits
  obtain ⟨hlow, hhigh⟩ := start_within memberAt delay
  rw [← hstart] at hlow hhigh
  refine ⟨hstart, member.startMillis * nanosPerMilli - memberAt.offset, hlow, hhigh, ?_⟩
  intro madeAt hoffset
  rw [← hoffset]
  have hstarted : Word.InRange (member.startMillis * nanosPerMilli) := hstart ▸ hfits.wall
  have hshifted : Word.InRange (member.startMillis * nanosPerMilli - madeAt.offset) := by
    rw [hstart, hoffset]
    exact hfits.monotonic
  constructor
  · intro index total
    exact LongStream.create_dueAt_zero (member.configOf index total) madeAt hstarted hshifted
  · intro total rs r hbefore
    exact LongStream.polls_around_start member hstarted hshifted total rs hbefore r

/-- A delay of a nanosecond less than six milliseconds, on a member that is made a nanosecond before
the epoch: the first value is due two nanoseconds less than two milliseconds early. An instance made
later is pending at the nanosecond before that, and begins with value 0 at it. -/
theorem initial_delay_kept_of_largest_loss :
    (1 ≤ (3 : Int) ∧ 3 ≤ maxItemsPerSecond) ∧
      ((Duration.millis ⟨5999999⟩ : Nat) : Int) ≤ Word.highest ∧
      DelayFits ⟨-7, -1⟩ ⟨5999999⟩ ∧ (⟨100, 106⟩ : Reading).offset = (⟨-7, -1⟩ : Reading).offset ∧
      ∃ source, LongSource.tryNew 3 ⟨5999999⟩ none = .ok source ∧
        let member := source.member () ⟨-7, -1⟩
        let s := member.get (LongStream.create · ⟨100, 106⟩) 0 2
        member.startMillis = 4 ∧ s.dueAt 0 = -7 + 5999999 - 1999998 ∧
          (Paced.poll (Paced.after s [⟨200, 1000000000⟩]) ⟨3999993, -5⟩).added = [] ∧
          (Paced.poll (Paced.after s [⟨200, 1000000000⟩]) ⟨3999994, 0⟩).added.head? =
            some ⟨0, 4⟩ := by
  have hrate : 1 ≤ (3 : Int) ∧ 3 ≤ maxItemsPerSecond := by decide
  have hdelay : ((Duration.millis ⟨5999999⟩ : Nat) : Int) ≤ Word.highest := by decide
  have hfits : DelayFits ⟨-7, -1⟩ ⟨5999999⟩ := by decide
  have hoffset : (⟨100, 106⟩ : Reading).offset = (⟨-7, -1⟩ : Reading).offset := by decide
  obtain ⟨source, hsource, hkept⟩ := initial_delay_kept hrate hdelay none
  obtain rfl : (⟨3, ⟨5999999⟩, none⟩ : LongSource) = source := Except.ok.inj hsource
  obtain ⟨hstart, due, -, -, hinstances⟩ := hkept () ⟨-7, -1⟩ hfits
  obtain ⟨hdue, hpolls⟩ := hinstances ⟨100, 106⟩ hoffset
  obtain rfl : 3999994 = due := hdue 0 2
  have hbefore : ∀ q ∈ [(⟨200, 1000000000⟩ : Reading)], q.monotonic < 3999994 := by decide
  refine ⟨hrate, hdelay, hfits, hoffset, _, hsource, hstart, hdue 0 2, ?_, ?_⟩
  · exact ((hpolls 2 _ ⟨3999993, -5⟩ hbefore).1 (by decide)).1
  · exact ((hpolls 2 _ ⟨3999994, 0⟩ hbefore).2 (by decide)).1

end Pacing
