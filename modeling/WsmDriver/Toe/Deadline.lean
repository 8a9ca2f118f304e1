import WsmDriver.Effect.Execution
import WsmDriver.Toe.Api

/-!
# Deadlines and the wrapping counter

`toe_time_us` is the low 32 bits of a time in microseconds, and a deadline is tested by a
subtraction modulo `2 ^ 32`: that the counter wraps, every 71 minutes or so, can only make a wait
look shorter than it was. The time-out, on the other side of the comparison, is given in
milliseconds and multiplied by 1000 in 32 bits. From 4294968 milliseconds on the product does not
fit.
-/

namespace WsmDriver

open Effect Program

/-- `toe_time_us`, at a time since boot: what is left of it in a `uint32_t`. -/
def toeTimeUs (time : ℕ) : UInt32 := .ofNat time

/-- Surroundings where it is the time given and nothing else is asked for. -/
def atTime (time : ℕ) : Env Tables Unit ChipOp.Ans where
  drift _ _ := False
  answer
    | .toeTimeUs, _, _, now, _ => now = toeTimeUs time
    | _, _, _, _, _ => False

/-- `toe_deadline_passed`, called at a time with what the counter showed at an earlier one, says
yes. -/
def PassedAt (started time : ℕ) (timeoutMs : UInt32) : Prop :=
  ∃ t t' : Tables, Returns (atTime time) (toeDeadlinePassed (toeTimeUs started) timeoutMs) t
    () true t' ()

/-! ## What the function computes -/

theorem toeDeadlinePassed_returns (started time : ℕ) {timeoutMs : UInt32} (h : timeoutMs ≠ 0)
    (t : Tables) : Returns (atTime time) (toeDeadlinePassed (toeTimeUs started) timeoutMs) t ()
      (decide (timeoutMs * 1000 ≤ toeTimeUs time - toeTimeUs started)) t () := by
  rw [toeDeadlinePassed, if_neg h]
  exact .perform_bind (V := atTime time) (o := .toeTimeUs) rfl (.pure _ _ _)

theorem toeDeadlinePassed_value {started time : ℕ} {timeoutMs : UInt32} (h : timeoutMs ≠ 0)
    (t : Tables) :
    wlp (atTime time) (fun _ _ _ ↦ True) (toeDeadlinePassed (toeTimeUs started) timeoutMs)
      (fun b _ _ ↦ b = decide (timeoutMs * 1000 ≤ toeTimeUs time - toeTimeUs started)) t () := by
  rw [toeDeadlinePassed, if_neg h]
  refine pre_perform_bind.mpr fun _ _ ↦ ⟨trivial, fun now _ ha ↦ ?_⟩
  obtain rfl : now = toeTimeUs time := ha
  exact fun _ _ ↦ rfl

theorem passedAt_iff {started time : ℕ} {timeoutMs : UInt32} (h : timeoutMs ≠ 0) :
    PassedAt started time timeoutMs ↔ timeoutMs * 1000 ≤ toeTimeUs time - toeTimeUs started := by
  constructor
  · rintro ⟨t, t', hr⟩
    exact of_decide_eq_true ((toeDeadlinePassed_value h t).returns hr).symm
  · intro hle
    have hr := toeDeadlinePassed_returns started time h Tables.zero
    rw [decide_eq_true hle] at hr
    exact ⟨_, _, hr⟩

/-- The counter tells how much time has passed, up to whole periods. -/
theorem toeTimeUs_sub {started time : ℕ} (h : started ≤ time) :
    (toeTimeUs time - toeTimeUs started).toNat = (time - started) % 4294967296 := by
  rw [UInt32.toNat_sub, toeTimeUs, toeTimeUs, UInt32.toNat_ofNat', UInt32.toNat_ofNat']
  omega

theorem mul_1000_toNat (timeoutMs : UInt32) : (timeoutMs * 1000).toNat =
    timeoutMs.toNat * 1000 % 4294967296 :=
  UInt32.toNat_mul _ _

theorem passedAt_iff_mod {started time : ℕ} {timeoutMs : UInt32} (h : timeoutMs ≠ 0)
    (hle : started ≤ time) : PassedAt started time timeoutMs ↔
      timeoutMs.toNat * 1000 % 4294967296 ≤ (time - started) % 4294967296 := by
  rw [passedAt_iff h, UInt32.le_iff_toNat_le, mul_1000_toNat, toeTimeUs_sub hle]

/-! ## Waits -/

/-- A wait with this time-out never ends before its time. -/
def NeverEarly (timeoutMs : UInt32) : Prop :=
  ∀ started time, started ≤ time → PassedAt started time timeoutMs →
  1000 * timeoutMs.toNat ≤ time - started

/-- A wait with this time-out ends when it is looked at within a period of the counter. -/
def EndsInTime (timeoutMs : UInt32) : Prop :=
  ∀ started time, started ≤ time → 1000 * timeoutMs.toNat ≤ time - started →
  time - started < 4294967296 → PassedAt started time timeoutMs

theorem endsInTime {timeoutMs : UInt32} (h : timeoutMs ≠ 0) : EndsInTime timeoutMs := by
  intro started time hle hlate hperiod
  rw [passedAt_iff_mod h hle]
  omega

theorem neverEarly_of_le {timeoutMs : UInt32} (h : timeoutMs ≠ 0)
    (hfits : timeoutMs.toNat ≤ 4294967) : NeverEarly timeoutMs := by
  intro started time hle hpassed
  rw [passedAt_iff_mod h hle] at hpassed
  omega

/-- A product that does not fit is less than it should be, and that much time may have passed. -/
theorem not_neverEarly_of_lt {timeoutMs : UInt32} (hfits : 4294967 < timeoutMs.toNat) :
    ¬NeverEarly timeoutMs := by
  intro hnever
  have hne : timeoutMs ≠ 0 := by
    rintro rfl
    exact absurd hfits (by decide)
  have hpassed : PassedAt 0 (timeoutMs.toNat * 1000 % 4294967296) timeoutMs := by
    rw [passedAt_iff_mod hne (Nat.zero_le _)]
    omega
  have := hnever _ _ (Nat.zero_le _) hpassed
  omega

/-- **A wait never ends early, and always ends in time, exactly if its microseconds fit 32
bits.** -/
theorem deadline_exact_iff_fits {timeoutMs : UInt32} (h : timeoutMs ≠ 0) :
    NeverEarly timeoutMs ∧ EndsInTime timeoutMs ↔ timeoutMs.toNat ≤ 4294967 := by
  constructor
  · rintro ⟨hnever, -⟩
    by_contra hlt
    exact not_neverEarly_of_lt (Nat.lt_of_not_le hlt) hnever
  · exact fun hfits ↦ ⟨neverEarly_of_le h hfits, endsInTime h⟩

theorem deadline_exact_iff_fits_two_seconds :
    NeverEarly 2000 ∧ EndsInTime 2000 ↔ (2000 : UInt32).toNat ≤ 4294967 :=
  deadline_exact_iff_fits (by decide)

/-- A wait of 4294968 milliseconds may end after 704 microseconds. -/
theorem not_deadline_exact : ¬∀ timeoutMs : UInt32, timeoutMs ≠ 0 → NeverEarly timeoutMs ∧
    EndsInTime timeoutMs := by
  intro h
  have hpassed : PassedAt 0 704 4294968 :=
    (passedAt_iff_mod (by decide) (by decide)).mpr (by decide)
  exact absurd ((h 4294968 (by decide)).1 0 704 (by decide) hpassed) (by decide)

end WsmDriver
