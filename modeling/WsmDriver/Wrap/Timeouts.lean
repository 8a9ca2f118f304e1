import Mathlib.Tactic.IntervalCases
import WsmDriver.Toe.Calls
import WsmDriver.Wrap.Api

/-!
# Time-outs through the layer

A time-out is a `struct timeval` for the caller and a number of milliseconds for the backend, where
zero means to wait forever. The conversion cuts off what is less than a millisecond, and what does
not fit 32 bits.
-/

namespace WsmDriver

open Effect Program

variable {w : WrapConfig} {t : Tables} {s : ℤ} {opt : SockOptName} {val : List UInt8}

/-! ## Conversions -/

theorem readU32_u32Bytes (x : UInt32) : readU32 (u32Bytes x) = x := by
  simp only [readU32, u32Bytes, List.getD_cons_zero, List.getD_cons_succ]
  refine UInt32.toBitVec_inj.mp (BitVec.eq_of_getLsbD_eq fun i hi ↦ ?_)
  interval_cases i <;> simp [-UInt32.toUInt32_toUInt8]

theorem ofInt_toNat (x : UInt32) : UInt32.ofInt x.toNat = x := by
  have hx := x.toNat_lt
  rw [UInt32.ofInt]
  refine UInt32.toNat_inj.mp ?_
  rw [UInt32.toNat_ofNat']
  omega

/-- A time in microseconds. -/
def Timeval.micros (tv : Timeval) : ℤ := tv.sec * 1000000 + tv.usec

theorem Timeval.micros_ofMs (ms : UInt32) : (Timeval.ofMs ms).micros = ms.toNat * 1000 := by
  have hsec : (ms / 1000).toNat = ms.toNat / 1000 := UInt32.toNat_div ms 1000
  have husec : (ms % 1000 * 1000).toNat = ms.toNat % 1000 * 1000 := by
    rw [UInt32.toNat_mul, UInt32.toNat_mod]
    change ms.toNat % 1000 * 1000 % 2 ^ 32 = _
    omega
  simp only [micros, ofMs, hsec, husec]
  omega

theorem Timeval.ms_toNat {tv : Timeval} (husec : 0 ≤ tv.usec) :
    (tv.ms.toNat : ℤ) = tv.micros / 1000 % 2 ^ 32 := by
  have hms : (tv.ms.toNat : ℤ) = (tv.sec * 1000 + tv.usec.tdiv 1000) % 2 ^ 32 := by
    rw [ms, UInt32.ofInt, UInt32.toNat_ofNat']
    omega
  rw [hms, micros, Int.tdiv_eq_ediv_of_nonneg husec]
  omega

/-! ## Setting and reading -/

/-- The field of the descriptor that a time-out option sets. -/
def timeoOf (opt : SockOptName) (d : Desc) : UInt32 :=
  if opt = .soRcvtimeo then d.rcvTimeoutMs else d.sndTimeoutMs

/-- The tables with a time-out set. -/
def setTimeo (opt : SockOptName) (ms : UInt32) (t : Tables) (fd : ℤ) : Tables :=
  t.upd fd fun d ↦ if opt = .soRcvtimeo then { d with rcvTimeoutMs := ms } else
    { d with sndTimeoutMs := ms }

theorem timeoOf_setTimeo (ms : UInt32) (t : Tables) (fd : ℤ) :
    timeoOf opt ((setTimeo opt ms t fd).desc fd) = ms := by
  rw [setTimeo, Tables.upd_desc_self, timeoOf]
  split <;> rfl

theorem toeFdValid_setTimeo {cfg : ToeConfig} {fd : ℤ} (opt : SockOptName) (ms : UInt32)
    (h : toeFdValid cfg t fd) : toeFdValid cfg (setTimeo opt ms t fd) fd := by
  refine ⟨h.1, h.2.1, ?_⟩
  rw [setTimeo, Tables.upd_desc_self]
  split <;> exact h.2.2

/-- The option of the backend. -/
def toeTimeoOpt (opt : SockOptName) : WiztoeOpt :=
  if opt = .soRcvtimeo then .rcvtimeoMs else .sndtimeoMs

section Exec

variable {cfg : ToeConfig} {fd : ℤ}

theorem wiztoeSetsockopt_timeo (opt : SockOptName) {bytes : List UInt8} (hlen : bytes.length = 4)
    (h : toeFdValid cfg t fd) :
    (wiztoeSetsockopt cfg fd (toeTimeoOpt opt) (some bytes)).exec? t = some
    (0, setTimeo opt (readU32 bytes) t fd) := by
  have hrejected : ¬(¬toeFdValid cfg t fd ∨ bytes.length = 0) := by simp [h, hlen]
  have hshort : ¬bytes.length < 4 := Nat.not_lt.mpr hlen.ge
  by_cases hrcv : opt = .soRcvtimeo
  all_goals
    simp only [toeTimeoOpt, setTimeo, hrcv, if_true, if_false]
    rw [wiztoeSetsockopt, exec?_get_bind]
    dsimp only
    rw [if_neg hrejected, if_neg hshort]
    rfl

theorem wiztoeSetsockopt_invalid (o : WiztoeOpt) (bytes : List UInt8) (h : ¬toeFdValid cfg t fd) :
    (wiztoeSetsockopt cfg fd o (some bytes)).exec? t = some (-1, t) := by
  rw [wiztoeSetsockopt, exec?_get_bind]
  dsimp only
  rw [if_pos (.inl h)]
  rfl

theorem wiztoeGetsockopt_timeo (h : toeFdValid cfg t fd) :
    (wiztoeGetsockopt cfg fd (toeTimeoOpt opt) (some 4)).exec? t =
    some ((0, ((timeoOf opt (t.desc fd)).toNat : ℤ)), t) := by
  have hrejected : ¬(¬toeFdValid cfg t fd ∨ 4 < 4) := by simp [h]
  by_cases hrcv : opt = .soRcvtimeo
  all_goals
    simp only [toeTimeoOpt, timeoOf, hrcv, if_true, if_false]
    rw [wiztoeGetsockopt, exec?_get_bind]
    dsimp only
    rw [if_neg hrejected]
    rfl

end Exec

variable (hopt : opt = .soRcvtimeo ∨ opt = .soSndtimeo)

include hopt

theorem wrapLwipSetsockopt_timeo (val : List UInt8) :
    wrapLwipSetsockopt w s opt (some val) = toeSetTimeo w (w.toeFd s) (toeTimeoOpt opt) val := by
  rcases hopt with rfl | rfl <;> rfl

theorem wrapLwipGetsockopt_timeo (room : ℕ) :
    wrapLwipGetsockopt w s opt (some room) = toeGetTimeo w (w.toeFd s) (toeTimeoOpt opt) room := by
  rcases hopt with rfl | rfl <;> rfl

theorem setsockopt_exec (hlen : sizeofTimeval ≤ val.length)
    (h : toeFdValid w.toToeConfig t (w.toeFd s)) : (wrapLwipSetsockopt w s opt (some val)).exec? t =
      some (.ok (), setTimeo opt (Timeval.ofBytes val).ms t (w.toeFd s)) := by
  have hbackend :=
    wiztoeSetsockopt_timeo opt (show (u32Bytes (Timeval.ofBytes val).ms).length = 4 from rfl) h
  rw [readU32_u32Bytes] at hbackend
  rw [wrapLwipSetsockopt_timeo hopt, toeSetTimeo, if_neg (Nat.not_lt.mpr hlen), toeSetOpt,
    exec?_bind hbackend]
  rfl

theorem setsockopt_rejected (hlen : sizeofTimeval ≤ val.length)
    (h : ¬toeFdValid w.toToeConfig t (w.toeFd s)) :
    (wrapLwipSetsockopt w s opt (some val)).exec? t = some (.error .einval, t) := by
  rw [wrapLwipSetsockopt_timeo hopt, toeSetTimeo, if_neg (Nat.not_lt.mpr hlen), toeSetOpt,
    exec?_bind (wiztoeSetsockopt_invalid _ _ h)]
  rfl

theorem getsockopt_exec {room : ℕ} (hroom : sizeofTimeval ≤ room)
    (h : toeFdValid w.toToeConfig t (w.toeFd s)) :
    (wrapLwipGetsockopt w s opt (some room)).exec? t =
      some (.ok (.timeval (.ofMs (timeoOf opt (t.desc (w.toeFd s))))), t) := by
  rw [wrapLwipGetsockopt_timeo hopt, toeGetTimeo, if_neg (Nat.not_lt.mpr hroom),
    exec?_bind (wiztoeGetsockopt_timeo h)]
  exact congrArg (fun ms ↦ some (Except.ok (OptValue.timeval (.ofMs ms)), t)) (ofInt_toNat _)

omit hopt

/-- What a caller may expect of a time-out option in a descriptor table `t`. If the layer accepts a
value, the backend waits forever exactly if it is zero, and it is what is read back, to the
millisecond. -/
def TimeoSurvives (w : WrapConfig) (t : Tables) (s : ℤ) (opt : SockOptName) (val : List UInt8) :
    Prop :=
  ∃ r t', (wrapLwipSetsockopt w s opt (some val)).exec? t = some (r, t') ∧
    (r = .ok () → (timeoOf opt (t'.desc (w.toeFd s)) = 0 ↔ (Timeval.ofBytes val).micros = 0) ∧
      ∀ room, sizeofTimeval ≤ room → ∃ tv,
        (wrapLwipGetsockopt w s opt (some room)).exec? t' = some (.ok (.timeval tv), t') ∧
          |tv.micros - (Timeval.ofBytes val).micros| < 1000)

/-- On a live descriptor only the conversions matter. -/
theorem timeoSurvives_of_valid (hopt : opt = .soRcvtimeo ∨ opt = .soSndtimeo)
    (hlen : sizeofTimeval ≤ val.length) (h : toeFdValid w.toToeConfig t (w.toeFd s)) :
    TimeoSurvives w t s opt val ↔
      ((Timeval.ofBytes val).ms = 0 ↔ (Timeval.ofBytes val).micros = 0) ∧
        |((Timeval.ofBytes val).ms.toNat : ℤ) * 1000 - (Timeval.ofBytes val).micros| < 1000 := by
  have hset := setsockopt_exec hopt hlen h
  have hget : ∀ {room}, sizeofTimeval ≤ room → _ := fun hroom ↦
    getsockopt_exec hopt hroom (toeFdValid_setTimeo opt (Timeval.ofBytes val).ms h)
  rw [timeoOf_setTimeo] at hget
  -- Both calls have one run each, so what survives can be read off the milliseconds stored.
  constructor
  · rintro ⟨r, t', hrun, hok⟩
    obtain ⟨rfl, rfl⟩ := Prod.mk.inj (Option.some.inj (hset.symm.trans hrun))
    obtain ⟨hzero, hread⟩ := hok rfl
    obtain ⟨tv, hrun, hclose⟩ := hread sizeofTimeval le_rfl
    obtain rfl : Timeval.ofMs (Timeval.ofBytes val).ms = tv := by
      have := (hget le_rfl).symm.trans hrun
      simpa using this
    rw [timeoOf_setTimeo] at hzero
    rw [Timeval.micros_ofMs] at hclose
    exact ⟨hzero, hclose⟩
  · rintro ⟨hzero, hclose⟩
    refine ⟨_, _, hset,
      fun _ ↦ ⟨by rwa [timeoOf_setTimeo], fun room hroom ↦ ⟨_, hget hroom, ?_⟩⟩⟩
    rwa [Timeval.micros_ofMs]

/-- **Which time-outs survive the layer.** Every one on a descriptor that is not live, as it is
refused; and on a live descriptor zero and everything from a millisecond to what 32 bits of
milliseconds hold. -/
theorem timeoSurvives_iff (hopt : opt = .soRcvtimeo ∨ opt = .soSndtimeo)
    (hlen : sizeofTimeval ≤ val.length) (hsec : 0 ≤ (Timeval.ofBytes val).sec)
    (husec : 0 ≤ (Timeval.ofBytes val).usec) :
    TimeoSurvives w t s opt val ↔ ¬toeFdValid w.toToeConfig t (w.toeFd s) ∨
    (Timeval.ofBytes val).micros = 0 ∨
      (1000 ≤ (Timeval.ofBytes val).micros ∧ (Timeval.ofBytes val).micros < 2 ^ 32 * 1000) := by
  by_cases h : toeFdValid w.toToeConfig t (w.toeFd s)
  · have hms := Timeval.ms_toNat husec
    have hzero : (Timeval.ofBytes val).ms = 0 ↔ ((Timeval.ofBytes val).ms.toNat : ℤ) = 0 := by
      rw [← UInt32.toNat_inj]
      exact Int.natCast_eq_zero.symm
    have hnonneg : 0 ≤ (Timeval.ofBytes val).micros := by
      rw [Timeval.micros]
      omega
    rw [timeoSurvives_of_valid hopt hlen h, hzero, hms, abs_lt, or_iff_right (not_not_intro h)]
    omega
  · exact iff_of_true ⟨_, t, setsockopt_rejected hopt hlen h, fun hr ↦ nomatch hr⟩ (.inl h)

/-- Five seconds. -/
theorem timeoSurvives_seconds :
    TimeoSurvives wrapW5500 oneTcpSocket 54 .soRcvtimeo [5, 0, 0, 0, 0, 0, 0, 0, 0, 0, 0, 0, 0, 0,
      0, 0] :=
  (timeoSurvives_iff (.inl rfl) (by decide) (by decide) (by decide)).mpr
    (.inr (.inr (by decide)))

/-- **Half a millisecond is to wait forever.** -/
theorem timeo_submillisecond_lost :
    ¬TimeoSurvives wrapW5500 oneTcpSocket 54 .soRcvtimeo [0, 0, 0, 0, 0, 0, 0, 0, 0xF4, 1, 0, 0, 0,
      0, 0, 0] := by
  intro h
  have hzero := ((timeoSurvives_of_valid (.inl rfl) (by decide) (by decide)).mp h).1
  exact absurd hzero (by decide)

end WsmDriver
