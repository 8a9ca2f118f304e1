import WsmDriver.Toe.Moves

/-!
# The chip as the descriptor pool sees it

The status register of every hardware socket, and the chip's source address. A socket moves by
itself as the relation `auto` allows, which stands for the peer and the link; the address comes and
goes. Of ioLibrary only this is used: `socket` and `listen` leave the hardware socket in `CLOSED`
when they fail and in the state they are for when they do not, `close` leaves it in `CLOSED`, and
nothing but `socket` brings a hardware socket out of `CLOSED`.
-/

namespace WsmDriver

open Effect

/-- `Sn_SR` of every hardware socket, and `SIPR`. -/
structure PoolChip where
  sr : ℤ → SnSR
  sipr : UInt32

/-- The status a hardware socket opened for a protocol comes up in. -/
def SnMR.opened : SnMR → SnSR
  | .tcp => .init
  | .udp => .udp

namespace PoolChip

/-- Hardware socket `sn` goes to the status `v`. -/
def set (sn : ℤ) (v : SnSR) (e : PoolChip) : PoolChip := { e with sr := Function.update e.sr sn v }

variable {e e' : PoolChip} {sn sn' : ℤ} {v : SnSR}

@[simp] theorem set_sr_self : (e.set sn v).sr sn = v := by simp [set]

theorem set_sr_ne (h : sn' ≠ sn) : (e.set sn v).sr sn' = e.sr sn' := by simp [set, h]

/-- Between `e` and `e'` no hardware socket left `CLOSED`. -/
def KeepsClosed (e e' : PoolChip) : Prop := ∀ sn, e.sr sn = .closed → e'.sr sn = .closed

/-- The answers of ioLibrary and of the registers. An operation not listed may do anything to the
hardware socket it addresses but bring it out of `CLOSED`. -/
def Answers : (o : ChipOp) → PoolChip → o.Ans → PoolChip → Prop
  | .socket sn protocol .., e, a, e' =>
    e'.sr = (e.set sn (if a = sn then protocol.opened else .closed)).sr
  | .listen sn, e, a, e' =>
    (a = sockOk → e.sr sn ≠ .closed) ∧ e'.sr =
      (e.set sn (if a = sockOk then .listen else .closed)).sr
  | .close sn, e, _, e' => e'.sr = (e.set sn .closed).sr
  | .getSnSR sn, e, a, e' => a = e.sr sn ∧ e' = e
  | .getSIPR, e, a, e' => a = e.sipr ∧ e' = e
  | o, e, _, e' => e.KeepsClosed e' ∧ ∀ sn, o.sock? ≠ some sn → e'.sr sn = e.sr sn

end PoolChip

/-- The chip whose hardware sockets move by themselves as `auto` allows. -/
def poolChip (auto : SnSR → SnSR → Prop) : Env Tables PoolChip ChipOp.Ans where
  drift e e' := ∀ sn, e'.sr sn = e.sr sn ∨ auto (e.sr sn) (e'.sr sn)
  answer o _ := PoolChip.Answers o

variable {auto : SnSR → SnSR → Prop} {t : Tables} {e e' : PoolChip} {sn : ℤ}

namespace PoolChip

theorem KeepsClosed.of_drift (hauto : ∀ x, ¬auto .closed x) (h : (poolChip auto).drift e e') :
    e.KeepsClosed e' := by
  intro sn hc
  rcases h sn with heq | ha
  · rw [heq, hc]
  · rw [hc] at ha
    exact absurd ha (hauto _)

/-- Opening or closing a hardware socket leaves the others as they are. -/
theorem KeepsClosed.of_set (h : e'.sr = (e.set sn .closed).sr) : e.KeepsClosed e' := by
  intro x hc
  rw [h]
  by_cases hx : x = sn
  · rw [hx, set_sr_self]
  · rw [set_sr_ne hx, hc]

theorem KeepsClosed.of_listen {a : ℤ} (h : Answers (.listen sn) e a e') : e.KeepsClosed e' := by
  obtain ⟨hne, h⟩ := h
  by_cases ha : a = sockOk
  · intro x hc
    have hx : x ≠ sn := by
      rintro rfl
      exact hne ha hc
    rw [h, set_sr_ne hx, hc]
  · rw [if_neg ha] at h
    exact .of_set h

/-- No operation but `socket` brings a hardware socket out of `CLOSED`. -/
theorem KeepsClosed.of_answer {o : ChipOp} {a : o.Ans} (hq : o.quiet = true)
    (h : Answers o e a e') : e.KeepsClosed e' := by
  cases o with
  | socket => exact absurd hq (by simp [ChipOp.quiet])
  | listen sn => exact .of_listen h
  | close sn => exact .of_set h
  | getSnSR sn =>
    rw [h.2]
    exact fun _ hc ↦ hc
  | getSIPR =>
    rw [h.2]
    exact fun _ hc ↦ hc
  | _ => exact h.1

theorem closed_of_socket {protocol : SnMR} {port : UInt16} {flag : Bool} {a : ℤ}
    (h : Answers (.socket sn protocol port flag) e a e') (ha : a ≠ sn) :
    e.KeepsClosed e' ∧ e'.sr sn = .closed := by
  rw [Answers, if_neg ha] at h
  exact ⟨.of_set h, by rw [h, set_sr_self]⟩

theorem closed_of_listen {a : ℤ} (h : Answers (.listen sn) e a e') (ha : a ≠ sockOk) :
    e.KeepsClosed e' ∧ e'.sr sn = .closed := by
  refine ⟨.of_listen h, ?_⟩
  rw [h.2, if_neg ha, set_sr_self]

theorem closed_of_close {a : Unit} (h : Answers (.close sn) e a e') :
    e.KeepsClosed e' ∧ e'.sr sn = .closed := by
  rw [Answers] at h
  exact ⟨.of_set h, by rw [h, set_sr_self]⟩

end PoolChip

/-- A chip that opens whatever it is asked to open, reports its registers and has nothing else to
say. -/
def plainChip : (o : ChipOp) → PoolChip → o.Ans × PoolChip
  | .socket sn protocol .., e => (sn, e.set sn protocol.opened)
  | .listen sn, e =>
    if e.sr sn = .closed then (sockerrSockclosed, e) else (sockOk, e.set sn .listen)
  | .close sn, e => ((), e.set sn .closed)
  | .getSnSR sn, e => (e.sr sn, e)
  | .getSIPR, e => (e.sipr, e)
  | o, e => ((placidChip .closed o ()).1, e)

theorem poolChip_plainChip (auto : SnSR → SnSR → Prop) (o : ChipOp) (t : Tables) (e : PoolChip) :
    (poolChip auto).answer o t e (plainChip o e).1 (plainChip o e).2 := by
  have hother : e.KeepsClosed e ∧ ∀ sn, o.sock? ≠ some sn → e.sr sn = e.sr sn :=
    ⟨fun _ hc ↦ hc, fun _ _ ↦ rfl⟩
  cases o with
  | socket sn protocol => simp [poolChip, PoolChip.Answers, plainChip]
  | listen sn =>
    by_cases hc : e.sr sn = .closed
    · have hne : sockerrSockclosed ≠ sockOk := by decide
      simp [poolChip, PoolChip.Answers, plainChip, hc, hne, PoolChip.set]
    · simp [poolChip, PoolChip.Answers, plainChip, hc]
  | close sn => rfl
  | getSnSR sn => exact ⟨rfl, rfl⟩
  | getSIPR => exact ⟨rfl, rfl⟩
  | _ => exact hother

end WsmDriver
