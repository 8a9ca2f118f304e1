import WsmDriver.W6300.Bytes
import WsmDriver.W6300.Mac
import WsmDriver.Effect.Execution

/-!
# Draining the ring

The `do`/`while` loop of the task over registers and buffers that read as anything at all, headers
included, except that from some point on `Sn_RX_RSR` reads 0. What is read need not make sense, so
the surroundings keep only a record of it: how often the size is still read before it is 0 for good,
the last size two reads agreed on, the last length a header announced, and whether these two
differed when the last frame was committed. The last of these is what the loop takes for a remaining
packet.

Where two reads agree on 0, no frame waits, and the flag is not written. Whether the loop runs again
is then a matter of what is owed.
-/

namespace WsmDriver.W6300

open Effect Failing

/-- What has been read. -/
structure Drain where
  /-- How often `Sn_RX_RSR` is read before it reads 0 for good. -/
  left : ℕ
  /-- The first of two reads of `Sn_RX_RSR`. -/
  half : Option UInt16 := none
  /-- The size two reads agreed on. -/
  size : UInt16 := 0
  /-- The length of the last header. -/
  announced : UInt16 := 0
  /-- The last committed frame did not announce the size read for it, and no other was looked at
  since. -/
  owed : Bool := false
  /-- No frame waits: the last two reads of the size agreed on 0. -/
  empty : Bool := false
  deriving DecidableEq, Repr

namespace Drain

/-- `Sn_RX_RSR` reads `x`. -/
def sized (e : Drain) (x : UInt16) : Drain :=
  { e with
    left := e.left - 1
    half := if e.half.isSome then none else some x
    size := if e.half = some x then x else e.size
    empty := decide (e.half = some x ∧ x = 0) }

/-- A command was taken, which here is `RECV`. -/
def committed (e : Drain) : Drain := { e with owed := decide (e.size ≠ e.announced) }

/-- Everything reads as anything, but the size is 0 in the end. -/
def Answers (e : Drain) : (o : MacOp) → o.Ans → Drain → Prop
  | .read .sockRxRsr len, a, e' =>
    ∃ x, a = .ok (window (be16 x) len) ∧ (e.left = 0 → x = 0) ∧ e' = e.sized x
  | .read .sockRxRd _, a, e' => (∃ v, a = .ok v) ∧ e' = { e with owed := false }
  | .read (.memSockRx _) len, a, e' => ∃ v, a = .ok v ∧
      e' = if len = 2 then { e with announced := headerTotal (window v.toList 2) } else e
  | .read .sockCr len, a, e' => ∃ c, a = .ok (window [c] len) ∧ e' = if c = 0 then e.committed else
      e
  | .read _ _, a, e' => (∃ v, a = .ok v) ∧ e' = e
  | .write _ _, a, e' => a = .ok () ∧ e' = e
  | .malloc _, _, e' => e' = e
  | .free, _, e' => e' = e
  | .stackInput _, _, e' => e' = e
  | .vTaskDelay _, _, e' => e' = e
  | .espTimerGetTime, _, e' => e' = e
  | .ulTaskNotifyTake _, _, e' => e' = e
  | .gpioGetLevel _, _, e' => e' = e

end Drain

/-- Registers and buffers that read as anything, where `C` holds whenever no frame waits. -/
def reading (C : Drain → Prop) : Env Emac Drain MacOp.Ans where
  drift _ _ := False
  answer o _ e a e' := e.Answers o a e' ∧ (e'.empty = true → C e')

/-- Nothing more is asked of them. -/
abbrev drain : Env Emac Drain MacOp.Ans := reading fun _ ↦ True

/-- Whenever no frame waits, nothing is owed. -/
abbrev settled : Env Emac Drain MacOp.Ans := reading fun e ↦ e.owed = false

/-- Once no frame waits, whatever is done is done because something is owed, and `C` holds. -/
def Goes (C : Drain → Prop) (e : Drain) : Prop := e.empty = true → e.owed = true ∧ C e

theorem goes_of_not_empty {C : Drain → Prop} {e : Drain} (h : e.empty = false) : Goes C e := by
  intro hempty
  rw [h] at hempty
  cases hempty

variable {C : Drain → Prop} {s : Emac} {e : Drain} {α : Type} {n : ℕ}

theorem reading_drifts {e' : Drain} (h : (reading C).Drifts e e') : e' = e :=
  h.still fun _ _ ↦ id

/-- The program ends, whatever is read. -/
abbrev Drains (C : Drain → Prop) (p : Mac α) (Q : α → Emac → Drain → Prop)
    (F : EspErr → Emac → Drain → Prop) (s : Emac) (e : Drain) : Prop :=
  preE (reading C) (fun _ _ ↦ Goes C) (· < ·) p Q F s e

section

variable {Q : α → Emac → Drain → Prop} {F : EspErr → Emac → Drain → Prop}

theorem drains_pure {a : α} (h : Q a s e) : Drains C (pure a : Mac α) Q F s e := by
  intro e' he'
  obtain rfl := reading_drifts he'
  exact h

theorem drains_throw {err : EspErr} (h : F err s e) : Drains C (throw err : Mac α) Q F s e := by
  intro e' he'
  obtain rfl := reading_drifts he'
  exact h

theorem drains_read_bind {r : Reg} {len : ℕ} {f : Vector UInt8 len → Mac α} (hgo : Goes C e)
    (hr : ∀ {a e'}, e.Answers (.read r len) a e' → ∃ v, a = .ok v)
    (h : ∀ v e', e.Answers (.read r len) (.ok v) e' → (e'.empty = true → C e') →
      Drains C (f v) Q F s e') :
    Drains C (w6300Read r len >>= f) Q F s e := by
  intro e₁ he₁
  obtain rfl := reading_drifts he₁
  refine ⟨hgo, fun a e₂ ⟨ha, hC⟩ ↦ ?_⟩
  obtain ⟨v, rfl⟩ := hr ha
  exact h v e₂ ha hC

theorem drains_write_bind {r : Reg} {data : List UInt8} {f : Unit → Mac α} (hgo : Goes C e)
    (h : Drains C (f ()) Q F s e) : Drains C (w6300Write r data >>= f) Q F s e := by
  intro e₁ he₁
  obtain rfl := reading_drifts he₁
  refine ⟨hgo, ?_⟩
  rintro a e₂ ⟨⟨rfl, rfl⟩, -⟩
  exact h

theorem drains_rsr_bind {f : UInt16 → Mac α} (hgo : Goes C e)
    (h : ∀ x, (e.left = 0 → x = 0) → ((e.sized x).empty = true → C (e.sized x)) →
      Drains C (f x) Q F s (e.sized x)) :
    Drains C (w6300ReadU16 .sockRxRsr >>= f) Q F s e := by
  unfold w6300ReadU16
  rw [bind_assoc]
  refine drains_read_bind hgo (fun ⟨x, hx, _⟩ ↦ ⟨_, hx⟩) ?_
  rintro v e' ⟨x, hv, hx, rfl⟩ hC
  cases hv
  rw [pure_bind, join16_be16 (window_toList rfl)]
  exact h x hx hC

theorem drains_rd_bind {f : UInt16 → Mac α} (hempty : e.empty = false)
    (h : ∀ x, Drains C (f x) Q F s { e with owed := false }) :
    Drains C (w6300ReadU16 .sockRxRd >>= f) Q F s e := by
  unfold w6300ReadU16
  rw [bind_assoc]
  refine drains_read_bind (goes_of_not_empty hempty) (fun ⟨⟨v, hv⟩, _⟩ ↦ ⟨v, hv⟩) ?_
  rintro v e' ⟨-, rfl⟩ -
  rw [pure_bind]
  exact h _

theorem drains_header_bind {offset : UInt16} {f : Vector UInt8 2 → Mac α} (hempty : e.empty = false)
    (h : ∀ head, Drains C (f head) Q F s { e with announced := headerTotal head }) :
    Drains C (w6300Read (.memSockRx offset) 2 >>= f) Q F s e := by
  refine drains_read_bind (goes_of_not_empty hempty) (fun ⟨v, hv, _⟩ ↦ ⟨v, hv⟩) ?_
  rintro v e' ⟨v', hv, rfl⟩ -
  cases hv
  have hwindow : window v.toList 2 = v := Vector.toList_inj.mp (window_toList (by simp))
  rw [if_pos rfl, hwindow]
  exact h v

end

/-! ## Sizes and headers -/

/-- A turn of the loop that reads the size, between turns of the receive loop. -/
structure Drain.Known (e e' : Drain) : Prop where
  half : e'.half = none
  announced : e'.announced = e.announced
  owed : e'.owed = e.owed
  left : e'.left ≤ e.left

/-- What the size read tells: that a reading is spent, or that no frame waits. -/
structure Drain.Sized (C : Drain → Prop) (x : UInt16) (e e' : Drain) : Prop extends e.Known e' where
  size : e'.size = x
  less : x ≠ 0 → e'.left < e.left
  empty : e'.empty = decide (x = 0)
  noFrame : x = 0 → C e'

theorem rxReceivedSize_drains (h : e.half = none) (hgo : Goes C e) :
    wp (reading C) (fun _ _ ↦ Goes C) w6300RxReceivedSize
      (fun x s' e' ↦ s' = s ∧ e.Sized C x e') s e := by
  unfold w6300RxReceivedSize w6300GetRxReceivedSize
  refine preE.run_bind (M := fun x s' e' ↦ s' = s ∧ e.Sized C x e')
    (F := fun _ _ _ ↦ False) ?_ ?_ fun _ _ _ h ↦ h.elim
  · refine preE_forever (fun n s' e' ↦ s' = s ∧ e.Known e' ∧ Goes C e' ∧ n = e'.left) (n := _)
      ⟨rfl, ⟨h, rfl, rfl, le_rfl⟩, hgo, rfl⟩ ?_
    rintro _ s e' ⟨rfl, hknown, hgo', rfl⟩
    unfold w6300AgreedSize
    have hempty : ∀ x, (e'.sized x).empty = false := by
      intro x
      simp [Drain.sized, hknown.half]
    refine drains_rsr_bind hgo' fun x hx _ ↦
      drains_rsr_bind (goes_of_not_empty (hempty x)) fun y hy hC ↦ ?_
    have hknown' : e.Known ((e'.sized x).sized y) := by
      refine ⟨?_, hknown.announced, hknown.owed, ?_⟩
      · simp [Drain.sized, hknown.half]
      · exact le_trans (Nat.sub_le_sub_right (Nat.sub_le _ _) _)
          (le_trans (Nat.sub_le _ _) hknown.left)
    have hleft : ((e'.sized x).sized y).left = e'.left - 1 - 1 := rfl
    by_cases hne : x ≠ y
    · -- Two readings that differ are not both zero, so there was something left to read.
      rw [if_pos hne]
      have hgoes : Goes C ((e'.sized x).sized y) := by
        apply goes_of_not_empty
        simp [Drain.sized, hknown.half, hne]
      refine drains_pure ⟨_, ?_, rfl, hknown', hgoes, rfl⟩
      rw [hleft]
      have hpos : e'.left ≠ 0 := by
        intro hzero
        have hzero' : (e'.sized x).left = 0 := by simp [Drain.sized, hzero]
        exact hne ((hx hzero).trans (hy hzero').symm)
      omega
    · obtain rfl := not_not.mp hne
      rw [if_neg hne]
      have hzero : ((e'.sized x).sized x).empty = decide (x = 0) := by
        simp [Drain.sized, hknown.half]
      refine drains_pure ?_
      intro e'' he''
      obtain rfl := reading_drifts he''
      refine ⟨rfl, hknown', ?_, fun hx₀ ↦ ?_, hzero, fun hx₀ ↦ hC ?_⟩
      · simp [Drain.sized, hknown.half]
      · have hpos : e'.left ≠ 0 := fun hleft₀ ↦ hx₀ (hx hleft₀)
        have hle := hknown.left
        rw [hleft]
        omega
      · rw [hzero]
        exact decide_eq_true hx₀
  · rintro x _ e' ⟨rfl, hsized⟩ e'' he''
    obtain rfl := reading_drifts he''
    exact ⟨rfl, hsized⟩

/-- Looking at the next frame settles what was owed. -/
theorem nextFrame_drains (hempty : e.empty = false) :
    Drains C w6300NextFrame
      (fun r s' e' ↦ s' = s ∧ r.2 + rxHeaderSize = e'.announced ∧
        e' = { e with owed := false, announced := e'.announced })
      (fun _ s' e' ↦ s' = s ∧ e' = { e with owed := false, announced := e'.announced }) s e := by
  unfold w6300NextFrame w6300ReadFrameHeader
  refine drains_rd_bind hempty fun offset ↦ ?_
  rw [bind_assoc]
  refine drains_header_bind hempty fun head ↦ ?_
  rw [bind_assoc]
  refine preE_ensure_bind (fun _ ↦ ?_) fun _ e' he' ↦ ?_
  · rw [pure_bind]
    exact drains_pure ⟨rfl, UInt16.sub_add_cancel _ _, rfl⟩
  · obtain rfl := reading_drifts he'
    exact ⟨rfl, rfl⟩

/-! ## Committing -/

/-- The point between two turns: the loop goes on exactly if something is owed. -/
structure Paced (C : Drain → Prop) (n : ℕ) (s : Emac) (e : Drain) : Prop where
  owed : s.packetsRemain = e.owed
  half : e.half = none
  left : e.left ≤ n
  noFrame : e.empty = true → C e

theorem Paced.goes (h : Paced C n s e) (hs : s.packetsRemain = true) : Goes C e :=
  fun hempty ↦ ⟨h.owed.symm.trans hs, h.noFrame hempty⟩

/-- A frame is being looked at. -/
structure Drain.Looked (n : ℕ) (e : Drain) : Prop where
  half : e.half = none
  owed : e.owed = false
  left : e.left ≤ n
  empty : e.empty = false

theorem Drain.Looked.noFrame (h : e.Looked n) {e' : Drain} (he : e'.empty = e.empty) :
    e'.empty = true → C e' := by
  rw [he, h.empty]
  rintro ⟨⟩

theorem awaitCommand_drains (hempty : e.empty = false) (k : ℕ) :
    Drains C (w6300AwaitCommand k) (fun _ s' e' ↦ s' = s ∧ e' = e.committed)
      (fun _ s' e' ↦ s' = s ∧ e' = e) s e := by
  induction k with
  | zero => exact drains_throw ⟨rfl, rfl⟩
  | succ k ih =>
    unfold w6300AwaitCommand
    refine drains_read_bind (goes_of_not_empty hempty) (fun ⟨c, hc, _⟩ ↦ ⟨_, hc⟩) ?_
    rintro v e' ⟨c, hv, rfl⟩ -
    cases hv
    rw [show (window [c] 1).get 0 = c from rfl]
    by_cases hc : c = 0
    · rw [if_pos hc, if_pos hc]
      exact drains_pure ⟨rfl, rfl⟩
    · rw [if_neg hc, if_neg hc]
      intro e₁ he₁
      obtain rfl := reading_drifts he₁
      refine ⟨goes_of_not_empty hempty, ?_⟩
      rintro - e₂ ⟨rfl, -⟩
      exact ih

theorem sub_pos_iff {x y : UInt16} : 0 < x - y ↔ x ≠ y := by
  constructor
  · rintro h rfl
    rw [UInt16.sub_self] at h
    exact absurd h (by decide)
  · intro hne
    have hsub : x - y ≠ 0 := by
      intro hzero
      have hx := UInt16.sub_add_cancel x y
      rw [hzero, UInt16.zero_add] at hx
      exact hne hx.symm
    have hnat : (x - y).toNat ≠ 0 := fun h ↦ hsub (UInt16.toNat_inj.mp h)
    rw [UInt16.lt_iff_toNat_lt]
    exact Nat.pos_of_ne_zero hnat

/-- A commit that goes well owes exactly what the flag says. -/
theorem commitFrame_drains {offset rxLen : UInt16} (hs : s.packetsRemain = false)
    (h : e.Looked n) (hann : rxLen + rxHeaderSize = e.announced) :
    Drains C (w6300CommitFrame offset rxLen e.size)
      (fun _ s' e' ↦ Paced C n s' e' ∧ e'.empty = false)
      (fun _ s' e' ↦ Paced C n s' e' ∧ e'.empty = false) s e := by
  have hgo : Goes C e := goes_of_not_empty h.empty
  unfold w6300CommitFrame w6300SendCommand w6300WriteU16 w6300WriteU8
  simp only [bind_assoc]
  refine drains_write_bind hgo (drains_write_bind hgo ?_)
  refine ((awaitCommand_drains h.empty (100 / 10)).imp (fun _ _ _ h ↦ h) ?_).seq ?_
  · rintro _ _ _ ⟨rfl, rfl⟩
    exact ⟨⟨hs.trans h.owed.symm, h.half, h.left, h.noFrame rfl⟩, h.empty⟩
  · rintro - _ _ ⟨rfl, rfl⟩ e' he'
    obtain rfl := reading_drifts he'
    refine ⟨⟨?_, h.half, h.left, h.noFrame rfl⟩, h.empty⟩
    dsimp only [Drain.committed]
    rw [hann]
    exact decide_eq_decide.mpr sub_pos_iff

/-! ## A turn -/

theorem flushRecvFrame_drains (h : e.Looked n) :
    wp (reading C) (fun _ _ ↦ Goes C) (discard emacW6300FlushRecvFrame.run)
      (fun _ ↦ Paced C n) s e := by
  have hflush : Drains C emacW6300FlushRecvFrame (fun _ ↦ Paced C n) (fun _ ↦ Paced C n) s e := by
    unfold emacW6300FlushRecvFrame
    refine preE_modify_bind.mpr (preE_lift_bind ?_)
    refine (rxReceivedSize_drains h.half (goes_of_not_empty h.empty)).imp ?_
    rintro _ _ e₁ ⟨rfl, hsized⟩
    obtain rfl := hsized.size
    have howed₁ : e₁.owed = false := hsized.owed.trans h.owed
    have hleft₁ := hsized.left.trans h.left
    split
    · rename_i hzero
      exact drains_pure ⟨howed₁.symm, hsized.half, hleft₁, fun _ ↦ hsized.noFrame hzero⟩
    · rename_i hpos
      have hempty₁ : e₁.empty = false := hsized.empty.trans (decide_eq_false hpos)
      have hlooked : e₁.Looked n := ⟨hsized.half, howed₁, hleft₁, hempty₁⟩
      refine ((nextFrame_drains hempty₁).imp (fun _ _ _ h ↦ h) ?_).seq ?_
      · rintro _ _ _ ⟨rfl, he⟩
        rw [he]
        exact ⟨rfl, hsized.half, hleft₁, hlooked.noFrame rfl⟩
      · rintro ⟨offset, rxLen⟩ _ e₂ ⟨rfl, hann, he⟩
        have hsize : e₁.size = e₂.size := by rw [he]
        rw [hsize]
        have hlooked₂ : e₂.Looked n := by
          rw [he]
          exact ⟨hsized.half, rfl, hleft₁, hempty₁⟩
        exact (commitFrame_drains rfl hlooked₂ hann).imp (fun _ _ _ h ↦ h.1) fun _ _ _ h ↦ h.1
  refine pre_discard ((pre.settle hflush).imp ?_)
  rintro (err | _) s' e' hr e'' he''
  · exact hr e'' he''
  · exact hr e'' he''

/-- Neither the stack nor the allocator is read. -/
theorem ask_drains {o : MacOp} (ho : ∀ {e : Drain} {a e'}, e.Answers o a e' → e' = e)
    (h : Paced C n s e) (hempty : e.empty = false) :
    wp (reading C) (fun _ _ ↦ Goes C) (ask o) (fun _ ↦ Paced C n) s e := by
  intro e₁ he₁
  obtain rfl := reading_drifts he₁
  refine ⟨goes_of_not_empty hempty, fun a e₂ ⟨ha, _⟩ e₃ he₃ ↦ ?_⟩
  obtain rfl := ho ha
  obtain rfl := reading_drifts he₃
  exact h

theorem deliver_drains {offset rxLen : UInt16} {copyLen frameLen : UInt32} (h : e.Looked n)
    (hann : rxLen + rxHeaderSize = e.announced) (hmin : 60 ≤ copyLen.toNat)
    (hmax : copyLen.toNat ≤ 1522) :
    wp (reading C) (fun _ _ ↦ Goes C)
      (emacW6300Deliver ⟨offset.toUInt32, copyLen, rxLen.toUInt32, e.size.toUInt32⟩ frameLen)
      (fun _ ↦ Paced C n) s e := by
  have h16 : copyLen.toUInt16.toNat = copyLen.toNat := by
    rw [UInt32.toNat_toUInt16]
    omega
  unfold emacW6300Deliver
  refine preE.run_bind (M := fun _ s' e' ↦ Paced C n s' e' ∧ e'.empty = false)
    (F := fun _ s' e' ↦ Paced C n s' e' ∧ e'.empty = false) ?_ ?_ ?_
  · unfold emacW6300Receive
    refine preE_modify_bind.mpr ?_
    rw [if_pos rfl]
    simp only [UInt16.toUInt16_toUInt32]
    unfold w6300TakeFrame
    refine drains_read_bind (goes_of_not_empty h.empty) (fun ⟨v, hv, _⟩ ↦ ⟨v, hv⟩) ?_
    rintro v e' ⟨_, -, rfl⟩ -
    -- A payload is never as short as a header, so the record of the header stays.
    rw [if_neg (by omega)]
    exact (commitFrame_drains rfl h hann).seq fun _ s e h ↦ drains_pure h
  · rintro ⟨bufLen, frame⟩ s e ⟨h, hempty⟩
    exact pre_ite (fun _ ↦ ask_drains id h hempty) fun _ ↦
      pre_ite (fun _ ↦ ask_drains id h hempty) fun _ ↦ ask_drains id h hempty
  · exact fun _ s e ⟨h, hempty⟩ ↦ ask_drains id h hempty

/-- What the allocation comes to: no frame, or a frame to drop or to deliver, with nothing owed. -/
inductive Drain.Found (C : Drain → Prop) (n : ℕ) (s : Emac) (e : Drain) :
    Except EspErr (Option AutoBufInfo) × UInt32 → Prop
  | none (h : Paced C n s e) (hempty : e.empty = true) : Found C n s e (.ok none, 0)
  | drop {m : ℕ} {err : EspErr} {k : UInt32} (h : e.Looked m) (hless : m < n) :
      Found C n s e (.error err, k)
  | some {m : ℕ} {offset rxLen : UInt16} {copyLen k : UInt32} (h : e.Looked m) (hless : m < n)
      (hann : rxLen + rxHeaderSize = e.announced) (hmin : 60 ≤ copyLen.toNat)
      (hmax : copyLen.toNat ≤ 1522) :
      Found C n s e (.ok (some ⟨offset.toUInt32, copyLen, rxLen.toUInt32, e.size.toUInt32⟩), k)

theorem allocRecvBuf_drains (h : Paced C n s e) (hgo : Goes C e) :
    wp (reading C) (fun _ _ ↦ Goes C) (emacW6300AllocRecvBuf (UInt32.ofNat ethMaxPacketSize))
      (fun r s' e' ↦ s' = s ∧ e'.Found C n s r) s e := by
  unfold emacW6300AllocRecvBuf
  refine (rxReceivedSize_drains h.half hgo).seq ?_
  rintro size _ e₁ ⟨rfl, hsized⟩
  have hleft₁ := hsized.left.trans h.left
  split
  · rename_i hzero
    intro e₂ he₂
    obtain rfl := reading_drifts he₂
    refine ⟨rfl, .none ⟨h.owed.trans hsized.owed.symm, hsized.half, hleft₁, fun _ ↦ ?_⟩ ?_⟩
    · exact hsized.noFrame hzero
    · exact hsized.empty.trans (decide_eq_true hzero)
  · rename_i hpos
    have hlt : e₁.left < n := (hsized.less hpos).trans_le h.left
    have hempty₁ : e₁.empty = false := hsized.empty.trans (decide_eq_false hpos)
    refine preE.run_bind (nextFrame_drains hempty₁) ?_ ?_
    · rintro ⟨offset, rxLen⟩ _ e₂ ⟨rfl, hann, he⟩
      have hlooked : e₂.Looked e₁.left := by
        rw [he]
        exact ⟨hsized.half, rfl, le_rfl, hempty₁⟩
      obtain rfl : e₂.size = size := by
        rw [he]
        exact hsized.size
      dsimp only
      refine pre_ite (fun _ e₃ he₃ ↦ ?_) fun hmin ↦ ?_
      · obtain rfl := reading_drifts he₃
        exact ⟨rfl, .drop hlooked hlt⟩
      · refine pre_perform_bind.mpr fun e₃ he₃ ↦ ?_
        obtain rfl := reading_drifts he₃
        refine ⟨goes_of_not_empty hlooked.empty, ?_⟩
        rintro granted _ ⟨rfl, -⟩
        refine pre_ite (fun _ e₄ he₄ ↦ ?_) fun _ e₄ he₄ ↦ ?_
        · obtain rfl := reading_drifts he₄
          refine ⟨rfl, .some hlooked hlt hann (Nat.le_of_not_lt hmin) ?_⟩
          split
          · decide
          · rename_i hmax
            exact Nat.le_of_not_lt hmax
        · obtain rfl := reading_drifts he₄
          exact ⟨rfl, .drop hlooked hlt⟩
    · rintro err _ e₂ ⟨rfl, he⟩ e₃ he₃
      obtain rfl := reading_drifts he₃
      have hlooked : e₃.Looked e₁.left := by
        rw [he]
        exact ⟨hsized.half, rfl, le_rfl, hempty₁⟩
      exact ⟨rfl, .drop hlooked hlt⟩

/-- A turn after which the loop goes on has read a size that was not the last, or found no frame. -/
theorem taskTurn_drains (h : Paced C n s e) (hgo : Goes C e) :
    wp (reading C) (fun _ _ ↦ Goes C) emacW6300TaskTurn (fun r s' e' ↦
      r = (if s'.packetsRemain = true then none else some ()) ∧
        ((∃ m < n, Paced C m s' e') ∨ (Paced C n s' e' ∧ e'.empty = true))) s e := by
  unfold emacW6300TaskTurn
  refine (allocRecvBuf_drains h hgo).seq ?_
  rintro r _ e₁ ⟨rfl, hfound⟩
  refine pre.seq (M := fun _ s' e' ↦
    (∃ m < n, Paced C m s' e') ∨ (Paced C n s' e' ∧ e'.empty = true)) ?_ ?_
  · cases hfound with
    | none h hempty =>
      intro e₂ he₂
      obtain rfl := reading_drifts he₂
      exact .inr ⟨h, hempty⟩
    | drop h hless => exact (flushRecvFrame_drains h).imp fun _ s' e' h ↦ .inl ⟨_, hless, h⟩
    | some h hless hann hmin hmax =>
      exact (deliver_drains h hann hmin hmax).imp fun _ s' e' h ↦ .inl ⟨_, hless, h⟩
  · rintro - s e₂ h
    refine pre_get_bind.mpr fun e₃ he₃ ↦ ?_
    obtain rfl := reading_drifts he₃
    exact ⟨rfl, h⟩

/-! ## The loop -/

/-- Where the loop is entered: nothing has been found out about the next frame. -/
structure Entered (s : Emac) (e : Drain) : Prop where
  owed : s.packetsRemain = e.owed
  half : e.half = none
  empty : e.empty = false

theorem Entered.paced (h : Entered s e) : Paced C e.left s e :=
  ⟨h.owed, h.half, le_rfl, by rw [h.empty]; rintro ⟨⟩⟩

/-- Where nothing is owed whenever no frame waits, every turn but the last spends a reading. -/
theorem settled_loop (h : Entered s e) :
    wp settled (fun _ _ ↦ Goes fun e ↦ e.owed = false) (.forever emacW6300TaskTurn)
      (fun _ _ _ ↦ True) s e := by
  refine ⟨fun n s e ↦ Paced _ n s e ∧ Goes _ e,
    ⟨_, h.paced, goes_of_not_empty h.empty⟩, fun n s e ⟨h, hgo⟩ ↦
      (taskTurn_drains h hgo).imp ?_⟩
  rintro _ s e ⟨rfl, hnext⟩
  cases hremain : s.packetsRemain with
  | true =>
    obtain ⟨m, hless, h⟩ | ⟨h, hempty⟩ := hnext
    · exact ⟨m, hless, h, h.goes hremain⟩
    · have howed := h.owed.symm.trans hremain
      rw [h.noFrame hempty] at howed
      cases howed
  | false => exact fun _ _ ↦ trivial

/-- Whatever is read, the loop runs again after no frame was found exactly if something is owed. -/
theorem drain_loop (h : Entered s e) :
    wlp drain (fun _ _ ↦ Goes fun _ ↦ True) (.forever emacW6300TaskTurn)
      (fun _ _ e' ↦ e'.owed = false) s e := by
  refine wlp_forever (fun s e ↦ (∃ n, Paced (fun _ ↦ True) n s e) ∧ Goes (fun _ ↦ True) e)
    ⟨⟨_, h.paced⟩, goes_of_not_empty h.empty⟩ ?_
  rintro s e ⟨⟨n, h⟩, hgo⟩
  refine (taskTurn_drains h hgo).wlp.imp ?_
  rintro _ s e ⟨rfl, hnext⟩
  obtain ⟨m, h⟩ : ∃ m, Paced (fun _ ↦ True) m s e := by
    obtain ⟨m, -, h⟩ | ⟨h, -⟩ := hnext
    · exact ⟨m, h⟩
    · exact ⟨n, h⟩
  cases hremain : s.packetsRemain with
  | true => exact ⟨⟨m, h⟩, h.goes hremain⟩
  | false =>
    intro e' he'
    obtain rfl := reading_drifts he'
    exact h.owed.symm.trans hremain

/-! ## A loop that never ends -/

/-- `Sn_RX_RSR` reads 0 for good. -/
structure Dry (e : Drain) : Prop where
  left : e.left = 0
  half : e.half = none

/-- Once the size reads 0 a turn leaves everything as it is. -/
theorem taskTurn_dry (h : Dry e) :
    wp drain (fun _ _ _ ↦ True) emacW6300TaskTurn (fun r s' e' ↦
      s' = s ∧ r = (if s.packetsRemain = true then none else some ()) ∧ Dry e') s e := by
  have hread : ∀ {e : Drain} {f : UInt16 → Mac (Option UInt16)} {Q F}, e.left = 0 →
      preE drain (fun _ _ _ ↦ True) (· < ·) (f 0) Q F s (e.sized 0) →
      preE drain (fun _ _ _ ↦ True) (· < ·) (w6300ReadU16 .sockRxRsr >>= f) Q F s e := by
    intro e f Q F hleft hf
    unfold w6300ReadU16
    rw [bind_assoc]
    intro e₁ he₁
    obtain rfl := reading_drifts he₁
    refine ⟨trivial, ?_⟩
    rintro _ _ ⟨⟨x, rfl, hx, rfl⟩, -⟩
    obtain rfl := hx hleft
    exact hf
  unfold emacW6300TaskTurn emacW6300AllocRecvBuf w6300RxReceivedSize w6300GetRxReceivedSize
  refine pre.seq (M := fun r s' e' ↦ s' = s ∧ r = (.ok none, 0) ∧ Dry e') ?_ ?_
  · refine pre.seq (M := fun x s' e' ↦ s' = s ∧ x = 0 ∧ Dry e') ?_ ?_
    · refine preE.run_bind (M := fun x s' e' ↦ s' = s ∧ x = 0 ∧ Dry e')
        (F := fun _ _ _ ↦ False) ?_ ?_ fun _ _ _ h ↦ h.elim
      · refine preE_forever (fun _ s' e' ↦ s' = s ∧ Dry e') (n := 0) ⟨rfl, h⟩ ?_
        rintro _ s e ⟨rfl, h⟩
        unfold w6300AgreedSize
        have hleft : (e.sized 0).left = 0 := by simp [Drain.sized, h.left]
        refine hread h.left (hread hleft fun e₁ he₁ ↦ ?_)
        obtain rfl := reading_drifts he₁
        rw [if_neg (not_not.mpr rfl)]
        intro e₂ he₂
        obtain rfl := reading_drifts he₂
        exact ⟨rfl, rfl, by simp [Drain.sized, h.left], by simp [Drain.sized, h.half]⟩
      · rintro x s e ⟨rfl, rfl, h⟩ e₁ he₁
        obtain rfl := reading_drifts he₁
        exact ⟨rfl, rfl, h⟩
    · rintro _ _ e ⟨rfl, rfl, h⟩
      rw [if_pos rfl]
      intro e₁ he₁
      obtain rfl := reading_drifts he₁
      exact ⟨rfl, rfl, h⟩
  · rintro _ s e ⟨rfl, rfl, h⟩
    refine pre.seq (M := fun _ s' e' ↦ s' = s ∧ Dry e') ?_ ?_
    · intro e₁ he₁
      obtain rfl := reading_drifts he₁
      exact ⟨rfl, h⟩
    · rintro - s e ⟨rfl, h⟩
      refine pre_get_bind.mpr fun e₁ he₁ ↦ ?_
      obtain rfl := reading_drifts he₁
      exact ⟨rfl, rfl, h⟩

/-- One way to read: sizes of 200 and headers of 100, and every command is taken. -/
def Drain.reply : (o : MacOp) → Drain → o.Ans × Drain
  | .read .sockRxRsr len, e =>
    let x := if e.left = 0 then 0 else 200
    (.ok (window (be16 x) len), e.sized x)
  | .read .sockRxRd len, e => (.ok (window [] len), { e with owed := false })
  | .read (.memSockRx _) len, e =>
    (.ok (window [0, 100] len), if len = 2 then { e with announced := 100 } else e)
  | .read .sockCr len, e => (.ok (window [0] len), e.committed)
  | .read .sockIr len, e | .read .sockIrclr len, e | .read .sockTxFsr len, e | .read .sockTxWr len,
      e
  | .read (.memSockTx _) len, e | .read .physr len, e => (.ok (window [] len), e)
  | .write _ _, e => (.ok (), e)
  | .malloc _, e => (true, e)
  | .free, e => ((), e)
  | .stackInput _, e => ((), e)
  | .vTaskDelay _, e => ((), e)
  | .espTimerGetTime, e => (0, e)
  | .ulTaskNotifyTake _, e => (0, e)
  | .gpioGetLevel _, e => (0, e)

theorem drain_reply : drain.Follows (fun _ ↦ True) Drain.reply := by
  refine .always fun o s e ↦ ⟨?_, fun _ ↦ trivial⟩
  cases o with
  | read r len =>
    cases r with
    | sockRxRsr =>
      refine ⟨_, rfl, fun hleft ↦ ?_, rfl⟩
      rw [if_pos hleft]
    | sockRxRd => exact ⟨⟨_, rfl⟩, rfl⟩
    | memSockRx offset =>
      refine ⟨_, rfl, ?_⟩
      by_cases hlen : len = 2
      · subst hlen
        rfl
      · simp only [Drain.reply, if_neg hlen]
    | sockCr => exact ⟨0, rfl, rfl⟩
    | _ => exact ⟨⟨_, rfl⟩, rfl⟩
  | write r data => exact ⟨rfl, rfl⟩
  | _ => exact rfl

theorem drain_responsive : drain.Responsive := fun o s e ↦
  ⟨e, _, _, .refl _ _, drain_reply.answer o s e trivial⟩

theorem dry_loop_not_halts (hs : s.packetsRemain = true) (h : Dry e) :
    ¬Halts drain (.forever emacW6300TaskTurn) s e := by
  refine not_halts_forever (I := fun s e ↦ s.packetsRemain = true ∧ Dry e) ?_ ⟨hs, h⟩
  rintro s e ⟨hs, h⟩
  obtain ⟨r, s', e', hr, hs', rfl, h'⟩ := wp_returns drain_responsive (taskTurn_dry (s := s) h)
  subst hs'
  rw [if_pos hs] at hr
  exact ⟨s', e', hr, hs, h'⟩

/-- **Draining ends if nothing is owed.** Where nothing is owed whenever no frame waits, the loop
ends, and it does not run again once no frame waits. Over registers that have begun to read 0 for
good it ends exactly if nothing is owed; and whatever is read, once no frame waits it runs again if
something is owed, and ends if not. -/
theorem drain_loop_halts (h : Entered s e) :
    Halts settled (.forever emacW6300TaskTurn) s e ∧
      (∀ o s' e', Performs settled (.forever emacW6300TaskTurn) s e o s' e' → e'.empty = false) ∧
      (e.left = 0 → (Halts drain (.forever emacW6300TaskTurn) s e ↔ e.owed = false)) ∧
      (∀ o s' e', Performs drain (.forever emacW6300TaskTurn) s e o s' e' →
        e'.empty = true → e'.owed = true) ∧
      ∀ s' e', Returns drain (.forever emacW6300TaskTurn) s e () s' e' → e'.owed = false := by
  refine ⟨wp_halts (.of_none fun _ _ ↦ id) (settled_loop h), fun o s' e' ho ↦ ?_,
    fun hleft ↦ ?_, fun o s' e' ho hempty ↦ ((drain_loop h).performs ho hempty).1,
    fun s' e' hr ↦ (drain_loop h).returns hr⟩
  · by_contra hempty
    have hgoes := (settled_loop h).performs ho (Bool.eq_true_of_not_eq_false hempty)
    rw [hgoes.2] at hgoes
    cases hgoes.1
  · have hdry : Dry e := ⟨hleft, h.half⟩
    cases howed : e.owed with
    | true => simpa using dry_loop_not_halts (h.owed.trans howed) hdry
    | false =>
      have hs : s.packetsRemain = false := h.owed.trans howed
      have hloop : wp drain (fun _ _ _ ↦ True) (.forever emacW6300TaskTurn)
          (fun _ _ _ ↦ True) s e := by
        refine pre_forever_once ((taskTurn_dry hdry).imp ?_)
        rintro _ _ e' ⟨rfl, rfl, -⟩
        rw [if_neg (by simp [hs])]
        exact ⟨(), rfl, fun _ _ ↦ trivial⟩
      exact iff_of_true (wp_halts (.of_none fun _ _ ↦ id) hloop) rfl

/-- The size is read five times. -/
theorem drain_loop_halts_five : Halts settled (.forever emacW6300TaskTurn) {} { left := 5 } :=
  (drain_loop_halts ⟨rfl, rfl, rfl⟩).1

/-- A header announces 100 of the 200 bytes there are said to be, and then there are none: the loop
never ends. -/
theorem not_drain_loop_halts : ¬Halts drain (.forever emacW6300TaskTurn) {} { left := 2 } := by
  intro h
  have hturn : Returns drain emacW6300TaskTurn {} { left := 2 } none
      (runWith Drain.reply 40 ⟨emacW6300TaskTurn, {}, { left := 2 }⟩).store
      (runWith Drain.reply 40 ⟨emacW6300TaskTurn, {}, { left := 2 }⟩).env :=
    returns_runWith drain_reply trivial (by decide)
  have hagain :=
    h.reaches ((Reaches.step (.turn emacW6300TaskTurn _ _ _)).trans (Reaches.bind _ hturn))
  exact dry_loop_not_halts (by decide) ⟨by decide, by decide⟩ hagain

end WsmDriver.W6300
