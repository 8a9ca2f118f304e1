import WsmDriver.W6300.Bytes
import WsmDriver.W6300.Mac
import WsmDriver.Effect.Execution
import WsmDriver.Effect.History

/-!
# Transmission

What the chip does with the `SEND` commands of socket 0. A command waits in `Sn_CR` until the chip
takes it; a transmission that was taken is completed at some later moment, whether or not anybody
still waits for it, and each completion sets `Sn_IR.SENDOK`. There is one such bit for all of them.
The newest `SEND` is tracked by itself, the ones before it are only counted.

Everything the chip does not promise is left open: any access may fail, a write that is reported as
failed may still have reached the chip, and the link and the clock are what they are.
-/

namespace WsmDriver.W6300

open Effect Failing

/-- How far the newest `SEND` has got. -/
inductive SendState
  | idle | written | taken | completed
  deriving DecidableEq, Repr

/-- The transmitting side of socket 0. -/
structure TxChip where
  /-- `Sn_IR.SENDOK`. -/
  sendok : Bool := false
  /-- The newest `SEND`. -/
  last : SendState := .idle
  /-- How many earlier ones were taken and are not completed. -/
  backlog : ℕ := 0
  /-- How many were issued. -/
  issued : ℕ := 0
  deriving DecidableEq, Repr

namespace TxChip

/-- A command is written to `Sn_CR`. It replaces one that was not taken. -/
def command (e : TxChip) (c : UInt8) : TxChip :=
  if c = scrSend then
    { e with
      last := .written
      backlog := if e.last = .taken then e.backlog + 1 else e.backlog
      issued := e.issued + 1 }
  else e

/-- `Sn_IRCLR` is written. -/
def acknowledge (e : TxChip) (bits : UInt8) : TxChip :=
  if bits &&& sirSendok ≠ 0 then { e with sendok := false } else e

/-- `Sn_CR`. -/
def cr (e : TxChip) : UInt8 := if e.last = .written then scrSend else 0

/-- What the chip does by itself. -/
inductive Moves (e : TxChip) : TxChip → Prop
  /-- The command is taken. -/
  | take (h : e.last = .written) : Moves e { e with last := .taken }
  /-- The newest transmission is completed. -/
  | complete (h : e.last = .taken) : Moves e { e with last := .completed, sendok := true }
  /-- An earlier one is. -/
  | late {n : ℕ} (h : e.backlog = n + 1) : Moves e { e with backlog := n, sendok := true }

/-- How the chip answers. -/
def Answers (e : TxChip) : (o : MacOp) → o.Ans → TxChip → Prop
  | .read .sockIr len, a, e' => e' = e ∧ ∀ v, a = .ok v →
      ∃ b, v = window [b] len ∧ (b &&& sirSendok ≠ 0 ↔ e.sendok = true)
  | .read .sockCr len, a, e' => e' = e ∧ ∀ v, a = .ok v → v = window [e.cr] len
  | .read _ _, _, e' => e' = e
  | .write .sockCr data, a, e' =>
    e' = e.command (data.headD 0) ∨ (a ≠ .ok () ∧ e' = e)
  | .write .sockIrclr data, a, e' =>
    e' = e.acknowledge (data.headD 0) ∨ (a ≠ .ok () ∧ e' = e)
  | .write _ _, _, e' => e' = e
  | .malloc _, _, e' => e' = e
  | .free, _, e' => e' = e
  | .stackInput _, _, e' => e' = e
  | .vTaskDelay _, _, e' => e' = e
  | .espTimerGetTime, _, e' => e' = e
  | .ulTaskNotifyTake _, _, e' => e' = e
  | .gpioGetLevel _, _, e' => e' = e

/-- No transmission is under way. -/
structure Settled (e : TxChip) : Prop where
  last : e.last = .idle ∨ e.last = .completed
  backlog : e.backlog = 0

/-- And none has left its mark. -/
structure Quiet (e : TxChip) : Prop extends e.Settled where
  sendok : e.sendok = false

/-- The newest `SEND` is the `n`-th, and only its completion can have set the bit. -/
structure Owned (n : ℕ) (e : TxChip) : Prop where
  issued : e.issued = n
  sendok : e.sendok = true → e.last = .completed
  last : e.last ≠ .idle
  backlog : e.backlog = 0

end TxChip

/-- The chip as a transmitting driver meets it. -/
def txChip : Env Emac TxChip MacOp.Ans where
  drift := TxChip.Moves
  answer o _ e a e' := e.Answers o a e'

variable {s : Emac} {e e' : TxChip} {α : Type} {n : ℕ}

/-! ## What the chip does by itself -/

namespace TxChip

/-- Then nothing happens by itself. -/
theorem Settled.drifts (h : e.Settled) (hd : txChip.Drifts e e') : e' = e := by
  refine hd.induct (P := fun e' ↦ e' = e) ?_ rfl
  rintro e₁ e₂ hm rfl
  cases hm with
  | take hw => exact absurd hw (by obtain hl | hl := h.last <;> simp [hl])
  | complete ht => exact absurd ht (by obtain hl | hl := h.last <;> simp [hl])
  | late hb => exact absurd (h.backlog.symm.trans hb) (by simp)

theorem Owned.drifts (h : e.Owned n) (hd : txChip.Drifts e e') : e'.Owned n := by
  refine hd.induct (P := Owned n) ?_ h
  rintro e₁ e₂ hm h
  cases hm with
  | take hw =>
    refine ⟨h.issued, fun hok ↦ absurd (h.sendok hok) ?_, by simp, h.backlog⟩
    simp [hw]
  | complete ht => exact ⟨h.issued, fun _ ↦ rfl, by simp, h.backlog⟩
  | late hb => exact absurd (h.backlog.symm.trans hb) (by simp)

theorem Quiet.command (h : e.Quiet) : (e.command scrSend).Owned (e.issued + 1) := by
  have hlast : e.last ≠ .taken := by obtain hl | hl := h.last <;> simp [hl]
  rw [TxChip.command, if_pos rfl, if_neg hlast]
  refine ⟨rfl, fun hok ↦ ?_, by simp, h.backlog⟩
  exact absurd (h.sendok.symm.trans hok) (by simp)

/-- Reading changes nothing. -/
theorem Answers.read {r : Reg} {len : ℕ} {a : Except EspErr (Vector UInt8 len)}
    (h : e.Answers (.read r len) a e') : e' = e := by
  cases r with
  | sockIr => exact h.1
  | sockCr => exact h.1
  | _ => exact h

end TxChip

/-! ## A call that reports success -/

/-- The program runs on, or fails in whatever way. -/
abbrev Succeeds (p : Mac α) (Q : α → Emac → TxChip → Prop) (s : Emac) (e : TxChip) : Prop :=
  preE txChip (fun _ _ _ ↦ True) (fun _ _ ↦ True) p Q (fun _ _ _ ↦ True) s e

section

variable {Q : α → Emac → TxChip → Prop}

theorem sends_read_bind {r : Reg} {len : ℕ} {f : Vector UInt8 len → Mac α}
    (h : ∀ e₁ v, txChip.Drifts e e₁ → e₁.Answers (.read r len) (.ok v) e₁ →
      Succeeds (f v) Q s e₁) :
    Succeeds (w6300Read r len >>= f) Q s e := by
  refine fun e₁ he ↦ ⟨trivial, fun a e₂ ha ↦ ?_⟩
  obtain rfl := TxChip.Answers.read ha
  cases a with
  | ok v => exact h e₂ v he ha
  | error err => exact fun _ _ ↦ trivial

theorem sends_write_bind {r : Reg} {data : List UInt8} {f : Unit → Mac α}
    (h : ∀ e₁ e₂, txChip.Drifts e e₁ → e₁.Answers (.write r data) (.ok ()) e₂ →
      Succeeds (f ()) Q s e₂) : Succeeds (w6300Write r data >>= f) Q s e := by
  refine fun e₁ he ↦ ⟨trivial, fun a e₂ ha ↦ ?_⟩
  cases a with
  | ok v => exact h e₁ e₂ he ha
  | error err => exact fun _ _ ↦ trivial

theorem sends_readU16_bind {r : Reg} {f : UInt16 → Mac α}
    (h : ∀ e₁ x, txChip.Drifts e e₁ → Succeeds (f x) Q s e₁) :
    Succeeds (w6300ReadU16 r >>= f) Q s e := by
  unfold w6300ReadU16
  rw [bind_assoc]
  exact sends_read_bind fun e₁ v he _ ↦ h e₁ _ he

/-- An operation that has nothing to do with the chip. -/
theorem sends_op_bind {o : MacOp} {f : o.Ans → Mac α}
    (ho : ∀ (e : TxChip) a e', e.Answers o a e' → e' = e)
    (h : ∀ e₁ a, txChip.Drifts e e₁ → Succeeds (f a) Q s e₁) :
    Succeeds (op o >>= f) Q s e := by
  refine preE_perform_bind.mpr fun e₁ he ↦ ⟨trivial, fun a e₂ ha ↦ ?_⟩
  obtain rfl := ho e₁ a e₂ ha
  exact h e₂ a he

end

theorem awaitCommand_owned : ∀ (k : ℕ) {e : TxChip}, e.Owned n →
    Succeeds (w6300AwaitCommand k) (fun _ s' e' ↦ s' = s ∧ e'.Owned n) s e
  | 0, _, _ => fun _ _ ↦ trivial
  | k + 1, e, h => by
    unfold w6300AwaitCommand
    refine sends_read_bind fun e₁ v he _ ↦ ?_
    have h₁ := h.drifts he
    split
    · exact fun e' he' ↦ ⟨rfl, h₁.drifts he'⟩
    · refine fun e₂ he₂ ↦ ⟨trivial, ?_⟩
      rintro - e₃ rfl
      exact awaitCommand_owned k (h₁.drifts he₂)

theorem saneForRxtx_owned (h : e.Owned n) :
    wlp txChip (fun _ _ _ ↦ True) isW6300SaneForRxtx (fun _ s' e' ↦ s' = s ∧ e'.Owned n)
      s e := by
  unfold isW6300SaneForRxtx w6300Read
  refine fun e₁ he ↦ ⟨trivial, fun a e₂ ha ↦ ?_⟩
  obtain rfl : e₂ = e₁ := ha
  have h₁ := h.drifts he
  cases a with
  | ok v => exact fun e' he' ↦ ⟨rfl, h₁.drifts he'⟩
  | error err => exact fun e' he' ↦ ⟨rfl, h₁.drifts he'⟩

/-- The bit is only ever found set by the completion of the newest `SEND`. -/
theorem transmitTurn_owned (start : UInt64) (h : e.Owned n) :
    Succeeds (emacW6300TransmitTurn start)
      (fun r _ e' ↦ e'.Owned n ∧ (r = some () → e'.last = .completed)) s e := by
  unfold emacW6300TransmitTurn
  refine sends_op_bind (fun _ _ _ ha ↦ ha) fun e₁ now he₁ ↦ preE_lift_bind ?_
  refine (saneForRxtx_owned (h.drifts he₁)).imp ?_
  rintro sane _ e₂ ⟨rfl, h₂⟩
  refine preE_get_bind.mpr (preE_ensure_bind (fun _ ↦ ?_) fun _ _ _ ↦ trivial)
  refine sends_read_bind fun e₃ v he₃ hv ↦ fun e₄ he₄ ↦ ?_
  have h₃ := h₂.drifts he₃
  refine ⟨h₃.drifts he₄, fun hset ↦ ?_⟩
  obtain ⟨-, hv⟩ := hv
  obtain ⟨b, rfl, hb⟩ := hv v rfl
  have hbit : b &&& sirSendok ≠ 0 := by
    intro hzero
    rw [show (window [b] 1).get 0 = b from rfl, if_pos hzero] at hset
    cases hset
  have hdone := h₃.sendok (hb.mp hbit)
  have hsettled : e₃.Settled := ⟨.inr hdone, h₃.backlog⟩
  rwa [hsettled.drifts he₄]

theorem agreedSize_quiet (h : e.Quiet) {r : Reg} :
    Succeeds (w6300AgreedSize r) (fun _ _ e' ↦ e' = e) s e := by
  unfold w6300AgreedSize
  refine sends_readU16_bind fun e₁ x he₁ ↦ ?_
  obtain rfl := h.drifts he₁
  refine sends_readU16_bind fun e₂ y he₂ ↦ ?_
  obtain rfl := h.drifts he₂
  exact fun e₃ he₃ ↦ h.drifts he₃

/-- **A call that begins undisturbed.** If it succeeds, its own transmission was completed, and it
leaves nothing behind. -/
theorem transmit_quiet {buf : List UInt8} (h : e.Quiet) :
    Succeeds (emacW6300Transmit buf)
      (fun _ _ e' ↦ e'.issued = e.issued + 1 ∧ e'.last = .completed ∧ e'.Quiet) s e := by
  unfold emacW6300Transmit
  refine preE_ensure_bind (fun _ ↦ ?_) fun _ _ _ ↦ trivial
  -- Up to the command nothing happens by itself.
  refine preE.seq (M := fun _ _ e' ↦ e' = e) ?_ ?_
  · refine wlpE_forever (fun _ e' ↦ e' = e) rfl ?_
    rintro s _ rfl
    refine (agreedSize_quiet h).imp ?_ fun _ _ _ _ _ _ ↦ trivial
    rintro (_ | size) s _ rfl
    · rfl
    · exact fun e' he' ↦ h.drifts he'
  rintro freeSize s _ rfl
  refine preE_ensure_bind (fun _ ↦ ?_) fun _ _ _ ↦ trivial
  refine sends_readU16_bind fun e₁ offset he₁ ↦ ?_
  obtain rfl := h.drifts he₁
  refine sends_write_bind fun e₂ e₃ he₂ he₃ ↦ ?_
  obtain rfl := he₃.trans (h.drifts he₂)
  unfold w6300WriteU16
  refine sends_write_bind fun e₄ e₅ he₄ he₅ ↦ ?_
  obtain rfl := he₅.trans (h.drifts he₄)
  unfold w6300SendCommand w6300WriteU8
  rw [bind_assoc]
  refine sends_write_bind fun e₆ e₇ he₆ he₇ ↦ ?_
  obtain rfl := h.drifts he₆
  -- From here on the bit belongs to this call.
  obtain rfl | ⟨hne, -⟩ := he₇
  swap
  · exact absurd rfl hne
  have howned := h.command
  refine (awaitCommand_owned (100 / 10) howned).seq ?_
  rintro - _ e₈ ⟨rfl, h₈⟩
  refine sends_op_bind (fun _ _ _ ha ↦ ha) fun e₉ start he₉ ↦ ?_
  refine preE.seq (M := fun _ _ e' ↦ e'.Owned (e₆.issued + 1) ∧ e'.last = .completed) ?_ ?_
  · refine wlpE_forever (fun _ e' ↦ e'.Owned (e₆.issued + 1)) (h₈.drifts he₉) fun s e h ↦ ?_
    refine (pre.settle (transmitTurn_owned start h)).imp ?_
    rintro (err | _ | _) s e hr
    · exact fun _ _ ↦ trivial
    · exact (hr e (.refl _ _)).1
    · exact fun e' he' ↦ ⟨(hr e' he').1, (hr e' he').2 rfl⟩
  rintro - s e ⟨h, hdone⟩
  unfold w6300ClearSockIntr w6300WriteU8
  have hsettled : e.Settled := ⟨.inr hdone, h.backlog⟩
  refine fun e₁ he₁ ↦ ⟨trivial, fun a e₂ ha ↦ ?_⟩
  obtain rfl := hsettled.drifts he₁
  cases a with
  | error err => exact fun _ _ ↦ trivial
  | ok _ =>
    obtain rfl | ⟨hne, -⟩ := ha
    · have hquiet : TxChip.Quiet (e₁.acknowledge sirSendok) :=
        ⟨⟨.inr hdone, h.backlog⟩, rfl⟩
      intro e' he'
      obtain rfl := hquiet.drifts he'
      exact ⟨h.issued, hdone, hquiet⟩
    · exact absurd rfl hne

/-! ## A call that finds the mark of another -/

/-- The newest transmission is completed, if it was taken. -/
def TxChip.finish (e : TxChip) : TxChip :=
  if e.last = .taken then { e with last := .completed, sendok := true } else e

/-- One way to answer: the clock stands still, there is room, and a command has been taken by the
time it is looked at. A prompt chip has completed the transmission by the time anyone asks, another
one never does. -/
def TxChip.reply (link prompt : Bool) : (o : MacOp) → TxChip → o.Ans × TxChip
  | .read .sockIr len, e =>
    let e := if prompt = true then e.finish else e
    (.ok (window [if e.sendok = true then sirSendok else 0] len), e)
  | .read .sockCr len, e =>
    (.ok (window [0] len), if e.last = .written then { e with last := .taken } else e)
  | .read .sockTxFsr len, e => (.ok (window [0x40, 0] len), e)
  | .read .physr len, e => (.ok (window [if link = true then physrLnk else 0] len), e)
  | .read .sockIrclr len, e | .read .sockTxWr len, e | .read .sockRxRsr len,
      e | .read .sockRxRd len, e
  | .read (.memSockTx _) len, e | .read (.memSockRx _) len, e => (.ok (window [] len), e)
  | .write .sockCr data, e => (.ok (), e.command (data.headD 0))
  | .write .sockIrclr data, e => (.ok (), e.acknowledge (data.headD 0))
  | .write .sockIr _, e | .write .sockTxFsr _, e | .write .sockTxWr _, e | .write .sockRxRsr _, e
  | .write .sockRxRd _, e | .write (.memSockTx _) _, e | .write (.memSockRx _) _, e
  | .write .physr _, e => (.ok (), e)
  | .malloc _, e => (true, e)
  | .free, e => ((), e)
  | .stackInput _, e => ((), e)
  | .vTaskDelay _, e => ((), e)
  | .espTimerGetTime, e => (0, e)
  | .ulTaskNotifyTake _, e => (0, e)
  | .gpioGetLevel _, e => (0, e)

theorem TxChip.drifts_finish (e : TxChip) : txChip.Drifts e e.finish := by
  unfold TxChip.finish
  split
  · exact .single (.complete ‹_›)
  · exact .refl _ _

theorem txChip_reply (link prompt : Bool) :
    txChip.eager.Follows (fun _ ↦ True) (TxChip.reply link prompt) := by
  refine .always fun o s e ↦ ?_
  cases o with
  | read r len =>
    cases r with
    | sockIr =>
      refine ⟨if prompt = true then e.finish else e, ?_, rfl, ?_⟩
      · split
        · exact e.drifts_finish
        · exact .refl _ _
      · rintro v ⟨⟩
        refine ⟨_, rfl, ?_⟩
        cases (if prompt = true then e.finish else e).sendok <;> decide
    | sockCr =>
      by_cases hw : e.last = .written
      · refine ⟨{ e with last := .taken }, .single (.take hw), ?_, ?_⟩
        · simp only [TxChip.reply, if_pos hw]
        · rintro v ⟨⟩
          rfl
      · refine ⟨e, .refl _ _, ?_, ?_⟩
        · simp only [TxChip.reply, if_neg hw]
        · rintro v ⟨⟩
          rw [TxChip.cr, if_neg hw]
    | _ => exact ⟨e, .refl _ _, rfl⟩
  | write r data =>
    cases r with
    | sockCr => exact ⟨e, .refl _ _, .inl rfl⟩
    | sockIrclr => exact ⟨e, .refl _ _, .inl rfl⟩
    | _ => exact ⟨e, .refl _ _, rfl⟩
  | _ => exact ⟨e, .refl _ _, rfl⟩

section

variable {h : (o : MacOp) → TxChip → o.Ans × TxChip} {G : MacOp → Emac → TxChip → Prop}
  {R : ℕ → ℕ → Prop} {Q : α → Emac → TxChip → Prop}
  {F : EspErr → Emac → TxChip → Prop}

theorem script_read_bind {r : Reg} {len : ℕ} {v : Vector UInt8 len} {f : Vector UInt8 len → Mac α}
    (hG : G (.read r len) s e) (hh : h (.read r len) e = (.ok v, e'))
    (hf : preE (.script h) G R (f v) Q F s e') :
    preE (.script h) G R (w6300Read r len >>= f) Q F s e := by
  intro e₁ he₁
  obtain rfl := Env.script_drifts he₁
  refine ⟨hG, ?_⟩
  rintro a e₂ ⟨ha, he⟩
  rw [hh] at ha he
  subst ha he
  exact hf

theorem script_write_bind {r : Reg} {data : List UInt8} {f : Unit → Mac α}
    (hG : G (.write r data) s e) (hh : h (.write r data) e = (.ok (), e'))
    (hf : preE (.script h) G R (f ()) Q F s e') :
    preE (.script h) G R (w6300Write r data >>= f) Q F s e := by
  intro e₁ he₁
  obtain rfl := Env.script_drifts he₁
  refine ⟨hG, ?_⟩
  rintro a e₂ ⟨ha, he⟩
  rw [hh] at ha he
  subst ha he
  exact hf

theorem script_op_bind {o : MacOp} {f : o.Ans → Mac α} (hG : G o s e)
    (hf : preE (.script h) G R (f (h o e).1) Q F s (h o e).2) :
    preE (.script h) G R (op o >>= f) Q F s e := by
  refine preE_perform_bind.mpr fun e₁ he₁ ↦ ?_
  obtain rfl := Env.script_drifts he₁
  refine ⟨hG, ?_⟩
  rintro a e₂ ⟨rfl, rfl⟩
  exact hf

end

/-- The bit is set already: the call succeeds while its own transmission is still under way. -/
theorem transmit_stale {buf : List UInt8} (hlen : buf.length ≤ ethMaxPacketSize)
    (hok : e.sendok = true) :
    preE (.script (TxChip.reply true false)) (fun _ _ _ ↦ True) (· < ·) (emacW6300Transmit buf)
      (fun _ _ e' ↦ e'.last = .taken) (fun _ _ _ ↦ False) s e := by
  unfold emacW6300Transmit
  refine preE_ensure_bind (fun _ ↦ ?_) fun hno ↦ absurd hlen hno
  refine preE.seq (M := fun size _ e' ↦ size = 16384 ∧ e'.sendok = true) ?_ ?_
  · refine preE_forever (fun _ _ e' ↦ e'.sendok = true) (n := 0) hok fun _ s e hok ↦ ?_
    unfold w6300AgreedSize w6300ReadU16
    simp only [bind_assoc, pure_bind]
    refine script_read_bind trivial rfl (script_read_bind trivial rfl fun e₁ he₁ ↦ ?_)
    obtain rfl := Env.script_drifts he₁
    intro e₂ he₂
    obtain rfl := Env.script_drifts he₂
    exact ⟨by decide, hok⟩
  rintro _ s e ⟨rfl, hok⟩
  refine preE_ensure_bind (fun _ ↦ ?_) fun hno ↦ absurd (hlen.trans (by decide)) hno
  unfold w6300ReadU16 w6300WriteU16 w6300SendCommand w6300WriteU8
  simp only [bind_assoc, pure_bind]
  refine script_read_bind trivial rfl (script_write_bind trivial rfl (script_write_bind trivial rfl
    (script_write_bind trivial rfl ?_)))
  refine preE.seq (M := fun _ _ e' ↦ e'.sendok = true ∧ e'.last = .taken) ?_ ?_
  · refine script_read_bind trivial rfl ?_
    intro e₁ he₁
    obtain rfl := Env.script_drifts he₁
    exact ⟨hok, rfl⟩
  rintro - s e ⟨hok, hlast⟩
  refine script_op_bind trivial (preE.seq (M := fun _ _ e' ↦ e'.last = .taken) ?_ ?_)
  · refine preE_forever (fun _ _ e' ↦ e'.sendok = true ∧ e'.last = .taken) (n := 0)
      ⟨hok, hlast⟩ ?_
    rintro _ s e ⟨hok, hlast⟩
    unfold emacW6300TransmitTurn
    refine script_op_bind trivial (preE_lift_bind ?_)
    refine pre.seq (p := (w6300Read .physr 1).run) (M := fun r _ e' ↦
      r = .ok (window [physrLnk] 1) ∧ e'.sendok = true ∧ e'.last = .taken) ?_ ?_
    · intro e₁ he₁
      obtain rfl := Env.script_drifts he₁
      refine ⟨trivial, ?_⟩
      rintro a e₂ ⟨rfl, rfl⟩ e₃ he₃
      obtain rfl := Env.script_drifts he₃
      exact ⟨rfl, hok, hlast⟩
    rintro _ s e ⟨rfl, hok, hlast⟩ e₁ he₁
    obtain rfl := Env.script_drifts he₁
    refine preE_get_bind.mpr (preE_ensure_bind (fun _ ↦ ?_) fun hno ↦ absurd ?_ hno)
    · have hread : TxChip.reply true false (.read .sockIr 1) e₁ =
          (.ok (window [sirSendok] 1), e₁) := by
        simp only [TxChip.reply, Bool.false_eq_true, if_false, if_pos hok]
      refine script_read_bind trivial hread ?_
      intro e₂ he₂
      obtain rfl := Env.script_drifts he₂
      rw [if_neg (by decide)]
      intro e₃ he₃
      obtain rfl := Env.script_drifts he₃
      exact hlast
    · exact ⟨by decide, by simp [TxChip.reply]⟩
  rintro - s e hlast
  unfold w6300ClearSockIntr w6300WriteU8
  intro e₁ he₁
  obtain rfl := Env.script_drifts he₁
  refine ⟨trivial, ?_⟩
  rintro a e₂ ⟨rfl, rfl⟩ e₃ he₃
  obtain rfl := Env.script_drifts he₃
  exact hlast

/-- Whatever disturbs a call can set the bit before the call looks at it. -/
theorem TxChip.sendok_of_not_quiet (h : ¬e.Quiet) : ∃ e', txChip.Drifts e e' ∧ e'.sendok =
    true := by
  by_cases hok : e.sendok = true
  · exact ⟨e, .refl _ _, hok⟩
  cases hb : e.backlog with
  | succ k => exact ⟨_, .single (.late hb), rfl⟩
  | zero =>
    cases hl : e.last with
    | idle => exact absurd ⟨⟨.inl hl, hb⟩, by simpa using hok⟩ h
    | written => exact ⟨_, (Relation.ReflTransGen.single (.take hl)).tail (.complete rfl), rfl⟩
    | taken => exact ⟨_, .single (.complete hl), rfl⟩
    | completed => exact absurd ⟨⟨.inr hl, hb⟩, by simpa using hok⟩ h

/-! ## Sequences of calls -/

/-- Sequences of calls to `emac_w6300_transmit`, with what they returned. -/
abbrev TxSession : Emac → TxChip → List (Event (List UInt8) TxChip (Except EspErr Unit)) →
    Emac →
    TxChip → Prop :=
  Session txChip fun buf ↦ (emacW6300Transmit buf).run

/-- Success means that the transmission of this very call was completed. -/
def Honest (x : Event (List UInt8) TxChip (Except EspErr Unit)) : Prop :=
  x.result = .ok () → x.after.issued = x.before.issued + 1 ∧ x.after.last = .completed

/-- The call is refused before it sends anything, or no earlier transmission can be taken for its
own. -/
def Undisturbed (buf : List UInt8) (e : TxChip) : Prop := ethMaxPacketSize < buf.length ∨ e.Quiet

theorem honest_of_undisturbed {buf : List UInt8} (h : Undisturbed buf e) {r : Except EspErr Unit}
    {s' : Emac} (hr : Returns txChip (emacW6300Transmit buf).run s e r s' e') :
    Honest ⟨buf, e, r, e'⟩ := by
  rintro rfl
  obtain hlong | hquiet := h
  · have hrefused : preE txChip (fun _ _ _ ↦ True) (fun _ _ ↦ True) (emacW6300Transmit buf)
        (fun _ _ _ ↦ False) (fun _ _ _ ↦ True) s e := by
      unfold emacW6300Transmit
      exact preE_ensure_bind (fun hle ↦ absurd hlong (by omega)) fun _ _ _ ↦ trivial
    exact (pre.returns hrefused hr).elim
  · have hdone := pre.returns (transmit_quiet hquiet) hr
    exact ⟨hdone.1, hdone.2.1⟩

theorem undisturbed_of_honest {buf : List UInt8}
    (h : ∀ r s' e', Returns txChip (emacW6300Transmit buf).run s e r s' e' →
      Honest ⟨buf, e, r, e'⟩) :
    Undisturbed buf e := by
  by_contra hno
  obtain ⟨hlen, hquiet⟩ := not_or.mp hno
  obtain ⟨e₁, he₁, hok⟩ := TxChip.sendok_of_not_quiet hquiet
  have hrun := transmit_stale (s := s) (Nat.le_of_not_lt hlen) hok
  obtain ⟨_, s', e', hr, hlast⟩ | ⟨_, _, _, -, hfalse⟩ :=
    wpE_returns Env.script_responsive hrun
  · have hreturns : Returns txChip (emacW6300Transmit buf).run s e (.ok ()) s' e' :=
      (Reaches.drifts he₁).trans
        (Reaches.of_eager (Reaches.mono (txChip_reply true false).script_le hr))
    have hdone := (h _ _ _ hreturns rfl).2
    rw [show e'.last = .taken from hlast] at hdone
    cases hdone
  · exact hfalse

/-- **Success means sent, if nothing disturbs.** In a session whose calls are all undisturbed every
success is honest, and after any session exactly the undisturbed calls cannot succeed without being
honest. -/
theorem transmit_honest_iff {s₀ : Emac} {e₀ : TxChip}
    {log : List (Event (List UInt8) TxChip (Except EspErr Unit))} (h : TxSession s₀ e₀ log s e) :
    ((∀ x ∈ log, Undisturbed x.call x.before) → ∀ x ∈ log, Honest x) ∧
    ∀ buf, (∀ r s' e', Returns txChip (emacW6300Transmit buf).run s e r s' e' →
      Honest ⟨buf, e, r, e'⟩) ↔
      Undisturbed buf e := by
  constructor
  · intro hundisturbed x hx
    have hall := h.forall_events (P := fun x ↦ Undisturbed x.call x.before → Honest x)
      fun _ _ _ _ _ _ hr hu ↦ honest_of_undisturbed hu hr
    exact hall x hx (hundisturbed x hx)
  · exact fun buf ↦ ⟨undisturbed_of_honest, fun hu r s' e' hr ↦ honest_of_undisturbed hu hr⟩

/-- A call that is answered at once. -/
theorem transmit_honest_prompt :
    ∃ log s e, TxSession {} {} log s e ∧ (∃ x ∈ log, x.result = .ok ()) ∧ ∀ x ∈ log,
    Honest x := by
  have hup : Returns txChip.eager (emacW6300Transmit [1, 2, 3]).run {} {} (.ok ()) {}
      { last := .completed, issued := 1 } :=
    returns_runWith (n := 15) (txChip_reply true true) trivial rfl
  have hsession : TxSession {} {} [⟨[1, 2, 3], {}, .ok (), { last := .completed, issued := 1 }⟩] {}
      { last := .completed, issued := 1 } := Session.call [1, 2, 3] .start (Reaches.of_eager hup)
  refine ⟨_, _, _, hsession, ⟨_, List.mem_singleton_self _, rfl⟩,
    (transmit_honest_iff hsession).1 ?_⟩
  intro x hx
  obtain rfl := List.mem_singleton.mp hx
  exact .inr ⟨⟨.inl rfl, rfl⟩, rfl⟩

/-- The link is down while the first call waits, and its transmission is completed before the second
one: the second succeeds while its own is still under way. -/
theorem not_honest_stale :
    ∃ log s e x, TxSession {} {} log s e ∧ x ∈ log ∧ x.result = .ok () ∧ x.after.last =
    .taken ∧
      ¬Honest x := by
  have hdown : Returns txChip.eager (emacW6300Transmit [1, 2, 3]).run {} {} (.error .fail) {}
      { last := .taken, issued := 1 } :=
    returns_runWith (n := 13) (txChip_reply false false) trivial rfl
  have hup : Returns txChip.eager (emacW6300Transmit [1, 2, 3]).run {}
      { last := .completed, sendok := true, issued := 1 } (.ok ()) {}
        { last := .taken, issued := 2 } :=
    returns_runWith (n := 15) (txChip_reply true false) trivial rfl
  have hfirst : TxSession {} {} [⟨[1, 2, 3], {}, .error .fail, { last := .taken, issued := 1 }⟩] {}
      { last := .taken, issued := 1 } := Session.call [1, 2, 3] .start (Reaches.of_eager hdown)
  have hlate : TxSession {} {} _ {} { last := .completed, sendok := true, issued := 1 } :=
    hfirst.drift (.complete rfl)
  have hsecond : TxSession {} {} (_ ++ [⟨[1, 2, 3], _, .ok (), { last := .taken, issued := 2 }⟩])
      {} _ :=
    Session.call [1, 2, 3] hlate (Reaches.of_eager hup)
  refine ⟨_, _, _, _, hsecond, List.mem_append_right _ (List.mem_singleton_self _), rfl, rfl,
    fun h ↦ ?_⟩
  exact absurd (h rfl).2 (by decide)

end WsmDriver.W6300
