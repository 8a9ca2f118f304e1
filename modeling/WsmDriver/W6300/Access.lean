import WsmDriver.W6300.RxChip

/-!
# The driver's accesses, one by one

What each small function of the driver does in any world, as rules that put it in front of a
program: a read answers what the chip holds at some moment between the previous access and the next
one, a write takes effect at such a moment, and a command is written and then awaited.
-/

namespace WsmDriver.W6300

open Effect

variable {W : RxWorld} {P : Emac → RxChip → Prop} {R : ℕ → ℕ → Prop} {α β : Type}
  {Q : α → Emac → RxChip → Prop} {F : EspErr → Emac → RxChip → Prop} {s : Emac}
  {e : RxChip}

/-- The guard that asks for `P` whenever the task waits for a notification. -/
def Idle (P : Emac → RxChip → Prop) (o : MacOp) (s : Emac) (e : RxChip) : Prop :=
  ∀ b, o = .ulTaskNotifyTake b → P s e

/-- Nothing is asked of the other operations. -/
theorem idle_malloc {size : UInt32} : Idle P (.malloc size) s e := nofun

/-- A rule's premise: the program runs on from `e`. -/
abbrev Runs (W : RxWorld) (P : Emac → RxChip → Prop) (R : ℕ → ℕ → Prop) {α : Type}
    (p : Mac α) (Q : α → Emac → RxChip → Prop) (F : EspErr → Emac → RxChip → Prop)
    (s : Emac) (e : RxChip) : Prop :=
  preE (rxChip W) (Idle P) R p Q F s e

/-! ## Bus accesses -/

/-- A read that the chip answers succeeds. -/
theorem RxChip.Answers.read_ok {r : Reg} {len : ℕ} {a : Except EspErr (Vector UInt8 len)}
    {e' : RxChip} (h : e.Answers W (.read r len) a e') : ∃ v, a = .ok v := by
  cases r with
  | sockIr =>
    obtain ⟨⟨b, rfl, -⟩, -⟩ := h
    exact ⟨_, rfl⟩
  | sockCr => exact ⟨_, h.1⟩
  | sockRxRsr => exact ⟨_, h.1⟩
  | sockRxRd => exact ⟨_, h.1⟩
  | memSockRx offset => exact ⟨_, h.1⟩
  | sockIrclr => exact h.1
  | sockTxFsr => exact h.1
  | sockTxWr => exact h.1
  | memSockTx offset => exact h.1
  | physr => exact h.1

/-- So does a write. -/
theorem RxChip.Answers.write_ok {r : Reg} {data : List UInt8} {a : Except EspErr Unit} {e' : RxChip}
    (h : e.Answers W (.write r data) a e') : a = .ok () := by
  cases r with
  | _ => exact h.1

theorem read_bind {r : Reg} {len : ℕ} {f : Vector UInt8 len → Mac α}
    (h : ∀ e₁ v e₂, (rxChip W).Drifts e e₁ → e₁.Answers W (.read r len) (.ok v) e₂ →
      Runs W P R (f v) Q F s e₂) : Runs W P R (w6300Read r len >>= f) Q F s e := by
  intro e₁ he
  refine ⟨nofun, fun a e₂ ha ↦ ?_⟩
  obtain ⟨v, rfl⟩ := ha.read_ok
  exact h e₁ v e₂ he ha

theorem write_bind {r : Reg} {data : List UInt8} {f : Unit → Mac α}
    (h : ∀ e₁ e₂, (rxChip W).Drifts e e₁ → e₁.Answers W (.write r data) (.ok ()) e₂ →
      Runs W P R (f ()) Q F s e₂) : Runs W P R (w6300Write r data >>= f) Q F s e := by
  intro e₁ he
  refine ⟨nofun, fun a e₂ ha ↦ ?_⟩
  obtain rfl := ha.write_ok
  exact h e₁ e₂ he ha

theorem readMem_bind {offset : UInt16} {len : ℕ} {f : Vector UInt8 len → Mac α}
    (h : ∀ e₁ v, (rxChip W).Drifts e e₁ → v.toList = e₁.fetch offset len →
      Runs W P R (f v) Q F s e₁) :
    Runs W P R (w6300Read (.memSockRx offset) len >>= f) Q F s e := by
  refine read_bind ?_
  rintro e₁ v e₂ he ⟨hv, rfl⟩
  cases hv
  exact h e₂ _ he (window_toList (by simp [RxChip.fetch]))

theorem readRsr_bind {f : UInt16 → Mac α}
    (h : ∀ e₁, (rxChip W).Drifts e e₁ → Runs W P R (f e₁.rsr) Q F s e₁) :
    Runs W P R (w6300ReadU16 .sockRxRsr >>= f) Q F s e := by
  unfold w6300ReadU16
  rw [bind_assoc]
  refine read_bind ?_
  rintro e₁ v e₂ he ⟨hv, rfl⟩
  cases hv
  rw [pure_bind, join16_be16 (window_toList rfl)]
  exact h e₂ he

theorem readRd_bind {f : UInt16 → Mac α}
    (h : ∀ e₁, (rxChip W).Drifts e e₁ → Runs W P R (f e₁.rd) Q F s e₁) :
    Runs W P R (w6300ReadU16 .sockRxRd >>= f) Q F s e := by
  unfold w6300ReadU16
  rw [bind_assoc]
  refine read_bind ?_
  rintro e₁ v e₂ he ⟨hv, rfl⟩
  cases hv
  rw [pure_bind, join16_be16 (window_toList rfl)]
  exact h e₂ he

theorem writeRd_bind {x : UInt16} {f : Unit → Mac α}
    (h : ∀ e₁, (rxChip W).Drifts e e₁ → Runs W P R (f ()) Q F s { e₁ with rd := x }) :
    Runs W P R (w6300WriteU16 .sockRxRd x >>= f) Q F s e := by
  refine write_bind ?_
  rintro e₁ e₂ he ⟨-, rfl⟩
  change Runs W P R (f ()) Q F s { e₁ with rd := word (be16 x) }
  rw [word_be16]
  exact h e₁ he

theorem writeCr_bind {c : UInt8} {f : Unit → Mac α}
    (h : ∀ e₁, (rxChip W).Drifts e e₁ → Runs W P R (f ()) Q F s (e₁.command c)) :
    Runs W P R (w6300WriteU8 .sockCr c >>= f) Q F s e := by
  refine write_bind ?_
  rintro e₁ e₂ he ⟨-, rfl⟩
  exact h e₁ he

/-! ## Commands -/

/-- A condition that survives what may happen while a command is awaited. -/
structure Awaited (W : RxWorld) (J : RxChip → Prop) : Prop where
  drift : ∀ {e e'}, J e → (rxChip W).drift e e' → J e'
  polls : ∀ {e n}, J e → J { e with polls := n }

variable {J : RxChip → Prop}

theorem Awaited.drifts (hJ : Awaited W J) {e' : RxChip} (h : J e) (hd : (rxChip W).Drifts e e') :
    J e' :=
  hd.induct (fun _ _ hd h ↦ hJ.drift h hd) h

/-- Arrivals leave the command register alone. -/
structure RxWorld.Apart (W : RxWorld) : Prop where
  arrives : ∀ {e e'}, W.arrives e e' → e'.cr = e.cr ∧ e'.polls = e.polls

theorem RxWorld.Apart.drifts_polls (hW : W.Apart) {e' : RxChip} (hd : (rxChip W).Drifts e e') :
    e'.polls = e.polls := by
  refine hd.induct (P := fun e' ↦ e'.polls = e.polls) ?_ rfl
  rintro e₁ e₂ (ha | ⟨-, rfl⟩) h
  · exact (hW.arrives ha).2.trans h
  · exact h

theorem RxWorld.Apart.drifts_cr (hW : W.Apart) {e' : RxChip} (hd : (rxChip W).Drifts e e')
    (h : e.cr = 0) : e'.cr = 0 := by
  refine hd.induct (P := fun e' ↦ e'.cr = 0) ?_ h
  rintro e₁ e₂ (ha | ⟨-, rfl⟩) h
  · exact (hW.arrives ha).1.trans h
  · rfl

/-- When the wait is over the command has been taken, or it was found pending ten times. -/
theorem awaitCommand_taken (hW : W.Apart) (hJ : Awaited W J) : ∀ (n : ℕ) {e : RxChip},
    e.polls + n = 10 → (n = 0 → W.busy 9) → J e → Runs W P R (w6300AwaitCommand n)
      (fun _ s' e' ↦ s' = s ∧ J e' ∧ e'.cr = 0)
      (fun _ s' e' ↦ s' = s ∧ J e' ∧ W.busy 9) s e
  | 0, e, _, hbusy, h => fun e' he ↦ ⟨rfl, hJ.drifts h he, hbusy rfl⟩
  | n + 1, e, hn, _, h => by
    unfold w6300AwaitCommand
    refine read_bind ?_
    rintro e₁ _ e₂ he ⟨hv, hbusy, rfl⟩
    cases hv
    have hv₀ : (window [e₁.cr] 1).get 0 = e₁.cr := rfl
    have hpolls := hW.drifts_polls he
    have h₁ := hJ.polls (n := e₁.polls + 1) (hJ.drifts h he)
    split
    · rename_i h₀
      have hcr₀ : e₁.cr = 0 := hv₀.symm.trans h₀
      exact fun e' he' ↦ ⟨rfl, hJ.drifts h₁ he', hW.drifts_cr he' hcr₀⟩
    · rename_i h₀
      have hpending := hbusy fun hcr₀ ↦ h₀ (hv₀.trans hcr₀)
      intro e₃ he₃
      refine ⟨nofun, ?_⟩
      rintro - e₄ rfl
      have hpolls₃ := hW.drifts_polls he₃
      dsimp only at hpolls₃
      refine awaitCommand_taken hW hJ n (by omega) (fun hzero ↦ ?_) (hJ.drifts h₁ he₃)
      rwa [show e₁.polls = 9 by omega] at hpending

/-- A chip that takes a command before the driver gives up. -/
structure RxWorld.Prompt (W : RxWorld) : Prop extends W.Apart where
  busy : ∀ {n}, W.busy n → n < 9

/-- A prompt chip has taken the command when the wait is over. -/
theorem awaitCommand_prompt (hW : W.Prompt) (hJ : Awaited W J) {n : ℕ} (hpos : 0 < n)
    (hn : e.polls + n = 10) (h : J e) :
    Runs W P R (w6300AwaitCommand n) (fun _ s' e' ↦ s' = s ∧ J e' ∧ e'.cr = 0)
      (fun _ _ _ ↦ False) s e := by
  refine (awaitCommand_taken hW.toApart hJ n hn (fun hzero ↦ absurd hpos (by omega)) h).imp
    (fun _ _ _ h ↦ h) ?_
  rintro _ _ _ ⟨-, -, hbusy⟩
  exact absurd (hW.busy hbusy) (lt_irrefl 9)

end WsmDriver.W6300
