import WsmDriver.Effect.Parallel
import WsmDriver.W6300.Mac

/-!
# The command register

A transmission by its caller and the receiving task at the same time. Each of their bus accesses is
one step; between any two of them the chip may take the command that `Sn_CR` holds, or clear the
register for one that it took before. There is one register for both: a command that is written
while another waits replaces it, and whoever waits for the register to clear sees it clear for a
command that was never taken.

Commands are told apart by their number in the order of writing.
-/

namespace WsmDriver.W6300

open Effect Failing

/-- The two that use the chip: who calls `emac_w6300_transmit`, and `emac_w6300_task`. -/
inductive Party
  | caller | task
  deriving DecidableEq, Repr

/-- What the chip does with commands. -/
structure CmdChip where
  /-- The commands that were written, the oldest first, with who wrote them. -/
  issued : List (Party × UInt8) := []
  /-- Which of them `Sn_CR` holds. -/
  cr : Option ℕ := none
  /-- Which of them the chip has taken without having cleared the register. -/
  latched : Option ℕ := none
  /-- Which of them the chip has executed, the newest first. -/
  executed : List ℕ := []
  deriving DecidableEq, Repr

namespace CmdChip

/-- `Sn_CR`. -/
def value (e : CmdChip) : UInt8 := (e.cr.bind fun n ↦ e.issued[n]?).elim 0 Prod.snd

/-- A command is written to `Sn_CR`; 0 is none. -/
def command (e : CmdChip) (t : Party) (c : UInt8) : CmdChip :=
  if c = 0 then e else { e with issued := e.issued ++ [(t, c)], cr := some e.issued.length }

/-- What the chip does by itself. -/
inductive Moves (e : CmdChip) : CmdChip → Prop
  /-- It takes the command. -/
  | latch {n : ℕ} (h : e.cr = some n) (hl : e.latched = none) :
    Moves e { e with latched := some n, executed := n :: e.executed }
  /-- It clears the register. -/
  | clear {n : ℕ} (h : e.latched = some n) : Moves e { e with cr := none, latched := none }

/-- How it answers. -/
def Answers (t : Party) (e : CmdChip) : (o : MacOp) → o.Ans → CmdChip → Prop
  | .read .sockCr len, a, e' => e' = e ∧ ∀ v, a = .ok v → v = window [e.value] len
  | .write .sockCr data, a, e' => e' = e.command t (data.headD 0) ∨ (a ≠ .ok () ∧ e' = e)
  | .read _ _, _, e' => e' = e
  | .write _ _, _, e' => e' = e
  | .malloc _, _, e' => e' = e
  | .free, _, e' => e' = e
  | .stackInput _, _, e' => e' = e
  | .vTaskDelay _, _, e' => e' = e
  | .espTimerGetTime, _, e' => e' = e
  | .ulTaskNotifyTake _, _, e' => e' = e
  | .gpioGetLevel _, _, e' => e' = e

end CmdChip

/-- The chip as `t` meets it. -/
def cmdChip (t : Party) : Env Emac CmdChip MacOp.Ans where
  drift := CmdChip.Moves
  answer o _ e a e' := e.Answers t o a e'

/-- The accesses that write a command. -/
def MacOp.IsCommand : MacOp → Prop
  | .write .sockCr _ => True
  | _ => False

/-- The same, of runs in which a command is only written while `Sn_CR` is 0. -/
def cmdChipTurns (t : Party) : Env Emac CmdChip MacOp.Ans :=
  (cmdChip t).restrict fun o _ e ↦ o.IsCommand → e.cr = none

/-- Any number of transmissions, and the task. `emac_w6300_t` is there for both, but what either
changes in it the other does not look at. -/
def parties (frames : List (List UInt8)) (emac : Emac) : Pool Party Emac CmdChip MacOp.Ans where
  prog
    | .caller => frames.forM fun frame ↦ discard (emacW6300Transmit frame).run
    | .task => discard emacW6300Task
  store _ := emac
  env := {}

variable {t : Party} {e e' : CmdChip} {c : UInt8} {n : ℕ}

/-- What an access does to the commands. -/
theorem CmdChip.Answers.effect {o : MacOp} {a : o.Ans} (h : e.Answers t o a e') :
    e' = e ∨ (o.IsCommand ∧ ∃ c, e' = e.command t c) := by
  cases o with
  | read r len =>
    cases r with
    | sockCr => exact .inl h.1
    | _ => exact .inl h
  | write r data =>
    cases r with
    | sockCr =>
      obtain h | ⟨-, h⟩ := h
      · exact .inr ⟨trivial, _, h⟩
      · exact .inl h
    | _ => exact .inl h
  | _ => exact .inl h

/-! ## Taking turns -/

/-- Everything that was written has been executed once, but for a command that waits in the
register. -/
structure CmdChip.Sound (e : CmdChip) : Prop where
  nonzero : ∀ x ∈ e.issued, x.2 ≠ 0
  cr_lt : ∀ n, e.cr = some n → n < e.issued.length
  latched : ∀ n, e.latched = some n → e.cr = some n
  count : ∀ n, e.executed.count n = if n < e.issued.length ∧
    ¬(e.cr = some n ∧ e.latched = none) then 1 else 0

namespace CmdChip

/-- No command of `t` waits. -/
def Done (t : Party) (e : CmdChip) : Prop :=
  ∀ n c, e.issued[n]? = some (t, c) → e.cr = some n → e.latched ≠ none

theorem Sound.count_of_done (h : e.Sound) (hd : e.Done t) {x : UInt8}
    (hn : e.issued[n]? = some (t, x)) : e.executed.count n = 1 := by
  rw [h.count, if_pos ⟨(List.getElem?_eq_some_iff.mp hn).1, fun hw ↦ hd n x hn hw.1 hw.2⟩]

/-- A register that reads 0 holds nothing. -/
theorem Sound.cr_of_value (h : e.Sound) (hv : e.value = 0) : e.cr = none := by
  cases hcr : e.cr with
  | none => rfl
  | some n =>
    have hn := List.getElem?_eq_getElem (h.cr_lt n hcr)
    rw [value, hcr, Option.bind_some, hn] at hv
    exact absurd hv (h.nonzero _ (List.getElem_mem _))

theorem Sound.moves (h : e.Sound) (hm : e.Moves e') : e'.Sound := by
  cases hm with
  | @latch n hcr hl =>
    refine ⟨h.nonzero, h.cr_lt, fun m hm ↦ hcr.trans hm, fun m ↦ ?_⟩
    have hlt := h.cr_lt n hcr
    rw [List.count_cons, h.count, hcr, hl]
    by_cases hnm : n = m
    · subst hnm
      simp [hlt]
    · simp [hnm]
  | @clear n hl =>
    have hcr := h.latched n hl
    refine ⟨h.nonzero, fun m hm ↦ absurd hm (by simp), fun m hm ↦ absurd hm (by simp),
      fun m ↦ ?_⟩
    rw [h.count, hl]
    simp

/-- A command that is written while the register is 0 waits by itself. -/
theorem Sound.command (h : e.Sound) (hcr : e.cr = none) : (e.command t c).Sound := by
  unfold CmdChip.command
  split
  · exact h
  · rename_i hc
    have hl : e.latched = none := by
      cases hl : e.latched with
      | none => rfl
      | some n => cases hcr.symm.trans (h.latched n hl)
    refine ⟨?_, ?_, ?_, fun m ↦ ?_⟩
    · intro x hx
      rcases List.mem_append.mp hx with hx | hx
      · exact h.nonzero x hx
      · rw [List.mem_singleton.mp hx]
        exact hc
    · rintro m ⟨⟩
      simp
    · intro m hm
      cases hl.symm.trans hm
    · dsimp only
      rw [h.count, hcr, hl, List.length_append, List.length_singleton]
      by_cases hm : m < e.issued.length
      · simp [hm, Nat.lt_succ_of_lt hm, hm.ne']
      · by_cases hme : m = e.issued.length
        · simp [hme]
        · have hm' : ¬m < e.issued.length + 1 := by omega
          simp [hm, hm']

end CmdChip

theorem cmdChipTurns_keeps (t : Party) : (cmdChipTurns t).Keeps CmdChip.Sound where
  drift hd h := h.moves hd
  answer ha h := by
    obtain ⟨hcr, ha⟩ := ha
    obtain rfl | ⟨ho, c, rfl⟩ := ha.effect
    · exact h
    · exact h.command (hcr ho)

/-! ## A command that is awaited -/

namespace CmdChip

theorem Moves.done (hm : e.Moves e') : e'.Done t := by
  cases hm with
  | latch _ _ => exact fun _ _ _ _ ↦ Option.some_ne_none _
  | clear _ => exact fun _ _ _ hcr ↦ absurd hcr (by simp)

theorem Done.command {u : Party} (h : e.Done t) (hne : u ≠ t) : (e.command u c).Done t := by
  unfold CmdChip.command
  split
  · exact h
  · rintro n x hn ⟨⟩
    have hux : (u, c) = (t, x) := by simpa using hn
    exact absurd (congrArg Prod.fst hux) hne

/-- `t` has written `c`, as the `n`-th command or later. -/
def Wrote (t : Party) (c : UInt8) (n : ℕ) (e : CmdChip) : Prop :=
  ∃ m, n ≤ m ∧ e.issued[m]? = some (t, c)

theorem issued_command (e : CmdChip) (t : Party) (c : UInt8) :
    e.issued <+: (e.command t c).issued := by
  unfold CmdChip.command
  split
  · exact List.prefix_rfl
  · exact List.prefix_append ..

theorem Moves.issued (hm : e.Moves e') : e'.issued = e.issued := by
  cases hm <;> rfl

end CmdChip

/-- Commands are never forgotten. -/
theorem cmdChipTurns_grows (t : Party) (l : List (Party × UInt8)) :
    (cmdChipTurns t).Keeps (l <+: ·.issued) where
  drift hd h := CmdChip.Moves.issued hd ▸ h
  answer ha h := by
    obtain rfl | ⟨-, c, rfl⟩ := ha.2.effect
    · exact h
    · exact h.trans (CmdChip.issued_command _ t c)

section

variable {s : Emac}

/-- A party among the others. -/
abbrev among (t : Party) : Env Emac CmdChip MacOp.Ans := Env.rely cmdChipTurns t

theorem CmdChip.Sound.drifts (h : e.Sound) (hd : (among t).Drifts e e') : e'.Sound :=
  hd.rely_keeps (fun u _ ↦ cmdChipTurns_keeps u) (fun hm h ↦ h.moves hm) h

theorem CmdChip.Done.drifts (h : e.Done t) (hd : (among t).Drifts e e') : e'.Done t := by
  have hmoves : ∀ {e e' : CmdChip}, e.Moves e' → e.Done t → e'.Done t := fun hm _ ↦ hm.done
  refine hd.rely_keeps (fun u hu ↦ ⟨hmoves, fun ha h ↦ ?_⟩) hmoves h
  obtain rfl | ⟨-, c, rfl⟩ := ha.2.effect
  · exact h
  · exact h.command hu

/-- The wait ends well only when the register has been seen to be 0. -/
theorem awaitCommand_done : ∀ (k : ℕ) {e : CmdChip}, e.Sound →
    preE (among t) (fun _ _ _ ↦ True) (fun _ _ ↦ True) (w6300AwaitCommand k)
      (fun _ _ e' ↦ e'.Sound ∧ e'.Done t) (fun _ _ _ ↦ True) s e
  | 0, _, _ => fun _ _ ↦ trivial
  | k + 1, e, h => by
    unfold w6300AwaitCommand
    refine fun e₁ he₁ ↦ ⟨trivial, ?_⟩
    rintro a e₂ ⟨-, rfl, hv⟩
    have h₂ := h.drifts he₁
    cases a with
    | error err => exact fun _ _ ↦ trivial
    | ok v =>
      obtain rfl := hv v rfl
      refine pre_ite (fun hzero e₃ he₃ ↦ ?_) fun _ e₃ he₃ ↦ ⟨trivial, ?_⟩
      · have hcr := h₂.cr_of_value hzero
        have hdone : e₂.Done t := fun n x _ hn ↦ absurd (hcr.symm.trans hn) (by simp)
        exact ⟨h₂.drifts he₃, hdone.drifts he₃⟩
      · rintro - e₄ ⟨-, rfl⟩
        exact awaitCommand_done k (h₂.drifts he₃)

theorem sendCommand_done {timeoutMs : ℕ} (h : e.Sound) :
    preE (among t) (fun _ _ _ ↦ True) (fun _ _ ↦ True) (w6300SendCommand c timeoutMs)
      (fun _ _ e' ↦ e'.Sound ∧ e'.Done t) (fun _ _ _ ↦ True) s e := by
  unfold w6300SendCommand w6300WriteU8 w6300Write
  refine fun e₁ he₁ ↦ ⟨trivial, ?_⟩
  rintro a e₂ ha
  have h₂ := (cmdChipTurns_keeps t).answer ha (h.drifts he₁)
  cases a with
  | error err => exact fun _ _ ↦ trivial
  | ok _ => exact awaitCommand_done _ h₂

/-- The command has been written by the time the call returns `ESP_OK`. -/
theorem sendCommand_wrote {timeoutMs : ℕ} (hc : c ≠ 0) :
    preE (among t) (fun _ _ _ ↦ True) (fun _ _ ↦ True) (w6300SendCommand c timeoutMs)
      (fun _ _ e' ↦ e'.Wrote t c e.issued.length) (fun _ _ _ ↦ True) s e := by
  unfold w6300SendCommand w6300WriteU8 w6300Write
  refine fun e₁ he₁ ↦ ⟨trivial, ?_⟩
  rintro a e₂ ⟨-, ha⟩
  cases a with
  | error err => exact fun _ _ ↦ trivial
  | ok _ =>
    obtain rfl | ⟨hne, -⟩ := ha
    swap
    · exact absurd rfl hne
    have hgrown : e.issued <+: e₁.issued :=
      he₁.rely_keeps (I := (e.issued <+: ·.issued)) (fun u _ ↦ cmdChipTurns_grows u _)
        (cmdChipTurns_grows t _).drift List.prefix_rfl
    have hissued : (e₁.command t c).issued = e₁.issued ++ [(t, c)] := by
      rw [CmdChip.command, if_neg hc]
    have hstart : e₁.issued ++ [(t, c)] <+: (e₁.command t c).issued := hissued ▸ List.prefix_rfl
    refine (wlp_keeps (Env.rely_keeps (fun u ↦ cmdChipTurns_grows u _) t) hstart).imp ?_
    rintro (err | _) s e' he'
    · trivial
    · refine ⟨e₁.issued.length, hgrown.length_le, ?_⟩
      obtain ⟨l, hl⟩ := he'
      rw [← hl, List.append_assoc, List.getElem?_append_right (Nat.le_refl _), Nat.sub_self]
      rfl

end

/-! ## Runs -/

/-- Accesses that succeed, but for commands: there is room, and a frame of 60 bytes waits. -/
def CmdChip.reply : (o : MacOp) → CmdChip → o.Ans × CmdChip
  | .read .sockIr len, e => (.ok (window [sirRecv] len), e)
  | .read .sockCr len, e => (.ok (window [e.value] len), e)
  | .read .sockTxFsr len, e => (.ok (window [0x40, 0] len), e)
  | .read .sockRxRsr len, e | .read (.memSockRx _) len, e => (.ok (window [0, 62] len), e)
  | .read .sockIrclr len, e | .read .sockTxWr len, e | .read .sockRxRd len, e | .read
      (.memSockTx _) len, e
  | .read .physr len, e => (.ok (window [] len), e)
  | .write .sockCr _, e => (.error .fail, e)
  | .write .sockIr _, e | .write .sockIrclr _, e | .write .sockTxFsr _, e | .write .sockTxWr _, e
  | .write .sockRxRsr _, e | .write .sockRxRd _, e | .write (.memSockTx _) _, e | .write
      (.memSockRx _) _, e
  | .write .physr _, e => (.ok (), e)
  | .malloc _, e => (true, e)
  | .free, e => ((), e)
  | .stackInput _, e => ((), e)
  | .vTaskDelay _, e => ((), e)
  | .espTimerGetTime, e => (0, e)
  | .ulTaskNotifyTake _, e => (1, e)
  | .gpioGetLevel _, e => (0, e)

theorem cmdChipTurns_reply (t : Party) : (cmdChipTurns t).Follows (·.cr = none) CmdChip.reply := by
  constructor
  · intro o s e he
    refine ⟨fun _ ↦ he, ?_⟩
    cases o with
    | read r len =>
      cases r with
      | sockCr => exact ⟨rfl, fun v hv ↦ (Except.ok.inj hv).symm⟩
      | _ => rfl
    | write r data =>
      cases r with
      | sockCr => exact .inr ⟨by simp [CmdChip.reply], rfl⟩
      | _ => rfl
    | _ => rfl
  · intro o e he
    cases o with
    | read r len => cases r <;> exact he
    | write r data => cases r <;> exact he
    | _ => exact he

/-- The caller has got to the command of its first transmission. -/
theorem caller_sends : ∃ k : Except EspErr Unit → Driver Unit, Reaches (cmdChipTurns .caller)
    ((parties [[]] {}).thread .caller) ⟨(w6300SendCommand scrSend 100).run.bind k, {}, {}⟩ := by
  have hprog : ∃ k : Except EspErr Unit → Driver Unit,
      (runWith CmdChip.reply 6 ((parties [[]] {}).thread .caller)).prog =
        (w6300SendCommand scrSend 100).run.bind k := by
    have hrun : (runWith CmdChip.reply 6 ((parties [[]] {}).thread .caller)).prog =
        (((w6300SendCommand scrSend 100).run.bind (ExceptT.bindCont fun _ ↦ (do
          let start ← op .espTimerGetTime
          Failing.forever (emacW6300TransmitTurn start)
          w6300ClearSockIntr sirSendok : Mac Unit))).bind fun _ ↦ .done ()).bind fun _ ↦
            .done () := rfl
    rw [hrun, Program.bind_assoc, Program.bind_assoc]
    exact ⟨_, rfl⟩
  obtain ⟨k, hk⟩ := hprog
  refine ⟨k, ?_⟩
  have hconfig : runWith CmdChip.reply 6 ((parties [[]] {}).thread .caller) =
      ⟨(w6300SendCommand scrSend 100).run.bind k, {}, {}⟩ := by
    rw [← hk]
    rfl
  exact hconfig ▸ (reaches_runWith (cmdChipTurns_reply .caller) 6 ((parties [[]] {}).thread .caller)
    rfl).1

/-- The task has got to the command for its first frame. -/
theorem task_receives : ∃ (k : Except EspErr Unit → Driver Unit) (s : Emac),
    Reaches (cmdChipTurns .task)
    ((parties [[]] {}).thread .task) ⟨.call (.write .sockCr [scrRecv]) k, s, {}⟩ := by
  obtain ⟨k, hk⟩ := performs_runWith (cmdChipTurns_reply .task) (n := 19)
    (p := (parties [[]] {}).prog .task) (s := {}) (e := {}) (o := .write .sockCr [scrRecv]) rfl rfl
  exact ⟨k, _, hk⟩

theorem cmdChipTurns_le (t : Party) : cmdChipTurns t ≤ cmdChip t := Env.restrict_le _ _

/-- The command is written. -/
theorem reaches_written : Reaches (cmdChipTurns .caller)
    ⟨(w6300SendCommand scrSend 100).run, {}, {}⟩
    ⟨(w6300AwaitCommand 10).run, {}, { issued := [(.caller, scrSend)], cr := some 0 }⟩ := by
  have hwrite : (cmdChipTurns .caller).answer (.write .sockCr [scrSend]) {} {} (.ok ())
      { issued := [(.caller, scrSend)], cr := some 0 } := ⟨fun _ ↦ rfl, .inl rfl⟩
  exact .step (.call _ hwrite)

/-- The register is seen to be 0, and with that the call is over. -/
theorem reaches_awaited (h : e.value = 0) :
    Reaches (cmdChipTurns .caller) ⟨(w6300AwaitCommand 10).run, {}, e⟩ ⟨.done (.ok ()), {},
      e⟩ := by
  have hread : (cmdChipTurns .caller).answer (.read .sockCr 1) {} e (.ok (window [0] 1)) e :=
    ⟨fun ho ↦ ho.elim, rfl, fun v hv ↦ h ▸ (Except.ok.inj hv).symm⟩
  exact .step (.call _ hread)

/-! ## All runs -/

theorem parties_sound {frames : List (List UInt8)} {emac : Emac}
    {σ : Pool Party Emac CmdChip MacOp.Ans}
    (h : Pool.Reaches cmdChipTurns (parties frames emac) σ) : σ.env.Sound := by
  refine h.keeps cmdChipTurns_keeps ⟨by simp [parties], by simp [parties], by simp [parties],
    fun n ↦ ?_⟩
  simp [parties]

/-- **Taking turns.** In every run of the transmissions and the task in which a command is only
written while `Sn_CR` is 0, a call of `w6300_send_command` that returns `ESP_OK` has written its
command, and every command it has written has been executed once. -/
theorem sendCommand_executed {frames : List (List UInt8)} {emac : Emac}
    {σ σ' : Pool Party Emac CmdChip MacOp.Ans} {t : Party} {c : UInt8} {timeoutMs : ℕ}
    (h : Pool.Reaches cmdChipTurns (parties frames emac) σ)
    (hr : Pool.Returns cmdChipTurns t (w6300SendCommand c timeoutMs).run σ (.ok ()) σ') :
    (c ≠ 0 → σ'.env.Wrote t c σ.env.issued.length) ∧
      ∀ n x, σ.env.issued.length ≤ n → σ'.env.issued[n]? = some (t, x) →
      σ'.env.executed.count n = 1 := by
  obtain ⟨hsound, hdone⟩ := pre.returns (sendCommand_done (t := t) (parties_sound h)) hr.rely
  constructor
  · intro hc
    have hwrote := pre.returns (sendCommand_wrote (t := t) hc) hr.rely
    exact hwrote
  · exact fun n x _ hn ↦ hsound.count_of_done hdone hn

/-- The first transmission, with the task asleep. -/
theorem sendCommand_executed_first : ∃ σ σ' : Pool Party Emac CmdChip MacOp.Ans,
    Pool.Reaches cmdChipTurns (parties [[]] {}) σ ∧
    Pool.Returns cmdChipTurns .caller (w6300SendCommand scrSend 100).run σ (.ok ()) σ' ∧
    σ'.env.Wrote .caller scrSend 0 ∧ σ'.env.executed.count 0 = 1 := by
  obtain ⟨k, hk⟩ := caller_sends
  have hσ := Pool.Reaches.solo (V := cmdChipTurns) (i := .caller) hk
  have hmoves : (cmdChipTurns .caller).Drifts { issued := [(.caller, scrSend)], cr := some 0 }
      { issued := [(.caller, scrSend)], executed := [0] } :=
    .trans (.single (.latch rfl rfl)) (.single (.clear rfl))
  have hrun := (reaches_written.trans (.drifts hmoves)).trans (reaches_awaited rfl)
  have hcall : Pool.Returns cmdChipTurns .caller (w6300SendCommand scrSend 100).run
      ((parties [[]] {}).set .caller ⟨(w6300SendCommand scrSend 100).run.bind k, {}, {}⟩)
        (.ok ()) _ :=
    ⟨k, Pool.set_prog .., Pool.CallStep.own_run (Pool.set_prog ..) hrun⟩
  obtain ⟨hwrote, hcount⟩ := sendCommand_executed hσ hcall
  exact ⟨_, _, hσ, hcall, hwrote (by decide), hcount 0 scrSend (Nat.zero_le _) rfl⟩

/-- A reception between the writing of `SEND` and the moment at which the chip looks: the call
returns `ESP_OK`, and `SEND` was never executed. -/
theorem sendCommand_overwritten : ∃ σ σ' : Pool Party Emac CmdChip MacOp.Ans,
    Pool.Reaches cmdChip (parties [[]] {}) σ ∧
    Pool.Returns cmdChip .caller (w6300SendCommand scrSend 100).run σ (.ok ()) σ' ∧
    σ.env.issued = [] ∧ σ'.env.issued[0]? = some (.caller, scrSend) ∧ σ'.env.executed.count 0 =
    0 := by
  obtain ⟨k, hk⟩ := caller_sends
  obtain ⟨kt, st, ht⟩ := task_receives
  -- Both get to their commands,
  let σ₁ := (parties [[]] {}).set .task ⟨.call (.write .sockCr [scrRecv]) kt, st, {}⟩
  let σ₂ := σ₁.set .caller ⟨(w6300SendCommand scrSend 100).run.bind k, {}, {}⟩
  have h₁ : Pool.Reaches cmdChip (parties [[]] {}) σ₁ := .solo (ht.mono (cmdChipTurns_le _))
  have h₂ : Pool.Reaches cmdChip σ₁ σ₂ := .solo (hk.mono (cmdChipTurns_le _))
  -- the caller writes its own, and the task writes over it,
  let σ₃ := σ₂.set .caller ⟨(w6300AwaitCommand 10).run.bind k, {},
    { issued := [(.caller, scrSend)], cr := some 0 }⟩
  let σ₄ :=
    σ₃.set .task ⟨kt (.ok ()), st,
    { issued := [(.caller, scrSend), (.task, scrRecv)], cr := some 1 }⟩
  have h₃ : Relation.ReflTransGen (Pool.CallStep cmdChip .caller k)
      ((w6300SendCommand scrSend 100).run, σ₂) ((w6300AwaitCommand 10).run, σ₃) :=
    Pool.CallStep.own_run rfl (reaches_written.mono (cmdChipTurns_le _))
  have hwrite : (cmdChip .task).answer (.write .sockCr [scrRecv]) st σ₃.env (.ok ()) σ₄.env :=
    .inl rfl
  have h₄ : Relation.ReflTransGen (Pool.CallStep cmdChip .caller k)
      ((w6300AwaitCommand 10).run, σ₃)
      ((w6300AwaitCommand 10).run, σ₄) :=
        Pool.CallStep.other_step Party.task (by decide) (.call kt hwrite)
  -- which the chip takes and clears.
  have hmoves : (cmdChip .caller).Drifts σ₄.env
      { issued := [(.caller, scrSend), (.task, scrRecv)], executed := [1] } :=
    .trans (.single (.latch rfl rfl)) (.single (.clear rfl))
  have h₅ : Relation.ReflTransGen (Pool.CallStep cmdChip .caller k) ((w6300AwaitCommand 10).run,
      σ₄) (_, _) :=
    Pool.CallStep.own_run rfl
      ((Reaches.drifts hmoves).trans ((reaches_awaited rfl).mono (cmdChipTurns_le _)))
  exact ⟨σ₂, _, h₁.trans h₂, ⟨k, rfl, (h₃.trans h₄).trans h₅⟩, rfl, rfl, rfl⟩

/-! ## Getting in each other's way -/

namespace CmdChip

/-- The `n`-th command will never be executed: it was not, and it no longer waits to be taken. -/
structure Lost (n : ℕ) (e : CmdChip) : Prop where
  lt : n < e.issued.length
  executed : n ∉ e.executed
  waits : e.cr = some n → e.latched ≠ none

/-- What holds of the commands in every run. -/
structure Numbered (e : CmdChip) : Prop where
  executed_lt : ∀ n ∈ e.executed, n < e.issued.length
  cr_lt : ∀ n, e.cr = some n → n < e.issued.length
  waits : ∀ n, e.cr = some n → e.latched = some n ∨ n ∉ e.executed

theorem Numbered.moves (h : e.Numbered) (hm : e.Moves e') : e'.Numbered := by
  cases hm with
  | @latch n hcr hl =>
    refine ⟨?_, h.cr_lt, fun m hm ↦ .inl (hcr.symm.trans hm)⟩
    intro m hm
    rcases List.mem_cons.mp hm with rfl | hm
    · exact h.cr_lt m hcr
    · exact h.executed_lt m hm
  | clear _ =>
    exact ⟨h.executed_lt, fun m hm ↦ absurd hm (by simp), fun m hm ↦ absurd hm (by simp)⟩

theorem Numbered.command (h : e.Numbered) : (e.command t c).Numbered := by
  unfold CmdChip.command
  split
  · exact h
  · refine ⟨fun n hn ↦ ?_, ?_, ?_⟩
    · exact Nat.lt_of_lt_of_le (h.executed_lt n hn) (by simp)
    · rintro n ⟨⟩
      simp
    · rintro n ⟨⟩
      exact .inr fun hn ↦ Nat.lt_irrefl _ (h.executed_lt _ hn)

theorem Lost.moves (h : e.Lost n) (hm : e.Moves e') : e'.Lost n := by
  cases hm with
  | @latch m hcr hl =>
    refine ⟨h.lt, fun hn ↦ ?_, fun _ ↦ Option.some_ne_none _⟩
    rcases List.mem_cons.mp hn with rfl | hn
    · exact h.waits hcr hl
    · exact h.executed hn
  | clear _ => exact ⟨h.lt, h.executed, fun hn ↦ absurd hn (by simp)⟩

theorem Lost.command (h : e.Lost n) : (e.command t c).Lost n := by
  unfold CmdChip.command
  split
  · exact h
  · refine ⟨Nat.lt_of_lt_of_le h.lt (by simp), h.executed, fun hn ↦ ?_⟩
    exact absurd (Option.some_inj.mp hn).symm h.lt.ne

/-- A command that is written into a register that is not 0 is lost, or the one that it finds there
is. -/
theorem Numbered.lost (h : e.Numbered) (hcr : e.cr ≠ none) (hc : c ≠ 0) :
    ∃ n, (e.command t c).Lost n := by
  rw [CmdChip.command, if_neg hc]
  obtain ⟨n, hn⟩ := Option.ne_none_iff_exists'.mp hcr
  cases hl : e.latched with
  | none =>
    have hlt := h.cr_lt n hn
    refine ⟨n, Nat.lt_of_lt_of_le hlt (by simp), (h.waits n hn).resolve_left (by simp [hl]),
      fun hcr' ↦ ?_⟩
    exact absurd (Option.some_inj.mp hcr').symm hlt.ne
  | some m =>
    refine ⟨e.issued.length, by simp, fun hn ↦ Nat.lt_irrefl _ (h.executed_lt _ hn),
      fun _ ↦ ?_⟩
    exact hl ▸ Option.some_ne_none m

end CmdChip

theorem cmdChip_keeps_numbered (t : Party) : (cmdChip t).Keeps CmdChip.Numbered where
  drift hd h := h.moves hd
  answer ha h := by
    obtain rfl | ⟨-, c, rfl⟩ := ha.effect
    · exact h
    · exact h.command

theorem cmdChip_keeps_lost (n : ℕ) (t : Party) : (cmdChip t).Keeps (CmdChip.Lost n) where
  drift hd h := h.moves hd
  answer ha h := by
    obtain rfl | ⟨-, c, rfl⟩ := ha.effect
    · exact h
    · exact h.command

/-- **Without turns.** If a command is written while `Sn_CR` is not 0, then from then on one of the
commands is never executed, whatever happens. -/
theorem command_lost {frames : List (List UInt8)} {emac : Emac}
    {σ : Pool Party Emac CmdChip MacOp.Ans} (h : Pool.Reaches cmdChip (parties frames emac) σ)
    (hcr : σ.env.cr ≠ none) (hc : c ≠ 0) :
    ∃ n, ∀ σ₁ σ' : Pool Party Emac CmdChip MacOp.Ans, σ₁.env = σ.env.command t c →
    Pool.Reaches cmdChip σ₁ σ' →
      n < σ'.env.issued.length ∧ n ∉ σ'.env.executed := by
  have hstart : (parties frames emac).env.Numbered :=
    ⟨by simp [parties], by simp [parties], by simp [parties]⟩
  obtain ⟨n, hn⟩ := (h.keeps cmdChip_keeps_numbered hstart).lost (t := t) hcr hc
  refine ⟨n, fun σ₁ σ' h₁ hσ ↦ ?_⟩
  have hlost := hσ.keeps (cmdChip_keeps_lost n) (h₁ ▸ hn)
  exact ⟨hlost.lt, hlost.executed⟩

end WsmDriver.W6300
