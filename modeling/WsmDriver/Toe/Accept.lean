import WsmDriver.Effect.Execution
import WsmDriver.Effect.Trace
import WsmDriver.Toe.Confinement
import WsmDriver.Toe.Hygiene

/-!
# Accepting never destroys a connection

`wiztoe_accept` acts on a status it read a moment ago, and the chip goes on moving. What makes this
safe is that a socket only gets into a handshake from `LISTEN`, and into `LISTEN` by a command: a
status outside of `LISTEN`, `SYNRECV`, `ESTABLISHED` and `CLOSE_WAIT` is one the socket cannot leave
for a live one, so whatever is done to it in the meantime kills nothing. The other hardware socket
that is commanded is one the listener has just claimed, and that is harmless exactly when free
hardware sockets are closed.
-/

namespace WsmDriver

open Effect

/-- A handshake is going on or has been completed. -/
def SnSR.Live : SnSR → Prop
  | .synrecv | .established | .closeWait => True
  | _ => False

/-- The handshake has been completed. -/
def SnSR.Connected : SnSR → Prop
  | .established | .closeWait => True
  | _ => False

/-- Neither live nor about to be. -/
def SnSR.Settled (x : SnSR) : Prop := ¬x.Live ∧ x ≠ .listen

instance (x : SnSR) : Decidable x.Live := by
  cases x <;> unfold SnSR.Live <;> infer_instance

instance (x : SnSR) : Decidable x.Connected := by
  cases x <;> unfold SnSR.Connected <;> infer_instance

instance (x : SnSR) : Decidable x.Settled := by
  unfold SnSR.Settled
  infer_instance

theorem SnSR.Settled.of_ne {x : SnSR}
    (h : (x ≠ .established ∧ x ≠ .closeWait) ∧ x ≠ .listen ∧ x ≠ .synrecv) : x.Settled := by
  obtain ⟨⟨hest, hwait⟩, hlisten, hsyn⟩ := h
  refine ⟨?_, hlisten⟩
  cases x with
  | established => exact absurd rfl hest
  | closeWait => exact absurd rfl hwait
  | synrecv => exact absurd rfl hsyn
  | _ => exact id

/-- How a hardware socket moves by itself: into the live states only along the handshake, into
`LISTEN` at most back from it, and out of `INIT` and `CLOSED` not at all. -/
structure TcpAuto (auto : SnSR → SnSR → Prop) : Prop where
  listen : ∀ {x}, auto x .listen → x = .synrecv
  synrecv : ∀ {x}, auto x .synrecv → x = .listen
  established : ∀ {x}, auto x .established → x = .synrecv
  closeWait : ∀ {x}, auto x .closeWait → x = .established
  init : ∀ x, ¬auto .init x
  closed : ∀ x, ¬auto .closed x

/-- The hardware socket a command that would end a connection is given to. -/
def ChipOp.command? : ChipOp → Option ℤ
  | .socket sn .. | .listen sn | .close sn => some sn
  | _ => none

variable {cfg : ToeConfig} {auto : SnSR → SnSR → Prop} {t t' : Tables} {e e' : PoolChip}
  {fd c sn : ℤ}

namespace TcpAuto

theorem settled (h : TcpAuto auto) {x y : SnSR} (hxy : auto x y) (hx : x.Settled) : y.Settled := by
  obtain ⟨hlive, hlisten⟩ := hx
  have hy : ∀ z, z = .listen ∨ z.Live → y ≠ z := by
    rintro z hz rfl
    rcases hz with rfl | hz
    · exact hlive (h.listen hxy ▸ trivial)
    · cases y with
      | synrecv => exact hlisten (h.synrecv hxy)
      | established => exact hlive (h.established hxy ▸ trivial)
      | closeWait => exact hlive (h.closeWait hxy ▸ trivial)
      | _ => exact hz
  exact ⟨fun hl ↦ hy y (.inr hl) rfl, fun hl ↦ hy _ (.inl rfl) hl⟩

theorem settled_drifts (h : TcpAuto auto) (hd : (poolChip auto).Drifts e e')
    (hs : (e.sr sn).Settled) : (e'.sr sn).Settled := by
  refine hd.induct (P := fun e ↦ (e.sr sn).Settled) (fun e e' hd hs ↦ ?_) hs
  rcases hd sn with heq | ha
  · rwa [heq]
  · exact h.settled ha hs

theorem init_drifts (h : TcpAuto auto) (hd : (poolChip auto).Drifts e e') (hs : e.sr sn = .init) :
    e'.sr sn = .init := by
  refine hd.induct (P := fun e ↦ e.sr sn = .init) (fun e e' hd hs ↦ ?_) hs
  rcases hd sn with heq | ha
  · rw [heq, hs]
  · rw [hs] at ha
    exact absurd ha (h.init _)

end TcpAuto

/-! ## Commands -/

/-- The operation commands no live hardware socket. -/
def Harmless (o : ChipOp) (e : PoolChip) : Prop := ∀ sn, o.command? = some sn → ¬(e.sr sn).Live

/-- The operation commands no live hardware socket, and looks at no status. -/
def Gentle (o : ChipOp) (_ : Tables) (e : PoolChip) : Prop :=
  Harmless o e ∧ ∀ sn, o ≠ .getSnSR sn

theorem Gentle.of_none {o : ChipOp} (h : o.command? = none) (hs : ∀ sn, o ≠ .getSnSR sn) :
    Gentle o t e :=
  ⟨fun sn hsn ↦ by simp [h] at hsn, hs⟩

theorem Gentle.of_settled {o : ChipOp} (h : o.command? = some sn) (hs : ∀ sn, o ≠ .getSnSR sn)
    (hsr : (e.sr sn).Settled) : Gentle o t e := by
  refine ⟨fun x hx ↦ ?_, hs⟩
  obtain rfl : sn = x := Option.some_inj.mp (h.symm.trans hx)
  exact hsr.1

/-- Whatever comes back. -/
abbrev Anything {α : Type} : α → Tables → PoolChip → Prop := fun _ _ _ ↦ True

theorem gentle_pure {α : Type} (a : α) : wlp (poolChip auto) Gentle (pure a) Anything t e :=
  fun _ _ ↦ trivial

theorem toeListenerReopen_gentle (hauto : TcpAuto auto) (hs : (e.sr (toeSn t fd)).Settled) :
    wlp (poolChip auto) Gentle (toeListenerReopen fd) Anything t e := by
  unfold toeListenerReopen
  refine pre_get_bind.mpr ?_
  dsimp only
  have hip : wlp (poolChip auto) Gentle toeChipHasIp
      (fun _ t' e' ↦ t = t' ∧ (e'.sr (toeSn t fd)).Settled) t e := by
    intro e₁ he₁
    refine ⟨.of_none rfl (by simp), ?_⟩
    rintro sipr _ ⟨-, rfl⟩ e₂ he₂
    exact ⟨rfl, hauto.settled_drifts he₂ (hauto.settled_drifts he₁ hs)⟩
  refine pre.seq hip ?_
  rintro hasIp _ e ⟨rfl, hs⟩
  split
  · exact pre_modify_bind.mpr (gentle_pure _)
  refine pre_get_bind.mpr (pre_perform_bind.mpr fun e₁ he₁ ↦ ?_)
  refine ⟨.of_settled rfl (by simp) (hauto.settled_drifts he₁ hs), fun r e₂ hans ↦ ?_⟩
  split
  · exact gentle_pure _
  rename_i hr
  refine pre_modify_bind.mpr (pre_perform_bind.mpr fun e₃ he₃ ↦ ?_)
  -- `socket` leaves the hardware socket in `INIT` or in `CLOSED`: `listen` finds no connection on
  -- it.
  have hinit : (e₂.sr (toeSn t fd)).Settled := by
    have he₂ : e₂.sr =
        (e₁.set (toeSn t fd) (if r = toeSn t fd then SnMR.tcp.opened else .closed)).sr :=
      hans
    rw [he₂, PoolChip.set_sr_self]
    split <;> decide
  refine ⟨.of_settled rfl (by simp) (hauto.settled_drifts he₃ hinit), fun r e₄ _ ↦ ?_⟩
  split
  · exact gentle_pure _
  · exact gentle_pure _

/-- A listener that is re-armed commands a hardware socket that was free. -/
theorem toeListenerRearm_gentle (hfit : cfg.Fits) (hauto : TcpAuto auto) (hd : cfg.IsDesc fd)
    (h : Clean cfg False t e) :
    wlp (poolChip auto) Gentle (discard <| toeListenerRearm cfg fd) Anything t e := by
  suffices h : wlp (poolChip auto) Gentle (toeListenerRearm cfg fd) Anything t e from
    pre_discard (h.imp fun _ _ _ _ _ _ ↦ trivial)
  refine pre_toeListenerRearm hfit (fun _ _ ↦ hd) (fun _ ↦ gentle_pure _) (fun sn _ hs ↦ ?_)
    fun _ _ ↦ gentle_pure _
  -- The pool is clean, so the hardware socket that was free is closed.
  have hsr : (e.sr (toeSn (t.arm fd sn) fd)).Settled := by
    rw [toeSn_arm hfit hs.free, h.free hs.free]
    decide
  refine pre.seq (toeListenerReopen_gentle hauto hsr) fun r t e _ ↦ ?_
  exact pre_ite (fun _ ↦ pre_modify_bind.mpr (gentle_pure _)) fun _ ↦ gentle_pure _

theorem toeAcceptEstablished_gentle (hfit : cfg.Fits) (hauto : TcpAuto auto)
    (hr : toeFdReady cfg t fd) (hl : (t.desc fd).listening = true) (h : Clean cfg False t e) :
    wlp (poolChip auto) Gentle (toeAcceptEstablished cfg fd) Anything t e := by
  rcases toeDescAlloc_cases cfg t with ⟨c, hc, heq⟩ | ⟨heq, -⟩
  · have hlt := (WellOwned.tablesInv cfg).range h.owned hr.1
    refine (toeAcceptEstablished_handover hfit hlt hr hc heq).mpr ?_
    refine pre.seq (toeListenerRearm_gentle hfit hauto hr.1.isDesc (h.handover hr hl hc)) ?_
    exact fun _ _ _ _ ↦ gentle_pure _
  · exact (toeAcceptEstablished_full heq).mpr (gentle_pure _)

/-- The status was read when the chip was in the state `e`. Only a completed handshake ends the
turn. -/
theorem toeAcceptStatus_gentle (hfit : cfg.Fits) (hauto : TcpAuto auto) (hr : toeFdReady cfg t fd)
    (hl : (t.desc fd).listening = true) (h : Clean cfg False t e) :
    wlp (poolChip auto) Gentle (toeAcceptStatus cfg fd (e.sr (toeSn t fd)))
      (fun r _ _ ↦ ¬(e.sr (toeSn t fd)).Connected → r = none) t e := by
  have hnone : ∀ {t' e'}, wlp (poolChip auto) Gentle (pure none : Toe (Option ℤ))
      (fun r _ _ ↦ ¬(e.sr (toeSn t fd)).Connected → r = none) t' e' := fun _ _ _ ↦ rfl
  refine pre_toeAcceptStatus (fun hest ↦ ?_) (fun _ ↦ hnone) (fun hinit ↦ ?_) fun hother ↦ ?_
  · have hc : (e.sr (toeSn t fd)).Connected := by
      rcases hest with hest | hest <;> rw [hest] <;> trivial
    exact pre.seq (toeAcceptEstablished_gentle hfit hauto hr hl h) fun _ _ _ _ _ _ hn ↦ absurd hc hn
  · refine pre_perform_bind.mpr fun e₁ he ↦ ?_
    have hinit' := hauto.init_drifts he hinit
    refine ⟨.of_settled rfl (by simp) (hinit' ▸ by decide), fun r e _ ↦ ?_⟩
    exact pre_when_bind (fun _ ↦ pre_modify_bind.mpr hnone) fun _ ↦ hnone
  · refine pre.seq (toeListenerReopen_gentle hauto (.of_ne hother)) fun r t e _ ↦ ?_
    exact pre_when_bind (fun _ ↦ pre_modify_bind.mpr hnone) fun _ ↦ hnone

theorem toeWaitTurn_gentle (started : UInt32) (timeoutMs : Desc → UInt32) (expired : ℤ) :
    wlp (poolChip auto) Gentle (toeWaitTurn fd started timeoutMs expired) Anything t e := by
  have hyield : ∀ t e, wlp (poolChip auto) Gentle (do
      chip .toeYield1ms
      return none : Toe (Option ℤ)) Anything t e :=
    fun t e ↦ pre_perform_bind.mpr fun _ _ ↦
      ⟨.of_none rfl (by simp), fun _ _ _ ↦ gentle_pure _⟩
  have hpassed : ∀ t e, wlp (poolChip auto) Gentle
      (toeDeadlinePassed started (timeoutMs (t.desc fd))) Anything t e := by
    intro t e
    unfold toeDeadlinePassed
    split
    · exact gentle_pure _
    · exact pre_perform_bind.mpr fun _ _ ↦ ⟨.of_none rfl (by simp), fun _ _ _ ↦ gentle_pure _⟩
  unfold toeWaitTurn
  refine pre_get_bind.mpr ?_
  split
  · exact gentle_pure _
  refine pre.seq (hpassed t e) fun passed t e _ ↦ ?_
  split
  · exact gentle_pure _
  · exact hyield t e

/-! ## What becomes of a connection -/

/-- The connection on the hardware socket `sn` was handed out as the new descriptor `r`; or every
descriptor is in use, the call would block, and the listener `fd` keeps the connection. -/
def Outcome (cfg : ToeConfig) (t : Tables) (fd sn r : ℤ) : Prop :=
  (r ≠ fd ∧ toeFdReady cfg t r ∧ (t.desc r).sn = sn) ∨
    (r = wiztoeErrWouldblock ∧ (∀ c, ¬IsUnused cfg t c) ∧ toeFdReady cfg t fd ∧
      (t.desc fd).sn = sn)

section Frame

variable {E : Type} {V : Env Tables E ChipOp.Ans} {ε : E} {d : Desc}

/-- The tables are well owned and the descriptor `c` is `d`. -/
def Keeping (cfg : ToeConfig) (c : ℤ) (d : Desc) (t : Tables) (_ : E) : Prop :=
  WellOwned cfg t ∧ t.desc c = d

theorem Keeping.stable : Stable cfg V (Keeping cfg c d) :=
  WellOwned.stable V (T := fun t ↦ WellOwned cfg t ∧ t.desc c = d) fun _ h ↦ h.1

theorem Keeping.opens (hne : c ≠ fd) : Opens cfg V (Keeping cfg c d) fd where
  refused h _ _ _ := h
  granted h hr _ := ⟨h.1.move (.opened true hr), (Tables.upd_desc_ne _ _ hne).trans h.2⟩

theorem Keeping.listens (hne : c ≠ fd) : Listens cfg V (Keeping cfg c d) fd where
  unopened h hr hl _ _ := ⟨h.1.move (.disarm hr hl), (toeListenerDisarm_desc_ne hne).trans h.2⟩
  unlistened h hr hl _ _ := ⟨h.1.move (.disarm hr hl), (toeListenerDisarm_desc_ne hne).trans h.2⟩

/-- A completed handshake has its outcome, whatever the chip does while the listener is re-armed. -/
theorem toeAcceptEstablished_outcome (hfit : cfg.Fits) (hw : WellOwned cfg t)
    (hr : toeFdReady cfg t fd) (hl : (t.desc fd).listening = true) :
    wlp V (fun _ _ _ ↦ True) (toeAcceptEstablished cfg fd)
      (fun r t' _ ↦ Outcome cfg t' fd (t.desc fd).sn r) t ε := by
  rcases toeDescAlloc_cases cfg t with ⟨c, hc, heq⟩ | ⟨heq, hnone⟩
  · have hne := hr.ne_unused hc
    have hlt := (WellOwned.tablesInv cfg).range hw hr.1
    have hlis := IsListener.handover ⟨hr.1, hl⟩ hc
    have hw' := hw.move (.handover hr hl hc)
    have hrearm : Rearmable cfg (Keeping cfg c ((t.handover fd c).desc c)) fd (t.handover fd c) ε :=
      { listener := hlis
        idle := fun _ ↦ by simp [Tables.handover]
        held := fun h ↦ by simp [Tables.handover] at h
        arm := fun sn hn hs ↦
          ⟨hw'.move (.arm hlis.1 hlis.2 hn hs.free), Tables.upd_desc_ne _ _ hne⟩
        none := fun _ _ ↦ ⟨hw', rfl⟩ }
    refine (toeAcceptEstablished_handover hfit hlt hr hc heq).mpr ?_
    refine pre.seq ((discard_toeListenerRearm_keeps hfit Keeping.stable (Keeping.opens hne)
      (Keeping.listens hne) (A := fun _ ↦ True) trivial hrearm).guard fun _ _ _ _ ↦ trivial) ?_
    rintro _ t' e ⟨⟨-, hd⟩, -⟩ e' -
    have hd' : (t'.desc c).used = true ∧ (t'.desc c).sn = (t.desc fd).sn := by
      rw [hd]
      simp [Tables.handover, Tables.upd_desc_ne _ _ hne]
    exact .inl ⟨hne, ⟨⟨hc.1, hc.2.1, hd'.1⟩, hd'.2 ▸ hr.2⟩, hd'.2⟩
  · exact (toeAcceptEstablished_full heq).mpr fun _ _ ↦ .inr ⟨rfl, hnone, hr, rfl⟩

end Frame

/-! ## Over a whole call

The log says which connections were observed. -/

/-- The status `sr` of the hardware socket `sn` was read. -/
def ChipLog.Observed (l : ChipLog) (sn : ℤ) (sr : SnSR) : Prop := ⟨.getSnSR sn, sr⟩ ∈ l

/-- No completed handshake was seen yet. -/
def ChipLog.Quiet (l : ChipLog) : Prop := ∀ sn sr, l.Observed sn sr → ¬sr.Connected

theorem ChipLog.Observed.of_cons {l : ChipLog} {sn' : ℤ} {sr sr' : SnSR}
    (h : ChipLog.Observed (⟨.getSnSR sn', sr'⟩ :: l) sn sr) :
    (sn = sn' ∧ sr = sr') ∨ l.Observed sn sr := by
  rcases List.mem_cons.mp h with heq | hold
  · cases heq
    exact .inl ⟨rfl, rfl⟩
  · exact .inr hold

/-- The entry is no status read. -/
def NoStatus (x : Sigma ChipOp.Ans) : Prop := ∀ sn, x.1 ≠ .getSnSR sn

/-- Operations that look at no status add no observation. -/
theorem ChipLog.Observed.of_grown {l l' : ChipLog} {sr : SnSR} (hg : Grown NoStatus l l')
    (h : l'.Observed sn sr) :
    l.Observed sn sr :=
  (hg.mem h).resolve_left fun hne ↦ hne sn rfl

theorem ChipLog.Quiet.grown {l l' : ChipLog} (h : l.Quiet) (hg : Grown NoStatus l l') : l'.Quiet :=
  fun sn sr ho ↦ h sn sr (.of_grown hg ho)

/-- Between two turns of the loop. -/
structure Turning (cfg : ToeConfig) (fd : ℤ) (t : Tables) (e : PoolChip × ChipLog) : Prop where
  clean : Clean cfg False t e.1
  listener : IsListener cfg t fd
  quiet : e.2.Quiet

/-- After a turn, or half of one: the loop goes on, or every connection observed has its outcome. -/
def Turned (cfg : ToeConfig) (fd : ℤ) (r : Option ℤ) (t : Tables) (e : PoolChip × ChipLog) :
    Prop :=
  match r with
  | none => Turning cfg fd t e
  | some r => ∀ sn sr, e.2.Observed sn sr → sr.Connected → Outcome cfg t fd sn r

/-- The guard of the whole call, in the logging environment. -/
def Spares (o : ChipOp) (_ : Tables) (e : PoolChip × ChipLog) : Prop := Harmless o e.1

/-- A part of a turn that looks at no status. -/
theorem Gentle.logged {α : Type} {G : ChipOp → Tables → PoolChip → Prop} {p : Toe α}
    {Q Q' : α → Tables → PoolChip → Prop} {l : ChipLog} (hp : wlp (poolChip auto) G p Q t e)
    (hg : wlp (poolChip auto) Gentle p Q' t e) :
    wlp (poolChip auto).traced Spares p (fun a t e ↦ (Q a t e.1 ∧ Q' a t e.1) ∧
      Grown NoStatus l e.2) t (e, l) :=
  ((wlp_and hp hg).traced (B := NoStatus) fun h _ ↦ h.2.2).guard fun _ _ _ h ↦ h.2.1

theorem Turned.drifts {r : Option ℤ} {l : ChipLog} {e' : PoolChip × ChipLog} (hauto : TcpAuto auto)
    (h : Turned cfg fd r t (e, l)) (hd : (poolChip auto).traced.Drifts (e, l) e') :
    Turned cfg fd r t e' := by
  obtain ⟨hd, hl⟩ := hd.untraced
  cases r with
  | none =>
    exact ⟨(Clean.stable hauto.closed (Env.le_refl _)).drifts h.clean hd, h.listener,
      hl ▸ h.quiet⟩
  | some r => exact fun sn sr ho ↦ h sn sr (by rwa [hl] at ho)

theorem toeAcceptStatus_connected {sr : SnSR} (h : sr.Connected) : toeAcceptStatus cfg fd sr = (do
    let r ← toeAcceptEstablished cfg fd
    return some r) := by
  cases sr with
  | established => rfl
  | closeWait => rfl
  | _ => exact h.elim

theorem toeAcceptPoll_turned (hfit : cfg.Fits) (hauto : TcpAuto auto) {l : ChipLog}
    (h : Turning cfg fd t (e, l)) :
    wlp (poolChip auto).traced Spares (toeAcceptPoll cfg fd) (Turned cfg fd) t (e, l) := by
  have hA : Accepts cfg (poolChip auto) (Clean cfg False) (Clean cfg False) (Clean cfg False) fd :=
    Clean.accepts hfit hauto.closed (Env.le_refl _) fd
  have hl := h.listener
  unfold toeAcceptPoll
  refine pre_get_bind.mpr ?_
  split
  · have hrearm := Gentle.logged (l := l) (discard_toeListenerRearm_keeps hfit hA.stable hA.opens
      hA.listens (A := fun _ ↦ True) trivial (hA.rearmable hl h.clean))
      (toeListenerRearm_gentle hfit hauto hl.1.isDesc h.clean)
    refine pre.seq hrearm ?_
    rintro _ t ⟨e, l'⟩ ⟨⟨⟨hc, hl⟩, -⟩, hg⟩ e' he
    exact Turned.drifts (r := none) hauto ⟨hc, hl, h.quiet.grown hg⟩ he
  · rename_i hn
    have hr : toeFdReady cfg t fd := ⟨hl.1, by omega⟩
    refine pre_perform_bind.mpr ?_
    rintro ⟨e₁, l₁⟩ he
    obtain ⟨hd, rfl⟩ := he.untraced
    refine ⟨fun sn hsn ↦ by simp [ChipOp.command?] at hsn, ?_⟩
    rintro sr ⟨e₂, l₂⟩ ⟨⟨hsr, heq⟩, hl₂⟩
    dsimp only at hd h hsr heq hl₂
    subst hsr heq hl₂
    have hc : Clean cfg False t e₂ := hA.stable.drifts h.clean hd
    by_cases hconn : (e₂.sr (toeSn t fd)).Connected
    · -- The only poll that may have read a connected state is this one, and it hands it over.
      rw [toeAcceptStatus_connected hconn]
      refine pre.seq (Gentle.logged (toeAcceptEstablished_outcome hfit hc.owned hr hl.2)
        (toeAcceptEstablished_gentle hfit hauto hr hl.2 hc)) ?_
      rintro r t' ⟨e', l'⟩ ⟨⟨hout, -⟩, hg⟩ e'' he
      refine Turned.drifts (r := some r) hauto (fun sn sr ho hsr ↦ ?_) he
      rcases ChipLog.Observed.of_cons (.of_grown hg ho) with ⟨rfl, -⟩ | hold
      · rwa [hc.owned.toeSn_eq hfit hr]
      · exact absurd hsr (h.quiet sn sr hold)
    · refine (Gentle.logged (toeAcceptStatus_keeps hfit hA rfl hr hl.2 _ hc)
        (toeAcceptStatus_gentle hfit hauto hr hl.2 hc)).imp ?_
      rintro r t' ⟨e', l'⟩ ⟨⟨hlis, hnone⟩, hg⟩
      obtain rfl := hnone hconn
      refine ⟨hlis.1, hlis.2, ?_⟩
      refine ChipLog.Quiet.grown (fun sn sr ho ↦ ?_) hg
      rcases ChipLog.Observed.of_cons ho with ⟨-, rfl⟩ | hold
      · exact hconn
      · exact h.quiet sn sr hold

theorem wiztoeAccept_turned (hfit : cfg.Fits) (hauto : TcpAuto auto) (hc : Clean cfg False t e)
    (hl : IsListener cfg t fd) :
    wlp (poolChip auto).traced Spares (wiztoeAccept cfg fd) (fun r ↦ Turned cfg fd (some r)) t
      (e, []) := by
  have hS : Stable cfg (poolChip auto) (Clean cfg False) :=
    Clean.stable hauto.closed (Env.le_refl _)
  unfold wiztoeAccept
  refine pre_get_bind.mpr ?_
  rw [if_neg (by simp [hl.1, hl.2])]
  refine pre_perform_bind.mpr ?_
  rintro ⟨e₁, l₁⟩ he
  obtain ⟨hd, rfl⟩ := he.untraced
  refine ⟨fun sn hsn ↦ by simp [ChipOp.command?] at hsn, ?_⟩
  rintro started ⟨e₂, l₂⟩ ⟨hans, hl₂⟩
  dsimp only at hd hans hl₂
  subst hl₂
  have hturning : Turning cfg fd t (e₂, [⟨.toeTimeUs, started⟩]) := by
    refine ⟨hS.answer rfl (hS.drifts hc hd) hans, hl, fun sn sr ho ↦ ?_⟩
    simp [ChipLog.Observed] at ho
  -- As long as the call turns, no poll has read a connected state.
  refine wlp_forever (Turning cfg fd) hturning ?_
  rintro t ⟨e, l⟩ h
  unfold toeAcceptTurn
  refine pre.seq (toeAcceptPoll_turned hfit hauto h) ?_
  rintro (_ | r) t ⟨e, l⟩ h
  · refine (Gentle.logged (toeWaitTurn_still hS started Desc.rcvTimeoutMs wiztoeErrTimeout
      (A := fun _ ↦ True) h.clean)
        (toeWaitTurn_gentle started Desc.rcvTimeoutMs wiztoeErrTimeout)).imp ?_
    rintro (_ | r) _ ⟨e', l'⟩ ⟨⟨⟨rfl, hc⟩, -⟩, hg⟩
    · exact ⟨hc, h.listener, h.quiet.grown hg⟩
    · intro e'' he
      refine Turned.drifts (r := some r) hauto (fun sn sr ho hsr ↦ ?_) he
      exact absurd hsr (h.quiet sn sr (.of_grown hg ho))
  · exact fun e₁ he₁ e₂ he₂ ↦ (h.drifts hauto he₁).drifts hauto he₂

/-- **Accepting never destroys a connection.** In any state reached in which free hardware sockets
are closed: whatever the chip does in the meantime, `accept` commands no hardware socket that is in
a handshake or connected, it touches only the one its listener owns at that moment, and whatever it
gives up is closed. A connection it has seen is the descriptor it returns, unless every descriptor
is in use and the listener keeps the connection. -/
theorem accept_never_destroys {V : Call → Env Tables PoolChip ChipOp.Ans} {e₀ : PoolChip}
    (hfit : cfg.Fits) (hauto : TcpAuto auto) (h : ToeHistory cfg V e₀ t e)
    (hfree : ∀ sn, cfg.IsSock sn → t.owner sn = toeSnFree → e.sr sn = .closed)
    (hl : IsListener cfg t fd) :
    (∀ o t' e', Performs (poolChip auto) (wiztoeAccept cfg fd) t e o t' e' →
      (∀ sn, o.command? = some sn → ¬(e'.sr sn).Live) ∧
      (∀ sn, o.sock? = some sn → t'.owner sn = fd) ∧
      ∀ sn, cfg.IsSock sn → t'.owner sn = toeSnFree → e'.sr sn = .closed) ∧
    (∀ r t' e' l, Returns (poolChip auto).traced (wiztoeAccept cfg fd) t (e, []) r t' (e', l) →
      (∀ sn, cfg.IsSock sn → t'.owner sn = toeSnFree → e'.sr sn = .closed) ∧
      ∀ sn sr, ⟨.getSnSR sn, sr⟩ ∈ l → sr.Connected → Outcome cfg t' fd sn r) := by
  have hw := WellOwned.history hfit h
  have hc : Clean cfg False t e :=
    ⟨hw, fun {sn} hs ↦ hfree sn hs.isSock hs.2.2, fun hf ↦ hf.elim,
      fun hi ↦ absurd (hw.of_valid hl.1).1 (by simp [hi])⟩
  have hkeeps := wiztoeAccept_keeps hfit (Clean.accepts hfit hauto.closed (Env.le_refl _) fd) hc
  have hturned := wiztoeAccept_turned hfit hauto hc hl
  refine ⟨fun o t' e' hp ↦ ?_, fun r t' e' l hrun ↦ ?_⟩
  · obtain ⟨l, hp'⟩ := hp.traced
    obtain ⟨hc', ha⟩ := hkeeps.performs hp
    refine ⟨hturned.performs hp', fun sn hsn ↦ ?_, fun sn hs ho ↦ hc'.free
      ⟨hs.1, hs.2, ho⟩⟩
    obtain ⟨x, rfl, -, -, hown⟩ := ha.owner hfit hc'.owned hsn
    exact hown
  · have hlog := hkeeps.traced (B := fun _ ↦ True) (l := []) fun _ _ ↦ trivial
    have hret := (hlog.returns hrun).1
    have hc' : Clean cfg False t' e' := (lt_or_ge r 0).elim hret.1 hret.2
    exact ⟨fun sn hs ho ↦ hc'.free ⟨hs.1, hs.2, ho⟩, hturned.returns hrun⟩

/-- The handshake as the peer drives it, and its `FIN`. -/
def peerMoves : SnSR → SnSR → Prop
  | .listen, .synrecv | .synrecv, .established | .established, .closeWait => True
  | _, _ => False

instance (x y : SnSR) : Decidable (peerMoves x y) := by
  unfold peerMoves
  split <;> infer_instance

theorem peerMoves_auto : TcpAuto peerMoves where
  listen {x} h := by cases x <;> exact h.elim
  synrecv {x} h := by
    cases x with
    | listen => rfl
    | _ => exact h.elim
  established {x} h := by
    cases x with
    | synrecv => rfl
    | _ => exact h.elim
  closeWait {x} h := by
    cases x with
    | established => rfl
    | _ => exact h.elim
  init x h := by cases x <;> exact h.elim
  closed x h := by cases x <;> exact h.elim

namespace PoolState

/-- A peer connects to hardware socket `sn`. -/
def connected (sn : ℤ) (s : PoolState) : PoolState := (s.status sn .synrecv).status sn .established

theorem Reached.connected {s : PoolState} (h : s.Reached peerMoves) (hs : s.2.sr sn = .listen) :
    (s.connected sn).Reached peerMoves := by
  refine Reached.status (h.status (hs ▸ trivial)) ?_
  simp [PoolState.status, peerMoves]

/-- A listener with a connection to accept. -/
def accepting : PoolState := listener.connected 0

theorem accepting_reached : accepting.Reached peerMoves := by
  have hstart : start.Reached peerMoves := .start
  have hsocket := hstart.after (.socket 2 1 0) (by simp) (by decide)
  have hbind := hsocket.after (.bind 0 80) (by simp) (by decide)
  have hlisten := hbind.after (.listen 0 1) (by simp) (by decide)
  exact hlisten.connected (by decide)

end PoolState

/-- A connection is handed out, and the listener claims hardware socket 1, which is at rest. -/
theorem accept_never_destroys_connected :
    ¬((runWith plainChip 22 ⟨wiztoeAccept w5500 0, PoolState.accepting.1,
        PoolState.accepting.2⟩).env.sr 1).Live ∧
      (runWith plainChip 22 ⟨wiztoeAccept w5500 0, PoolState.accepting.1,
        PoolState.accepting.2⟩).store.owner 1 = 0 := by
  have hsock : ∀ i : Fin 8, PoolState.accepting.1.owner (i.val : ℤ) = toeSnFree →
      PoolState.accepting.2.sr (i.val : ℤ) = .closed := by decide +kernel
  have hfree : ∀ sn, w5500.IsSock sn → PoolState.accepting.1.owner sn = toeSnFree →
      PoolState.accepting.2.sr sn = .closed := by
    rintro sn ⟨h₀, h₁⟩ ho
    have hlt : sn < 8 := h₁
    have hi := hsock ⟨sn.toNat, by omega⟩
    simp only [Int.toNat_of_nonneg h₀] at hi
    exact hi ho
  have hl : IsListener w5500 PoolState.accepting.1 0 := by
    unfold IsListener
    decide +kernel
  have hperf := performs_runWith (n := 22) (p := wiztoeAccept w5500 0) (s := PoolState.accepting.1)
    (e := PoolState.accepting.2) (o := .socket 1 .tcp 80 false)
    (Env.Follows.always (poolChip_plainChip peerMoves)) trivial (by decide +kernel)
  have hspares := (accept_never_destroys w5500_fits peerMoves_auto PoolState.accepting_reached hfree
    hl).1 _ _ _ hperf
  exact ⟨hspares.1 1 rfl, hspares.2.1 1 rfl⟩

/-! ## The connection nobody owns -/

namespace PoolState

/-- Two listeners, on hardware sockets 0 and 1. -/
def listeners : PoolState :=
  (((((start.after (.socket 2 1 0)).after (.socket 2 1 0)).after (.bind 0 80)).after
    (.bind 1 81)).after (.listen 0 1)).after (.listen 1 1)

/-- The first listener is closed after a deferral, and peers connect to both hardware sockets. -/
def orphan : PoolState :=
  (((((listeners.address 0).after (.listen 0 1)).after (.close 0)).address 1).connected
    0).connected 1

theorem listeners_reached : listeners.Reached peerMoves := by
  have hstart : start.Reached peerMoves := .start
  have hsocket₀ := hstart.after (.socket 2 1 0) (by simp) (by decide)
  have hsocket₁ := hsocket₀.after (.socket 2 1 0) (by simp) (by decide)
  have hbind₀ := hsocket₁.after (.bind 0 80) (by simp) (by decide)
  have hbind₁ := hbind₀.after (.bind 1 81) (by simp) (by decide)
  have hlisten₀ := hbind₁.after (.listen 0 1) (by simp) (by decide)
  exact hlisten₀.after (.listen 1 1) (by simp) (by decide)

theorem orphan_reached : orphan.Reached peerMoves := by
  have hagain := (listeners_reached.address 0).after (.listen 0 1) (by simp) (by decide +kernel)
  have hclose := hagain.after (.close 0) (by simp) (by decide +kernel)
  exact ((hclose.address 1).connected (by decide +kernel)).connected (by decide +kernel)

end PoolState

/-- The second listener hands its connection out and claims the hardware socket the first one left
behind: `socket` is called on it while it is connected. -/
theorem not_accept_never_destroys_orphan :
    ¬∀ t e fd, ToeHistory w5500 (fun _ ↦ poolChip peerMoves) PoolState.start.2 t e →
      IsListener w5500 t fd → ∀ o t' e', Performs (poolChip peerMoves)
      (wiztoeAccept w5500 fd) t e o t' e' →
        ∀ sn, o.command? = some sn → (t'.desc fd).sn = sn → ¬(e'.sr sn).Live := by
  intro h
  have hperf := performs_runWith (n := 22) (p := wiztoeAccept w5500 1) (s := PoolState.orphan.1)
    (e := PoolState.orphan.2) (o := .socket 0 .tcp 81 false)
    (Env.Follows.always (poolChip_plainChip peerMoves)) trivial (by decide +kernel)
  exact h _ _ 1 PoolState.orphan_reached (by unfold IsListener; decide +kernel) _ _ _ hperf 0 rfl
    (by decide +kernel) (by decide +kernel)

end WsmDriver
