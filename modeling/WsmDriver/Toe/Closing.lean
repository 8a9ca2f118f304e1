import WsmDriver.Effect.Termination
import WsmDriver.Toe.Others

/-!
# `close` completes

`wiztoe_close` asks the peer politely, waits for it no longer than it has said it would, and serves
the listeners that wait for a hardware socket. Nothing that the peer, the link or the chip do can
keep it from returning, as long as the chip takes the `DISCON` command and time goes on.

What it leaves behind is the tables without the descriptor, except that listeners without a hardware
socket may have taken one.
-/

namespace WsmDriver

open Effect Program

variable {cfg : ToeConfig} {E : Type} {V U : Env Tables E ChipOp.Ans} {R : ℕ → ℕ → Prop}
  {t t' t₁ : Tables} {e e' : E} {fd sn x : ℤ}

/-! ## Serving the waiting listeners -/

/-- The tables `t` with some of the listeners that waited in `t₁` re-armed. -/
structure Rearmed (cfg : ToeConfig) (t₁ t : Tables) : Prop where
  owned : WellOwned cfg t
  others : ∀ x, ¬Waiting t₁ x → t.desc x = t₁.desc x
  listener : ∀ x, Waiting t₁ x → t.desc x =
    { t₁.desc x with sn := (t.desc x).sn, opened := (t.desc x).opened }
  owner : ∀ sn, t.owner sn = t₁.owner sn ∨ t.owner sn = toeSnFree ∨ ∃ x, cfg.IsDesc x ∧
    Waiting t₁ x ∧ t.owner sn = x

namespace Rearmed

theorem refl (hw : WellOwned cfg t₁) : Rearmed cfg t₁ t₁ :=
  ⟨hw, fun _ _ ↦ rfl, fun _ _ ↦ rfl, fun _ ↦ .inl rfl⟩

/-- One of the listeners changes its hardware socket. -/
theorem step (h : Rearmed cfg t₁ t) (hd : cfg.IsDesc x) (hx : Waiting t₁ x) (hw : WellOwned cfg t')
    (hne : ∀ y, y ≠ x → t'.desc y = t.desc y)
    (hself : t'.desc x = { t.desc x with sn := (t'.desc x).sn, opened := (t'.desc x).opened })
    (ho : ∀ sn, t'.owner sn = t.owner sn ∨ t'.owner sn = toeSnFree ∨ t'.owner sn = x) :
      Rearmed cfg t₁ t' where
  owned := hw
  others y hy := by
    have hyx : y ≠ x := by
      rintro rfl
      exact hy hx
    rw [hne y hyx, h.others y hy]
  listener y hy := by
    by_cases hyx : y = x
    · subst hyx
      rw [hself, h.listener y hy]
    · rw [hne y hyx]
      exact h.listener y hy
  owner sn := by
    rcases ho sn with hsame | hfree | hmine
    · rw [hsame]
      exact h.owner sn
    · exact .inr (.inl hfree)
    · exact .inr (.inr ⟨x, hd, hx, hmine⟩)

theorem setOpened (h : Rearmed cfg t₁ t) (hx : Waiting t₁ x) (hr : toeFdReady cfg t x) (b : Bool) :
    Rearmed cfg t₁ (t.setOpened x b) := by
  refine h.step hr.1.isDesc hx (h.owned.move (.opened b hr)) (fun y hy ↦ Tables.upd_desc_ne _ _ hy)
    ?_ fun _ ↦ .inl rfl
  rw [Tables.setOpened, Tables.upd_desc_self]

theorem disarm (h : Rearmed cfg t₁ t) (hx : Waiting t₁ x) (hr : toeFdReady cfg t x)
    (hl : (t.desc x).listening = true) : Rearmed cfg t₁ (toeListenerDisarm cfg x t) := by
  refine h.step hr.1.isDesc hx (h.owned.move (.disarm hr hl))
    (fun y hy ↦ toeListenerDisarm_desc_ne hy) ?_ fun sn ↦ ?_
  · rw [toeListenerDisarm, if_pos hr.2, Tables.upd_desc_self, toeSnRelease_desc]
  · rw [toeListenerDisarm, if_pos hr.2, Tables.upd_owner, toeSnRelease]
    split
    · rw [Tables.setOwner_owner]
      split
      · exact .inr (.inl rfl)
      · exact .inl rfl
    · exact .inl rfl

theorem arm (h : Rearmed cfg t₁ t) (hx : Waiting t₁ x) (hv : toeFdValid cfg t x) (hw : Waiting t x)
    (hs : IsFree cfg t sn) : Rearmed cfg t₁ (t.arm x sn) := by
  have hmove : WellOwned cfg (t.arm x sn) := h.owned.move (.arm hv hw.2.1 hw.2.2 hs)
  refine h.step hv.isDesc hx hmove (fun y hy ↦ ?_) ?_ fun y ↦ ?_
  · rw [Tables.arm, Tables.upd_desc_ne _ _ hy, Tables.setOwner_desc]
  · rw [Tables.arm, Tables.upd_desc_self, Tables.setOwner_desc]
  · rw [Tables.arm, Tables.upd_owner, Tables.setOwner_owner]
    split
    · exact .inr (.inr rfl)
    · exact .inl rfl

theorem stable (V : Env Tables E ChipOp.Ans) (t₁ : Tables) : Stable cfg V fun t _ ↦
    Rearmed cfg t₁ t :=
  WellOwned.stable V fun _ h ↦ h.owned

/-- A descriptor that waits now has always been waiting. -/
theorem waiting (h : Rearmed cfg t₁ t) (hw : Waiting t x) : Waiting t₁ x := by
  by_contra hx
  rw [Waiting, h.others x hx] at hw
  exact hx hw

end Rearmed

theorem toeRearmPendingListener_serves (hfit : cfg.Fits) {i : ℕ} (hi : i < cfg.maxDesc)
    (h : Rearmed cfg t₁ t) :
    pre V (fun _ _ _ ↦ True) R (toeRearmPendingListener cfg i)
    (fun _ t' _ ↦ Rearmed cfg t₁ t') t e := by
  unfold toeRearmPendingListener
  refine pre_get_bind.mpr (pre_when (fun hw ↦ ?_) fun _ _ _ ↦ h)
  have hx := h.waiting hw
  have hl : IsListener cfg t i := Waiting.isListener hw (by omega) (by omega)
  have hO : Opens cfg V (fun t _ ↦ Rearmed cfg t₁ t) i :=
    ⟨fun h _ _ _ ↦ h, fun h hr _ ↦ h.setOpened hx hr true⟩
  have hL : Listens cfg V (fun t _ ↦ Rearmed cfg t₁ t) i :=
    ⟨fun h hr hl _ _ ↦ h.disarm hx hr hl, fun h hr hl _ _ ↦ h.disarm hx hr hl⟩
  have hA : Rearmable cfg (fun t (_ : E) ↦ Rearmed cfg t₁ t) i t e :=
    { listener := hl
      idle := (WellOwned.tablesInv cfg).idle h.owned hl.1
      held := fun _ ↦ h
      arm := fun sn _ hs ↦ h.arm hx hl.1 hw hs.free
      none := fun _ _ ↦ h }
  have hrearm := discard_toeListenerRearm_keeps (R := R) (A := fun _ ↦ True) hfit
    (Rearmed.stable V t₁) hO hL trivial hA
  exact (hrearm.guard fun _ _ _ _ ↦ trivial).imp fun _ _ _ h ↦ h.1

theorem toeRearmPendingListeners_serves (hfit : cfg.Fits) (h : Rearmed cfg t₁ t) :
    pre V (fun _ _ _ ↦ True) R (toeRearmPendingListeners cfg)
    (fun _ t' _ ↦ Rearmed cfg t₁ t') t e := by
  refine (pre_forM (fun l t _ ↦ Rearmed cfg t₁ t ∧ ∀ i ∈ l, i < cfg.maxDesc)
    (fun _ _ _ _ h ↦ h) ?_ _ ⟨h, fun _ ↦ List.mem_range.mp⟩).imp fun _ _ _ h ↦ h.1
  rintro i l t e ⟨h, hl⟩
  rw [List.forall_mem_cons] at hl
  exact (toeRearmPendingListener_serves hfit hl.1 h).imp fun _ _ _ h ↦ ⟨h, hl.2⟩

/-! ## What is left -/

/-- The tables after `close` on `fd`: the descriptor is gone, and of the others only listeners
without a hardware socket have changed. The hardware socket `fd` had is free, or one of these has
taken it. -/
structure ClosedAway (cfg : ToeConfig) (fd : ℤ) (t t' : Tables) : Prop where
  owned : WellOwned cfg t'
  unused : (t'.desc fd).used = false
  socket : 0 ≤ (t.desc fd).sn → IsFree cfg t' (t.desc fd).sn ∨
    ∃ x, x ≠ fd ∧ Waiting t x ∧ toeFdReady cfg t' x ∧ (t'.desc x).sn = (t.desc fd).sn
  others : ∀ x, x ≠ fd → ¬Waiting t x → t'.desc x = t.desc x
  listeners : ∀ x, x ≠ fd → Waiting t x →
    t'.desc x = { t.desc x with sn := (t'.desc x).sn, opened := (t'.desc x).opened }

theorem closed_used : ((t.closed cfg fd).desc fd).used = false := by
  rw [Tables.closed, toeDescClear, Tables.upd_desc_self]

theorem closed_not_waiting : ¬Waiting (t.closed cfg fd) fd :=
  fun hw ↦ absurd hw.1 (by simp [closed_used])

theorem Waiting.of_closed (h : Waiting (t.closed cfg fd) x) : x ≠ fd ∧ Waiting t x := by
  have hne : x ≠ fd := by
    rintro rfl
    exact closed_not_waiting h
  rw [Waiting, closed_desc_ne hne] at h
  exact ⟨hne, h⟩

theorem Rearmed.closedAway (hw : WellOwned cfg t) (hv : toeFdValid cfg t fd)
    (h : Rearmed cfg (t.closed cfg fd) t') : ClosedAway cfg fd t t' where
  owned := h.owned
  unused := by rw [h.others fd closed_not_waiting, closed_used]
  socket hn := by
    have hlt := (WellOwned.tablesInv cfg).range hw hv
    have hfree : (t.closed cfg fd).owner (t.desc fd).sn = toeSnFree := by
      rw [Tables.closed, if_pos hn, toeSnRelease_of_mem hn hlt]
      simp [toeDescClear]
    have hmem : cfg.IsSock (t.desc fd).sn := ⟨hn, hlt⟩
    -- It is free after the release, and a listener that waits may take it at once.
    rcases h.owner (t.desc fd).sn with hsame | hnow | ⟨x, hd, hx, hown⟩
    · exact .inl ⟨hn, hlt, hsame.trans hfree⟩
    · exact .inl ⟨hn, hlt, hnow⟩
    · have hne := hx.of_closed
      have hused : (t'.desc x).used = true := by
        rw [h.listener x hx]
        exact hx.1
      have hv' : toeFdValid cfg t' x := ⟨hd.1, hd.2, hused⟩
      have hholds := ((h.owned.of_valid hv').2.owner_iff hd hmem).mp hown
      exact .inr ⟨x, hne.1, hne.2, ⟨hv', hholds.2 ▸ hn⟩, hholds.2⟩
  others x hx hnot := by
    have hnot' : ¬Waiting (t.closed cfg fd) x := fun hwait ↦ hnot hwait.of_closed.2
    rw [h.others x hnot', closed_desc_ne hx]
  listeners x hx hwait := by
    have hwait' : Waiting (t.closed cfg fd) x := by rwa [Waiting, closed_desc_ne hx]
    have hx' := h.listener x hwait'
    rwa [closed_desc_ne hx] at hx'

/-- What `close` does once it has let go of the hardware socket. -/
theorem toeClose_rest (hfit : cfg.Fits) (hw : WellOwned cfg t) (hv : toeFdValid cfg t fd)
    (hclear : toeDescClear fd t' = t.closed cfg fd) :
    pre V (fun _ _ _ ↦ True) R (do
      modify (toeDescClear fd)
      toeRearmPendingListeners cfg
      return (0 : ℤ)) (fun r t' _ ↦ r = 0 ∧ ClosedAway cfg fd t t') t' e := by
  refine pre_modify_bind.mpr ?_
  rw [hclear]
  refine pre.seq (toeRearmPendingListeners_serves hfit (.refl (hw.move (.close hv))))
    fun _ t' e h ↦ ?_
  exact fun _ _ ↦ ⟨rfl, h.closedAway hw hv⟩

/-- The tables while `close` lets go of the hardware socket of `fd`. -/
theorem toeCloseSocket_releases (hfit : cfg.Fits) (hw : WellOwned cfg t)
    (hr : toeFdReady cfg t fd) :
    wlp V (fun _ _ _ ↦ True) (toeCloseSocket cfg fd)
    (fun _ t' _ ↦ t' = toeSnRelease cfg (t.desc fd).sn t) t e := by
  have hstable : Stable cfg V fun t' _ ↦ t' = t := WellOwned.stable V fun _ heq ↦ heq ▸ hw
  have htrue : Stable cfg V fun t' _ ↦ WellOwned cfg t' := (WellOwned.tablesInv cfg).stable
  have hfrees : Frees cfg V (fun t' _ ↦ t' = t) (fun t' _ ↦ WellOwned cfg t') t fd :=
    ⟨fun _ hv _ ↦ hw.move (.close hv), fun _ hr _ ↦ hw.move (.close hr.1)⟩
  have hkeeps :=
    toeCloseSocket_keeps (A := fun _ ↦ True) (e := e) hfit hstable htrue hfrees trivial hr rfl
  exact (hkeeps.guard fun _ _ _ _ ↦ trivial).imp fun _ _ _ h ↦ h.1

theorem wiztoeClose_away (hfit : cfg.Fits) (hw : WellOwned cfg t) (hv : toeFdValid cfg t fd) :
    wlp V (fun _ _ _ ↦ True) (wiztoeClose cfg fd) (fun r t' _ ↦ r = 0 ∧ ClosedAway cfg fd t t')
      t e := by
  unfold wiztoeClose
  refine pre_get_bind.mpr ?_
  rw [if_neg (not_not.mpr hv)]
  refine pre_when_bind (fun hn ↦ ?_) fun hn ↦ ?_
  · refine pre.seq (toeCloseSocket_releases hfit hw ⟨hv, hn⟩) ?_
    rintro _ _ e rfl
    exact toeClose_rest hfit hw hv (by rw [Tables.closed, if_pos hn])
  · exact toeClose_rest hfit hw hv (by rw [Tables.closed, if_neg hn])

/-! ## Nothing keeps it from returning -/

/-- Time as the driver sees it: `toe_time_us` reads the clock, which goes on by a microsecond at
least and a second at most with each yield. -/
structure Clocked (V : Env Tables E ChipOp.Ans) (clock : E → UInt32) : Prop where
  drift : ∀ {e e'}, V.drift e e' → clock e' = clock e
  read : ∀ {t e now e'}, V.answer .toeTimeUs t e now e' → now = clock e
  yield : ∀ {t e a e'}, V.answer .toeYield1ms t e a e' → ∃ d : UInt32, 1 ≤ d ∧
    d ≤ 1000000 ∧ clock e' = clock e + d
  other : ∀ {o t e a e'}, o ≠ .toeYield1ms → V.answer o t e a e' → clock e' = clock e

/-- The chip takes the command of the hardware socket `sn`: it cannot be found busy for ever. -/
def LatchClears (V : Env Tables E ChipOp.Ans) (sn : ℤ) : Prop :=
  WellFounded fun e' e ↦ ∃ t cr, cr ≠ 0 ∧ V.bundled.answer (.getSnCr sn) t e cr e'

variable {clock : E → UInt32}

theorem Clocked.bundled (h : Clocked V clock) : Clocked V.bundled clock := by
  have hdrifts : ∀ {e e'}, V.Drifts e e' → clock e' = clock e := fun {e _} hd ↦
    hd.induct (P := fun e' ↦ clock e' = clock e) (fun _ _ hd he ↦ (h.drift hd).trans he) rfl
  refine ⟨False.elim, ?_, ?_, ?_⟩
  · rintro t e now e' ⟨e₁, hd, ha⟩
    rw [h.read ha, hdrifts hd]
  · rintro t e a e' ⟨e₁, hd, ha⟩
    obtain ⟨d, hd₁, hd₂, heq⟩ := h.yield ha
    exact ⟨d, hd₁, hd₂, by rw [heq, hdrifts hd]⟩
  · rintro o t e a e' ho ⟨e₁, hd, ha⟩
    rw [h.other ho ha, hdrifts hd]

/-- The microseconds left of the wait. -/
def remaining (started now : UInt32) : ℕ :=
  (wiztoeDisconnectTimeoutMs * 1000).toNat - (now - started).toNat

theorem remaining_lt {started now d : UInt32}
    (hlt : ¬wiztoeDisconnectTimeoutMs * 1000 ≤ now - started) (hd : 1 ≤ d)
    (hd' : d ≤ 1000000) : remaining started (now + d) < remaining started now := by
  have hlimit : (wiztoeDisconnectTimeoutMs * 1000).toNat = 250000 := by decide
  have hdiff : now + d - started = (now - started) + d := by
    rw [UInt32.sub_eq_add_neg, UInt32.sub_eq_add_neg, UInt32.add_assoc, UInt32.add_comm d,
      ← UInt32.add_assoc]
  rw [UInt32.le_iff_toNat_le, hlimit] at hlt
  rw [UInt32.le_iff_toNat_le] at hd hd'
  have hone : (1 : UInt32).toNat = 1 := rfl
  have hsecond : (1000000 : UInt32).toNat = 1000000 := rfl
  rw [remaining, remaining, hlimit, hdiff, UInt32.toNat_add]
  omega

section Clock

variable {α : Type} {Q : α → Tables → E → Prop} (hclk : Clocked U clock)

include hclk

theorem Clocked.drifts (hd : U.Drifts e e') : clock e' = clock e :=
  hd.induct (P := fun e' ↦ clock e' = clock e) (fun _ _ hd he ↦ (hclk.drift hd).trans he) rfl

/-- Whatever is asked but a yield, the clock stands still. -/
theorem Clocked.call {o : ChipOp} {k : o.Ans → Toe α} (ho : o ≠ .toeYield1ms)
    (hk : ∀ a e', clock e' = clock e → pre U (fun _ _ _ ↦ True) R (k a) Q t e') :
    pre U (fun _ _ _ ↦ True) R (chip o >>= k) Q t e :=
  pre_perform_bind.mpr fun _ hd ↦
    ⟨trivial, fun a _ ha ↦ hk a _ ((hclk.other ho ha).trans (hclk.drifts hd))⟩

/-- A turn of the wait that is followed by another one leaves less of it. -/
theorem toeDisconnectTurn_turns (started : UInt32) :
    wp U (fun _ _ _ ↦ True) (toeDisconnectTurn sn started)
      (fun b _ e' ↦ b = none → remaining started (clock e') < remaining started (clock e))
        t e := by
  have hstop : ∀ e₁, pre U (fun _ _ _ ↦ True) (· < ·) (pure (some ()) : Toe (Option Unit))
      (fun b _ e' ↦ b = none → remaining started (clock e') < remaining started (clock e))
        t e₁ :=
    fun _ _ _ h ↦ nomatch h
  unfold toeDisconnectTurn toeLinkIsUp
  refine hclk.call (by simp) fun sr e₁ he₁ ↦ pre_ite (fun _ ↦ hstop _) fun _ ↦ ?_
  refine hclk.call (by simp) fun timeout e₂ he₂ ↦ pre_ite (fun _ ↦ hstop _) fun _ ↦ ?_
  refine pre_perform_bind.mpr fun e₃ hd ↦
    ⟨trivial, fun now e₄ ha ↦ pre_ite (fun _ ↦ hstop _) fun hlt ↦ ?_⟩
  have he₄ : clock e₄ = clock e := by
    rw [hclk.other (by simp) ha, hclk.drifts hd, he₂, he₁]
  have hnow : now = clock e := by rw [hclk.read ha, hclk.drifts hd, he₂, he₁]
  rw [hnow] at hlt
  refine pre.seq (M := fun _ t' e' ↦ t' = t ∧ clock e' = clock e) ?_ ?_
  · refine hclk.call (by simp) fun link e₅ he₅ e₆ hd ↦ ⟨rfl, ?_⟩
    rw [hclk.drifts hd, he₅, he₄]
  · -- Only the turn that yields goes on, and while it does the clock moves.
    rintro up _ e₅ ⟨rfl, he₅⟩
    refine pre_ite (fun _ ↦ hstop _) fun _ ↦ ?_
    refine pre_perform_bind.mpr fun e₆ hd ↦ ⟨trivial, fun a e₇ ha ↦ fun e₈ hd' _ ↦ ?_⟩
    obtain ⟨d, hd₁, hd₂, he₇⟩ := hclk.yield ha
    rw [hclk.drifts hd', he₇, hclk.drifts hd, he₅]
    exact remaining_lt hlt hd₁ hd₂

/-- The wait is bounded by the time it has. -/
theorem toeDisconnectWait_halts (hU : ∀ e e', ¬U.drift e e') (started : UInt32) :
    Halts U (forever (toeDisconnectTurn sn started)) t e := by
  refine halts_forever hU (I := fun _ _ ↦ True) (G := fun _ _ _ ↦ True)
    (r := InvImage (· < ·) fun x : Tables × E ↦ remaining started (clock x.2))
      (InvImage.wf _ Nat.lt_wfRel.wf) ?_ trivial
  exact fun t e _ ↦ (toeDisconnectTurn_turns hclk started).imp fun b _ _ h hb ↦ ⟨trivial, h hb⟩

end Clock

theorem toeCommandLatch_halts (hlatch : LatchClears V sn) :
    Halts V.bundled (toeCommandLatch sn) t e := by
  refine halts_forever V.bundled_drift (I := fun _ _ ↦ True) (G := fun _ _ _ ↦ True)
    (InvImage.wf (fun x : Tables × E ↦ x.2) hlatch) (fun t e _ ↦ ?_) trivial
  refine pre_perform_bind.mpr fun e₁ hd ↦
    ⟨trivial, fun cr e₂ ha e₃ hd' hb ↦ ⟨trivial, t, cr, ?_, ?_⟩⟩
  · rintro rfl
    exact absurd hb (by simp)
  · obtain rfl := Env.bundled_drifts hd
    obtain rfl := Env.bundled_drifts hd'
    exact ha

/-- **The polite part of `close` is finite.** -/
theorem toeTcpDisconnectBounded_halts (hclk : Clocked V clock)
    (hlatch : LatchClears V (toeSn t fd)) : Halts V.bundled (toeTcpDisconnectBounded fd) t e := by
  have hV := V.bundled_drift
  unfold toeTcpDisconnectBounded toeLinkIsUp
  refine .get_bind hV (.perform_bind hV fun sr e₁ _ ↦ ?_)
  split
  · exact .done hV _ _ _
  refine .seq (.perform_bind hV fun link e₂ _ ↦ .done hV _ _ _) fun up t' e₃ hr ↦ ?_
  split
  · exact .done hV _ _ _
  refine .perform_bind hV fun _ e₄ _ ↦ .seq (toeCommandLatch_halts hlatch) fun _ t' e₅ _ ↦ ?_
  exact .perform_bind hV fun started e₆ _ ↦ toeDisconnectWait_halts hclk.bundled hV started

theorem toeCloseSocket_halts (hclk : Clocked V clock) (hlatch : LatchClears V (toeSn t fd)) :
    Halts V.bundled (toeCloseSocket cfg fd) t e := by
  have hV := V.bundled_drift
  have hrest : ∀ t' e', Halts V.bundled (do
      let t' ← get
      .when ((t'.desc fd).opened = true) (chip (.close (toeSn t fd)))
      modify (toeSnRelease cfg (toeSn t fd))) t' e' := by
    intro t' e'
    refine wp_halts (G := fun _ _ _ ↦ True) (Q := fun _ _ _ ↦ True) (.of_none hV)
      (pre_get_bind.mpr ?_)
    refine pre_when_bind (fun _ ↦ ?_) fun _ ↦ pre_modify.mpr fun _ _ ↦ trivial
    exact pre_perform_bind.mpr fun _ _ ↦
      ⟨trivial, fun _ _ _ ↦ pre_modify.mpr fun _ _ ↦ trivial⟩
  unfold toeCloseSocket
  refine .get_bind hV (.seq ?_ fun _ _ _ _ ↦ hrest _ _)
  unfold Program.when
  split
  · exact toeTcpDisconnectBounded_halts hclk hlatch
  · exact .done hV _ _ _

theorem wiztoeClose_halts (hfit : cfg.Fits) (hclk : Clocked V clock)
    (hlatch : LatchClears V (toeSn t fd)) (hw : WellOwned cfg t) (hv : toeFdValid cfg t fd) :
    Halts V.bundled (wiztoeClose cfg fd) t e := by
  have hV := V.bundled_drift
  have hrest : ∀ t' e', toeDescClear fd t' = t.closed cfg fd → Halts V.bundled (do
      modify (toeDescClear fd)
      toeRearmPendingListeners cfg
      return (0 : ℤ)) t' e' := fun _ _ hclear ↦
        wp_halts (.of_none hV) (toeClose_rest hfit hw hv hclear)
  unfold wiztoeClose
  refine .get_bind hV ?_
  rw [if_neg (not_not.mpr hv)]
  by_cases hn : 0 ≤ (t.desc fd).sn
  · rw [Program.when, if_pos hn]
    refine .seq (toeCloseSocket_halts hclk hlatch) fun _ t' e' hr ↦ hrest t' e' ?_
    obtain rfl := (toeCloseSocket_releases hfit hw ⟨hv, hn⟩).returns hr
    rw [Tables.closed, if_pos hn]
  · rw [Program.when, if_neg hn]
    exact hrest t e (by rw [Tables.closed, if_neg hn])

/-! ## A connection whose peer never answers -/

/-- A chip that stays connected, whatever it is told, while a yield takes a millisecond. -/
def deafChip : (o : ChipOp) → UInt32 → o.Ans × UInt32
  | .toeTimeUs, now => (now, now)
  | .toeYield1ms, now => ((), now + 1000)
  | o, now => ((placidChip .established o ()).1, now)

theorem deafChip_clocked : Clocked (Env.script deafChip) id where
  drift hd := hd.elim
  read ha := ha.1
  yield ha := ⟨1000, by decide, by decide, ha.2⟩
  other {o t e a e'} ho ha := by
    obtain ⟨-, rfl⟩ := ha
    cases o with
    | toeYield1ms => exact absurd rfl ho
    | _ => rfl

theorem deafChip_latch (sn : ℤ) : LatchClears (Env.script deafChip) sn := by
  refine ⟨fun e ↦ Acc.intro e ?_⟩
  rintro e' ⟨t, cr, hne, e₁, -, rfl, -⟩
  exact absurd rfl hne

/-- A TCP socket connected to port 80 of 192.168.0.5. -/
def connectedSocket : Tables :=
  afterCall w5500 .closed (.connect 0 #v[192, 168, 0, 5] 80)
    (afterCall w5500 .closed (.socket 2 1 0) .zero)

theorem connectedSocket_owned : WellOwned w5500 connectedSocket := by
  have hsocket : ToeHistory w5500 (fun _ ↦ Env.any (E := Unit)) ()
      (afterCall w5500 .closed (.socket 2 1 0) .zero) () :=
    ToeHistory.afterCall .start (fun _ heq ↦ by cases heq) (fun _ _ _ ↦ trivial)
      (by decide)
  have hconnect : ToeHistory w5500 (fun _ ↦ Env.any (E := Unit)) () connectedSocket () :=
    hsocket.afterCall (fun _ heq ↦ by cases heq) (fun _ _ _ ↦ trivial) (by decide)
  exact WellOwned.history w5500_fits hconnect

/-! ## Closing -/

/-- **`close` completes.** While the clock goes on and the chip takes the command, `close` on a live
descriptor is a finite execution, whatever the peer, the link and the chip do. It returns 0, the
descriptor is unused, and its hardware socket is free, or taken by a listener that had none; nothing
but such listeners has changed. -/
theorem close_completes (hfit : cfg.Fits) (hclk : Clocked V clock)
    (hlatch : LatchClears V (toeSn t fd)) (hw : WellOwned cfg t) (hv : toeFdValid cfg t fd) :
    Halts V.bundled (wiztoeClose cfg fd) t e ∧
      (V.Responsive → ∃ r t' e', Returns V (wiztoeClose cfg fd) t e r t' e') ∧
      ∀ r t' e', Returns V (wiztoeClose cfg fd) t e r t' e' → r = 0 ∧
      ClosedAway cfg fd t t' := by
  have hhalts : Halts V.bundled (wiztoeClose cfg fd) t e := wiztoeClose_halts hfit hclk hlatch hw hv
  exact ⟨hhalts, fun hV ↦ hhalts.returns hV, fun r t' e' hr ↦
    (wiztoeClose_away hfit hw hv).returns hr⟩

/-- The clock wraps during the wait. -/
theorem close_completes_deaf :
    Halts (Env.bundled (.script deafChip)) (wiztoeClose w5500 0) connectedSocket 0xFFFFFF00 ∧
      ((Env.script deafChip : Env Tables UInt32 ChipOp.Ans).Responsive → ∃ r t' e',
        Returns (.script deafChip) (wiztoeClose w5500 0) connectedSocket 0xFFFFFF00 r t' e') ∧
      ∀ r t' e', Returns (.script deafChip)
      (wiztoeClose w5500 0) connectedSocket 0xFFFFFF00 r t' e' →
        r = 0 ∧ ClosedAway w5500 0 connectedSocket t' :=
  close_completes w5500_fits deafChip_clocked (deafChip_latch _) connectedSocket_owned
    (by decide)

end WsmDriver
