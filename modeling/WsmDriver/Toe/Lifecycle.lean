import WsmDriver.Toe.Listeners

/-!
# Creating and closing

The calls that create descriptors and reservations, the ones that end them, and the loop that serves
waiting listeners afterwards. With these every call of the interface is analysed, and `Maintains`
collects what an arbitrary condition has to satisfy to be kept by it.
-/

namespace WsmDriver

open Effect

variable {cfg : ToeConfig} {E : Type} {V : Env Tables E ChipOp.Ans} {J I : Tables → E → Prop}
  {P : List ℕ → Tables → E → Prop} {A : ℤ → Prop} {R : ℕ → ℕ → Prop} {α : Type}
  {t : Tables} {e : E} {fd c sn : ℤ}

/-! ## Creating -/

theorem wiztoeNetworkInit_keeps (hK : Stable cfg V J) (ip mask gw : Ip4) (mac : Mac)
    (hJ : J (toeTablesInit cfg t) e) :
    wlp V (Touch cfg J A) (wiztoeNetworkInit cfg ip mask gw mac) (fun _ ↦ J) t e := by
  unfold wiztoeNetworkInit
  refine pre_modify_bind.mpr ?_
  have hset : ∀ e, J (toeTablesInit cfg t) e → wlp V (Touch cfg J A)
      (chip (.setNetinfo { mac := mac, ip := ip, sn := mask, gw := gw, dhcp := false }))
      (fun _ ↦ J) (toeTablesInit cfg t) e := by
    intro e hJ
    exact hK.call_last rfl hJ (.of_none rfl) fun _ _ h ↦ h
  refine pre_when_bind (fun _ ↦ ?_) fun _ ↦ hset e hJ
  exact hK.call rfl hJ (.of_none rfl) fun _ e hJ ↦ hset e hJ

/-- Why `wiztoe_socket` fails: the type is neither of the two, or no descriptor is unused, or one is
and no hardware socket is free. -/
def SocketFails (cfg : ToeConfig) (type : ℤ) (t : Tables) : Prop :=
  (type ≠ 1 ∧ type ≠ 2) ∨ (∀ fd, ¬IsUnused cfg t fd) ∨
    ((∃ fd, IsUnused cfg t fd) ∧ ∀ sn, ¬IsFree cfg t sn)

theorem wiztoeSocket_keeps (hfit : cfg.Fits) (hK : Untuned cfg V J) (domain type protocol : ℤ)
    (hJ : J t e) :
    wlp V (Touch cfg J A) (wiztoeSocket cfg domain type protocol)
      (fun r t' e' ↦ J t' e' ∧ (r < 0 → SocketFails cfg type (toeTablesInit cfg t)) ∧
        (0 ≤ r → Unopened cfg t' r)) t e := by
  have hsock := hfit.maxSock_le
  have hdesc := hfit.maxDesc_le
  unfold wiztoeSocket
  refine pre_modify_bind.mpr ?_
  have hJ := hK.move rfl (by decide) hJ (.init t)
  have hi := toeTablesInit_tablesInit cfg t
  generalize toeTablesInit cfg t = t at hJ hi
  split
  · rename_i htype
    exact hK.ret hJ fun _ h ↦ ⟨h, fun _ ↦ .inl htype, fun h ↦ absurd h (by decide)⟩
  refine pre_modifyGet_bind.mpr ?_
  rcases toeDescAlloc_cases cfg t with ⟨c, hc, heq⟩ | ⟨heq, hnone⟩
  · obtain ⟨hc₀, hc₁, -⟩ := id hc
    rw [heq]
    dsimp only
    rw [if_neg (by omega)]
    refine pre_modifyGet_bind.mpr ?_
    rcases toeSnAlloc_cases cfg c (t.upd c fun _ ↦ { used := true, sn := -1 }) with
      ⟨sn, hs, heq⟩ | ⟨heq, hnone⟩
    · obtain ⟨hs₀, hs₁, -⟩ := id hs
      rw [heq]
      dsimp only
      rw [if_neg (by omega), int8_of_lt hc₀ (by omega), int8_of_lt hs₀ (by omega)]
      refine pre_modify_bind.mpr (hK.ret ?_ fun _ h ↦ ⟨h, fun hneg ↦ absurd hc₀ (by omega),
        fun _ ↦ ?_⟩)
      rotate_left
      · exact ⟨⟨⟨hc₀, hc₁, by simp⟩, by simpa using hs₀⟩, by simp⟩
      have hs' : IsFree cfg t sn := by simpa [IsFree] using hs
      rw [Tables.setOwner_upd, Tables.upd_upd]
      exact hK.move rfl (by decide) hJ (.socket (decide (type = 2)) hi hc hs')
    · rw [heq]
      dsimp only
      rw [if_pos (by omega)]
      refine pre_modify_bind.mpr
        (hK.ret ?_ fun _ h ↦ ⟨h, fun _ ↦ .inr (.inr ⟨⟨c, hc⟩, ?_⟩),
        fun h ↦ absurd h (by decide)⟩)
      rotate_left
      · simpa [IsFree] using hnone
      rw [toeDescClear, Tables.upd_upd]
      exact hK.move rfl (by decide) hJ (.scrub hi hc)
  · rw [heq]
    dsimp only
    rw [if_pos (by omega)]
    exact hK.ret hJ fun _ h ↦ ⟨h, fun _ ↦ .inr (.inl hnone), fun h ↦ absurd h (by decide)⟩

theorem wiztoeSocketReserve_keeps (hK : Stable cfg V J)
    (hR : ∀ {t e sn}, t.tablesInit = true → IsFree cfg t sn → J t e →
      J (t.setOwner sn toeSnRaw) e) (hJ : J (toeTablesInit cfg t) e) :
    wlp V (Touch cfg J A) (wiztoeSocketReserve cfg) (fun _ ↦ J) t e := by
  unfold wiztoeSocketReserve
  refine pre_modify_bind.mpr ?_
  have hi := toeTablesInit_tablesInit cfg t
  generalize toeTablesInit cfg t = t at hJ hi
  rw [← bind_pure (modifyGet (toeSnReserve cfg))]
  refine pre_modifyGet_bind.mpr ?_
  rcases toeSnReserve_cases cfg t with ⟨sn, hs, heq⟩ | ⟨heq, -⟩
  · rw [heq]
    exact hK.ret (hR hi hs hJ) fun _ h ↦ h
  · rw [heq]
    exact hK.ret hJ fun _ h ↦ h

/-! ## Serving the waiting listeners -/

theorem Serves.rearmable (hS : Serves cfg V P) {fd : ℕ} {l : List ℕ} (hfd : fd ∉ l)
    (hlt : fd < cfg.maxDesc) (hP : P (fd :: l) t e) (hw : Waiting t fd) :
    Rearmable cfg (P l) fd t e where
  listener := hw.isListener (by omega) (by omega)
  idle hn := (hS.stable _).idle hP (hw.isListener (by omega) (by omega)).1 hn
  held h := absurd h (by have := hw.2.2; omega)
  arm _ _ hs := hS.arm hfd hP (hw.isListener (by omega) (by omega)).1 hw hs
  none _ hnone := hS.none hP hw hnone

theorem toeRearmPendingListener_keeps (hfit : cfg.Fits) (hS : Serves cfg V P) {fd : ℕ}
    {l : List ℕ} (hA : Waiting t fd → A fd) (hfd : fd ∉ l) (hlt : fd < cfg.maxDesc)
    (hP : P (fd :: l) t e) :
    pre V (Touch cfg (P l) A) R (toeRearmPendingListener cfg fd) (fun _ ↦ P l) t e := by
  unfold toeRearmPendingListener
  refine pre_get_bind.mpr (pre_when (fun hw ↦ ?_) fun hw e' he ↦ ?_)
  · refine (discard_toeListenerRearm_keeps hfit (hS.stable l) (hS.opens hfd) (hS.listens hfd hP hw)
      (hA hw) (hS.rearmable hfd hlt hP hw)).imp ?_
    exact fun _ _ _ h ↦ h.1
  · exact (hS.stable l).drifts (hS.skip hP hw) he

/-- The loop over the descriptors, by induction on those still to be visited. -/
theorem toeRearmPendingListeners_keeps (hfit : cfg.Fits) (hS : Serves cfg V P)
    (hA : ∀ {fd : ℕ} {l t e}, P (fd :: l) t e → Waiting t fd → A fd)
    (hP : P (List.range cfg.maxDesc) t e) :
    pre V (Touch cfg (fun t e ↦ ∃ l, P l t e) A) R (toeRearmPendingListeners cfg)
    (fun _ ↦ P []) t e := by
  refine pre.imp (pre_forM (fun l t e ↦ P l t e ∧ l.Nodup ∧ ∀ i ∈ l, i < cfg.maxDesc) ?_ ?_ _
    ⟨hP, List.nodup_range, fun _ ↦ List.mem_range.mp⟩) fun _ t e h ↦ h.1
  · rintro t e e' he ⟨hP, hl⟩
    exact ⟨(hS.stable _).drifts hP he, hl⟩
  · rintro fd l t e ⟨hP, hnd, hlt⟩
    rw [List.nodup_cons] at hnd
    rw [List.forall_mem_cons] at hlt
    refine ((toeRearmPendingListener_keeps hfit hS (hA hP) hnd.1 hlt.1 hP).guard ?_).imp ?_
    · exact fun o t e h ↦ ⟨⟨l, h.1⟩, h.2⟩
    · exact fun _ t e h ↦ ⟨h, hnd.2, hlt.2⟩

/-! ## Closing -/

theorem toeCloseSocket_keeps (hfit : cfg.Fits) (hK : Stable cfg V J) (hI : Stable cfg V I)
    (hF : Frees cfg V J I t fd) (hA : A fd) (hr : toeFdReady cfg t fd) (hJ : J t e) :
    wlp V (Touch cfg J A) (toeCloseSocket cfg fd)
      (fun _ t' e' ↦ t' = toeSnRelease cfg (t.desc fd).sn t ∧ I (t.closed cfg fd) e') t e := by
  have hsn := hK.toeSn_eq hfit hJ hr
  have hclose : ∀ e, J t e → wlp V (Touch cfg J A) (do
      let t' ← get
      .when ((t'.desc fd).opened = true) (chip (.close (toeSn t fd)))
      modify (toeSnRelease cfg (toeSn t fd)))
      (fun _ t' e' ↦ t' = toeSnRelease cfg (t.desc fd).sn t ∧ I (t.closed cfg fd) e') t e := by
    intro e hJ
    refine pre_get_bind.mpr (pre_when_bind (fun _ ↦ ?_) fun ho ↦ ?_)
    · refine pre_perform_bind.mpr fun e₁ he ↦ ?_
      have hJ₁ := hK.drifts hJ he
      refine ⟨⟨hJ₁, .of_ready hA hr rfl⟩,
        fun _ e₂ hans ↦ pre_modify.mpr fun e' he' ↦ ?_⟩
      exact ⟨by rw [hsn], hI.drifts (hF.closed hJ₁ hr hans) he'⟩
    · refine pre_modify.mpr fun e' he' ↦ ⟨by rw [hsn], ?_⟩
      exact hI.drifts (hF.idle hJ hr.1 (by simpa using ho)) he'
  unfold toeCloseSocket
  refine pre_get_bind.mpr ?_
  dsimp only
  refine pre_when_bind (fun _ ↦ ?_) fun _ ↦ hclose e hJ
  refine pre.seq (toeTcpDisconnectBounded_still hK hA hr hJ) ?_
  rintro _ _ e ⟨rfl, hJ⟩
  exact hclose e hJ

/-- Closing a live descriptor lets go of its hardware socket and serves the waiting listeners. -/
theorem wiztoeClose_serves {G : ChipOp → Tables → E → Prop} (hfit : cfg.Fits)
    (hK : Stable cfg V J) (hS : Serves cfg V P)
    (hF : Frees cfg V J (P (List.range cfg.maxDesc)) t fd)
    (hA : ∀ {fd : ℕ} {l t e}, P (fd :: l) t e → Waiting t fd → A fd)
    (hG : ∀ {o t e}, Touch cfg J (· = fd) o t e → G o t e)
    (hG' : ∀ {o t e}, Touch cfg (fun t e ↦ ∃ l, P l t e) A o t e → G o t e)
    (hv : toeFdValid cfg t fd) (hJ : J t e) :
    wlp V G (wiztoeClose cfg fd) (fun _ ↦ P []) t e := by
  have hserve : ∀ t' e, toeDescClear fd t' = t.closed cfg fd →
      P (List.range cfg.maxDesc) (t.closed cfg fd) e → wlp V G (do
        modify (toeDescClear fd)
        toeRearmPendingListeners cfg
        return 0) (fun (_ : ℤ) ↦ P []) t' e := by
    intro t' e heq hP
    refine pre_modify_bind.mpr ?_
    rw [heq]
    refine pre.seq ((toeRearmPendingListeners_keeps hfit hS hA hP).guard fun _ _ _ ↦ hG') ?_
    exact fun _ t e hP ↦ (hS.stable []).ret hP fun _ h ↦ h
  unfold wiztoeClose
  refine pre_get_bind.mpr ?_
  rw [if_neg (not_not.mpr hv)]
  refine pre_when_bind (fun hn ↦ ?_) fun hn ↦ ?_
  · refine pre.seq ((toeCloseSocket_keeps hfit hK (hS.stable _) hF (by rfl) ⟨hv, hn⟩ hJ).guard
      fun _ _ _ ↦ hG) ?_
    rintro _ _ e ⟨rfl, hP⟩
    exact hserve _ e (by rw [Tables.closed, if_pos hn]) hP
  · refine hserve _ e (by rw [Tables.closed, if_neg hn]) ?_
    exact hF.idle hJ hv (hK.idle hJ hv (by omega))

theorem wiztoeClose_invalid {G : ChipOp → Tables → E → Prop} (hK : Stable cfg V J)
    (hv : ¬toeFdValid cfg t fd) (hJ : J t e) : wlp V G (wiztoeClose cfg fd) (fun _ ↦ J) t e := by
  unfold wiztoeClose
  refine pre_get_bind.mpr ?_
  rw [if_pos hv]
  exact hK.ret hJ fun _ h ↦ h

/-- Releasing a reservation serves the waiting listeners. -/
theorem wiztoeSocketRelease_serves {G : ChipOp → Tables → E → Prop} (hfit : cfg.Fits)
    (hK : Stable cfg V J) (hS : Serves cfg V P)
    (hR : ∀ {e a e'}, J t e → V.answer (.close (uint8 sn)) t e a e' →
      P (List.range cfg.maxDesc) (toeSnRelease cfg sn t) e')
    (hA : ∀ {fd : ℕ} {l t e}, P (fd :: l) t e → Waiting t fd → A fd)
    (hG : ∀ {e}, J t e → G (.close (uint8 sn)) t e)
    (hG' : ∀ {o t e}, Touch cfg (fun t e ↦ ∃ l, P l t e) A o t e → G o t e)
    (hsn : 0 ≤ sn ∧ sn < cfg.maxSock) (hJ : J t e) :
    pre V G R (wiztoeSocketRelease cfg sn) (fun _ ↦ P []) t e := by
  unfold wiztoeSocketRelease
  refine pre_when (fun _ ↦ ?_) fun hsn' ↦ absurd hsn hsn'
  refine pre_perform_bind.mpr fun e₁ he ↦ ?_
  have hJ₁ := hK.drifts hJ he
  refine ⟨hG hJ₁, fun _ e₂ hans ↦ pre_modify_bind.mpr ?_⟩
  exact (toeRearmPendingListeners_keeps hfit hS hA (hR hJ₁ hans)).guard fun _ _ _ ↦ hG'

theorem wiztoeSocketRelease_invalid {G : ChipOp → Tables → E → Prop} (hK : Stable cfg V J)
    (hsn : ¬(0 ≤ sn ∧ sn < cfg.maxSock)) (hJ : J t e) :
    pre V G R (wiztoeSocketRelease cfg sn) (fun _ ↦ J) t e := by
  unfold wiztoeSocketRelease
  exact pre_when (fun h ↦ absurd h hsn) fun _ _ he ↦ hK.drifts hJ he

end WsmDriver
