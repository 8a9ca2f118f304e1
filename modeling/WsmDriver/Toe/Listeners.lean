import WsmDriver.Toe.Opening

/-!
# Listeners

A listener takes a hardware socket, gives it up, hands it to a connection and takes the next one.
The narrow `int8_t` fields are read back exactly because the configuration fits them, which is the
one place where its size matters.
-/

namespace WsmDriver

open Effect

variable {cfg : ToeConfig} {E : Type} {V : Env Tables E ChipOp.Ans} {J K L : Tables → E → Prop}
  {A : ℤ → Prop} {R : ℕ → ℕ → Prop} {α : Type} {t : Tables} {e : E} {fd c sn : ℤ}

/-- A live descriptor that was made a listener. -/
def IsListener (cfg : ToeConfig) (t : Tables) (fd : ℤ) : Prop :=
  toeFdValid cfg t fd ∧ (t.desc fd).listening = true

namespace IsListener

theorem setsOpened {t' : Tables} (hl : IsListener cfg t fd) (h : SetsOpened fd t t') :
    IsListener cfg t' fd :=
  ⟨h.valid hl.1, h.listening.trans hl.2⟩

theorem arm (hl : IsListener cfg t fd) : IsListener cfg (t.arm fd sn) fd := by
  simpa [IsListener, toeFdValid, Tables.arm] using hl

theorem disarm (hl : IsListener cfg t fd) : IsListener cfg (toeListenerDisarm cfg fd t) fd := by
  rw [toeListenerDisarm]
  split <;> simpa [IsListener, toeFdValid] using hl

theorem handover (hl : IsListener cfg t fd) (hc : IsUnused cfg t c) :
    IsListener cfg (t.handover fd c) fd := by
  have hne : fd ≠ c := by
    rintro rfl
    exact absurd hc.2.2 (by simp [hl.1.2.2])
  simpa [IsListener, toeFdValid, Tables.handover, Tables.upd_desc_ne _ _ hne] using hl

end IsListener

theorem Waiting.isListener (h : Waiting t fd) (h₀ : 0 ≤ fd) (h₁ : fd < cfg.maxDesc) :
    IsListener cfg t fd := ⟨⟨h₀, h₁, h.1⟩, h.2.1⟩

/-! ## Re-arming -/

/-- From here the listener `fd` can be re-armed: it holds a hardware socket already, or it gets a
free one, or there is none. -/
structure Rearmable (cfg : ToeConfig) (J : Tables → E → Prop) (fd : ℤ) (t : Tables) (e : E) :
    Prop where
  listener : IsListener cfg t fd
  idle : (t.desc fd).sn < 0 → (t.desc fd).opened = false
  held : 0 ≤ (t.desc fd).sn → J t e
  arm : ∀ sn, (t.desc fd).sn < 0 → IsNextFree cfg t sn → J (t.arm fd sn) e
  none : (t.desc fd).sn < 0 → (∀ sn, ¬IsFree cfg t sn) → J t e

/-- The number is passed to ioLibrary in a `uint8_t`, which is wide enough. -/
theorem toeSn_arm (hfit : cfg.Fits) (hs : IsFree cfg t sn) : toeSn (t.arm fd sn) fd = sn := by
  obtain ⟨hs₀, hs₁, -⟩ := hs
  have hsock := hfit.maxSock_le
  simpa [toeSn, Tables.arm] using uint8_of_lt hs₀ (by omega)

/-- What `toe_listener_rearm` does: nothing where the listener holds a hardware socket, and where
none is free; else it takes the next free one, opens it, and gives it up again if that fails. -/
theorem pre_toeListenerRearm {G : ChipOp → Tables → E → Prop} {Q : ℤ → Tables → E → Prop}
    (hfit : cfg.Fits) (hd : ∀ sn, IsFree cfg t sn → 0 ≤ fd ∧ fd < cfg.maxDesc)
    (hheld : 0 ≤ (t.desc fd).sn → pre V G R (pure 0) Q t e)
    (harm : ∀ sn, (t.desc fd).sn < 0 → IsNextFree cfg t sn → pre V G R (do
      let r ← toeListenerReopen fd
      if r < 0 then
        modify (toeListenerDisarm cfg fd)
        return -1
      return 0) Q (t.arm fd sn) e)
    (hnone : (t.desc fd).sn < 0 → (∀ sn, ¬IsFree cfg t sn) → pre V G R (pure (-1)) Q t e) :
    pre V G R (toeListenerRearm cfg fd) Q t e := by
  unfold toeListenerRearm
  refine pre_get_bind.mpr (pre_ite hheld fun hn ↦ pre_modifyGet_bind.mpr ?_)
  have hn : (t.desc fd).sn < 0 := not_le.mp hn
  rcases toeSnAlloc_next cfg fd t with ⟨sn, hs, heq⟩ | ⟨heq, hfull⟩
  · obtain ⟨hs₀, hs₁, -⟩ := hs.free
    obtain ⟨hfd₀, hfd₁⟩ := hd sn hs.free
    have hsock := hfit.maxSock_le
    have hdesc := hfit.maxDesc_le
    rw [heq]
    dsimp only
    -- Both fields are wide enough, so the tables are the ones of the move.
    rw [if_neg (by omega), int8_of_lt hfd₀ (by omega)]
    refine pre_modify_bind.mpr ?_
    rw [int8_of_lt hs₀ (by omega)]
    exact harm sn hn hs
  · rw [heq]
    dsimp only
    rw [if_pos (by omega)]
    exact hnone hn hfull

theorem toeListenerRearm_keeps (hfit : cfg.Fits) (hK : Stable cfg V J) (hO : Opens cfg V J fd)
    (hL : Listens cfg V J fd) (hA : A fd) (h : Rearmable cfg J fd t e) :
    pre V (Touch cfg J A) R (toeListenerRearm cfg fd)
      (fun _ t' e' ↦ J t' e' ∧ IsListener cfg t' fd) t e := by
  have hl := h.listener
  refine pre_toeListenerRearm hfit (fun _ _ ↦ ⟨hl.1.1, hl.1.2.1⟩) (fun hn ↦ ?_)
    (fun sn hn hs ↦ ?_) fun hn hnone ↦ ?_
  · exact hK.ret (h.held hn) fun _ h ↦ ⟨h, hl⟩
  · have hr : toeFdReady cfg (t.arm fd sn) fd := ⟨hl.arm.1, by simpa [Tables.arm] using hs.free.1⟩
    have ho : ((t.arm fd sn).desc fd).opened = false := by simpa [Tables.arm] using h.idle hn
    refine pre.seq (toeListenerReopen_keeps hK hO hL (.inl ho) hA hr hl.arm.2 (h.arm sn hn hs)) ?_
    rintro r t' e ⟨hset, hJ, hJ'⟩
    refine pre_ite (fun hneg ↦ pre_modify_bind.mpr ?_) fun _ ↦ ?_
    · exact hK.ret (hJ' hneg) fun _ h ↦ ⟨h, (hl.arm.setsOpened hset).disarm⟩
    · exact hK.ret hJ fun _ h ↦ ⟨h, hl.arm.setsOpened hset⟩
  · exact hK.ret (h.none hn hnone) fun _ h ↦ ⟨h, hl⟩

/-- The source never looks at the result of a re-arm. -/
theorem discard_toeListenerRearm_keeps (hfit : cfg.Fits) (hK : Stable cfg V J)
    (hO : Opens cfg V J fd) (hL : Listens cfg V J fd) (hA : A fd) (h : Rearmable cfg J fd t e) :
    pre V (Touch cfg J A) R (discard <| toeListenerRearm cfg fd)
      (fun _ t' e' ↦ J t' e' ∧ IsListener cfg t' fd) t e :=
  pre_discard <| (toeListenerRearm_keeps hfit hK hO hL hA h).imp
    fun _ _ _ h _ he ↦ ⟨hK.drifts h.1 he, h.2⟩

/-! ## Accepting

`J` holds while the listener is polled and `K` from where a connection is handed out. `L` is what
holds at every operation. -/

/-- Handing the hardware socket over leads to a state from which the listener can be re-armed. -/
theorem HandsOver.rearmable (hH : HandsOver cfg J K fd) (hJ : J t e) (hr : toeFdReady cfg t fd)
    (hl : (t.desc fd).listening = true) (hc : IsUnused cfg t c) :
    Rearmable cfg K fd (t.handover fd c) e where
  listener := IsListener.handover ⟨hr.1, hl⟩ hc
  idle _ := by simp [Tables.handover]
  held h := by simp [Tables.handover] at h
  arm sn _ hs := hH.armed hJ hr hl hc hs
  none _ hnone := hH.unarmed hJ hr hl hc hnone

/-- What the analysis of `accept` needs of the three conditions. -/
structure Accepts (cfg : ToeConfig) (V : Env Tables E ChipOp.Ans) (J K L : Tables → E → Prop)
    (fd : ℤ) : Prop where
  stable : Stable cfg V J
  arm : ∀ {t e sn}, J t e → IsListener cfg t fd → (t.desc fd).sn < 0 → IsNextFree cfg t sn →
    J (t.arm fd sn) e
  opens : Opens cfg V J fd
  listens : Listens cfg V J fd
  defers : Defers cfg V J fd
  handsOver : HandsOver cfg J K fd
  stable' : Stable cfg V K
  opens' : Opens cfg V K fd
  listens' : Listens cfg V K fd
  le : ∀ {t e}, J t e → L t e
  le' : ∀ {t e}, K t e → L t e

/-- One condition for all three. -/
theorem Accepts.of_keeps (hK : Keeps cfg V J) (hO : Opens cfg V J fd) (hL : Listens cfg V J fd)
    (hD : Defers cfg V J fd) (hH : HandsOver cfg J J fd) : Accepts cfg V J J J fd where
  stable := hK.toStable
  arm hJ hl hn hs := hK.move rfl hJ (.arm hl.1 hl.2 hn hs.free)
  opens := hO
  listens := hL
  defers := hD
  handsOver := hH
  stable' := hK.toStable
  opens' := hO
  listens' := hL
  le := id
  le' := id

/-- The listener can be re-armed where it stands. -/
theorem Accepts.rearmable (hK : Accepts cfg V J K L fd) (hl : IsListener cfg t fd) (hJ : J t e) :
    Rearmable cfg J fd t e where
  listener := hl
  idle := hK.stable.idle hJ hl.1
  held _ := hJ
  arm _ hn hs := hK.arm hJ hl hn hs
  none _ _ := hJ

/-- How `accept` comes back with a completed handshake: with a descriptor, or because there is
none. -/
def Accepted (cfg : ToeConfig) (J K : Tables → E → Prop) (fd r : ℤ) (t : Tables) (e : E) :
    Prop :=
  (0 ≤ r ∧ K t e) ∨
    (r = wiztoeErrWouldblock ∧ J t e ∧ toeFdReady cfg t fd ∧ ∀ c, ¬IsUnused cfg t c)

/-- The tables after `toe_accept_established` found the descriptor `c`: the hardware socket is
handed over, and what is left to do is to re-arm the listener. -/
theorem toeAcceptEstablished_handover {G : ChipOp → Tables → E → Prop} {R : ℕ → ℕ → Prop}
    {Q : ℤ → Tables → E → Prop} (hfit : cfg.Fits) (hsn : (t.desc fd).sn < cfg.maxSock)
    (hr : toeFdReady cfg t fd) (hc : IsUnused cfg t c)
    (heq : toeDescAlloc cfg t = (c, t.upd c fun _ ↦ { used := true, sn := -1 })) :
    pre V G R (toeAcceptEstablished cfg fd) Q t e ↔
      pre V G R (do discard <| toeListenerRearm cfg fd; return c) Q (t.handover fd c) e := by
  have hsock := hfit.maxSock_le
  have hdesc := hfit.maxDesc_le
  have hc₀ := hc.1
  have hc₁ := hc.2.1
  have hne : fd ≠ c := by
    rintro rfl
    exact absurd hc.2.2 (by simp [hr.1.2.2])
  have hsn' : toeSn t fd = (t.desc fd).sn := uint8_of_lt hr.2 (by omega)
  unfold toeAcceptEstablished
  rw [pre_get_bind, pre_modifyGet_bind, heq]
  dsimp only
  rw [if_neg (by omega), pre_modify_bind, pre_modify_bind, pre_modify_bind,
    int8_of_lt hc₀ (by omega), hsn', int8_of_lt hr.2 (by omega)]
  refine Iff.of_eq (congrArg (fun t ↦ pre V G R _ Q t e) ?_)
  simp [Tables.handover, Tables.upd_desc_ne _ _ hne]

/-- With every descriptor in use, `toe_accept_established` leaves all as it is. -/
theorem toeAcceptEstablished_full {G : ChipOp → Tables → E → Prop} {R : ℕ → ℕ → Prop}
    {Q : ℤ → Tables → E → Prop} (heq : toeDescAlloc cfg t = (-1, t)) :
    pre V G R (toeAcceptEstablished cfg fd) Q t e ↔ pre V G R (pure wiztoeErrWouldblock) Q t e := by
  unfold toeAcceptEstablished
  rw [pre_get_bind, pre_modifyGet_bind, heq]
  dsimp only
  rw [if_pos (by omega)]

theorem toeAcceptEstablished_keeps (hfit : cfg.Fits) (hK : Accepts cfg V J K L fd) (hA : A fd)
    (hr : toeFdReady cfg t fd) (hl : (t.desc fd).listening = true) (hJ : J t e) :
    pre V (Touch cfg L A) R (toeAcceptEstablished cfg fd) (Accepted cfg J K fd) t e := by
  have hS := hK.stable
  rcases toeDescAlloc_cases cfg t with ⟨c, hc, heq⟩ | ⟨heq, hnone⟩
  · refine (toeAcceptEstablished_handover hfit (hS.range hJ hr.1) hr hc heq).mpr ?_
    refine pre.seq ((discard_toeListenerRearm_keeps hfit hK.stable' hK.opens' hK.listens' hA
      (hK.handsOver.rearmable hJ hr hl hc)).guard fun _ _ _ h ↦ ⟨hK.le' h.1, h.2⟩) ?_
    exact fun _ t e h ↦ hK.stable'.ret h.1 fun _ h ↦ .inl ⟨hc.1, h⟩
  · exact (toeAcceptEstablished_full heq).mpr (hS.ret hJ fun _ h ↦ .inr ⟨rfl, h, hr, hnone⟩)

/-- What holds after each half of a turn: a turn that goes on still has its listener, and the others
have seen a completed handshake. -/
def Listening (cfg : ToeConfig) (J K : Tables → E → Prop) (fd : ℤ) (r : Option ℤ) (t : Tables)
    (e : E) : Prop :=
  match r with
  | none => J t e ∧ IsListener cfg t fd
  | some r => Accepted cfg J K fd r t e

theorem Accepts.drifts (hK : Accepts cfg V J K L fd) {r : Option ℤ} {e' : E}
    (h : Listening cfg J K fd r t e) (he : V.Drifts e e') : Listening cfg J K fd r t e' := by
  cases r with
  | none => exact ⟨hK.stable.drifts h.1 he, h.2⟩
  | some r =>
    rcases h with ⟨h₀, hk⟩ | ⟨hr, hJ, hfull⟩
    · exact .inl ⟨h₀, hK.stable'.drifts hk he⟩
    · exact .inr ⟨hr, hK.stable.drifts hJ he, hfull⟩

/-- What a turn of `accept` does with the status it has read. A connection is handed out, a socket
that is listening is left alone, one that `listen` did not take on is asked again, and any other is
opened anew. -/
theorem pre_toeAcceptStatus {G : ChipOp → Tables → E → Prop} {R : ℕ → ℕ → Prop}
    {Q : Option ℤ → Tables → E → Prop} {sr : SnSR}
    (hest : sr = .established ∨ sr = .closeWait → pre V G R (do
      let r ← toeAcceptEstablished cfg fd
      return some r) Q t e)
    (hlisten : sr = .listen ∨ sr = .synrecv → pre V G R (pure none) Q t e)
    (hinit : sr = .init → pre V G R (do
      let r ← chip (.listen (toeSn t fd))
      .when (r ≠ sockOk) (modify (toeListenerDisarm cfg fd))
      return none) Q t e)
    (hreopen : (sr ≠ .established ∧ sr ≠ .closeWait) ∧ sr ≠ .listen ∧ sr ≠ .synrecv →
      pre V G R (do
      let r ← toeListenerReopen fd
      .when (r < 0) (modify (toeListenerDisarm cfg fd))
      return none) Q t e) :
    pre V G R (toeAcceptStatus cfg fd sr) Q t e := by
  cases sr with
  | established => exact hest (.inl rfl)
  | closeWait => exact hest (.inr rfl)
  | listen => exact hlisten (.inl rfl)
  | synrecv => exact hlisten (.inr rfl)
  | init => exact pre_get_bind.mpr (hinit rfl)
  | _ => exact hreopen (by simp)

theorem toeAcceptStatus_keeps (hfit : cfg.Fits) (hK : Accepts cfg V J K L fd) (hA : A fd)
    (hr : toeFdReady cfg t fd) (hl : (t.desc fd).listening = true) (sr : SnSR) (hJ : J t e) :
    pre V (Touch cfg L A) R (toeAcceptStatus cfg fd sr) (Listening cfg J K fd) t e := by
  have hS := hK.stable
  have hlis : IsListener cfg t fd := ⟨hr.1, hl⟩
  -- A turn that goes on with the listener it has.
  have hgo : ∀ {t e}, J t e → IsListener cfg t fd →
      pre V (Touch cfg L A) R (pure none : Toe (Option ℤ)) (Listening cfg J K fd) t e :=
    fun hJ hlis ↦ hS.ret hJ fun _ h ↦ ⟨h, hlis⟩
  refine pre_toeAcceptStatus (fun _ ↦ ?_) (fun _ ↦ hgo hJ hlis) (fun _ ↦ ?_) fun _ ↦ ?_
  · refine pre.seq (toeAcceptEstablished_keeps hfit hK hA hr hl hJ) ?_
    exact fun r t e h _ he ↦ hK.drifts (r := some r) h he
  · -- Only the `LISTEN` command did not take, and only that is retried.
    refine pre_perform_bind.mpr fun e₁ he ↦ ?_
    have hJ₁ := hS.drifts hJ he
    refine ⟨⟨hK.le hJ₁, .of_ready hA hr rfl⟩, fun r e hans ↦ ?_⟩
    refine pre_when_bind (fun hne ↦ pre_modify_bind.mpr ?_) fun _ ↦ ?_
    · exact hgo (hK.listens.unlistened hJ₁ hr hl hans hne) hlis.disarm
    · exact hgo (hS.answer rfl hJ₁ hans) hlis
  · refine pre.seq
      ((toeListenerReopen_keeps hS hK.opens hK.listens (.inr hK.defers) hA hr hl hJ).guard
      fun _ _ _ h ↦ ⟨hK.le h.1, h.2⟩) ?_
    rintro r t e ⟨hset, hJ, hJ'⟩
    refine pre_when_bind (fun hneg ↦ pre_modify_bind.mpr ?_) fun _ ↦ ?_
    · exact hgo (hJ' hneg) (hlis.setsOpened hset).disarm
    · exact hgo hJ (hlis.setsOpened hset)

theorem toeAcceptPoll_keeps (hfit : cfg.Fits) (hK : Accepts cfg V J K L fd) (hA : A fd)
    (hl : IsListener cfg t fd) (hJ : J t e) :
    pre V (Touch cfg L A) R (toeAcceptPoll cfg fd) (Listening cfg J K fd) t e := by
  have hS := hK.stable
  unfold toeAcceptPoll
  refine pre_get_bind.mpr ?_
  split
  · refine pre.seq ((discard_toeListenerRearm_keeps hfit hS hK.opens hK.listens hA
      (hK.rearmable hl hJ)).guard fun _ _ _ h ↦ ⟨hK.le h.1, h.2⟩) ?_
    exact fun _ t e h ↦ hS.ret h.1 fun _ h' ↦ ⟨h', h.2⟩
  · rename_i hn
    have hr : toeFdReady cfg t fd := ⟨hl.1, by omega⟩
    refine pre_perform_bind.mpr fun e₁ he ↦ ?_
    have hJ₁ := hS.drifts hJ he
    refine ⟨⟨hK.le hJ₁, .of_ready hA hr rfl⟩, fun sr e hans ↦ ?_⟩
    exact toeAcceptStatus_keeps hfit hK hA hr hl.2 sr (hS.answer rfl hJ₁ hans)

theorem wiztoeAccept_keeps (hfit : cfg.Fits) (hK : Accepts cfg V J K L fd) (hJ : J t e) :
    wlp V (Touch cfg L (· = fd)) (wiztoeAccept cfg fd)
      (fun r t e ↦ (r < 0 → J t e) ∧ (0 ≤ r → K t e)) t e := by
  have hS := hK.stable
  have hguard : ∀ {o t e}, Touch cfg J (· = fd) o t e → Touch cfg L (· = fd) o t e :=
    fun h ↦ ⟨hK.le h.1, h.2⟩
  unfold wiztoeAccept
  refine pre_get_bind.mpr ?_
  split
  · exact hS.ret hJ fun _ h ↦ ⟨fun _ ↦ h, fun h ↦ absurd h (by decide)⟩
  rename_i hc
  have hl : IsListener cfg t fd := by
    simp only [not_or, not_not, Bool.not_eq_false] at hc
    exact hc
  refine pre_perform_bind.mpr fun e₁ he ↦ ?_
  have hJ₁ := hS.drifts hJ he
  refine ⟨⟨hK.le hJ₁, .of_none rfl⟩, fun started e hans ↦ ?_⟩
  refine wlp_forever (fun t e ↦ J t e ∧ IsListener cfg t fd) ⟨hS.answer rfl hJ₁ hans, hl⟩ ?_
  rintro t e ⟨hJ, hl⟩
  unfold toeAcceptTurn
  refine pre.seq (toeAcceptPoll_keeps hfit hK (by rfl) hl hJ) ?_
  rintro (_ | r) t e h
  · refine ((toeWaitTurn_waits hS started _ _ h.1).guard fun _ _ _ ↦ hguard).imp ?_
    rintro (_ | r) _ e ⟨⟨rfl, hJ⟩, hr⟩
    · exact ⟨hJ, h.2⟩
    · -- What ends a wait is negative.
      refine fun e' he ↦ ⟨fun _ ↦ hS.drifts hJ he, fun h₀ ↦ ?_⟩
      rcases hr r rfl with rfl | rfl
      · exact absurd h₀ (by decide)
      · exact absurd h₀ (by decide)
  · intro e₁ he₁ e₂ he₂
    rcases hK.drifts (r := some r) h (he₁.trans he₂) with ⟨h₀, hk⟩ | ⟨rfl, hJ, -⟩
    · exact ⟨fun hneg ↦ absurd h₀ (by omega), fun _ ↦ hk⟩
    · exact ⟨fun _ ↦ hJ, fun h₀ ↦ absurd h₀ (by decide)⟩

end WsmDriver
