import WsmDriver.Toe.Quiet

/-!
# The functions that open a hardware socket

`bind`, `listen`, `connect` and the late open of `sendto` open the hardware socket of their own
descriptor and record that they did. They need of the condition that it survives this pair of steps
(`Opens`), and `listen` also that it survives the deferral for lack of an address (`Defers`).
-/

namespace WsmDriver

open Effect

variable {cfg : ToeConfig} {E : Type} {V : Env Tables E ChipOp.Ans} {J I : Tables → E → Prop}
  {A : ℤ → Prop} {P : Desc → Desc → Prop} {R : ℕ → ℕ → Prop} {α : Type} {t : Tables}
  {e : E} {fd : ℤ}

theorem Stable.toeSn_eq (hK : Stable cfg V J) (hfit : cfg.Fits) (hJ : J t e)
    (hr : toeFdReady cfg t fd) : toeSn t fd = (t.desc fd).sn := by
  have h := hK.range hJ hr.1
  have h' := hfit.maxSock_le
  exact uint8_of_lt hr.2 (by omega)

/-! ## The `opened` flag -/

namespace Tables

theorem upd_self (t : Tables) (fd : ℤ) {f : Desc → Desc} (h : f (t.desc fd) = t.desc fd) :
    t.upd fd f = t := by
  rw [upd, h, Function.update_eq_self]

theorem setOpened_self {b : Bool} (h : (t.desc fd).opened = b) : t.setOpened fd b = t :=
  upd_self t fd (by rw [← h])

end Tables

/-- Only the `opened` flag of `fd` may have changed. -/
def SetsOpened (fd : ℤ) (t t' : Tables) : Prop := ∃ b, t' = t.setOpened fd b

theorem SetsOpened.refl (fd : ℤ) (t : Tables) : SetsOpened fd t t :=
  ⟨(t.desc fd).opened, (Tables.setOpened_self rfl).symm⟩

namespace SetsOpened

variable {t' : Tables}

theorem valid (h : SetsOpened fd t t') (hv : toeFdValid cfg t fd) : toeFdValid cfg t' fd := by
  obtain ⟨b, rfl⟩ := h
  simpa [toeFdValid, Tables.setOpened] using hv

theorem ready (h : SetsOpened fd t t') (hr : toeFdReady cfg t fd) : toeFdReady cfg t' fd := by
  obtain ⟨b, rfl⟩ := h
  simpa [toeFdReady, toeFdValid, Tables.setOpened] using hr

theorem listening (h : SetsOpened fd t t') : (t'.desc fd).listening = (t.desc fd).listening := by
  obtain ⟨b, rfl⟩ := h
  simp [Tables.setOpened]

theorem isUdp (h : SetsOpened fd t t') : (t'.desc fd).isUdp = (t.desc fd).isUdp := by
  obtain ⟨b, rfl⟩ := h
  simp [Tables.setOpened]

theorem toeSn_eq (h : SetsOpened fd t t') : toeSn t' fd = toeSn t fd := by
  obtain ⟨b, rfl⟩ := h
  simp [toeSn, Tables.setOpened]

end SetsOpened

/-! ## Opening -/

theorem toeOpenUdp_keeps (hK : Stable cfg V J) (hO : Opens cfg V J fd) (hA : A fd)
    (hr : toeFdReady cfg t fd) (hJ : J t e) :
    wlp V (Touch cfg J A) (toeOpenUdp fd) (fun _ ↦ J) t e := by
  unfold toeOpenUdp
  refine pre_get_bind.mpr ?_
  dsimp only
  refine hK.callSocket hO hA hr hJ (fun r _ e hne _ _ hJ ↦ ?_) fun e hJ ↦ ?_
  · rw [if_pos hne]
    exact hK.ret hJ fun _ h ↦ h
  · rw [if_neg (by simp)]
    exact pre_modify_bind.mpr (hK.ret hJ fun _ h ↦ h)

theorem wiztoeBind_keeps (hK : Retunes cfg V J P fd) (hO : Opens cfg V J fd) (port : UInt16)
    (hP : toeFdReady cfg t fd → P (t.desc fd) { t.desc fd with port := port }) (hJ : J t e) :
    wlp V (Touch cfg J (· = fd)) (wiztoeBind cfg fd port) (fun _ ↦ J) t e := by
  unfold wiztoeBind
  refine pre_get_bind.mpr ?_
  split
  · exact hK.ret hJ fun _ h ↦ h
  rename_i hr
  have hr := not_not.mp hr
  refine pre_modify_bind.mpr ?_
  have hJ' :=
    hK.tune (f := fun d ↦ { d with port := port }) hJ hr.1 ⟨rfl, rfl, rfl, rfl, rfl⟩ (hP hr)
  have hr' : toeFdReady cfg (t.upd fd fun d ↦ { d with port := port }) fd := by
    simpa [toeFdReady, toeFdValid] using hr
  split
  · refine pre.seq (toeOpenUdp_keeps hK.toStable hO (by rfl) hr' hJ') ?_
    intro r t e hJ
    exact hK.ret hJ fun _ h ↦ h
  · exact hK.ret hJ' fun _ h ↦ h

/-- An answer of `toe_chip_has_ip` was read from the register at a moment satisfying the
condition. -/
theorem toeChipHasIp_asks (hK : Stable cfg V J) (hJ : J t e) :
    pre V (Touch cfg J A) R toeChipHasIp (fun b t' e' ↦ Still J t b t' e' ∧
      (b = false → ∃ e₁ e₂, J t e₁ ∧ V.answer .getSIPR t e₁ 0 e₂ ∧ V.Drifts e₂ e'))
        t e := by
  intro e₁ he
  have hJ₁ := hK.drifts hJ he
  refine ⟨⟨hJ₁, .of_none rfl⟩, fun sipr e₂ hans e' he' ↦ ?_⟩
  refine ⟨⟨rfl, hK.drifts (hK.answer rfl hJ₁ hans) he'⟩, fun hb ↦ ?_⟩
  obtain rfl : sipr = 0 := by simpa using hb
  exact ⟨e₁, e₂, hJ₁, hans, he'⟩

/-- `toe_listener_reopen` changes no more than the `opened` flag, and its failures lead to `F`. -/
theorem toeListenerReopen_leads {F : Tables → E → Prop} (hK : Stable cfg V J)
    (hO : Opens cfg V J fd)
    (hunopened : ∀ {e port flag a e' e''}, J t e →
      V.answer (.socket (toeSn t fd) .tcp port flag) t e a e' →
      a ≠ toeSn t fd → V.Drifts e' e'' → F t e'')
    (hunlistened : ∀ {t' e a e' e''}, SetsOpened fd t t' → J t' e →
      V.answer (.listen (toeSn t' fd)) t' e a e' →
      a ≠ sockOk → V.Drifts e' e'' → F t' e'')
    (hD : (t.desc fd).opened = false ∨ Defers cfg V J fd) (hA : A fd) (hr : toeFdReady cfg t fd)
    (hJ : J t e) : pre V (Touch cfg J A) R (toeListenerReopen fd)
      (fun r t' e' ↦ SetsOpened fd t t' ∧ J t' e' ∧ (r < 0 → F t' e')) t e := by
  have hdone : ∀ {r : ℤ} {t' e}, 0 ≤ r → SetsOpened fd t t' → J t' e →
      pre V (Touch cfg J A) R (pure r)
        (fun r t' e' ↦ SetsOpened fd t t' ∧ J t' e' ∧ (r < 0 → F t' e')) t' e := by
    intro r t' e h₀ hset hJ
    exact hK.ret hJ fun _ h ↦ ⟨hset, h, fun hneg ↦ absurd hneg (by omega)⟩
  unfold toeListenerReopen
  refine pre_get_bind.mpr ?_
  dsimp only
  refine pre.seq (toeChipHasIp_asks hK hJ) ?_
  rintro hasIp _ e ⟨⟨rfl, hJ⟩, hask⟩
  split
  · -- No source address: the open is deferred.
    rename_i hip
    refine pre_modify_bind.mpr (hdone (by decide) ⟨false, rfl⟩ ?_)
    rcases hD with ho | hD
    · change J (t.setOpened fd false) e
      rwa [Tables.setOpened_self ho]
    · obtain ⟨e₁, e₂, hJ₁, hans, hd⟩ := hask hip
      exact hK.drifts (hD hJ₁ hr hans) hd
  refine pre_get_bind.mpr ?_
  refine hK.callSocket hO hA hr hJ (fun r _ e hne hJ₁ hans hJ ↦ ?_) fun e hJ ↦ ?_
  · rw [if_pos hne]
    exact fun e' he ↦ ⟨.refl fd t, hK.drifts hJ he, fun _ ↦ hunopened hJ₁ hans hne he⟩
  rw [if_neg (by simp)]
  refine pre_modify_bind.mpr ?_
  have hset : SetsOpened fd t (t.setOpened fd true) := ⟨true, rfl⟩
  rw [← hset.toeSn_eq]
  refine pre_perform_bind.mpr fun e₁ he ↦ ?_
  have hJ₁ := hK.drifts hJ he
  refine ⟨⟨hJ₁, .of_ready hA (hset.ready hr) rfl⟩, fun r e hans ↦ ?_⟩
  have hJ := hK.answer rfl hJ₁ hans
  split
  · rename_i hne
    exact fun e' he ↦ ⟨hset, hK.drifts hJ he, fun _ ↦ hunlistened hset hJ₁ hans hne he⟩
  · exact hdone le_rfl hset hJ

/-- What `toe_listener_reopen` leaves behind: the `opened` flag may have changed, and after a
failure the listener can give its hardware socket up. -/
def Reopened (cfg : ToeConfig) (J : Tables → E → Prop) (fd : ℤ) (t₀ : Tables) (r : ℤ)
    (t : Tables) (e : E) : Prop :=
  SetsOpened fd t₀ t ∧ J t e ∧ (r < 0 → J (toeListenerDisarm cfg fd t) e)

theorem toeListenerReopen_keeps (hK : Stable cfg V J) (hO : Opens cfg V J fd)
    (hL : Listens cfg V J fd) (hD : (t.desc fd).opened = false ∨ Defers cfg V J fd) (hA : A fd)
    (hr : toeFdReady cfg t fd) (hl : (t.desc fd).listening = true) (hJ : J t e) :
    pre V (Touch cfg J A) R (toeListenerReopen fd) (Reopened cfg J fd t) t e := by
  refine toeListenerReopen_leads hK hO ?_ ?_ hD hA hr hJ
  · intro e port flag a e' e'' hJ hans hne he
    exact hK.drifts (hL.unopened hJ hr hl hans hne) he
  · intro t' e a e' e'' hset hJ hans hne he
    exact hK.drifts (hL.unlistened hJ (hset.ready hr) (hset.listening.trans hl) hans hne) he

theorem wiztoeListen_keeps (hK : Stable cfg V J)
    (hM : ∀ {t e} (b : Bool), J t e → toeFdReady cfg t fd → (t.desc fd).isUdp = false →
      J (t.upd fd fun d ↦ { d with listening := b }) e)
    (hO : Opens cfg V J fd) (hD : Defers cfg V J fd) (backlog : ℤ) (hJ : J t e) :
    wlp V (Touch cfg J (· = fd)) (wiztoeListen cfg fd backlog) (fun _ ↦ J) t e := by
  unfold wiztoeListen
  refine pre_get_bind.mpr ?_
  split
  · exact hK.ret hJ fun _ h ↦ h
  rename_i hc
  have hr : toeFdReady cfg t fd := by tauto
  have htcp : (t.desc fd).isUdp = false := by
    cases h : (t.desc fd).isUdp
    · rfl
    · tauto
  refine pre_modify_bind.mpr ?_
  have hJ' := hM true hJ hr htcp
  have hr' : toeFdReady cfg (t.upd fd fun d ↦ { d with listening := true }) fd := by
    simpa [toeFdReady, toeFdValid] using hr
  refine pre.seq (toeListenerReopen_leads (F := fun _ _ ↦ True) hK hO (fun _ _ _ _ ↦ trivial)
    (fun _ _ _ _ _ ↦ trivial) (.inr hD) (by rfl) hr' hJ') ?_
  rintro r t' e ⟨hset, hJ, -⟩
  split
  · refine pre_modify_bind.mpr ?_
    have htcp' : (t'.desc fd).isUdp = false := by rw [hset.isUdp]; simpa using htcp
    exact hK.ret (hM false hJ (hset.ready hr') htcp') fun _ h ↦ h
  · exact hK.ret hJ fun _ h ↦ h

theorem toeConnectPort_keeps (hK : Retunes cfg V J P fd)
    (hP : (t.desc fd).port = 0 → ∀ port, P (t.desc fd) { t.desc fd with port := port })
    (hr : toeFdReady cfg t fd) (hJ : J t e) :
    wlp V (Touch cfg J A) (toeConnectPort fd)
      (fun _ t' e' ↦ toeFdReady cfg t' fd ∧ J t' e') t e := by
  unfold toeConnectPort
  refine pre_get_bind.mpr ?_
  split
  · exact hK.ret hJ fun _ h ↦ ⟨hr, h⟩
  rename_i hport
  have hport := not_not.mp hport
  refine hK.call rfl hJ (.of_none rfl) fun now e hJ ↦ ?_
  refine pre_modify_bind.mpr ?_
  refine hK.ret (hK.tune hJ hr.1 ⟨rfl, rfl, rfl, rfl, rfl⟩ (hP hport _)) fun _ h ↦ ⟨?_, h⟩
  simpa [toeFdReady, toeFdValid] using hr

theorem wiztoeConnect_keeps (hK : Retunes cfg V J P fd) (hL : LicensesRest P)
    (hP : (t.desc fd).port = 0 → ∀ port, P (t.desc fd) { t.desc fd with port := port })
    (hO : Opens cfg V J fd) (ip : Ip4) (port : UInt16) (hJ : J t e) :
    wlp V (Touch cfg J (· = fd)) (wiztoeConnect cfg fd ip port) (fun _ ↦ J) t e := by
  unfold wiztoeConnect
  refine pre_get_bind.mpr ?_
  split
  · exact hK.ret hJ fun _ h ↦ h
  rename_i hr
  have hr := not_not.mp hr
  split
  · refine pre_modify_bind.mpr ?_
    exact hK.ret (hK.tune hJ hr.1 ⟨rfl, rfl, rfl, rfl, rfl⟩ (hL _ _ rfl fun _ ↦ rfl))
      fun _ h ↦ h
  refine pre.seq (toeConnectPort_keeps hK hP hr hJ) ?_
  rintro lport t e ⟨hr, hJ⟩
  refine pre_get_bind.mpr ?_
  dsimp only
  refine hK.callSocket hO (by rfl) hr hJ (fun r _ e hne _ _ hJ ↦ ?_) fun e hJ ↦ ?_
  · rw [if_pos hne]
    exact hK.ret hJ fun _ h ↦ h
  rw [if_neg (by simp)]
  refine pre_modify_bind.mpr ?_
  have hset : SetsOpened fd t (t.setOpened fd true) := ⟨true, rfl⟩
  rw [← hset.toeSn_eq]
  refine hK.call rfl hJ (.of_ready (by rfl) (hset.ready hr) rfl) fun r e hJ ↦ ?_
  exact hK.ret hJ fun _ h ↦ h

theorem toeSendtoOpen_keeps (hK : Stable cfg V J) (hO : Opens cfg V J fd) (hA : A fd)
    (hr : toeFdReady cfg t fd) (hJ : J t e) :
    wlp V (Touch cfg J A) (toeSendtoOpen fd) (fun _ t' e' ↦ SetsOpened fd t t' ∧ J t' e') t e := by
  unfold toeSendtoOpen
  refine pre_get_bind.mpr ?_
  split
  · exact hK.ret hJ fun _ h ↦ ⟨.refl fd t, h⟩
  dsimp only
  refine hK.callSocket hO hA hr hJ (fun r _ e hne _ _ hJ ↦ ?_) fun e hJ ↦ ?_
  · rw [if_pos hne]
    exact hK.ret hJ fun _ h ↦ ⟨.refl fd t, h⟩
  · rw [if_neg (by simp)]
    exact pre_modify_bind.mpr (hK.ret hJ fun _ h ↦ ⟨⟨true, rfl⟩, h⟩)

theorem wiztoeSendto_keeps (hK : Stable cfg V J) (hO : Opens cfg V J fd) (buf : List UInt8)
    (ip : Ip4) (port : UInt16) (hJ : J t e) :
    wlp V (Touch cfg J (· = fd)) (wiztoeSendto cfg fd buf ip port) (fun _ ↦ J) t e := by
  unfold wiztoeSendto
  refine pre_get_bind.mpr ?_
  split
  · exact hK.ret hJ fun _ h ↦ h
  rename_i hc
  have hr : toeFdReady cfg t fd := by tauto
  dsimp only
  refine pre.seq (toeSendtoOpen_keeps hK hO (by rfl) hr hJ) ?_
  rintro isOpen t' e ⟨hset, hJ⟩
  split
  · exact hK.ret hJ fun _ h ↦ h
  rw [← hset.toeSn_eq]
  refine hK.call rfl hJ (.of_ready (by rfl) (hset.ready hr) rfl) fun n e hJ ↦ ?_
  exact hK.ret hJ fun _ h ↦ h

end WsmDriver
