import WsmDriver.Toe.Moves

/-!
# The functions that leave the pool alone

Waiting, sending, receiving, the graceful shutdown and the option calls read and write chip
registers and fields of their own descriptor. None of them opens a hardware socket, and none of them
changes who holds what.
-/

namespace WsmDriver

open Effect

variable {cfg : ToeConfig} {E : Type} {V : Env Tables E ChipOp.Ans} {J : Tables → E → Prop}
  {A : ℤ → Prop} {P : Desc → Desc → Prop} {R : ℕ → ℕ → Prop} {α : Type} {t : Tables}
  {e : E} {fd : ℤ}

/-- The tables are as they were, and the condition holds. -/
def Still (J : Tables → E → Prop) (t₀ : Tables) : α → Tables → E → Prop :=
  fun _ t e ↦ t₀ = t ∧ J t e

theorem Stable.still (h : Stable cfg V J) {G : ChipOp → Tables → E → Prop} (a : α)
    (hJ : J t e) : pre V G R (pure a) (Still J t) t e :=
  h.ret hJ fun _ hJ' ↦ ⟨rfl, hJ'⟩

/-- A polling loop whose body leaves the tables alone leaves them alone. -/
theorem Stable.poll (hK : Stable cfg V J) {β : Type} {body : Toe (Option β)}
    {G : ChipOp → Tables → E → Prop} (hbody : ∀ e, J t e → wlp V G body (Still J t) t e)
    (hJ : J t e) :
    wlp V G (.forever body) (Still J t) t e := by
  refine wlp_forever (fun t' e' ↦ t = t' ∧ J t' e') ⟨rfl, hJ⟩ ?_
  rintro _ e ⟨rfl, hJ⟩
  refine (hbody e hJ).imp ?_
  rintro (_ | b) _ e ⟨rfl, hJ⟩
  · exact ⟨rfl, hJ⟩
  · exact fun e' he ↦ ⟨rfl, hK.drifts hJ he⟩

/-! ## Waiting -/

theorem toeDeadlinePassed_still (hK : Stable cfg V J) (started timeoutMs : UInt32)
    (hJ : J t e) : pre V (Touch cfg J A) R (toeDeadlinePassed started timeoutMs) (Still J t)
      t e := by
  unfold toeDeadlinePassed
  split
  · exact hK.still _ hJ
  · refine hK.call rfl hJ (.of_none rfl) fun now e hJ ↦ ?_
    exact hK.still _ hJ

theorem toeWaitTurn_waits (hK : Stable cfg V J) (started : UInt32) (timeoutMs : Desc → UInt32)
    (expired : ℤ) (hJ : J t e) :
    pre V (Touch cfg J A) R (toeWaitTurn fd started timeoutMs expired) (fun r t' e' ↦
      Still J t r t' e' ∧ ∀ x, r = some x → x = wiztoeErrWouldblock ∨ x = expired) t e := by
  unfold toeWaitTurn
  refine pre_get_bind.mpr ?_
  split
  · exact hK.ret hJ fun _ h ↦ ⟨⟨rfl, h⟩, by simp⟩
  · refine pre.seq (toeDeadlinePassed_still hK started _ hJ) ?_
    rintro passed _ e ⟨rfl, hJ⟩
    split
    · exact hK.ret hJ fun _ h ↦ ⟨⟨rfl, h⟩, by simp⟩
    · refine hK.call rfl hJ (.of_none rfl) fun _ e hJ ↦ ?_
      exact hK.ret hJ fun _ h ↦ ⟨⟨rfl, h⟩, by simp⟩

theorem toeWaitTurn_still (hK : Stable cfg V J) (started : UInt32) (timeoutMs : Desc → UInt32)
    (expired : ℤ) (hJ : J t e) :
    pre V (Touch cfg J A) R (toeWaitTurn fd started timeoutMs expired) (Still J t) t e :=
  (toeWaitTurn_waits hK started timeoutMs expired hJ).imp fun _ _ _ h ↦ h.1

theorem toeLinkIsUp_still (hK : Stable cfg V J) (hJ : J t e) :
    wlp V (Touch cfg J A) toeLinkIsUp (Still J t) t e := by
  unfold toeLinkIsUp
  refine hK.call rfl hJ (.of_none rfl) fun link e hJ ↦ ?_
  exact hK.still _ hJ

/-! ## The graceful shutdown -/

theorem toeCommandLatch_still (hK : Stable cfg V J) (hA : A fd) (hr : toeFdReady cfg t fd)
    (hJ : J t e) : wlp V (Touch cfg J A) (toeCommandLatch (toeSn t fd)) (Still J t) t e := by
  unfold toeCommandLatch
  refine hK.poll (fun e hJ ↦ ?_) hJ
  refine hK.call rfl hJ (.of_ready hA hr rfl) fun cr e hJ ↦ ?_
  exact hK.still _ hJ

theorem toeDisconnectTurn_still (hK : Stable cfg V J) (hA : A fd) (hr : toeFdReady cfg t fd)
    (started : UInt32) (hJ : J t e) :
    wlp V (Touch cfg J A) (toeDisconnectTurn (toeSn t fd) started) (Still J t) t e := by
  unfold toeDisconnectTurn
  refine hK.call rfl hJ (.of_ready hA hr rfl) fun sr e hJ ↦ ?_
  split
  · exact hK.still _ hJ
  refine hK.call rfl hJ (.of_ready hA hr rfl) fun timeout e hJ ↦ ?_
  split
  · exact hK.still _ hJ
  refine hK.call rfl hJ (.of_none rfl) fun now e hJ ↦ ?_
  split
  · exact hK.still _ hJ
  refine pre.seq (toeLinkIsUp_still hK hJ) ?_
  rintro up _ e ⟨rfl, hJ⟩
  split
  · exact hK.still _ hJ
  refine hK.call rfl hJ (.of_none rfl) fun _ e hJ ↦ ?_
  exact hK.still _ hJ

theorem toeTcpDisconnectBounded_still (hK : Stable cfg V J) (hA : A fd)
    (hr : toeFdReady cfg t fd) (hJ : J t e) :
    wlp V (Touch cfg J A) (toeTcpDisconnectBounded fd) (Still J t) t e := by
  unfold toeTcpDisconnectBounded
  refine pre_get_bind.mpr ?_
  dsimp only
  refine hK.call rfl hJ (.of_ready hA hr rfl) fun sr e hJ ↦ ?_
  split
  · exact hK.still _ hJ
  refine pre.seq (toeLinkIsUp_still hK hJ) ?_
  rintro up _ e ⟨rfl, hJ⟩
  split
  · exact hK.still _ hJ
  refine hK.call rfl hJ (.of_ready hA hr rfl) fun _ e hJ ↦ ?_
  refine pre.seq (toeCommandLatch_still hK hA hr hJ) ?_
  rintro _ _ e ⟨rfl, hJ⟩
  refine hK.call rfl hJ (.of_none rfl) fun started e hJ ↦ ?_
  exact hK.poll (fun e hJ ↦ toeDisconnectTurn_still hK hA hr started hJ) hJ

theorem wiztoeShutdown_keeps (hK : Retunes cfg V J P fd) (hP : LicensesRest P)
    (shutRd shutWr : Bool) (hJ : J t e) :
    wlp V (Touch cfg J (· = fd)) (wiztoeShutdown cfg fd shutRd shutWr) (fun _ ↦ J) t e := by
  unfold wiztoeShutdown
  refine pre_get_bind.mpr ?_
  split
  · exact hK.ret hJ fun _ h ↦ h
  rename_i hv
  have hv := not_not.mp hv
  -- After the optional `SHUT_RD` mark, what is left touches the chip only on a ready descriptor.
  have hrest : ∀ t e, J t e → wlp V (Touch cfg J (· = fd)) (do
      let t ← get
      .when (shutWr = true ∧ (t.desc fd).isUdp = false ∧ toeFdReady cfg t fd)
        (toeTcpDisconnectBounded fd)
      return 0) (fun (_ : ℤ) ↦ J) t e := by
    intro t e hJ
    refine pre_get_bind.mpr (pre_when_bind (fun hc ↦ ?_) fun _ ↦ hK.ret hJ fun _ h ↦ h)
    refine pre.seq (toeTcpDisconnectBounded_still hK.toStable rfl hc.2.2 hJ) ?_
    rintro _ _ e ⟨rfl, hJ⟩
    exact hK.ret hJ fun _ h ↦ h
  refine pre_when_bind (fun _ ↦ pre_modify_bind.mpr ?_) fun _ ↦ hrest _ _ hJ
  exact hrest _ _ (hK.tune hJ hv ⟨rfl, rfl, rfl, rfl, rfl⟩ (hP _ _ rfl id))

/-! ## Data -/

theorem toeSendTurn_still (hK : Stable cfg V J) (hA : A fd) (hr : toeFdReady cfg t fd)
    (started : UInt32) (hJ : J t e) :
    wlp V (Touch cfg J A) (toeSendTurn fd (toeSn t fd) started) (Still J t) t e := by
  unfold toeSendTurn
  refine hK.call rfl hJ (.of_ready hA hr rfl) fun sr e hJ ↦ ?_
  split
  · exact hK.still _ hJ
  refine hK.call rfl hJ (.of_ready hA hr rfl) fun freesize e hJ ↦ ?_
  split
  · exact hK.still _ hJ
  refine pre.seq (toeWaitTurn_still hK started _ _ hJ) ?_
  rintro r _ e ⟨rfl, hJ⟩
  exact hK.still _ hJ

theorem wiztoeSend_keeps (hK : Stable cfg V J) (buf : List UInt8) (hJ : J t e) :
    wlp V (Touch cfg J (· = fd)) (wiztoeSend cfg fd buf) (fun _ ↦ J) t e := by
  unfold wiztoeSend
  refine pre_get_bind.mpr ?_
  split
  · exact hK.ret hJ fun _ h ↦ h
  rename_i hc
  have hr : toeFdReady cfg t fd := by tauto
  refine hK.call rfl hJ (.of_none rfl) fun started e hJ ↦ ?_
  refine pre.seq (hK.poll (fun e hJ ↦ toeSendTurn_still hK (by rfl) hr started hJ) hJ) ?_
  rintro w _ e ⟨rfl, hJ⟩
  cases w with
  | inl r => exact hK.ret hJ fun _ h ↦ h
  | inr freesize =>
    refine hK.call rfl hJ (.of_ready rfl hr rfl) fun n e hJ ↦ ?_
    split
    · exact hK.ret hJ fun _ h ↦ h
    · exact hK.ret hJ fun _ h ↦ h

theorem toeRecvTurn_still (hK : Stable cfg V J) (hA : A fd) (hr : toeFdReady cfg t fd)
    (started : UInt32) (live : SnSR) (gone : ℤ) (hJ : J t e) :
    wlp V (Touch cfg J A) (toeRecvTurn fd (toeSn t fd) started live gone) (Still J t) t e := by
  unfold toeRecvTurn
  refine hK.call rfl hJ (.of_ready hA hr rfl) fun n e hJ ↦ ?_
  split
  · exact hK.still _ hJ
  refine hK.call rfl hJ (.of_ready hA hr rfl) fun sr e hJ ↦ ?_
  split
  · exact hK.still _ hJ
  refine pre.seq (toeWaitTurn_still hK started _ _ hJ) ?_
  rintro r _ e ⟨rfl, hJ⟩
  exact hK.still _ hJ

theorem wiztoeRecv_keeps (hK : Stable cfg V J) (len : ℕ) (hJ : J t e) :
    wlp V (Touch cfg J (· = fd)) (wiztoeRecv cfg fd len) (fun _ ↦ J) t e := by
  unfold wiztoeRecv
  refine pre_get_bind.mpr ?_
  split
  · exact hK.ret hJ fun _ h ↦ h
  rename_i hc
  have hr : toeFdReady cfg t fd := by tauto
  split
  · exact hK.ret hJ fun _ h ↦ h
  refine hK.call rfl hJ (.of_none rfl) fun started e hJ ↦ ?_
  refine pre.seq (hK.poll (fun e hJ ↦ toeRecvTurn_still hK (by rfl) hr started _ _ hJ) hJ) ?_
  rintro w _ e ⟨rfl, hJ⟩
  cases w with
  | some r => exact hK.ret hJ fun _ h ↦ h
  | none =>
    refine hK.call rfl hJ (.of_ready rfl hr rfl) fun n e hJ ↦ ?_
    dsimp only
    split
    · exact hK.ret hJ fun _ h ↦ h
    · exact hK.ret hJ fun _ h ↦ h

theorem wiztoeRecvfrom_keeps (hK : Stable cfg V J) (len : ℕ) (hJ : J t e) :
    wlp V (Touch cfg J (· = fd)) (wiztoeRecvfrom cfg fd len) (fun _ ↦ J) t e := by
  unfold wiztoeRecvfrom
  refine pre_get_bind.mpr ?_
  split
  · exact hK.ret hJ fun _ h ↦ h
  rename_i hc
  have hr : toeFdReady cfg t fd := by tauto
  refine hK.call rfl hJ (.of_none rfl) fun started e hJ ↦ ?_
  refine pre.seq (hK.poll (fun e hJ ↦ toeRecvTurn_still hK (by rfl) hr started _ _ hJ) hJ) ?_
  rintro w _ e ⟨rfl, hJ⟩
  cases w with
  | some r => exact hK.ret hJ fun _ h ↦ h
  | none =>
    refine hK.call rfl hJ (.of_ready rfl hr rfl) fun n e hJ ↦ ?_
    exact hK.ret hJ fun _ h ↦ h

/-! ## Registers and options -/

theorem wiztoeAvailable_keeps (hK : Stable cfg V J) (hJ : J t e) :
    wlp V (Touch cfg J (· = fd)) (wiztoeAvailable cfg fd) (fun _ ↦ J) t e := by
  unfold wiztoeAvailable
  refine pre_get_bind.mpr ?_
  split
  · exact hK.ret hJ fun _ h ↦ h
  split
  · exact hK.ret hJ fun _ h ↦ h
  rename_i hc
  have hr : toeFdReady cfg t fd := by tauto
  refine hK.call rfl hJ (.of_ready rfl hr rfl) fun n e hJ ↦ ?_
  exact hK.ret hJ fun _ h ↦ h

theorem wiztoeSetNonblocking_keeps (hK : Retunes cfg V J P fd) (hP : LicensesRest P) (enable : Bool)
    (hJ : J t e) :
    wlp V (Touch cfg J (· = fd)) (wiztoeSetNonblocking cfg fd enable) (fun _ ↦ J) t e := by
  unfold wiztoeSetNonblocking
  refine pre_get_bind.mpr ?_
  split
  · exact hK.ret hJ fun _ h ↦ h
  rename_i hv
  refine pre_modify_bind.mpr ?_
  exact hK.ret (hK.tune hJ (not_not.mp hv) ⟨rfl, rfl, rfl, rfl, rfl⟩ (hP _ _ rfl id)) fun _ h ↦ h

theorem wiztoePeer_keeps (hK : Stable cfg V J) (hJ : J t e) :
    wlp V (Touch cfg J (· = fd)) (wiztoePeer cfg fd) (fun _ ↦ J) t e := by
  unfold wiztoePeer
  refine pre_get_bind.mpr ?_
  split
  · exact hK.ret hJ fun _ h ↦ h
  split
  · exact hK.ret hJ fun _ h ↦ h
  split
  · exact hK.ret hJ fun _ h ↦ h
  rename_i hr
  have hr := not_not.mp hr
  refine hK.call rfl hJ (.of_ready rfl hr rfl) fun ip e hJ ↦ ?_
  refine hK.call rfl hJ (.of_ready rfl hr rfl) fun port e hJ ↦ ?_
  exact hK.ret hJ fun _ h ↦ h

theorem wiztoeSetsockopt_keeps (hK : Retunes cfg V J P fd) (hP : LicensesRest P) (opt : WiztoeOpt)
    (val : Option (List UInt8)) (hJ : J t e) :
    wlp V (Touch cfg J (· = fd)) (wiztoeSetsockopt cfg fd opt val) (fun _ ↦ J) t e := by
  -- An option sets a field of the descriptor, writes a register of the chip, or does nothing.
  have htune : ∀ {f : Desc → Desc}, toeFdValid cfg t fd →
      SameRole (t.desc fd) (f (t.desc fd)) →
      (f (t.desc fd)).port = (t.desc fd).port →
      ((t.desc fd).connected = true → (f (t.desc fd)).connected = true) →
      wlp V (Touch cfg J (· = fd)) (do modify (·.upd fd f); return 0) (fun (_ : ℤ) ↦ J) t e := by
    intro f hv hf hp hc
    exact pre_modify_bind.mpr (hK.ret (hK.tune hJ hv hf (hP _ _ hp hc)) fun _ h ↦ h)
  have hreg : ∀ {o : ChipOp}, o.quiet = true → o.sock? = some (toeSn t fd) →
      wlp V (Touch cfg J (· = fd)) (do
        if ¬toeFdReady cfg t fd then return -1
        let _ ← chip o
        return 0) (fun (_ : ℤ) ↦ J) t e := by
    intro o hq ho
    split
    · exact hK.ret hJ fun _ h ↦ h
    · rename_i hr
      refine hK.call hq hJ (.of_ready rfl (not_not.mp hr) ho) fun _ e hJ ↦ ?_
      exact hK.ret hJ fun _ h ↦ h
  unfold wiztoeSetsockopt
  refine pre_get_bind.mpr ?_
  cases val with
  | none => exact hK.ret hJ fun _ h ↦ h
  | some bytes =>
    dsimp only
    split
    · exact hK.ret hJ fun _ h ↦ h
    rename_i hv
    have hv : toeFdValid cfg t fd := by tauto
    cases opt with
    | nodelay => exact htune hv ⟨rfl, rfl, rfl, rfl, rfl⟩ rfl id
    | rcvtimeoMs =>
      dsimp only
      split
      · exact hK.ret hJ fun _ h ↦ h
      · exact htune hv ⟨rfl, rfl, rfl, rfl, rfl⟩ rfl id
    | sndtimeoMs =>
      dsimp only
      split
      · exact hK.ret hJ fun _ h ↦ h
      · exact htune hv ⟨rfl, rfl, rfl, rfl, rfl⟩ rfl id
    | keepalive => exact hreg rfl rfl
    | keepidle => exact hreg rfl rfl
    | ttl => exact hreg rfl rfl
    | tos => exact hreg rfl rfl
    | rcvbuf => exact hK.ret hJ fun _ h ↦ h
    | sndbuf => exact hK.ret hJ fun _ h ↦ h
    | error => exact hK.ret hJ fun _ h ↦ h
    | type => exact hK.ret hJ fun _ h ↦ h

theorem wiztoeGetsockopt_keeps (hK : Stable cfg V J) (opt : WiztoeOpt) (room : Option ℕ)
    (hJ : J t e) :
    wlp V (Touch cfg J (· = fd)) (wiztoeGetsockopt cfg fd opt room) (fun _ ↦ J) t e := by
  have hreg : ∀ {o : ChipOp} {f : o.Ans → ℤ}, o.quiet = true → o.sock? = some (toeSn t fd) →
      wlp V (Touch cfg J (· = fd)) (do
        if ¬toeFdReady cfg t fd then return (-1, 0)
        let v ← chip o
        return (0, f v)) (fun (_ : ℤ × ℤ) ↦ J) t e := by
    intro o f hq ho
    split
    · exact hK.ret hJ fun _ h ↦ h
    · rename_i hr
      refine hK.call hq hJ (.of_ready rfl (not_not.mp hr) ho) fun _ e hJ ↦ ?_
      exact hK.ret hJ fun _ h ↦ h
  unfold wiztoeGetsockopt
  refine pre_get_bind.mpr ?_
  cases room with
  | none => exact hK.ret hJ fun _ h ↦ h
  | some len =>
    dsimp only
    split
    · exact hK.ret hJ fun _ h ↦ h
    cases opt with
    | rcvbuf => exact hreg rfl rfl
    | sndbuf => exact hreg rfl rfl
    | ttl => exact hreg rfl rfl
    | tos => exact hreg rfl rfl
    | nodelay => exact hK.ret hJ fun _ h ↦ h
    | rcvtimeoMs => exact hK.ret hJ fun _ h ↦ h
    | sndtimeoMs => exact hK.ret hJ fun _ h ↦ h
    | keepalive => exact hK.ret hJ fun _ h ↦ h
    | keepidle => exact hK.ret hJ fun _ h ↦ h
    | error => exact hK.ret hJ fun _ h ↦ h
    | type => exact hK.ret hJ fun _ h ↦ h

theorem wiztoeGetsockname_keeps (hK : Stable cfg V J) (hJ : J t e) :
    wlp V (Touch cfg J (· = fd)) (wiztoeGetsockname cfg fd) (fun _ ↦ J) t e := by
  unfold wiztoeGetsockname
  refine pre_get_bind.mpr ?_
  split
  · exact hK.ret hJ fun _ h ↦ h
  refine hK.call rfl hJ (.of_none rfl) fun ni e hJ ↦ ?_
  exact hK.ret hJ fun _ h ↦ h

theorem wiztoeLocalIp_keeps (hK : Stable cfg V J) (hJ : J t e) :
    wlp V (Touch cfg J A) wiztoeLocalIp (fun _ ↦ J) t e := by
  unfold wiztoeLocalIp
  refine hK.call rfl hJ (.of_none rfl) fun ni e hJ ↦ ?_
  exact hK.ret hJ fun _ h ↦ h

theorem wiztoeLocalMac_keeps (hK : Stable cfg V J) (hJ : J t e) :
    wlp V (Touch cfg J A) wiztoeLocalMac (fun _ ↦ J) t e := by
  unfold wiztoeLocalMac
  refine hK.call rfl hJ (.of_none rfl) fun ni e hJ ↦ ?_
  exact hK.ret hJ fun _ h ↦ h

/-- The calls that only look at the tables. -/
theorem tables_only_keeps (hK : Stable cfg V J) {p : Tables → Toe α}
    (hp : ∀ t, ∃ a, p t = pure a) (hJ : J t e) :
    wlp V (Touch cfg J A) (get >>= p) (fun _ ↦ J) t e := by
  refine pre_get_bind.mpr ?_
  obtain ⟨a, ha⟩ := hp t
  rw [ha]
  exact hK.ret hJ fun _ h ↦ h

theorem wiztoeIsUdp_keeps (hK : Stable cfg V J) (hJ : J t e) :
    wlp V (Touch cfg J A) (wiztoeIsUdp cfg fd) (fun _ ↦ J) t e :=
  tables_only_keeps hK (fun _ ↦ ⟨_, rfl⟩) hJ

theorem wiztoeSnOfFd_keeps (hK : Stable cfg V J) (hJ : J t e) :
    wlp V (Touch cfg J A) (wiztoeSnOfFd cfg fd) (fun _ ↦ J) t e := by
  refine tables_only_keeps hK (fun t ↦ ?_) hJ
  split
  · exact ⟨_, rfl⟩
  · exact ⟨_, rfl⟩

theorem wiztoeGetNonblocking_keeps (hK : Stable cfg V J) (hJ : J t e) :
    wlp V (Touch cfg J A) (wiztoeGetNonblocking cfg fd) (fun _ ↦ J) t e := by
  refine tables_only_keeps hK (fun t ↦ ?_) hJ
  split
  · exact ⟨_, rfl⟩
  · exact ⟨_, rfl⟩

end WsmDriver
