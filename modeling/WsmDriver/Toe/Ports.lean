import WsmDriver.Toe.Alphabet
import WsmDriver.Toe.Ownership

/-!
# The port a listener is opened on

A listener is opened in five places: by `listen`, by `accept` (again, or for the first time), after
a connection was handed over, and when another descriptor lets a hardware socket go. Each of them
reads the port from the listener's descriptor at that moment, so the listener keeps its port exactly
as long as the descriptor does, and as long as the port is one: ioLibrary picks an ephemeral port of
its own for every `socket` that asks for port 0.
-/

namespace WsmDriver

open Effect Program

variable {cfg : ToeConfig} {E : Type} {U : Env Tables E ChipOp.Ans}
  {V : Call → Env Tables E ChipOp.Ans} {R : ℕ → ℕ → Prop} {t t' t₀ : Tables}
  {e e' e₀ e₁ : E} {fd c sn : ℤ} {p : UInt16} {α : Type}

/-! ## Every hardware socket is opened on the port of its descriptor -/

/-- The operation, if it opens a hardware socket, opens that of `fd` on the port of `fd`. -/
def OpensFor (fd : ℤ) (o : ChipOp) (t : Tables) : Prop :=
  ∀ sn protocol port flag, o = .socket sn protocol port flag →
    sn = toeSn t fd ∧ port = (t.desc fd).port

/-- The operation, if it opens a hardware socket, opens it on the port of its owner. -/
def OpensForOwner (o : ChipOp) (t : Tables) : Prop :=
  ∀ sn protocol port flag, o = .socket sn protocol port flag → port = (t.desc (t.owner sn)).port

theorem OpensFor.socket (t : Tables) (fd : ℤ) (protocol : SnMR) (flag : Bool) :
    OpensFor fd (.socket (toeSn t fd) protocol (t.desc fd).port flag) t := by
  rintro sn protocol port flag heq
  cases heq
  exact ⟨rfl, rfl⟩

theorem OpensFor.of_quiet {o : ChipOp} (h : o.quiet = true) : OpensFor fd o t := by
  rintro sn protocol port flag rfl
  exact absurd h (by simp [ChipOp.quiet])

theorem OpensForOwner.of_quiet {o : ChipOp} (h : o.quiet = true) : OpensForOwner o t := by
  rintro sn protocol port flag rfl
  exact absurd h (by simp [ChipOp.quiet])

/-- Nothing in particular holds after the program. -/
abbrev Whatever : α → Tables → E → Prop := fun _ _ _ ↦ True

/-- A program that opens nothing opens nothing on a wrong port. -/
theorem wlp_of_quiet {G : ChipOp → Tables → E → Prop} {q : Toe α} (h : q.Asks IsQuiet)
    (hG : ∀ o t e, o.quiet = true → G o t e) : wlp U G q Whatever t e :=
  (wlp_true.asks h).guard fun o t e ho ↦ hG o t e ho.2

theorem toeListenerReopen_opensFor :
    wlp U (fun o t' _ ↦ OpensFor fd o t' ∧ t'.owner = t.owner ∧ toeSn t' fd = toeSn t fd)
      (toeListenerReopen fd) Whatever t e := by
  unfold toeListenerReopen
  refine pre_get_bind.mpr ?_
  refine pre.seq (M := fun _ t' _ ↦ t' = t)
    (fun _ _ ↦ ⟨⟨.of_quiet rfl, rfl, rfl⟩, fun _ _ _ _ _ ↦ rfl⟩) ?_
  rintro hasIp _ e rfl
  refine pre_ite (fun _ _ _ ↦ trivial) fun _ ↦ ?_
  refine pre_get_bind.mpr (pre_perform_bind.mpr fun _ _ ↦ ⟨⟨.socket _ fd _ _, rfl, rfl⟩,
    fun r _ _ ↦ ?_⟩)
  refine pre_ite (fun _ _ _ ↦ trivial) fun _ ↦ pre_modify_bind.mpr ?_
  refine pre_perform_bind.mpr fun _ _ ↦
    ⟨⟨.of_quiet rfl, rfl, by simp [toeSn]⟩, fun r _ _ ↦ ?_⟩
  exact pre_ite (fun _ _ _ ↦ trivial) fun _ _ _ ↦ trivial

/-- A listener that is re-armed owns the hardware socket that is opened for it. -/
theorem toeListenerRearm_opensFor (hfit : cfg.Fits) (hd : cfg.IsDesc fd) :
    wlp U (fun o t _ ↦ OpensFor fd o t ∧ t.owner (toeSn t fd) = fd)
    (toeListenerRearm cfg fd) Whatever t e := by
  refine pre_toeListenerRearm hfit (fun _ _ ↦ hd) (fun _ _ _ ↦ trivial) (fun sn _ hs ↦ ?_)
    fun _ _ _ _ ↦ trivial
  refine pre.seq (toeListenerReopen_opensFor.guard fun o t' e h ↦ ⟨h.1, ?_⟩) ?_
  · rw [h.2.1, h.2.2, toeSn_arm hfit hs.free, Tables.arm, Tables.upd_owner,
      Tables.setOwner_owner_self]
  · exact fun r _ _ _ ↦ pre_ite (fun _ ↦ pre_modify_bind.mpr fun _ _ ↦ trivial) fun _ _ _ ↦
      trivial

/-! ### `accept` -/

theorem discard_toeListenerRearm_opensFor (hfit : cfg.Fits) (hd : cfg.IsDesc fd) :
    wlp U (fun o t _ ↦ OpensFor fd o t) (discard <| toeListenerRearm cfg fd) Whatever t e :=
  pre_discard (((toeListenerRearm_opensFor hfit hd).guard fun _ _ _ h ↦ h.1).imp fun _ _ _ _ _ _ ↦
    trivial)

theorem toeAcceptEstablished_opensFor (hfit : cfg.Fits) (hd : cfg.IsDesc fd) :
    wlp U (fun o t _ ↦ OpensFor fd o t) (toeAcceptEstablished cfg fd) Whatever t e := by
  unfold toeAcceptEstablished
  refine pre_get_bind.mpr (pre_modifyGet_bind.mpr (pre_ite (fun _ _ _ ↦ trivial) fun _ ↦ ?_))
  refine pre_modify_bind.mpr (pre_modify_bind.mpr (pre_modify_bind.mpr ?_))
  exact pre.seq (discard_toeListenerRearm_opensFor hfit hd) fun _ _ _ _ _ _ ↦ trivial

theorem toeAcceptStatus_opensFor (hfit : cfg.Fits) (hd : cfg.IsDesc fd) (sr : SnSR) :
    wlp U (fun o t _ ↦ OpensFor fd o t) (toeAcceptStatus cfg fd sr) Whatever t e := by
  refine pre_toeAcceptStatus (fun _ ↦ ?_) (fun _ _ _ ↦ trivial) (fun _ ↦ ?_) fun _ ↦ ?_
  · exact pre.seq (toeAcceptEstablished_opensFor hfit hd) fun _ _ _ _ _ _ ↦ trivial
  · refine pre_perform_bind.mpr fun _ _ ↦ ⟨.of_quiet rfl, fun r _ _ ↦ ?_⟩
    exact pre_when_bind (fun _ ↦ pre_modify_bind.mpr fun _ _ ↦ trivial) fun _ _ _ ↦ trivial
  · refine pre.seq (toeListenerReopen_opensFor.guard fun _ _ _ h ↦ h.1) fun r _ _ _ ↦ ?_
    exact pre_when_bind (fun _ ↦ pre_modify_bind.mpr fun _ _ ↦ trivial) fun _ _ _ ↦ trivial

theorem wiztoeAccept_opensFor (hfit : cfg.Fits) :
    wlp U (fun o t _ ↦ OpensFor fd o t) (wiztoeAccept cfg fd) Whatever t e := by
  unfold wiztoeAccept
  refine pre_get_bind.mpr (pre_ite (fun _ _ _ ↦ trivial) fun hc ↦ ?_)
  have hv : toeFdValid cfg t fd := by tauto
  have hd : cfg.IsDesc fd := hv.isDesc
  refine pre_perform_bind.mpr fun _ _ ↦ ⟨.of_quiet rfl, fun started _ _ ↦ ?_⟩
  refine wlp_forever (fun _ _ ↦ True) trivial fun t e _ ↦ ?_
  unfold toeAcceptTurn toeAcceptPoll
  refine pre.seq (M := Whatever) ?_ ?_
  · refine pre_get_bind.mpr (pre_ite (fun _ ↦ ?_) fun _ ↦ ?_)
    · exact pre.seq (discard_toeListenerRearm_opensFor hfit hd) fun _ _ _ _ _ _ ↦ trivial
    · refine pre_perform_bind.mpr fun _ _ ↦ ⟨.of_quiet rfl, fun sr _ _ ↦ ?_⟩
      exact toeAcceptStatus_opensFor hfit hd sr
  · rintro (_ | r) t e -
    · -- Between two polls nothing is opened.
      have hwait := wlp_of_quiet (U := U) (G := fun o t _ ↦ OpensFor fd o t)
        (toeWaitTurn_asks (fun _ ↦ ChipOp.plain.quiet) rfl fd started Desc.rcvTimeoutMs
          wiztoeErrTimeout)
        (fun _ _ _ ↦ .of_quiet) (t := t) (e := e)
      refine hwait.imp ?_
      rintro (_ | r) t e -
      · trivial
      · exact fun _ _ ↦ trivial
    · exact fun _ _ _ _ ↦ trivial

/-! ### The other calls that open -/

theorem wiztoeBind_opensFor (port : UInt16) :
    wlp U (fun o t _ ↦ OpensFor fd o t) (wiztoeBind cfg fd port) Whatever t e := by
  unfold wiztoeBind
  refine pre_get_bind.mpr (pre_ite (fun _ _ _ ↦ trivial) fun _ ↦ pre_modify_bind.mpr ?_)
  refine pre_ite (fun _ ↦ ?_) fun _ _ _ ↦ trivial
  unfold toeOpenUdp
  refine pre.seq (M := Whatever) ?_ fun r _ _ _ _ _ ↦ trivial
  refine pre_get_bind.mpr (pre_perform_bind.mpr fun _ _ ↦ ⟨.socket _ fd _ _, fun r _ _ ↦ ?_⟩)
  exact pre_ite (fun _ _ _ ↦ trivial) fun _ ↦ pre_modify_bind.mpr fun _ _ ↦ trivial

theorem wiztoeListen_opensFor (backlog : ℤ) :
    wlp U (fun o t _ ↦ OpensFor fd o t) (wiztoeListen cfg fd backlog) Whatever t e := by
  unfold wiztoeListen
  refine pre_get_bind.mpr (pre_ite (fun _ _ _ ↦ trivial) fun _ ↦ pre_modify_bind.mpr ?_)
  refine pre.seq (toeListenerReopen_opensFor.guard fun _ _ _ h ↦ h.1) fun r _ _ _ ↦ ?_
  exact pre_ite (fun _ ↦ pre_modify_bind.mpr fun _ _ ↦ trivial) fun _ _ _ ↦ trivial

/-- `connect` stores the port it is about to use. -/
theorem toeConnectPort_port :
    wlp U (fun o t _ ↦ OpensFor fd o t) (toeConnectPort fd)
    (fun lport t' _ ↦ lport = (t'.desc fd).port) t e := by
  unfold toeConnectPort
  refine pre_get_bind.mpr (pre_ite (fun _ _ _ ↦ rfl) fun _ ↦ ?_)
  refine pre_perform_bind.mpr fun _ _ ↦
    ⟨.of_quiet rfl, fun now _ _ ↦ pre_modify_bind.mpr fun _ _ ↦ ?_⟩
  rw [Tables.upd_desc_self]

theorem wiztoeConnect_opensFor (ip : Ip4) (port : UInt16) :
    wlp U (fun o t _ ↦ OpensFor fd o t) (wiztoeConnect cfg fd ip port) Whatever t e := by
  unfold wiztoeConnect
  refine pre_get_bind.mpr (pre_ite (fun _ _ _ ↦ trivial) fun _ ↦ ?_)
  refine pre_ite (fun _ ↦ pre_modify_bind.mpr fun _ _ ↦ trivial) fun _ ↦ ?_
  refine pre.seq toeConnectPort_port ?_
  rintro _ t e rfl
  refine pre_get_bind.mpr (pre_perform_bind.mpr fun _ _ ↦ ⟨.socket t fd _ _, fun r _ _ ↦ ?_⟩)
  refine pre_ite (fun _ _ _ ↦ trivial) fun _ ↦ pre_modify_bind.mpr ?_
  exact pre_perform_bind.mpr fun _ _ ↦ ⟨.of_quiet rfl, fun r _ _ _ _ ↦ trivial⟩

theorem wiztoeSendto_opensFor (buf : List UInt8) (ip : Ip4) (port : UInt16) :
    wlp U (fun o t _ ↦ OpensFor fd o t) (wiztoeSendto cfg fd buf ip port) Whatever t e := by
  unfold wiztoeSendto toeSendtoOpen
  refine pre_get_bind.mpr (pre_ite (fun _ _ _ ↦ trivial) fun _ ↦ pre.seq (M := Whatever) ?_
    fun isOpen t e _ ↦ ?_)
  · refine pre_get_bind.mpr (pre_ite (fun _ _ _ ↦ trivial) fun _ ↦ ?_)
    refine pre_perform_bind.mpr fun _ _ ↦ ⟨.socket _ fd _ _, fun r _ _ ↦ ?_⟩
    exact pre_ite (fun _ _ _ ↦ trivial) fun _ ↦ pre_modify_bind.mpr fun _ _ ↦ trivial
  · refine pre_ite (fun _ _ _ ↦ trivial) fun _ ↦ ?_
    exact pre_perform_bind.mpr fun _ _ ↦ ⟨.of_quiet rfl, fun n _ _ _ _ ↦ trivial⟩

/-! ### Serving the waiting listeners -/

theorem toeRearmPendingListeners_opensForOwner (hfit : cfg.Fits) :
    wlp U (fun o t _ ↦ OpensForOwner o t) (toeRearmPendingListeners cfg) Whatever t e := by
  refine (pre_forM (fun l _ _ ↦ ∀ i ∈ l, i < cfg.maxDesc) (fun _ _ _ _ h ↦ h) ?_ _
    fun _ ↦ List.mem_range.mp).imp fun _ _ _ _ ↦ trivial
  intro i l t e hl
  rw [List.forall_mem_cons] at hl
  have hd : cfg.IsDesc i := ⟨by omega, by omega⟩
  unfold toeRearmPendingListener
  refine pre_get_bind.mpr (pre_when (fun _ ↦ pre_discard ?_) fun _ _ _ ↦ hl.2)
  refine ((toeListenerRearm_opensFor hfit hd).guard fun o t e h ↦ ?_).imp fun _ _ _ _ _ _ ↦ hl.2
  intro sn protocol port flag heq
  obtain ⟨hsn, hport⟩ := h.1 sn protocol port flag heq
  rw [hsn, h.2, hport]

theorem wiztoeSocketRelease_opensForOwner (hfit : cfg.Fits) (sn : ℤ) :
    wlp U (fun o t _ ↦ OpensForOwner o t) (wiztoeSocketRelease cfg sn) Whatever t e := by
  unfold wiztoeSocketRelease
  refine pre_when (fun _ ↦ ?_) fun _ _ _ ↦ trivial
  refine pre_perform_bind.mpr fun _ _ ↦ ⟨.of_quiet rfl, fun _ _ _ ↦ pre_modify_bind.mpr ?_⟩
  exact toeRearmPendingListeners_opensForOwner hfit

theorem wiztoeClose_opensForOwner (hfit : cfg.Fits) (fd : ℤ) :
    wlp U (fun o t _ ↦ OpensForOwner o t) (wiztoeClose cfg fd) Whatever t e := by
  have hrest : ∀ t e, wlp U (fun o t _ ↦ OpensForOwner o t) (do
      modify (toeDescClear fd)
      toeRearmPendingListeners cfg
      return (0 : ℤ)) Whatever t e := fun t e ↦
    pre_modify_bind.mpr (pre.seq (toeRearmPendingListeners_opensForOwner hfit) fun _ _ _ _ _ _ ↦
      trivial)
  unfold wiztoeClose
  refine pre_get_bind.mpr (pre_ite (fun _ _ _ ↦ trivial) fun _ ↦ ?_)
  refine pre_when_bind (fun _ ↦ pre.seq (M := Whatever) ?_ fun _ t e _ ↦ hrest t e) fun _ ↦
    hrest t e
  exact wlp_of_quiet (toeCloseSocket_asks (fun _ ↦ ChipOp.plain.quiet) rfl fd) fun _ _ _ ↦
    .of_quiet

/-! ### All calls -/

/-- The descriptor for which the call `c` opens the hardware socket `sn`: its own, or the listener
being served, which owns the hardware socket by then. -/
def Call.opener (c : Call) (t : Tables) (sn : ℤ) : Option ℤ :=
  match c with
  | .close _ | .socketRelease _ => some (t.owner sn)
  | c => c.fd?

/-- Every hardware socket a call opens is opened on the port of the descriptor it is opened for. -/
theorem Call.opens_on_port (hfit : cfg.Fits) (c : Call) :
    wlp U (fun o t _ ↦ ∀ sn protocol port flag fd, o = .socket sn protocol port flag →
      c.opener t sn = some fd → port = (t.desc fd).port) (c.prog cfg) Whatever t e := by
  have hown : ∀ {x : ℤ} {α : Type} {q : Toe α}, c.opener = (fun _ _ ↦ some x) →
      (∀ t e, wlp U (fun o t _ ↦ OpensFor x o t) q Whatever t e) →
      wlp U (fun o t _ ↦ ∀ sn protocol port flag fd, o = .socket sn protocol port flag →
        c.opener t sn = some fd → port = (t.desc fd).port) (discard q) Whatever t e := by
    intro x α q hc hq
    refine pre_discard (((hq t e).guard fun o t e h ↦ ?_).imp fun _ _ _ _ _ _ ↦ trivial)
    intro sn protocol port flag fd heq hfd
    rw [hc, Option.some_inj] at hfd
    rw [← hfd, (h sn protocol port flag heq).2]
  have hserve : ∀ {α : Type} {q : Toe α}, c.opener = (fun t sn ↦ some (t.owner sn)) →
      wlp U (fun o t _ ↦ OpensForOwner o t) q Whatever t e →
      wlp U (fun o t _ ↦ ∀ sn protocol port flag fd, o = .socket sn protocol port flag →
        c.opener t sn = some fd → port = (t.desc fd).port) q Whatever t e := by
    intro α q hc hq
    refine hq.guard fun o t e h sn protocol port flag fd heq hfd ↦ ?_
    rw [hc, Option.some_inj] at hfd
    rw [← hfd, h sn protocol port flag heq]
  by_cases ho : c.opens = false
  · -- Most calls never open a hardware socket.
    refine wlp_of_quiet (Call.asks_quiet ho) ?_
    rintro o t e hq sn protocol port flag fd rfl
    exact absurd hq (by simp [ChipOp.quiet])
  cases c with
  | bind fd port => exact hown rfl fun _ _ ↦ wiztoeBind_opensFor port
  | listen fd backlog => exact hown rfl fun _ _ ↦ wiztoeListen_opensFor backlog
  | accept fd => exact hown rfl fun _ _ ↦ wiztoeAccept_opensFor hfit
  | connect fd ip port => exact hown rfl fun _ _ ↦ wiztoeConnect_opensFor ip port
  | sendto fd buf ip port => exact hown rfl fun _ _ ↦ wiztoeSendto_opensFor buf ip port
  | socketRelease sn => exact hserve rfl (wiztoeSocketRelease_opensForOwner hfit sn)
  | close fd =>
    refine hserve rfl (pre_discard ((wiztoeClose_opensForOwner hfit fd).imp fun _ _ _ _ _ _ ↦
      trivial))
  | _ => exact absurd rfl ho

/-! ## A live descriptor keeps its port -/

/-- The descriptor `fd` is as much in use as before and has the port it had. -/
structure SamePort (fd : ℤ) (t t' : Tables) : Prop where
  used : (t'.desc fd).used = (t.desc fd).used
  port : (t'.desc fd).port = (t.desc fd).port

namespace SamePort

variable {t'' : Tables} {f : Desc → Desc}

theorem of_desc (h : t'.desc fd = t.desc fd) : SamePort fd t t' := ⟨by rw [h], by rw [h]⟩

theorem setOwner (v : ℤ) : SamePort fd t (t.setOwner sn v) := of_desc rfl

theorem trans (h : SamePort fd t t') (h' : SamePort fd t' t'') : SamePort fd t t'' :=
  ⟨h'.used.trans h.used, h'.port.trans h.port⟩

theorem upd_ne (h : fd ≠ c) : SamePort fd t (t.upd c f) := .of_desc (Tables.upd_desc_ne _ _ h)

theorem upd (hu : (f (t.desc c)).used = (t.desc c).used)
    (hp : (f (t.desc c)).port = (t.desc c).port) : SamePort fd t (t.upd c f) := by
  by_cases h : fd = c
  · subst h
    exact ⟨by rw [Tables.upd_desc_self, hu], by rw [Tables.upd_desc_self, hp]⟩
  · exact upd_ne h

theorem disarm : SamePort fd t (toeListenerDisarm cfg c t) := by
  rw [toeListenerDisarm]
  split
  · exact (of_desc (by rw [toeSnRelease_desc])).trans (upd rfl rfl)
  · exact upd rfl rfl

theorem closed (h : fd ≠ c) : SamePort fd t (t.closed cfg c) := by
  rw [Tables.closed, toeDescClear]
  split
  · exact (of_desc (by rw [toeSnRelease_desc])).trans (upd_ne h)
  · exact upd_ne h

/-- Of the moves only retuning and closing can change the port of a descriptor in use. -/
theorem move (hu : (t.desc fd).used = true) {k : Kind} (hm : Move cfg k t t') (ht : k ≠ .tune)
    (hc : k ≠ .close) : SamePort fd t t' := by
  -- A descriptor that is allocated is another one.
  have hne : ∀ {x}, IsUnused cfg t x → fd ≠ x := by
    rintro x hx rfl
    exact absurd hx.2.2 (by simp [hu])
  cases hm with
  | init =>
    rw [toeTablesInit]
    split
    · exact of_desc rfl
    · dsimp only
      constructor
      · dsimp only
        split <;> rfl
      · dsimp only
        split <;> rfl
  | tune => exact absurd rfl ht
  | listening => exact upd rfl rfl
  | socket _ _ hx => exact (setOwner _).trans (upd_ne (hne hx))
  | scrub _ hx => exact upd_ne (hne hx)
  | reserve => exact setOwner _
  | release => exact setOwner _
  | arm =>
    rw [Tables.arm]
    exact (setOwner _).trans (upd rfl rfl)
  | opened => exact upd rfl rfl
  | disarm => exact disarm
  | @handover _ l x hr _ hx =>
    rw [Tables.handover]
    exact ((upd_ne (hne hx)).trans (setOwner _)).trans (upd rfl rfl)
  | close => exact absurd rfl hc

end SamePort

/-- The descriptor `fd` is in use and has the port `p`. -/
structure Ported (cfg : ToeConfig) (fd : ℤ) (p : UInt16) (t : Tables) : Prop where
  shaped : Shaped cfg t
  used : (t.desc fd).used = true
  port : (t.desc fd).port = p

namespace Ported

theorem same (h : Ported cfg fd p t) (hs : Shaped cfg t') (hp : SamePort fd t t') :
    Ported cfg fd p t' :=
  ⟨hs, hp.used.trans h.used, hp.port.trans h.port⟩

theorem move (h : Ported cfg fd p t) {k : Kind} (hm : Move cfg k t t') (ht : k ≠ .tune)
    (hc : k ≠ .close) : Ported cfg fd p t' :=
  h.same (h.shaped.move hm) (.move h.used hm ht hc)

/-- Retuning is harmless if it leaves the port of `fd` alone. -/
theorem tune (h : Ported cfg fd p t) {f : Desc → Desc} (hv : toeFdValid cfg t c)
    (hf : SameRole (t.desc c) (f (t.desc c))) (hp : c = fd → (f (t.desc fd)).port = p) :
    Ported cfg fd p (t.upd c f) := by
  have hs := h.shaped.move (.tune hv hf)
  by_cases hc : c = fd
  · subst hc
    refine ⟨hs, ?_, ?_⟩
    · rw [Tables.upd_desc_self, hf.used, h.used]
    · rw [Tables.upd_desc_self, hp rfl]
  · exact h.same hs (.upd_ne (Ne.symm hc))

theorem closed (h : Ported cfg fd p t) (hv : toeFdValid cfg t c) (hc : c ≠ fd) :
    Ported cfg fd p (t.closed cfg c) :=
  h.same (h.shaped.move (.close hv)) (.closed (Ne.symm hc))

theorem keptBy : KeptBy cfg (fun k ↦ k ≠ .tune ∧ k ≠ .close) (Ported cfg fd p) where
  range h := (Shaped.tablesInv cfg).range h.shaped
  idle h := (Shaped.tablesInv cfg).idle h.shaped
  move hk h hm := h.move hm hk.1 hk.2

end Ported

/-- The call neither closes `fd` nor binds it, while it holds a hardware socket, to another port
than `p`. -/
def Call.LeavesPort (cfg : ToeConfig) (fd : ℤ) (p : UInt16) (c : Call) (t : Tables) : Prop :=
  c ≠ .close fd ∧ ∀ q, c = .bind fd q → toeFdReady cfg t fd → q = p

namespace Ported

/-- Retuning a descriptor is harmless if it is another one, or if its port stays `p`. -/
theorem settles (hp : p ≠ 0) (c : Call) (hc : c.LeavesPort cfg fd p t) :
    Settles cfg U (fun t _ ↦ Ported cfg fd p t) (fun x d d' ↦ x = fd → d.port = p → d'.port =
      p) c t :=
  { keptBy.stable with
    tune := fun {_ _ _ _} h hv hf hP ↦ h.tune hv hf fun heq ↦ by
      subst heq
      exact hP rfl h.port
    licenses := fun _ _ _ heq _ _ hport ↦ heq.trans hport
    binds := fun {_ port} heq hr hx _ ↦ hc.2 port (by rw [heq, hx]) (hx ▸ hr)
    connects := fun _ h₀ _ _ hport ↦ absurd (hport.symm.trans h₀) hp
    init := fun h ↦ h.move (.init _) (by decide) (by decide)
    listening := fun b h hr htcp ↦ h.move (.listening b hr htcp) (by decide) (by decide)
    reserves := fun _ {_ _ _} hi hs h ↦ h.move (.reserve hi hs) (by decide) (by decide)
    opens := keptBy.opens (by decide)
    defers := fun x _ ↦ keptBy.defers (by decide) x }

/-- Every call that leaves the port alone keeps it at each operation. -/
theorem prog (hfit : cfg.Fits) (hp : p ≠ 0) (c : Call) (h : Ported cfg fd p t)
    (hc : c.LeavesPort cfg fd p t) :
    wlp U (fun _ t _ ↦ Ported cfg fd p t) (c.prog cfg) (fun _ t _ ↦ Ported cfg fd p t) t e := by
  refine keptBy.prog hfit (fun k ht hk _ _ ↦ ⟨ht, hk⟩) (settles hp c hc)
    (fun x hx _ _ h hv ↦ ?_) (fun sn _ _ h ↦ ?_) h
  · have hne : x ≠ fd := by
      rintro rfl
      exact hc.1 hx
    exact h.closed hv hne
  · exact h.same (h.shaped.release sn) (.of_desc (by rw [toeSnRelease_desc]))

end Ported

/-! ## Over a whole run -/

/-- The port a `socket` that asks for `port` is opened on: `ephemeral` is the one ioLibrary would
pick. -/
def localPort (ephemeral port : UInt16) : UInt16 := if port = 0 then ephemeral else port

/-- In the calls that follow, as far as `allowed` lets them, every hardware socket opened for `fd`
is opened on `p`, whichever port ioLibrary would pick if it were asked for any. -/
def OpensOn (cfg : ToeConfig) (V : Call → Env Tables E ChipOp.Ans)
    (allowed : Call → Tables → E → Prop) (t₀ : Tables) (e₀ : E) (fd : ℤ) (p : UInt16) :
    Prop :=
  ∀ c t sn protocol port flag t' e', During V allowed (Call.prog cfg) t₀ e₀ c
    t (.socket sn protocol port flag) t' e' →
    c.opener t' sn = some fd → ∀ ephemeral, localPort ephemeral port = p

/-- **A listener keeps its port.** From the moment `fd` is made a listener, with a port bound to it,
until it is closed, every hardware socket opened for it is opened on that port, if it is not bound
to another one meanwhile. -/
theorem listener_keeps_port (hfit : cfg.Fits) (h : AnyHistory cfg V e₀ t e)
    (hr : toeFdReady cfg t fd) (hp : (t.desc fd).port ≠ 0) :
    OpensOn cfg V (fun c t' _ ↦ c.LeavesPort cfg fd (t.desc fd).port t') t e fd
    (t.desc fd).port := by
  have hstart : Ported cfg fd (t.desc fd).port t := ⟨.history hfit h, hr.1.2.2, rfl⟩
  generalize (t.desc fd).port = p at hp hstart
  intro c t' sn protocol port flag t'' e' hduring hfd ephemeral
  have hkept : ∀ s e', History V (fun c t' _ ↦ c.LeavesPort cfg fd p t') (Call.prog cfg)
      t e s e' →
      Ported cfg fd p s := fun s e' hh ↦
    hh.invariant (I := fun t _ ↦ Ported cfg fd p t) (G := fun _ _ _ t _ ↦ Ported cfg fd p t) hstart
      (fun _ _ _ _ h _ ↦ h) fun c _ _ h hc ↦ h.prog hfit hp c hc
  have hat := History.during (I := fun t _ ↦ Ported cfg fd p t) hkept
      (G := fun c _ o t _ ↦ Ported cfg fd p t ∧ ∀ sn protocol port flag fd,
      o = .socket sn protocol port flag → c.opener t sn = some fd → port = (t.desc fd).port)
    (fun e' h hc ↦ (wlp_and (h.prog hfit hp c hc) (Call.opens_on_port hfit c)).imp fun _ _ _ _ ↦
      trivial) hduring
  have hport : port = p := (hat.2 sn protocol port flag fd rfl hfd).trans hat.1.port
  rw [localPort, if_neg (by rw [hport]; exact hp), hport]

/-! ## A listener on port 80 -/

/-- A TCP socket bound to port 80, before it is made a listener. -/
def boundSocket : Tables :=
  afterCall w5500 .closed (.bind 0 80) (afterCall w5500 .closed (.socket 2 1 0) .zero)

/-- The same socket as a listener. -/
def boundListener : Tables := afterCall w5500 .closed (.listen 0 1) boundSocket

/-- The listener after another `bind`. -/
def reboundListener : Tables := afterCall w5500 .closed (.bind 0 81) boundListener

theorem boundSocket_history : AnyHistory w5500 (fun _ ↦ Env.any (E := Unit)) () boundSocket () := by
  have hsocket : Returns Env.any ((Call.socket 2 1 0).prog w5500) .zero () ()
      (afterCall w5500 .closed (.socket 2 1 0) .zero) () :=
    afterCall_returns (fun _ _ _ ↦ trivial) (by decide)
  have hbind : Returns Env.any ((Call.bind 0 80).prog w5500)
      (afterCall w5500 .closed (.socket 2 1 0) .zero) () () boundSocket () :=
    afterCall_returns (fun _ _ _ ↦ trivial) (by decide)
  exact (History.start.call (.socket 2 1 0) trivial hsocket).call (.bind 0 80) trivial hbind

theorem listener_keeps_port_bound :
    OpensOn w5500 (fun _ ↦ Env.any (E := Unit))
    (fun c t _ ↦ c.LeavesPort w5500 0 (boundSocket.desc 0).port t)
      boundSocket () 0 (boundSocket.desc 0).port :=
  listener_keeps_port w5500_fits boundSocket_history (by decide) (by decide)

/-- A listener that is bound again is opened on port 80 before and on port 81 afterwards. -/
theorem not_listener_keeps_port :
    ¬∀ (t : Tables) (e : Unit), AnyHistory w5500 (fun _ ↦ Env.any (E := Unit)) () t e → ∀ fd,
      IsListener w5500 t fd → ∃ p, OpensOn w5500 (fun _ ↦ Env.any) (fun c _ _ ↦ c ≠
        .close fd) t e fd p := by
  intro h
  have hlisten : Returns Env.any ((Call.listen 0 1).prog w5500) boundSocket ()
      () boundListener () :=
    afterCall_returns (fun _ _ _ ↦ trivial) (by decide)
  have hbind : Returns Env.any ((Call.bind 0 81).prog w5500) boundListener ()
      () reboundListener () :=
    afterCall_returns (fun _ _ _ ↦ trivial) (by decide)
  obtain ⟨p, hp⟩ := h boundListener () (boundSocket_history.call (.listen 0 1) trivial hlisten) 0
    ⟨by decide, by decide⟩
  have hopen : ∀ t port, History (fun _ ↦ Env.any) (fun c _ _ ↦ c ≠ .close 0) (Call.prog w5500)
      boundListener () t () →
      (runWith (placidChip .closed) 8 ⟨(Call.accept 0).prog w5500, t, ()⟩).prog.asks? =
        some (.socket 0 .tcp port false) → localPort 0 port = p := by
    intro t port hh hasks
    have hperf := performs_runWith (V := Env.any) (h := placidChip .closed) (e := ())
      (.always fun _ _ _ ↦ trivial) trivial hasks
    exact hp (.accept 0) t 0 .tcp port false _ _ ⟨(), hh, by simp, hperf⟩ rfl 0
  have h₀ : localPort 0 80 = p := hopen _ 80 .start (by decide +kernel)
  have h₁ : localPort 0 81 = p :=
    hopen _ 81 (.call (.bind 0 81) .start (by simp) hbind) (by decide +kernel)
  exact absurd (h₀.trans h₁.symm) (by decide)

end WsmDriver
