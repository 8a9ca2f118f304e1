import WsmDriver.Effect.Execution
import WsmDriver.Toe.Moves

/-!
# Which calls open hardware sockets, which yield and which set registers

Read off the text of the functions: `socket` is asked for by the calls that bind, listen, accept,
connect or send a datagram, and by the two that may have to serve a waiting listener;
`toe_yield_1ms` by the calls that wait; the option registers of a hardware socket are written by
`setsockopt`. Whatever the tables and the chip are, no other call does any of these.
-/

namespace WsmDriver

open Effect Program

variable {cfg : ToeConfig} {P : ChipOp → Prop}

/-- The operation is no yield. -/
def IsNoYield (o : ChipOp) : Prop := o ≠ .toeYield1ms

/-- The operation writes one of the registers that hold socket options. -/
def ChipOp.sets : ChipOp → Bool
  | .setSnTtl .. | .setSnTos .. | .setSnKpalvtr .. => true
  | _ => false

/-- The operation opens no hardware socket. -/
abbrev IsQuiet (o : ChipOp) : Prop := o.quiet = true

/-- Neither a `socket` nor a yield, and no option register written. -/
def ChipOp.plain : ChipOp → Bool
  | .socket .. | .toeYield1ms | .setSnTtl .. | .setSnTos .. | .setSnKpalvtr .. => false
  | _ => true

theorem ChipOp.plain.quiet {o : ChipOp} (h : o.plain = true) : o.quiet = true := by
  cases o with
  | socket => exact h
  | _ => rfl

theorem ChipOp.plain.isNoYield {o : ChipOp} (h : o.plain = true) : IsNoYield o := by
  rintro rfl
  exact absurd h (by decide)

theorem ChipOp.plain.not_sets {o : ChipOp} (h : o.plain = true) : o.sets = false := by
  cases o with
  | setSnTtl => exact absurd h (by simp [ChipOp.plain])
  | setSnTos => exact absurd h (by simp [ChipOp.plain])
  | setSnKpalvtr => exact absurd h (by simp [ChipOp.plain])
  | _ => rfl

/-! ## The calls that do neither -/

theorem wiztoeSocket_asks (domain type protocol : ℤ) :
    (wiztoeSocket cfg domain type protocol).Asks P := by
  unfold wiztoeSocket
  refine .modify_bind (.ite trivial (asks_modifyGet_bind.mpr fun t ↦ .ite trivial ?_))
  exact asks_modifyGet_bind.mpr fun t ↦ .ite (.modify_bind trivial) (.modify_bind trivial)

theorem wiztoeIsUdp_asks (fd : ℤ) : (wiztoeIsUdp cfg fd).Asks P := fun _ ↦ trivial

theorem wiztoeSnOfFd_asks (fd : ℤ) : (wiztoeSnOfFd cfg fd).Asks P := fun _ ↦ .ite trivial trivial

theorem wiztoeSetNonblocking_asks (fd : ℤ) (enable : Bool) :
    (wiztoeSetNonblocking cfg fd enable).Asks P := fun _ ↦ .ite trivial (.modify_bind trivial)

theorem wiztoeGetNonblocking_asks (fd : ℤ) : (wiztoeGetNonblocking cfg fd).Asks P :=
  fun _ ↦ .ite trivial trivial

theorem wiztoeSocketReserve_asks : (wiztoeSocketReserve cfg).Asks P := .modify_bind fun _ ↦ trivial

theorem wiztoeSetsockopt_asks (hS : ∀ o : ChipOp, o.sets = true → P o) (fd : ℤ) (opt : WiztoeOpt)
    (val : Option (List UInt8)) : (wiztoeSetsockopt cfg fd opt val).Asks P := by
  have hset : ∀ (t : Tables) (o : ChipOp), o.sets = true →
      (if ¬toeFdReady cfg t fd then pure (-1) else chip o >>= fun _ ↦ pure 0 : Toe ℤ).Asks P :=
    fun t o ho ↦ .ite trivial ⟨hS o ho, fun _ ↦ trivial⟩
  unfold wiztoeSetsockopt
  refine asks_get_bind.mpr fun t ↦ ?_
  cases val with
  | none => trivial
  | some bytes =>
    refine .ite trivial ?_
    cases opt with
    | nodelay => exact .modify_bind trivial
    | rcvtimeoMs => exact .ite trivial (.modify_bind trivial)
    | sndtimeoMs => exact .ite trivial (.modify_bind trivial)
    | keepalive => exact hset t _ rfl
    | keepidle => exact hset t _ rfl
    | ttl => exact hset t _ rfl
    | tos => exact hset t _ rfl
    | _ => trivial

section

variable (hP : ∀ o : ChipOp, o.plain = true → P o)

include hP

theorem wiztoeNetworkInit_asks (ip mask gw : Ip4) (mac : Mac) :
    (wiztoeNetworkInit cfg ip mask gw mac).Asks P := by
  unfold wiztoeNetworkInit
  exact .modify_bind (.when_bind ⟨hP _ rfl, fun _ ↦ trivial⟩ ⟨hP _ rfl, fun _ ↦ trivial⟩)

theorem wiztoeAvailable_asks (fd : ℤ) : (wiztoeAvailable cfg fd).Asks P :=
  fun _ ↦ .ite trivial (.ite trivial ⟨hP _ rfl, fun _ ↦ trivial⟩)

theorem wiztoePeer_asks (fd : ℤ) : (wiztoePeer cfg fd).Asks P :=
  fun _ ↦
    .ite trivial
    (.ite trivial (.ite trivial ⟨hP _ rfl, fun _ ↦ ⟨hP _ rfl, fun _ ↦ trivial⟩⟩))

theorem wiztoeGetsockname_asks (fd : ℤ) : (wiztoeGetsockname cfg fd).Asks P :=
  fun _ ↦ .ite trivial ⟨hP _ rfl, fun _ ↦ trivial⟩

theorem wiztoeLocalIp_asks : wiztoeLocalIp.Asks P := ⟨hP _ rfl, fun _ ↦ trivial⟩

theorem wiztoeLocalMac_asks : wiztoeLocalMac.Asks P := ⟨hP _ rfl, fun _ ↦ trivial⟩

theorem wiztoeGetsockopt_asks (fd : ℤ) (opt : WiztoeOpt) (room : Option ℕ) :
    (wiztoeGetsockopt cfg fd opt room).Asks P := by
  unfold wiztoeGetsockopt
  refine asks_get_bind.mpr fun t ↦ ?_
  cases room with
  | none => trivial
  | some len =>
    refine .ite trivial ?_
    cases opt with
    | rcvbuf => exact .ite trivial ⟨hP _ rfl, fun _ ↦ trivial⟩
    | sndbuf => exact .ite trivial ⟨hP _ rfl, fun _ ↦ trivial⟩
    | ttl => exact .ite trivial ⟨hP _ rfl, fun _ ↦ trivial⟩
    | tos => exact .ite trivial ⟨hP _ rfl, fun _ ↦ trivial⟩
    | _ => trivial

/-! ## The calls that open and do not yield -/

theorem toeConnectPort_asks (fd : ℤ) : (toeConnectPort fd).Asks P :=
  fun _ ↦ .ite trivial ⟨hP _ rfl, fun _ ↦ .modify_bind trivial⟩

section

variable (hO : ∀ sn protocol port flag, P (.socket sn protocol port flag))

include hO

theorem toeListenerReopen_asks (fd : ℤ) : (toeListenerReopen fd).Asks P := by
  unfold toeListenerReopen
  refine Program.asks_get_bind.mpr fun t ↦ ?_
  refine .seq ⟨hP _ rfl, fun _ ↦ trivial⟩ fun hasIp ↦ .ite (.modify_bind trivial) ?_
  refine Program.asks_get_bind.mpr fun t ↦ Program.asks_perform_bind.mpr ?_
  refine ⟨hO _ _ _ _, fun r ↦ .ite trivial (.modify_bind ?_)⟩
  refine Program.asks_perform_bind.mpr ⟨hP _ rfl, fun r ↦ ?_⟩
  exact .ite trivial trivial

theorem toeListenerRearm_asks (fd : ℤ) : (toeListenerRearm cfg fd).Asks P := by
  unfold toeListenerRearm
  refine Program.asks_get_bind.mpr fun t ↦ .ite trivial ?_
  refine Program.asks_modifyGet_bind.mpr fun t ↦ .ite trivial (.modify_bind ?_)
  exact .seq (toeListenerReopen_asks hP hO fd) fun r ↦ .ite (.modify_bind trivial) trivial

theorem toeAcceptEstablished_asks (fd : ℤ) : (toeAcceptEstablished cfg fd).Asks P := by
  unfold toeAcceptEstablished
  refine Program.asks_get_bind.mpr fun t ↦ Program.asks_modifyGet_bind.mpr fun t ↦ ?_
  refine .ite trivial (.modify_bind (.modify_bind (.modify_bind ?_)))
  exact .seq (.seq (toeListenerRearm_asks hP hO fd) fun _ ↦ trivial) fun _ ↦ trivial

theorem toeAcceptPoll_asks (fd : ℤ) : (toeAcceptPoll cfg fd).Asks P := by
  have hest : (do
      let r ← toeAcceptEstablished cfg fd
      return some r : Toe (Option ℤ)).Asks P :=
    .seq (toeAcceptEstablished_asks hP hO fd) fun _ ↦ trivial
  have hreopen : (do
      let r ← toeListenerReopen fd
      .when (r < 0) (modify (toeListenerDisarm cfg fd))
      return none : Toe (Option ℤ)).Asks P :=
    .seq (toeListenerReopen_asks hP hO fd) fun _ ↦ .when_bind Program.asks_modify trivial
  unfold toeAcceptPoll
  refine Program.asks_get_bind.mpr fun t ↦ ?_
  refine .ite (.seq (.seq (toeListenerRearm_asks hP hO fd) fun _ ↦ trivial) fun _ ↦ trivial) ?_
  refine Program.asks_perform_bind.mpr ⟨hP _ rfl, fun sr ↦ ?_⟩
  cases sr with
  | established => exact hest
  | closeWait => exact hest
  | listen => exact trivial
  | synrecv => exact trivial
  | init =>
    refine Program.asks_get_bind.mpr fun t ↦ Program.asks_perform_bind.mpr ?_
    exact ⟨hP _ rfl, fun r ↦ .when_bind Program.asks_modify trivial⟩
  | _ => exact hreopen

theorem toeRearmPendingListeners_asks : (toeRearmPendingListeners cfg).Asks P := by
  unfold toeRearmPendingListeners
  generalize List.range cfg.maxDesc = l
  induction l with
  | nil => trivial
  | cons fd l ih =>
    refine .seq (asks_get_bind.mpr fun t ↦ ?_) fun _ ↦ ih
    unfold Program.when
    exact .ite (.seq (toeListenerRearm_asks hP hO fd) fun _ ↦ trivial) trivial

omit hP in
theorem toeOpenUdp_asks (fd : ℤ) : (toeOpenUdp fd).Asks P :=
  fun _ ↦ ⟨hO _ _ _ _, fun _ ↦ .ite trivial (.modify_bind trivial)⟩

omit hP in
theorem wiztoeBind_asks (fd : ℤ) (port : UInt16) : (wiztoeBind cfg fd port).Asks P :=
  fun _ ↦ .ite trivial (.modify_bind (.ite (.seq (toeOpenUdp_asks hO fd) fun _ ↦ trivial) trivial))

theorem wiztoeListen_asks (fd backlog : ℤ) : (wiztoeListen cfg fd backlog).Asks P :=
  fun _ ↦ .ite trivial (.modify_bind (.seq (toeListenerReopen_asks hP hO fd) fun _ ↦
    .ite (.modify_bind trivial) trivial))

theorem wiztoeConnect_asks (fd : ℤ) (ip : Ip4) (port : UInt16) :
    (wiztoeConnect cfg fd ip port).Asks P := by
  unfold wiztoeConnect
  refine asks_get_bind.mpr fun t ↦ .ite trivial (.ite (.modify_bind trivial) ?_)
  refine .seq (toeConnectPort_asks hP fd) fun lport ↦ asks_get_bind.mpr fun t ↦ ?_
  refine asks_perform_bind.mpr ⟨hO _ _ _ _, fun r ↦ .ite trivial (.modify_bind ?_)⟩
  exact asks_perform_bind.mpr ⟨hP _ rfl, fun r ↦ trivial⟩

theorem wiztoeSendto_asks (fd : ℤ) (buf : List UInt8) (ip : Ip4) (port : UInt16) :
    (wiztoeSendto cfg fd buf ip port).Asks P := by
  unfold wiztoeSendto
  refine asks_get_bind.mpr fun t ↦ .ite trivial (.seq ?_ fun isOpen ↦ .ite trivial ?_)
  · exact fun t ↦ .ite trivial ⟨hO _ _ _ _, fun r ↦ .ite trivial (.modify_bind trivial)⟩
  · exact ⟨hP _ rfl, fun n ↦ trivial⟩

theorem wiztoeSocketRelease_asks (sn : ℤ) : (wiztoeSocketRelease cfg sn).Asks P := by
  unfold wiztoeSocketRelease Program.when
  exact .ite ⟨hP _ rfl, fun _ ↦ .modify_bind (toeRearmPendingListeners_asks hP hO)⟩ trivial

end

/-! ## The calls that wait and do not open -/

section

variable (hY : P .toeYield1ms)

include hY

theorem toeWaitTurn_asks (fd : ℤ) (started : UInt32) (timeoutMs : Desc → UInt32) (expired : ℤ) :
    (toeWaitTurn fd started timeoutMs expired).Asks P := by
  unfold toeWaitTurn toeDeadlinePassed
  refine asks_get_bind.mpr fun t ↦ .ite trivial (.seq ?_ fun passed ↦ .ite trivial ?_)
  · exact .ite trivial ⟨hP _ rfl, fun now ↦ trivial⟩
  · exact ⟨hY, fun _ ↦ trivial⟩

theorem toeRecvTurn_asks (fd sn : ℤ) (started : UInt32) (live : SnSR) (gone : ℤ) :
    (toeRecvTurn fd sn started live gone).Asks P := by
  unfold toeRecvTurn
  refine asks_perform_bind.mpr
    ⟨hP _ rfl, fun n ↦ .ite trivial (asks_perform_bind.mpr ⟨hP _ rfl, fun sr ↦ ?_⟩)⟩
  exact .ite trivial (.seq (toeWaitTurn_asks hP hY fd started _ _) fun r ↦ trivial)

theorem wiztoeRecv_asks (fd : ℤ) (len : ℕ) : (wiztoeRecv cfg fd len).Asks P := by
  unfold wiztoeRecv
  refine asks_get_bind.mpr fun t ↦
    .ite trivial (.ite trivial (asks_perform_bind.mpr ⟨hP _ rfl, fun _ ↦ ?_⟩))
  refine .seq ⟨toeRecvTurn_asks hP hY fd _ _ _ _, fun _ ↦ trivial⟩ fun w ↦ ?_
  cases w with
  | some r => trivial
  | none => exact ⟨hP _ rfl, fun _ ↦ .ite trivial trivial⟩

theorem wiztoeRecvfrom_asks (fd : ℤ) (len : ℕ) : (wiztoeRecvfrom cfg fd len).Asks P := by
  unfold wiztoeRecvfrom
  refine asks_get_bind.mpr fun t ↦ .ite trivial (asks_perform_bind.mpr ⟨hP _ rfl, fun _ ↦ ?_⟩)
  refine .seq ⟨toeRecvTurn_asks hP hY fd _ _ _ _, fun _ ↦ trivial⟩ fun w ↦ ?_
  cases w with
  | some r => trivial
  | none => exact ⟨hP _ rfl, fun _ ↦ trivial⟩

theorem wiztoeSend_asks (fd : ℤ) (buf : List UInt8) : (wiztoeSend cfg fd buf).Asks P := by
  have hturn : ∀ (sn : ℤ) (started : UInt32), (toeSendTurn fd sn started).Asks P := by
    intro sn started
    unfold toeSendTurn
    refine asks_perform_bind.mpr
      ⟨hP _ rfl, fun sr ↦ .ite trivial (asks_perform_bind.mpr ⟨hP _ rfl, fun n ↦ ?_⟩)⟩
    exact .ite trivial (.seq (toeWaitTurn_asks hP hY fd started _ _) fun r ↦ trivial)
  unfold wiztoeSend
  refine asks_get_bind.mpr fun t ↦ .ite trivial (asks_perform_bind.mpr ⟨hP _ rfl, fun _ ↦ ?_⟩)
  refine .seq ⟨hturn _ _, fun _ ↦ trivial⟩ fun w ↦ ?_
  cases w with
  | inl r => trivial
  | inr n => exact ⟨hP _ rfl, fun _ ↦ .ite trivial trivial⟩

theorem toeTcpDisconnectBounded_asks (fd : ℤ) : (toeTcpDisconnectBounded fd).Asks P := by
  have hlink : toeLinkIsUp.Asks P := ⟨hP _ rfl, fun _ ↦ trivial⟩
  have hturn : ∀ (sn : ℤ) (started : UInt32), (toeDisconnectTurn sn started).Asks P := by
    intro sn started
    unfold toeDisconnectTurn
    refine asks_perform_bind.mpr
      ⟨hP _ rfl, fun sr ↦ .ite trivial
      (asks_perform_bind.mpr ⟨hP _ rfl, fun timeout ↦ ?_⟩)⟩
    refine .ite trivial
      (asks_perform_bind.mpr ⟨hP _ rfl, fun now ↦ .ite trivial (.seq hlink fun up ↦ ?_)⟩)
    exact .ite trivial ⟨hY, fun _ ↦ trivial⟩
  unfold toeTcpDisconnectBounded
  refine asks_get_bind.mpr fun t ↦ asks_perform_bind.mpr ⟨hP _ rfl, fun sr ↦ .ite trivial ?_⟩
  refine .seq hlink fun up ↦ .ite trivial (asks_perform_bind.mpr ⟨hP _ rfl, fun _ ↦ ?_⟩)
  refine .seq ⟨⟨hP _ rfl, fun _ ↦ trivial⟩, fun _ ↦ trivial⟩ fun _ ↦
    asks_perform_bind.mpr ⟨hP _ rfl, fun started ↦ ?_⟩
  exact ⟨hturn _ _, fun _ ↦ trivial⟩

theorem toeCloseSocket_asks (fd : ℤ) : (toeCloseSocket cfg fd).Asks P := by
  unfold toeCloseSocket
  refine asks_get_bind.mpr fun t ↦ .when_bind (toeTcpDisconnectBounded_asks hP hY fd) ?_
  exact asks_get_bind.mpr fun t ↦ .when_bind ⟨hP _ rfl, fun _ ↦ trivial⟩ asks_modify

theorem wiztoeShutdown_asks (fd : ℤ) (shutRd shutWr : Bool) :
    (wiztoeShutdown cfg fd shutRd shutWr).Asks P := by
  unfold wiztoeShutdown
  refine asks_get_bind.mpr fun t ↦
    .ite trivial (.when_bind asks_modify (asks_get_bind.mpr fun t ↦ ?_))
  exact .when_bind (toeTcpDisconnectBounded_asks hP hY fd) trivial

theorem wiztoeAccept_asks (hO : ∀ sn protocol port flag, P (.socket sn protocol port flag))
    (fd : ℤ) : (wiztoeAccept cfg fd).Asks P := by
  unfold wiztoeAccept
  refine asks_get_bind.mpr fun t ↦
    .ite trivial (asks_perform_bind.mpr ⟨hP _ rfl, fun started ↦ ?_⟩)
  refine ⟨.seq (toeAcceptPoll_asks hP hO fd) fun r ↦ ?_, fun _ ↦ trivial⟩
  cases r with
  | some r => trivial
  | none => exact toeWaitTurn_asks hP hY fd started _ _

theorem wiztoeClose_asks (hO : ∀ sn protocol port flag, P (.socket sn protocol port flag))
    (fd : ℤ) : (wiztoeClose cfg fd).Asks P := by
  unfold wiztoeClose
  refine asks_get_bind.mpr fun t ↦ .ite trivial (.when_bind (toeCloseSocket_asks hP hY fd) ?_)
  exact .modify_bind (.seq (toeRearmPendingListeners_asks hP hO) fun _ ↦ trivial)

end

end

/-! ## All calls -/

/-- The calls that may open a hardware socket. -/
def Call.opens : Call → Bool
  | .bind .. | .listen .. | .accept _ | .connect .. | .sendto .. | .socketRelease _ | .close _ =>
    true
  | _ => false

/-- The calls that may yield. -/
def Call.waits : Call → Bool
  | .shutdown .. | .accept _ | .send .. | .recv .. | .recvfrom .. | .close _ => true
  | _ => false

/-- The calls that may write an option register. -/
def Call.sets : Call → Bool
  | .setsockopt .. => true
  | _ => false

/-- What a call can ask for. -/
theorem Call.asks (c : Call) (hP : ∀ o : ChipOp, o.plain = true → P o)
    (hO : c.opens = true → ∀ sn protocol port flag, P (.socket sn protocol port flag))
    (hY : c.waits = true → P .toeYield1ms) (hS : c.sets = true → ∀ o : ChipOp, o.sets = true →
      P o) :
    (c.prog cfg).Asks P := by
  have hdiscard : ∀ {α : Type} {p : Toe α}, p.Asks P → (discard p).Asks P :=
    fun hp ↦ .seq hp fun _ ↦ trivial
  cases c with
  | networkInit ip mask gw mac => exact wiztoeNetworkInit_asks hP ip mask gw mac
  | socket domain type protocol => exact hdiscard (wiztoeSocket_asks domain type protocol)
  | isUdp fd => exact hdiscard (wiztoeIsUdp_asks fd)
  | snOfFd fd => exact hdiscard (wiztoeSnOfFd_asks fd)
  | setNonblocking fd enable => exact hdiscard (wiztoeSetNonblocking_asks fd enable)
  | getNonblocking fd => exact hdiscard (wiztoeGetNonblocking_asks fd)
  | available fd => exact hdiscard (wiztoeAvailable_asks hP fd)
  | shutdown fd shutRd shutWr => exact hdiscard (wiztoeShutdown_asks hP (hY rfl) fd shutRd shutWr)
  | bind fd port => exact hdiscard (wiztoeBind_asks (hO rfl) fd port)
  | listen fd backlog => exact hdiscard (wiztoeListen_asks hP (hO rfl) fd backlog)
  | accept fd => exact hdiscard (wiztoeAccept_asks hP (hY rfl) (hO rfl) fd)
  | connect fd ip port => exact hdiscard (wiztoeConnect_asks hP (hO rfl) fd ip port)
  | send fd buf => exact hdiscard (wiztoeSend_asks hP (hY rfl) fd buf)
  | recv fd len => exact hdiscard (wiztoeRecv_asks hP (hY rfl) fd len)
  | sendto fd buf ip port => exact hdiscard (wiztoeSendto_asks hP (hO rfl) fd buf ip port)
  | recvfrom fd len => exact hdiscard (wiztoeRecvfrom_asks hP (hY rfl) fd len)
  | peer fd => exact hdiscard (wiztoePeer_asks hP fd)
  | getsockname fd => exact hdiscard (wiztoeGetsockname_asks hP fd)
  | localIp => exact hdiscard (wiztoeLocalIp_asks hP)
  | localMac => exact hdiscard (wiztoeLocalMac_asks hP)
  | socketReserve => exact hdiscard wiztoeSocketReserve_asks
  | socketRelease sn => exact wiztoeSocketRelease_asks hP (hO rfl) sn
  | close fd => exact hdiscard (wiztoeClose_asks hP (hY rfl) (hO rfl) fd)
  | setsockopt fd opt val => exact hdiscard (wiztoeSetsockopt_asks (hS rfl) fd opt val)
  | getsockopt fd opt room => exact hdiscard (wiztoeGetsockopt_asks hP fd opt room)

theorem ChipOp.sets.quiet {o : ChipOp} (h : o.sets = true) : o.quiet = true := by
  cases o with
  | socket => exact absurd h (by simp [ChipOp.sets])
  | _ => rfl

theorem ChipOp.sets.isNoYield {o : ChipOp} (h : o.sets = true) : IsNoYield o := by
  rintro rfl
  exact absurd h (by decide)

theorem Call.asks_noYield {c : Call} (hw : c.waits = false) : (c.prog cfg).Asks IsNoYield :=
  c.asks (fun _ ↦ ChipOp.plain.isNoYield) (fun _ _ _ _ _ ↦ by simp [IsNoYield])
    (fun h ↦ absurd h (by simp [hw])) fun _ _ ↦ ChipOp.sets.isNoYield

theorem Call.asks_quiet {c : Call} (ho : c.opens = false) : (c.prog cfg).Asks IsQuiet :=
  c.asks (fun _ ↦ ChipOp.plain.quiet) (fun h ↦ absurd h (by simp [ho])) (fun _ ↦ rfl)
    fun _ _ ↦ ChipOp.sets.quiet

end WsmDriver
