import WsmDriver.Toe.Descriptors

/-!
# The functions of `wiznet_toe.c`

Every function that reaches the chip, in the order of the source. A `for (;;)` loop is `forever`,
its body yielding `some r` where the source returns `r`; where the source leaves the loop with
`break`, the body yields `some none` and the code after the loop follows.

A descriptor whose socket is being waited for is polled, and between two polls the caller may have
asked not to wait, may have waited long enough, or yields. That tail is the same in `accept`,
`recv`, `recvfrom` and `send`, which differ only in the timeout they consult and in what they report
when it expires; `toeWaitTurn` is its one definition.
-/

namespace WsmDriver

open Effect Program

variable (cfg : ToeConfig)

/-- `toe_deadline_passed`. A timeout of zero never expires; the subtraction and the multiplication
are those of `uint32_t`. -/
def toeDeadlinePassed (started timeoutMs : UInt32) : Toe Bool := do
  if timeoutMs = 0 then return false
  let now ← chip .toeTimeUs
  return decide (timeoutMs * 1000 ≤ now - started)

/-- `toe_open_flag`: whether `SF_TCP_NODELAY` is set. -/
def toeOpenFlag (t : Tables) (fd : ℤ) : Bool := (t.desc fd).nodelay

/-- `toe_open_udp`. -/
def toeOpenUdp (fd : ℤ) : Toe ℤ := do
  let t ← get
  let sn := toeSn t fd
  let r ← chip (.socket sn .udp (t.desc fd).port false)
  if r ≠ sn then return -1
  modify fun t ↦ t.upd fd fun d ↦ { d with opened := true }
  return 0

/-- `toe_chip_has_ip`. -/
def toeChipHasIp : Toe Bool := do
  let sipr ← chip .getSIPR
  return decide (sipr ≠ 0)

/-- `toe_listener_reopen`: re-open the hardware socket this listener already owns and put it back in
`LISTEN`. -/
def toeListenerReopen (fd : ℤ) : Toe ℤ := do
  let sn := toeSn (← get) fd
  let hasIp ← toeChipHasIp
  if hasIp = false then
    modify fun t ↦ t.upd fd fun d ↦ { d with opened := false }
    return wiztoeDefer
  let t ← get
  let r ← chip (.socket sn .tcp (t.desc fd).port (toeOpenFlag t fd))
  if r ≠ sn then return -1
  modify fun t ↦ t.upd fd fun d ↦ { d with opened := true }
  let r ← chip (.listen sn)
  if r ≠ sockOk then return -1
  return 0

/-- `toe_listener_rearm`: claim a free hardware socket and open and listen on it. -/
def toeListenerRearm (fd : ℤ) : Toe ℤ := do
  let t ← get
  if 0 ≤ (t.desc fd).sn then return 0
  let sn ← modifyGet (toeSnAlloc cfg fd)
  if sn < 0 then return -1
  modify fun t ↦ t.upd fd fun d ↦ { d with sn := int8 sn }
  let r ← toeListenerReopen fd
  if r < 0 then
    modify (toeListenerDisarm cfg fd)
    return -1
  return 0

/-- The body of the loop of `toe_rearm_pending_listeners`. -/
def toeRearmPendingListener (fd : ℤ) : Toe Unit := do
  let t ← get
  when ((t.desc fd).used = true ∧ (t.desc fd).listening = true ∧ (t.desc fd).sn < 0) do
    discard <| toeListenerRearm cfg fd

/-- `toe_rearm_pending_listeners`. -/
def toeRearmPendingListeners : Toe Unit :=
  (List.range cfg.maxDesc).forM fun fd ↦ toeRearmPendingListener cfg fd

/-- `wiztoe_network_init`. -/
def wiztoeNetworkInit (ip mask gw : Ip4) (mac : Mac) : Toe Unit := do
  modify (toeTablesInit cfg)
  when (cfg.netLock = true) (chip .sysUnlock)
  chip (.setNetinfo { mac := mac, ip := ip, sn := mask, gw := gw, dhcp := false })

/-- `wiztoe_socket`. -/
def wiztoeSocket (_domain type _protocol : ℤ) : Toe ℤ := do
  modify (toeTablesInit cfg)
  if type ≠ 1 ∧ type ≠ 2 then return -1
  let fd ← modifyGet (toeDescAlloc cfg)
  if fd < 0 then return -1
  let sn ← modifyGet (toeSnAlloc cfg fd)
  if sn < 0 then
    modify (toeDescClear fd)
    return -1
  modify fun t ↦ t.upd fd fun d ↦ { d with sn := int8 sn, isUdp := decide (type = 2) }
  return fd

/-- `wiztoe_is_udp`. -/
def wiztoeIsUdp (fd : ℤ) : Toe Bool := do
  let t ← get
  return decide (toeFdValid cfg t fd) && (t.desc fd).isUdp

/-- `wiztoe_sn_of_fd`. -/
def wiztoeSnOfFd (fd : ℤ) : Toe ℤ := do
  let t ← get
  if ¬toeFdValid cfg t fd then return -1
  return (t.desc fd).sn

/-- `wiztoe_set_nonblocking`. -/
def wiztoeSetNonblocking (fd : ℤ) (enable : Bool) : Toe ℤ := do
  let t ← get
  if ¬toeFdValid cfg t fd then return -1
  modify fun t ↦ t.upd fd fun d ↦ { d with nonblocking := enable }
  return 0

/-- `wiztoe_get_nonblocking`. -/
def wiztoeGetNonblocking (fd : ℤ) : Toe ℤ := do
  let t ← get
  if ¬toeFdValid cfg t fd then return -1
  return if (t.desc fd).nonblocking then 1 else 0

/-- `wiztoe_available`. -/
def wiztoeAvailable (fd : ℤ) : Toe ℤ := do
  let t ← get
  if ¬toeFdValid cfg t fd then return -1
  if ¬toeFdReady cfg t fd ∨ (t.desc fd).opened = false then return 0
  let n ← chip (.getSnRxRsr (toeSn t fd))
  return n

/-- `toe_link_is_up`. -/
def toeLinkIsUp : Toe Bool := do
  let link ← chip .getPhylink
  return decide (0 ≤ link.1) && link.2

/-- The body of the wait of `toe_tcp_disconnect_bounded`. -/
def toeDisconnectTurn (sn : ℤ) (started : UInt32) : Toe (Option Unit) := do
  let sr ← chip (.getSnSR sn)
  if sr = .closed then return some ()
  let timeout ← chip (.getSnIrTimeout sn)
  if timeout = true then return some ()
  let now ← chip .toeTimeUs
  if wiztoeDisconnectTimeoutMs * 1000 ≤ now - started then return some ()
  let up ← toeLinkIsUp
  if up = false then return some ()
  chip .toeYield1ms
  return none

/-- `while (getSn_CR(sn));` -/
def toeCommandLatch (sn : ℤ) : Toe Unit :=
  forever do
    let cr ← chip (.getSnCr sn)
    return if cr = 0 then some () else none

/-- `toe_tcp_disconnect_bounded`: the `DISCON` sequence with a wait of its own. -/
def toeTcpDisconnectBounded (fd : ℤ) : Toe Unit := do
  let sn := toeSn (← get) fd
  let sr ← chip (.getSnSR sn)
  if sr ≠ .established ∧ sr ≠ .closeWait then return ()
  let up ← toeLinkIsUp
  if up = false then return ()
  chip (.setSnCrDiscon sn)
  toeCommandLatch sn
  let started ← chip .toeTimeUs
  forever (toeDisconnectTurn sn started)

/-- `wiztoe_shutdown`. -/
def wiztoeShutdown (fd : ℤ) (shutRd shutWr : Bool) : Toe ℤ := do
  let t ← get
  if ¬toeFdValid cfg t fd then return -1
  when (shutRd = true) (modify fun t ↦ t.upd fd fun d ↦ { d with rdShutdown := true })
  let t ← get
  when (shutWr = true ∧ (t.desc fd).isUdp = false ∧ toeFdReady cfg t fd)
    (toeTcpDisconnectBounded fd)
  return 0

/-- `wiztoe_bind`. -/
def wiztoeBind (fd : ℤ) (port : UInt16) : Toe ℤ := do
  let t ← get
  if ¬toeFdReady cfg t fd then return -1
  modify fun t ↦ t.upd fd fun d ↦ { d with port := port }
  if (t.desc fd).isUdp then
    let r ← toeOpenUdp fd
    return if r < 0 then -1 else 0
  else return 0

/-- `wiztoe_listen`. Succeeds even with no address yet: `accept` opens the socket once one
arrives. -/
def wiztoeListen (fd _backlog : ℤ) : Toe ℤ := do
  let t ← get
  if ¬toeFdReady cfg t fd ∨ (t.desc fd).isUdp = true then return -1
  modify fun t ↦ t.upd fd fun d ↦ { d with listening := true }
  let r ← toeListenerReopen fd
  if r < 0 then
    modify fun t ↦ t.upd fd fun d ↦ { d with listening := false }
    return -1
  return 0

/-- `toe_accept_established`: hand the listener's hardware socket to a new descriptor and move the
listener to a fresh one. `O_NONBLOCK` is deliberately not carried over. -/
def toeAcceptEstablished (listenFd : ℤ) : Toe ℤ := do
  let sn := toeSn (← get) listenFd
  let cfd ← modifyGet (toeDescAlloc cfg)
  if cfd < 0 then return wiztoeErrWouldblock
  modify fun t ↦ t.upd cfd fun d ↦
    { d with
      sn := int8 sn
      opened := true
      connected := true
      port := (t.desc listenFd).port
      nodelay := (t.desc listenFd).nodelay
      rcvTimeoutMs := (t.desc listenFd).rcvTimeoutMs
      sndTimeoutMs := (t.desc listenFd).sndTimeoutMs }
  modify fun t ↦ t.setOwner sn (int8 cfd)
  modify fun t ↦ t.upd listenFd fun d ↦ { d with sn := -1, opened := false }
  discard <| toeListenerRearm cfg listenFd
  return cfd

/-- What `wiztoe_accept` does with the status of the listener's hardware socket. The source
whitelists the states that are usable as a listener; every other one ends in a re-open. -/
def toeAcceptStatus (fd : ℤ) (sr : SnSR) : Toe (Option ℤ) := do
  match sr with
  | .established | .closeWait =>
    let r ← toeAcceptEstablished cfg fd
    return some r
  | .listen => return none
  | .synrecv => return none
  | .init =>
    let sn := toeSn (← get) fd
    let r ← chip (.listen sn)
    when (r ≠ sockOk) (modify (toeListenerDisarm cfg fd))
    return none
  | _ =>
    let r ← toeListenerReopen fd
    when (r < 0) (modify (toeListenerDisarm cfg fd))
    return none

/-- The first half of a turn of `wiztoe_accept`: re-arm, or look at the hardware socket. -/
def toeAcceptPoll (fd : ℤ) : Toe (Option ℤ) := do
  let t ← get
  if (t.desc fd).sn < 0 then
    discard <| toeListenerRearm cfg fd
    return none
  let sr ← chip (.getSnSR (toeSn t fd))
  toeAcceptStatus cfg fd sr

/-- The second half of a waiting turn: do not wait at all on a non-blocking descriptor, give up once
the timeout has passed, yield otherwise. -/
def toeWaitTurn (fd : ℤ) (started : UInt32) (timeoutMs : Desc → UInt32) (expired : ℤ) :
    Toe (Option ℤ) := do
  let t ← get
  if (t.desc fd).nonblocking then return some wiztoeErrWouldblock
  let passed ← toeDeadlinePassed started (timeoutMs (t.desc fd))
  if passed = true then return some expired
  chip .toeYield1ms
  return none

/-- The body of the loop of `wiztoe_accept`. -/
def toeAcceptTurn (fd : ℤ) (started : UInt32) : Toe (Option ℤ) := do
  let r ← toeAcceptPoll cfg fd
  match r with
  | some r => return some r
  | none => toeWaitTurn fd started Desc.rcvTimeoutMs wiztoeErrTimeout

/-- `wiztoe_accept`. -/
def wiztoeAccept (fd : ℤ) : Toe ℤ := do
  let t ← get
  if ¬toeFdValid cfg t fd ∨ (t.desc fd).listening = false then return -1
  let started ← chip .toeTimeUs
  forever (toeAcceptTurn cfg fd started)

/-- The local port of a TCP `connect`: the bound one, or a randomized ephemeral one which is then
stored. -/
def toeConnectPort (fd : ℤ) : Toe UInt16 := do
  let t ← get
  if (t.desc fd).port ≠ 0 then return (t.desc fd).port
  let now ← chip .toeTimeUs
  let lport : UInt16 := (0xC000 + now % 0x3FF0).toUInt16
  modify fun t ↦ t.upd fd fun d ↦ { d with port := lport }
  return lport

/-- `wiztoe_connect`. -/
def wiztoeConnect (fd : ℤ) (ip : Ip4) (port : UInt16) : Toe ℤ := do
  let t ← get
  if ¬toeFdReady cfg t fd then return -1
  if (t.desc fd).isUdp then
    modify fun t ↦ t.upd fd fun d ↦ { d with dstIp := ip, dstPort := port, connected := true }
    return 0
  let lport ← toeConnectPort fd
  let t ← get
  let sn := toeSn t fd
  let r ← chip (.socket sn .tcp lport (toeOpenFlag t fd))
  if r ≠ sn then return -1
  modify fun t ↦ t.upd fd fun d ↦ { d with opened := true }
  let r ← chip (.connect sn ip port)
  return if r = sockOk then 0 else -1

/-- The body of the wait for room in the TX buffer: the free size, or the result to return. -/
def toeSendTurn (fd sn : ℤ) (started : UInt32) : Toe (Option (ℤ ⊕ ℕ)) := do
  let sr ← chip (.getSnSR sn)
  if sr ≠ .established ∧ sr ≠ .closeWait then return some (.inl (-1))
  let freesize ← chip (.getSnTxFsr sn)
  if 0 < freesize then return some (.inr freesize)
  let r ← toeWaitTurn fd started Desc.sndTimeoutMs wiztoeErrWouldblock
  return r.map .inl

/-- `wiztoe_send`. -/
def wiztoeSend (fd : ℤ) (buf : List UInt8) : Toe ℤ := do
  let t ← get
  if ¬toeFdReady cfg t fd ∨ (t.desc fd).isUdp = true then return -1
  let sn := toeSn t fd
  let started ← chip .toeTimeUs
  let w ← forever (toeSendTurn fd sn started)
  match w with
  | .inl r => return r
  | .inr freesize =>
    let n ← chip (.send sn (buf.take (min (min buf.length 0xFFFF) freesize)))
    if n = sockBusy then return wiztoeErrWouldblock
    return if n < 0 then -1 else n

/-- The body of the wait of `wiztoe_recv` and `wiztoe_recvfrom`: data is there, or the status is not
`live`, for which `gone` is reported, or the caller waits. -/
def toeRecvTurn (fd sn : ℤ) (started : UInt32) (live : SnSR) (gone : ℤ) :
    Toe (Option (Option ℤ)) := do
  let n ← chip (.getSnRxRsr sn)
  if 0 < n then return some none
  let sr ← chip (.getSnSR sn)
  if sr ≠ live then return some (some gone)
  let r ← toeWaitTurn fd started Desc.rcvTimeoutMs wiztoeErrTimeout
  return r.map some

/-- `wiztoe_recv`: the result and the bytes stored. Zero is the end of the stream. -/
def wiztoeRecv (fd : ℤ) (len : ℕ) : Toe (ℤ × List UInt8) := do
  let t ← get
  if ¬toeFdReady cfg t fd ∨ (t.desc fd).isUdp = true then return (-1, [])
  if (t.desc fd).rdShutdown then return (0, [])
  let sn := toeSn t fd
  let started ← chip .toeTimeUs
  let w ← forever (toeRecvTurn fd sn started .established 0)
  match w with
  | some r => return (r, [])
  | none =>
    let (n, bytes) ← chip (.recv sn (min len 0xFFFF))
    if n = sockerrSockstatus ∨ n = sockerrSockclosed then return (0, [])
    return if n < 0 then (-1, []) else (n, bytes)

/-- The late open of `wiztoe_sendto`: whether the hardware socket is open afterwards. -/
def toeSendtoOpen (fd : ℤ) : Toe Bool := do
  let t ← get
  if (t.desc fd).opened then return true
  let sn := toeSn t fd
  let r ← chip (.socket sn .udp (t.desc fd).port false)
  if r ≠ sn then return false
  modify fun t ↦ t.upd fd fun d ↦ { d with opened := true }
  return true

/-- `wiztoe_sendto`. -/
def wiztoeSendto (fd : ℤ) (buf : List UInt8) (ip : Ip4) (port : UInt16) : Toe ℤ := do
  let t ← get
  if ¬toeFdReady cfg t fd ∨ (t.desc fd).isUdp = false then return -1
  let sn := toeSn t fd
  let isOpen ← toeSendtoOpen fd
  if isOpen = false then return -1
  let n ← chip (.sendto sn (buf.take 0xFFFF) ip port)
  return if n < 0 then -1 else n

/-- `wiztoe_recvfrom`: the result, the bytes stored and the sender. -/
def wiztoeRecvfrom (fd : ℤ) (len : ℕ) : Toe (ℤ × List UInt8 × Option (Ip4 × UInt16)) := do
  let t ← get
  if ¬toeFdReady cfg t fd ∨ (t.desc fd).isUdp = false ∨ (t.desc fd).opened = false then
    return (-1, [], none)
  let sn := toeSn t fd
  let started ← chip .toeTimeUs
  let w ← forever (toeRecvTurn fd sn started .udp (-1))
  match w with
  | some r => return (r, [], none)
  | none =>
    let (n, bytes, ip, port) ← chip (.recvfrom sn (min len 0xFFFF))
    return if n < 0 then (-1, [], none) else (n, bytes, some (ip, port))

/-- `wiztoe_peer`. -/
def wiztoePeer (fd : ℤ) : Toe (Ip4 × UInt16) := do
  let t ← get
  if ¬toeFdValid cfg t fd then return (Ip4.zero, 0)
  if (t.desc fd).isUdp then return ((t.desc fd).dstIp, (t.desc fd).dstPort)
  if ¬toeFdReady cfg t fd then return (Ip4.zero, 0)
  let ip ← chip (.getSnDipr (toeSn t fd))
  let port ← chip (.getSnDport (toeSn t fd))
  return (ip, port)

/-- `wiztoe_getsockname`. -/
def wiztoeGetsockname (fd : ℤ) : Toe (Ip4 × UInt16) := do
  let t ← get
  if ¬toeFdValid cfg t fd then return (Ip4.zero, 0)
  let ni ← chip .getNetinfo
  return (ni.ip, (t.desc fd).port)

/-- `wiztoe_local_ip`. -/
def wiztoeLocalIp : Toe Ip4 := do
  let ni ← chip .getNetinfo
  return ni.ip

/-- `wiztoe_local_mac`. -/
def wiztoeLocalMac : Toe Mac := do
  let ni ← chip .getNetinfo
  return ni.mac

/-- `wiztoe_socket_reserve`. -/
def wiztoeSocketReserve : Toe ℤ := do
  modify (toeTablesInit cfg)
  modifyGet (toeSnReserve cfg)

/-- `wiztoe_socket_release`. -/
def wiztoeSocketRelease (sn : ℤ) : Toe Unit := do
  when (0 ≤ sn ∧ sn < cfg.maxSock) do
    chip (.close (uint8 sn))
    modify (toeSnRelease cfg sn)
    toeRearmPendingListeners cfg

/-- The part of `wiztoe_close` that lets go of the hardware socket. -/
def toeCloseSocket (fd : ℤ) : Toe Unit := do
  let t ← get
  let sn := toeSn t fd
  when ((t.desc fd).isUdp = false) (toeTcpDisconnectBounded fd)
  let t ← get
  when ((t.desc fd).opened = true) (chip (.close sn))
  modify (toeSnRelease cfg sn)

/-- `wiztoe_close`. -/
def wiztoeClose (fd : ℤ) : Toe ℤ := do
  let t ← get
  if ¬toeFdValid cfg t fd then return -1
  when (0 ≤ (t.desc fd).sn) (toeCloseSocket cfg fd)
  modify (toeDescClear fd)
  toeRearmPendingListeners cfg
  return 0

/-! ## Socket options -/

/-- `wiztoe_opt_t`. -/
inductive WiztoeOpt
  | keepalive | keepidle | nodelay | ttl | tos | rcvtimeoMs | sndtimeoMs | rcvbuf | sndbuf
  | error | type
  deriving DecidableEq, Repr

/-- `*(const uint32_t *)val`, little-endian. -/
def readU32 (val : List UInt8) : UInt32 :=
  (val.getD 0 0).toUInt32 ||| (val.getD 1 0).toUInt32 <<< 8 ||| (val.getD 2 0).toUInt32 <<< 16 |||
    (val.getD 3 0).toUInt32 <<< 24

/-- The value of an option: an `int` when there is room for one, else a single byte. -/
def optInt (val : List UInt8) : ℤ :=
  if 4 ≤ val.length then (readU32 val).toInt32.toInt else (val.getD 0 0).toNat

/-- `wiztoe_setsockopt`. `val` is `none` for a null pointer, else the `len` bytes at it. -/
def wiztoeSetsockopt (fd : ℤ) (opt : WiztoeOpt) (val : Option (List UInt8)) : Toe ℤ := do
  let t ← get
  match val with
  | none => return -1
  | some bytes =>
    if ¬toeFdValid cfg t fd ∨ bytes.length = 0 then return -1
    let v := optInt bytes
    match opt with
    | .nodelay =>
      modify fun t ↦ t.upd fd fun d ↦ { d with nodelay := decide (v ≠ 0) }
      return 0
    | .rcvtimeoMs =>
      if bytes.length < 4 then return -1
      modify fun t ↦ t.upd fd fun d ↦ { d with rcvTimeoutMs := readU32 bytes }
      return 0
    | .sndtimeoMs =>
      if bytes.length < 4 then return -1
      modify fun t ↦ t.upd fd fun d ↦ { d with sndTimeoutMs := readU32 bytes }
      return 0
    | .keepalive =>
      if ¬toeFdReady cfg t fd then return -1
      chip (.setSnKpalvtr (toeSn t fd) (if v ≠ 0 then 12 else 0))
      return 0
    | .keepidle =>
      if ¬toeFdReady cfg t fd then return -1
      chip (.setSnKpalvtr (toeSn t fd) (.ofInt (min (max v 5) (5 * 255) / 5)))
      return 0
    | .ttl =>
      if ¬toeFdReady cfg t fd then return -1
      chip (.setSnTtl (toeSn t fd) (.ofInt v))
      return 0
    | .tos =>
      if ¬toeFdReady cfg t fd then return -1
      chip (.setSnTos (toeSn t fd) (.ofInt v))
      return 0
    | _ => return -1

/-- `wiztoe_getsockopt`: the result and `*val`. `room` is `none` for a null pointer, else `*len`. -/
def wiztoeGetsockopt (fd : ℤ) (opt : WiztoeOpt) (room : Option ℕ) : Toe (ℤ × ℤ) := do
  let t ← get
  match room with
  | none => return (-1, 0)
  | some len =>
    if ¬toeFdValid cfg t fd ∨ len < 4 then return (-1, 0)
    match opt with
    | .error => return (0, 0)
    | .type => return (0, if (t.desc fd).isUdp then 2 else 1)
    | .rcvtimeoMs => return (0, (t.desc fd).rcvTimeoutMs.toNat)
    | .sndtimeoMs => return (0, (t.desc fd).sndTimeoutMs.toNat)
    | .rcvbuf =>
      if ¬toeFdReady cfg t fd then return (-1, 0)
      let n ← chip (.getSnRxMax (toeSn t fd))
      return (0, n)
    | .sndbuf =>
      if ¬toeFdReady cfg t fd then return (-1, 0)
      let n ← chip (.getSnTxMax (toeSn t fd))
      return (0, n)
    | .ttl =>
      if ¬toeFdReady cfg t fd then return (-1, 0)
      let v ← chip (.getSnTtl (toeSn t fd))
      return (0, v.toNat)
    | .tos =>
      if ¬toeFdReady cfg t fd then return (-1, 0)
      let v ← chip (.getSnTos (toeSn t fd))
      return (0, v.toNat)
    | _ => return (-1, 0)

end WsmDriver
