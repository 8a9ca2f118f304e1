import WsmDriver.Dhcp.Message

/-!
# The DHCP client

`wsm_dhcp.c`, function by function. A poll runs up to `step_packets` turns; in a turn the client
sends what is due, receives one datagram at most, and goes by what it says.

## Representation

What a function stores through a pointer of its caller is returned beside its result. A turn returns
`none` where the source goes on with the next one.
-/

namespace WsmDriver.Dhcp

open Effect

/-- `sock_bind_iface`. -/
def sockBindIface (fd : ℤ) (ifname : List UInt8) : Engine Unit :=
  .when (ifname ≠ []) (discard (ask (.setsockopt fd (.soBindtodevice ifname))))

/-- `sock_set_recv_mode`. -/
def sockSetRecvMode (hasFcntl : Bool) (fd : ℤ) (ms : UInt32) : Engine Unit :=
  if ms = 0 then .when hasFcntl (discard (ask (.fcntl fd)))
  else discard (ask (.setsockopt fd (.soRcvtimeo (ms / 1000) (ms % 1000 * 1000))))

/-- `dhcp_enter_selecting`. -/
def dhcpEnterSelecting : Engine Unit := do
  modify fun c ↦ { c with state := .selecting, tries := 0, nextTxUs := 0 }
  let xid ← ask .espRandom
  modify fun c ↦ { c with xid := xid, serverId := inaddrAny, offered := inaddrAny }

/-- `dhcp_open`. -/
def dhcpOpen : Engine Bool := do
  let c ← get
  let fd ← ask .socket
  if fd < 0 then
    return false
  discard (ask (.setsockopt fd .soBroadcast))
  discard (ask (.setsockopt fd .soReuseaddr))
  sockSetRecvMode c.ops.fcntl fd c.recvTimeoutMs
  sockBindIface fd c.ifname
  let bound ← ask (.bind fd inaddrAny clientPort)
  if bound < (0 : ℤ) then
    discard (ask (.close fd))
    return false
  modify fun c ↦ { c with fd := fd }
  return true

/-- `dhcp_send`. -/
def dhcpSend (type : UInt8) : Engine Unit := do
  let c ← get
  discard (ask (.sendto c.fd (build c type) inaddrBroadcast serverPort))

/-- `dhcp_parse`: the type of the message and what it grants, or the type `0`. -/
def dhcpParse (p : List UInt8) : Engine (UInt8 × NetInfo) := do
  let c ← get
  if IsReply c.xid c.mac p then
    modify fun c ↦ { c with serverId := (parse p).serverId.getD c.serverId }
    return ((parse p).type, (parse p).info)
  else
    return (0, {})

/-! ## One poll -/

/-- What `dhcp_step` returns, with what it stores in `*info`. -/
abbrev Polled := Status × Option NetInfo

/-- The wait after a transmission, in microseconds. -/
def Client.backoffUs (c : Client) : ℤ := (c.xmitIntervalMs.toNat : ℤ) * 1000 * c.tries

/-- When to renew, in microseconds after the lease was obtained: the `t1` of `dhcp_step`. -/
def NetInfo.t1Us (i : NetInfo) : ℤ :=
  ((if i.leaseS ≠ 0 then i.leaseS / 2 else defaultRenewS).toNat : ℤ) * 1000000

/-- Send what the state asks for. -/
def dhcpTransmit (now : ℤ) : Engine Unit := do
  modify fun c ↦ { c with tries := c.tries + 1 }
  let c ← get
  dhcpSend (if c.state = .selecting then dhcpDiscover else dhcpRequest)
  modify fun c ↦ { c with nextTxUs := now + c.backoffUs }

/-- Go by a datagram. -/
def dhcpHandle (p : List UInt8) : Engine (Option Polled) := do
  let (type, got) ← dhcpParse p
  if type = 0 then
    return none
  if type = dhcpNak then
    dhcpEnterSelecting
    return none
  let c ← get
  if c.state = .selecting ∧ type = dhcpOffer then
    modify fun c ↦ { c with offered := got.ip, state := .requesting, tries := 0, nextTxUs := 0 }
    return none
  if c.state = .requesting ∧ type = dhcpAck then
    modify fun c ↦ { c with lease := got }
    ask (.applyLease got)
    modify fun c ↦ { c with state := .bound, bound := true }
    let now ← ask .espTimerGetTime
    modify fun c ↦ { c with renewAtUs := now + got.t1Us }
    return some (.leased, some got)
  return none

/-- Wait for a datagram. -/
def dhcpReceive : Engine (Option Polled) := do
  let c ← get
  match ← ask (.recvfrom c.fd bufSize) with
  | none | some [] => return some (.pending, none)
  | some p => dhcpHandle p

/-- Send what is due, unless the tries are used up, and receive. -/
def dhcpExchange (now : ℤ) : Engine (Option Polled) := do
  let c ← get
  if c.nextTxUs ≤ now ∧ c.xmitTries.toNat ≤ c.tries then
    dhcpEnterSelecting
    return some (.failed, none)
  .when (c.nextTxUs ≤ now) (dhcpTransmit now)
  dhcpReceive

/-- One turn of `dhcp_step`. -/
def dhcpTurn : Engine (Option Polled) := do
  let now ← ask .espTimerGetTime
  let c ← get
  if c.state = .bound ∧ now < c.renewAtUs then
    return some (.leased, some c.lease)
  .when (c.state = .bound) dhcpEnterSelecting
  dhcpExchange now

/-- The loop of `dhcp_step`, from a turn on. -/
def dhcpTurns : ℕ → Engine Polled
  | 0 => return (.pending, none)
  | n + 1 => do
    match ← dhcpTurn with
    | some r => return r
    | none => dhcpTurns n

/-- `dhcp_step`. -/
def dhcpStep : Engine Polled := do
  let c ← get
  dhcpTurns c.stepPackets.toNat

/-! ## The interface -/

/-- `wsm_dhcp_client_create`, with what `default_ops` returns and whether there is memory: the new
client. -/
def wsmDhcpClientCreate (defaultOps : Option Ops) (calloc : Bool) (cfg : Option Config)
    (out : Ptr) : Except EspErr Client :=
  if out = .null then .error .invalidArg
  else match (cfg.bind Config.ops).or defaultOps with
    | none => .error .invalidArg
    | some ops =>
      if !ops.sock ∨ !ops.prepare ∨ !ops.applyLease then .error .invalidArg
      else if !calloc then .error .noMem
      else
        let cfg := cfg.getD {}
        .ok {
          ops := ops
          recvTimeoutMs := cfg.recvTimeoutMs
          stepPackets := if cfg.stepPackets ≠ 0 then cfg.stepPackets else defaultStepPackets
          xmitTries := if cfg.xmitTries ≠ 0 then cfg.xmitTries else defaultXmitTries
          xmitIntervalMs := if cfg.xmitIntervalMs ≠ 0 then cfg.xmitIntervalMs else
            defaultXmitIntervalMs }

/-- `wsm_dhcp_start`. -/
def wsmDhcpStart (c : Ptr) : Engine (Except EspErr Unit) := do
  if c = .null then
    return .error .invalidArg
  if 0 ≤ (← get).fd then
    return .ok ()
  let (mac, ifname) ← ask .prepare
  modify fun c ↦ { c with mac := mac, ifname := ifname }
  dhcpEnterSelecting
  modify fun c ↦ { c with bound := false }
  if ← dhcpOpen then
    return .ok ()
  else
    return .error .fail

/-- `wsm_dhcp_poll`. Without an `info` the engine fills in a scratch copy. -/
def wsmDhcpPoll (c info : Ptr) : Engine Polled := do
  if c = .null then
    return (.pending, none)
  if (← get).fd < 0 then
    return (.pending, none)
  let (r, filled) ← dhcpStep
  return (r, if info = .null then none else filled)

/-- `wsm_dhcp_stop`. -/
def wsmDhcpStop (c : Ptr) : Engine Unit := do
  if c = .null then
    return
  let fd := (← get).fd
  if fd < 0 then
    return
  discard (ask (.close fd))
  modify fun c ↦ { c with fd := -1, state := .selecting, bound := false, lease := {} }

/-- `wsm_dhcp_client_destroy`, up to the `free`. -/
def wsmDhcpClientDestroy (c : Ptr) : Engine Unit := do
  if c = .null then
    return
  wsmDhcpStop c

/-- `wsm_dhcp_is_bound`. -/
def wsmDhcpIsBound (c : Ptr) : Engine Bool := do
  return c ≠ .null ∧ (← get).bound

/-- `wsm_dhcp_get_netinfo`. -/
def wsmDhcpGetNetinfo (c out : Ptr) : Engine (Except EspErr NetInfo) := do
  if c = .null ∨ out = .null then
    return .error .invalidArg
  if !(← get).bound then
    return .error .invalidState
  return .ok (← get).lease

/-- A client as `wsm_dhcp_client_create` leaves it. -/
def Created (c : Client) : Prop :=
  ∃ defaultOps calloc cfg out, wsmDhcpClientCreate defaultOps calloc cfg out = .ok c

/-- The defaults stand in for zeros: a client that was created sends at least once in a phase and
handles at least one datagram in a poll. -/
theorem Created.eq {c : Client} (h : Created c) :
    ∃ (ops : Ops) (timeout : UInt32) (packets tries : UInt8)
    (interval : UInt32), packets ≠ 0 ∧ tries ≠ 0 ∧ interval ≠ 0 ∧
      c = { ops := ops, recvTimeoutMs := timeout, stepPackets := packets, xmitTries :=
        tries, xmitIntervalMs := interval } := by
  obtain ⟨defaultOps, calloc, cfg, out, h⟩ := h
  have hdefault8 : ∀ {x d : UInt8}, d ≠ 0 → (if x ≠ 0 then x else d) ≠ 0 := by
    intro x d hd
    split <;> assumption
  have hdefault32 : ∀ {x d : UInt32}, d ≠ 0 → (if x ≠ 0 then x else d) ≠ 0 := by
    intro x d hd
    split <;> assumption
  unfold wsmDhcpClientCreate at h
  split at h
  · cases h
  split at h
  · cases h
  split at h
  · cases h
  split at h
  · cases h
  · obtain rfl := Except.ok.inj h
    exact ⟨_, _, _, _, _, hdefault8 (by decide), hdefault8 (by decide),
      hdefault32 (by decide), rfl⟩

end WsmDriver.Dhcp
