import WsmDriver.Effect.Embed
import WsmDriver.Mqtt.Client

/-!
# The MQTT session

The rest of `mqtt.c`: what is done with the packets that arrive, the session from `tcp_connect` to
the `close` after it, and the task that starts one session after the other and never returns.

## Representation

What `Mqtt.Client` has of `mqtt_ctx_t` is the part `ctx` of the store here. Its functions work
through a window, so that the socket calls they make are among the operations of the task. A
`goto out` of `mqtt_session` is a return from `mqttTalk`, which is everything between the connection
and the `close`.
-/

namespace WsmDriver.Mqtt

open Effect Program
open W6300 (be16 word)

/-! ## Constants -/

/-- `MQTT_PKT_CONNACK`, `MQTT_PKT_PUBACK`, `MQTT_PKT_SUBACK` and `MQTT_PKT_PINGREQ`. -/
def mqttPktConnack : UInt8 := 2

def mqttPktPuback : UInt8 := 4

def mqttPktSuback : UInt8 := 9

def mqttPktPingreq : UInt8 := 12

/-- `SUBACK_FAILURE`. -/
def subackFailure : UInt8 := 0x80

/-- `MQTT_BUF_SIZE`, `MQTT_POLL_MS` and `MQTT_RECONNECT_MS`. -/
def mqttBufSize : ℕ := 2048

def mqttPollMs : ℕ := 1000

def mqttReconnectMs : ℕ := 5000

/-! ## The task -/

/-- What of `mqtt_config_t` gets into no packet. -/
structure MqttBroker where
  brokerIp : List UInt8 := []
  brokerPort : UInt16 := 0
  pubPeriodMs : UInt32 := 0
  /-- `pub_topic != NULL`. -/
  publishes : Bool := false
  /-- `sub_topic != NULL`. -/
  subscribes : Bool := false
  deriving DecidableEq

/-- The store of a client task: `mqtt_ctx_t` and the `last_pub_ms` of `mqtt_session`. -/
structure MqttTask where
  ctx : MqttCtx
  broker : MqttBroker := {}
  nextPktId : UInt16 := 1
  lastPubMs : UInt32 := 0
  deriving DecidableEq

inductive TaskOp
  | io (o : MqttOp)
  | malloc (size : ℕ)
  | socket
  /-- `SO_RCVTIMEO`, in milliseconds. -/
  | setRcvtimeo (fd : ℤ) (ms : ℕ)
  /-- `TCP_NODELAY`. -/
  | setNodelay (fd : ℤ)
  | connect (fd : ℤ) (ip : List UInt8) (port : UInt16)
  | close (fd : ℤ)
  | isUp
  | delayMs (ms : ℕ)
  /-- The line that shows a message: its topic and its payload. -/
  | log (topic payload : List UInt8)
  deriving DecidableEq

/-- The answer to each operation. `malloc` answers what it finds in the memory; `connect`, whether
it returned 0. -/
abbrev TaskOp.Ans : TaskOp → Type
  | .io o => o.Ans
  | .malloc _ => Option (List UInt8)
  | .socket => ℤ
  | .connect _ _ _ | .isUp => Bool
  | .setRcvtimeo _ _ | .setNodelay _ | .close _ | .delayMs _ | .log _ _ => Unit

abbrev Session := Program MqttTask TaskOp.Ans

/-- Perform an operation. -/
abbrev request (o : TaskOp) : Session o.Ans := perform o

/-- Where the client is in the task. -/
def clientWindow : Window MqttCtx MqttTask MqttOp.Ans TaskOp.Ans where
  see t := t.ctx
  put c t := { t with ctx := c }
  see_put _ _ := rfl
  put_see _ := rfl
  put_put _ _ _ := rfl
  op := .io
  ans _ a := a

/-- A function of the client, called from the task. -/
def client {α : Type} (p : Client α) : Session α := p.through clientWindow

/-! ## Outgoing packets -/

/-- `send_puback`. -/
def sendPuback (pktId : UInt16) : Client Bool := sendAll (mqttPktPuback <<< 4 :: 2 :: be16 pktId)

/-- `send_pingreq`. -/
def sendPingreq : Client Bool := sendAll [mqttPktPingreq <<< 4, 0]

/-! ## Incoming packets -/

/-- The `qos` of `handle_publish`. -/
def qosOf (flags : UInt8) : UInt8 := (flags >>> 1) &&& 0x03

/-- A message as `handle_publish` takes it from the body of a packet. -/
structure Message where
  topic : List UInt8
  payload : List UInt8
  pktId : UInt16
  deriving DecidableEq

/-- What `handle_publish` finds in the first `len` bytes of `p`; nothing where it warns and
returns. -/
def messageIn (flags : UInt8) (p : List UInt8) (len : ℕ) : Option Message :=
  if len < 2 then none
  else
    let topicLen := (word p).toNat
    let off := 2 + topicLen
    if len < off then none
    else if 0 < qosOf flags then
      if len < off + 2 then none
      else some ⟨(p.drop 2).take topicLen, (p.drop (off + 2)).take (len - (off + 2)),
        word (p.drop off)⟩
    else some ⟨(p.drop 2).take topicLen, (p.drop off).take (len - off), 0⟩

/-- `handle_publish`. -/
def handlePublish (flags : UInt8) (len : ℕ) : Session Unit := do
  let t ← get
  match messageIn flags t.ctx.rxbuf len with
  | none => return ()
  | some m => do
    request (.log m.topic m.payload)
    if qosOf flags = 1 then discard (client (sendPuback m.pktId))

/-- A turn of the loop of `wait_packet`. -/
def waitPacketTurn (want : UInt8) (timeoutMs start : UInt32) : Session (Option (Option ℕ)) := do
  match ← client readPacket with
  | .over => return some none
  | .nothing => waitPacketTimeout timeoutMs start
  | .packet type flags len =>
    if type = want then return some (some len)
    if type = mqttPktPublish then handlePublish flags len
    waitPacketTimeout timeoutMs start
where
  /-- The time-out at the end of the turn. -/
  waitPacketTimeout (timeoutMs start : UInt32) : Session (Option (Option ℕ)) := do
    let now ← request (.io .nowMs)
    return if timeoutMs ≤ now - start then some none else none

/-- `wait_packet`: the length of the body, or nothing for -1. -/
def waitPacket (want : UInt8) (timeoutMs : UInt32) : Session (Option ℕ) := do
  let start ← request (.io .nowMs)
  forever (waitPacketTurn want timeoutMs start)

/-! ## The session -/

/-- `tcp_connect`. -/
def tcpConnect : Session Bool := do
  let fd ← request .socket
  modify fun t ↦ { t with ctx := { t.ctx with fd := fd } }
  if fd < 0 then return false
  request (.setRcvtimeo fd mqttPollMs)
  request (.setNodelay fd)
  let t ← get
  if ← request (.connect fd t.broker.brokerIp t.broker.brokerPort) then return true
  request (.close fd)
  modify fun t ↦ { t with ctx := { t.ctx with fd := -1 } }
  return false

/-- CONNECT and CONNACK: may the session go on? -/
def mqttConnect : Session Bool := do
  if !(← client sendConnect) then return false
  match ← waitPacket mqttPktConnack mqttAckTimeoutMs with
  | none => return false
  | some len => do
    let t ← get
    return 2 ≤ len && t.ctx.rxbuf.getD 1 0 == 0

/-- `id = c->next_pkt_id++`, without 0. -/
def takePktId : Session UInt16 :=
  modifyGet fun t ↦
    (t.nextPktId, { t with nextPktId := if t.nextPktId + 1 = 0 then 1 else t.nextPktId + 1 })

/-- SUBSCRIBE and SUBACK. -/
def mqttSubscribe : Session Bool := do
  let id ← takePktId
  if !(← client (sendSubscribe id)) then return false
  match ← waitPacket mqttPktSuback mqttAckTimeoutMs with
  | none => return false
  | some len => do
    let t ← get
    return 3 ≤ len && t.ctx.rxbuf.getD 2 0 != subackFailure

/-- The publishing in a turn of `mqtt_session`; `false` for a `break`. -/
def publishIfDue (now : UInt32) : Session Bool := do
  let t ← get
  if t.broker.publishes = true ∧ t.broker.pubPeriodMs ≤ now - t.lastPubMs then
    modify fun t ↦ { t with lastPubMs := now }
    client sendPublish
  else return true

/-- `keepalive_ms`. -/
def MqttConfig.keepaliveMs (cfg : MqttConfig) : UInt32 := cfg.keepaliveS.toUInt32 * 1000

/-- The PINGREQ of the keep-alive. -/
def pingIfIdle (now : UInt32) : Session Bool := do
  let t ← get
  if t.ctx.cfg.keepaliveMs / 2 ≤ now - t.ctx.lastTxMs then client sendPingreq else return true

/-- The keep-alive in a turn of `mqtt_session`. -/
def keepAlive (now : UInt32) : Session Bool := do
  let t ← get
  if 0 < t.ctx.cfg.keepaliveMs then
    if !(← pingIfIdle now) then return false
    let t ← get
    return !(t.ctx.cfg.keepaliveMs + t.ctx.cfg.keepaliveMs / 2 ≤ now - t.ctx.lastRxMs : Bool)
  else return true

/-- A turn of the loop of `mqtt_session` from the look at the clock on. -/
def mqttUpkeep : Session (Option Unit) := do
  let now ← request (.io .nowMs)
  if !(← publishIfDue now) then return some ()
  if !(← keepAlive now) then return some ()
  return none

/-- A turn of the loop of `mqtt_session`. Packets other than PUBLISH count for `last_rx_ms` only. -/
def mqttTurn : Session (Option Unit) := do
  match ← client readPacket with
  | .over => return some ()
  | .nothing => mqttUpkeep
  | .packet type flags n =>
    if type = mqttPktPublish then handlePublish flags n
    mqttUpkeep

/-- `mqtt_session` between the connection and the `close`. -/
def mqttTalk : Session Unit := do
  if !(← mqttConnect) then return ()
  let t ← get
  if t.broker.subscribes = true then
    if !(← mqttSubscribe) then return ()
  let now ← request (.io .nowMs)
  modify fun t ↦ { t with lastPubMs := now }
  forever mqttTurn

/-- `mqtt_session`. -/
def mqttSession : Session Unit := do
  if !(← tcpConnect) then return ()
  let now ← request (.io .nowMs)
  modify fun t ↦ { t with ctx := { t.ctx with lastTxMs := now, lastRxMs := now } }
  mqttTalk
  let t ← get
  request (.close t.ctx.fd)
  modify fun t ↦ { t with ctx := { t.ctx with fd := -1 } }

/-! ## The task launcher -/

/-- A turn of the loop that waits for the link. -/
def waitLinkTurn : Session (Option Unit) := do
  if ← request .isUp then return some ()
  request (.delayMs 100)
  return none

/-- A turn of the loop of `mqtt_task`. -/
def mqttTaskTurn : Session (Option Unit) := do
  mqttSession
  request (.delayMs mqttReconnectMs)
  return none

/-- `mqtt_task`. The memory it gives back when there is too little of it is nobody's business
here. -/
def mqttTask : Session Unit := do
  let txbuf ← request (.malloc mqttBufSize)
  let rxbuf ← request (.malloc mqttBufSize)
  match txbuf, rxbuf with
  | some _, some rxbuf => do
    modify fun t ↦ { t with ctx := { t.ctx with rxbuf := rxbuf, cap := mqttBufSize } }
    forever waitLinkTurn
    forever mqttTaskTurn
  | _, _ => return ()

/-- The store `mqtt_client_start` hands to the task. -/
def mqttClientStart (cfg : MqttConfig) (broker : MqttBroker) : MqttTask :=
  { ctx := { cfg := cfg, rxbuf := [], cap := 0 }, broker := broker }

end WsmDriver.Mqtt
