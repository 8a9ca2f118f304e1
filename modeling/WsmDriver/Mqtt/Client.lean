import WsmDriver.Effect.Program
import WsmDriver.W6300.Bytes

/-!
# The MQTT client

The part of `mqtt.c` that turns packets into bytes and bytes into packets: reading from the socket
with time-outs, the remaining length, `read_packet`, and the packets the client sends.

## Representation

A text is the list of its bytes. What a function stores through a pointer of its caller is returned
beside its result, and where the pointer is `rxbuf`, the caller puts it there. A loop of the source
has its locals in the context, as it has no other place for them here.
-/

namespace WsmDriver.Mqtt

open Effect Program
open W6300 (be16)

/-! ## Constants -/

/-- `MQTT_PKT_CONNECT`, `MQTT_PKT_PUBLISH` and `MQTT_PKT_SUBSCRIBE`. -/
def mqttPktConnect : UInt8 := 1

def mqttPktPublish : UInt8 := 3

def mqttPktSubscribe : UInt8 := 8

/-- `MQTT_PROTOCOL_LEVEL`. -/
def mqttProtocolLevel : UInt8 := 0x04

/-- `CONNECT_CLEAN_SESSION`, `CONNECT_PASSWORD` and `CONNECT_USERNAME`. -/
def connectCleanSession : UInt8 := 0x02

def connectPassword : UInt8 := 0x40

def connectUsername : UInt8 := 0x80

/-- `MQTT_FIXED_HDR_MAX`. -/
def mqttFixedHdrMax : ℕ := 5

/-- `MQTT_ACK_TIMEOUT_MS`. -/
def mqttAckTimeoutMs : UInt32 := 5000

/-! ## The client -/

/-- `mqtt_config_t`, as far as it gets into packets. A name or a password that is `NULL` is
`none`. -/
structure MqttConfig where
  clientId : List UInt8 := []
  username : Option (List UInt8) := none
  password : Option (List UInt8) := none
  keepaliveS : UInt16 := 0
  pubTopic : List UInt8 := []
  pubPayload : List UInt8 := []
  subTopic : List UInt8 := []
  deriving DecidableEq

/-- `mqtt_ctx_t`, as far as it is read and written here, and the locals of three loops. -/
structure MqttCtx where
  cfg : MqttConfig := {}
  fd : ℤ := -1
  lastTxMs : UInt32 := 0
  lastRxMs : UInt32 := 0
  rxbuf : List UInt8
  cap : ℕ
  /-- What `read_exact` has stored so far. -/
  got : List UInt8 := []
  /-- The `len` of `drop_bytes`. -/
  toDrop : ℕ := 0
  /-- The `off` of `send_all`. -/
  off : ℕ := 0
  deriving DecidableEq

/-! ## Operations -/

/-- What `errno` is after a call that failed. -/
inductive Errno
  | ewouldblock | eagain | other
  deriving DecidableEq

/-- `errno_is_timeout`. -/
def errnoIsTimeout : Errno → Bool
  | .ewouldblock | .eagain => true
  | .other => false

inductive MqttOp
  | recv (fd : ℤ) (len : ℕ)
  | send (fd : ℤ) (data : List UInt8)
  | nowMs
  /-- `vTaskDelay(1)`. -/
  | delay
  deriving DecidableEq

/-- The answer to each operation. A call that returns -1 is an error; `recv` answers the bytes, none
at the end of the stream. -/
abbrev MqttOp.Ans : MqttOp → Type
  | .recv _ _ => Except Errno (List UInt8)
  | .send _ _ => Except Errno ℕ
  | .nowMs => UInt32
  | .delay => Unit

abbrev Client := Program MqttCtx MqttOp.Ans

/-- Perform an operation. -/
abbrev ask (o : MqttOp) : Client o.Ans := perform o

/-! ## Reading -/

/-- `rd_t`. -/
inductive Rd
  | ok | timeout | error
  deriving DecidableEq

/-- `recv_some`. -/
def recvSome (len : ℕ) : Client (Rd × List UInt8) := do
  let c ← get
  match ← ask (.recv c.fd len) with
  | .ok [] => return (.error, [])
  | .ok (b :: bytes) => do
    let now ← ask .nowMs
    modify fun c ↦ { c with lastRxMs := now }
    return (.ok, b :: bytes)
  | .error errno => return (if errnoIsTimeout errno = true then .timeout else .error, [])

/-- A turn of the loop of `read_exact`. -/
def readExactTurn (len : ℕ) (timeoutMs start : UInt32) : Client (Option Rd) := do
  let c ← get
  if len ≤ c.got.length then return some .ok
  match ← recvSome (len - c.got.length) with
  | (.error, _) => return some .error
  | (.timeout, _) => do
    let now ← ask .nowMs
    return if timeoutMs ≤ now - start then some .timeout else none
  | (.ok, bytes) => do
    modify fun c ↦ { c with got := c.got ++ bytes }
    return none

/-- `read_exact`, with what is in `buf` then. -/
def readExact (len : ℕ) (timeoutMs : UInt32) : Client (Rd × List UInt8) := do
  modify fun c ↦ { c with got := [] }
  let start ← ask .nowMs
  let r ← forever (readExactTurn len timeoutMs start)
  let c ← get
  return (r, c.got)

/-- Bytes are stored from the start of `rxbuf` on, over its end if there are too many. -/
def storeRx (bytes : List UInt8) : Client Unit :=
  modify fun c ↦ { c with rxbuf := bytes ++ c.rxbuf.drop bytes.length }

/-- A turn of the loop of `drop_bytes`. -/
def dropBytesTurn : Client (Option Rd) := do
  let c ← get
  if c.toDrop = 0 then return some .ok
  let chunk := if c.toDrop < c.cap then c.toDrop else c.cap
  let (r, bytes) ← readExact chunk mqttAckTimeoutMs
  storeRx bytes
  if r ≠ .ok then return some r
  modify fun c ↦ { c with toDrop := c.toDrop - chunk }
  return none

/-- `drop_bytes`. -/
def dropBytes (len : ℕ) : Client Rd := do
  modify fun c ↦ { c with toDrop := len }
  forever dropBytesTurn

/-- The loop of `read_remaining_len`, with so many turns to go: `none` for -1. -/
def readLengthBytes : ℕ → ℕ → ℕ → Client (Option ℕ)
  | 0, _, _ => return none
  | i + 1, value, mult => do
    let (r, bytes) ← readExact 1 mqttAckTimeoutMs
    if r ≠ .ok then return none
    let b := bytes.headD 0
    let value := value + (b &&& 0x7F).toNat * mult
    if b &&& 0x80 = 0 then return some value
    readLengthBytes i value (mult * 128)

/-- `read_remaining_len`. -/
def readRemainingLen : Client (Option ℕ) := readLengthBytes 4 0 1

/-- What `read_packet` returns: 1 and what it stores of the packet, 0, or -1. -/
inductive PacketRead
  | packet (type flags : UInt8) (bodyLen : ℕ)
  | nothing
  | over
  deriving DecidableEq

/-- `read_packet` from the remaining length on. -/
def readBody (hdr : UInt8) (rem : ℕ) : Client PacketRead := do
  let c ← get
  if c.cap < rem then
    let r ← dropBytes rem
    return if r = .ok then .nothing else .over
  else if rem = 0 then return .packet (hdr >>> 4) (hdr &&& 0x0F) rem
  else
    let (r, bytes) ← readExact rem mqttAckTimeoutMs
    storeRx bytes
    return if r = .ok then .packet (hdr >>> 4) (hdr &&& 0x0F) rem else .over

/-- `read_packet`. -/
def readPacket : Client PacketRead := do
  let (r, bytes) ← readExact 1 0
  match r with
  | .timeout => return .nothing
  | .error => return .over
  | .ok =>
    match ← readRemainingLen with
    | none => return .over
    | some rem => readBody (bytes.headD 0) rem

/-! ## Sending -/

/-- `enc_remaining_len`: a turn of the loop writes a byte. -/
def encRemainingLen (len : ℕ) : List UInt8 :=
  if len < 128 then [UInt8.ofNat len]
  else (UInt8.ofNat (len % 128) ||| 0x80) :: encRemainingLen (len / 128)
termination_by len
decreasing_by omega

/-- `enc_str`. The length is cut off at 16 bits. -/
def encStr (s : List UInt8) : List UInt8 := be16 (UInt16.ofNat s.length) ++ s

/-- `str_field_len`. -/
def strFieldLen (s : List UInt8) : ℕ := 2 + s.length

/-- The `has_user` and `has_pass` of `send_connect`. -/
def MqttConfig.hasUser (cfg : MqttConfig) : Bool := cfg.username.getD [] ≠ []

def MqttConfig.hasPass (cfg : MqttConfig) : Bool := cfg.hasUser && cfg.password.getD [] ≠ []

/-- `MQTT`. -/
def mqttName : List UInt8 := [0x4d, 0x51, 0x54, 0x54]

/-- What `send_connect` builds in `txbuf`, or nothing where it does not fit. -/
def connectPacket (cap : ℕ) (cfg : MqttConfig) : Option (List UInt8) :=
  let rem := 10 + strFieldLen cfg.clientId + (if cfg.hasUser = true then
    strFieldLen (cfg.username.getD []) else 0) +
    (if cfg.hasPass = true then strFieldLen (cfg.password.getD []) else 0)
  if cap < mqttFixedHdrMax + rem then none
  else some ((mqttPktConnect <<< 4) ::
    (encRemainingLen rem ++ (encStr mqttName ++ ([mqttProtocolLevel,
    connectCleanSession ||| (if cfg.hasUser = true then connectUsername else 0) |||
      (if cfg.hasPass = true then connectPassword else 0)] ++
        (be16 cfg.keepaliveS ++ (encStr cfg.clientId ++
    ((if cfg.hasUser = true then encStr (cfg.username.getD []) else []) ++
      (if cfg.hasPass = true then encStr (cfg.password.getD []) else []))))))))

/-- What `send_subscribe` builds. -/
def subscribePacket (cap : ℕ) (cfg : MqttConfig) (pktId : UInt16) : Option (List UInt8) :=
  let rem := 2 + strFieldLen cfg.subTopic + 1
  if cap < mqttFixedHdrMax + rem then none
  else some ((mqttPktSubscribe <<< 4 ||| 0x02) ::
    (encRemainingLen rem ++ (be16 pktId ++ (encStr cfg.subTopic ++ [0]))))

/-- What `send_publish` builds. -/
def publishPacket (cap : ℕ) (cfg : MqttConfig) : Option (List UInt8) :=
  let rem := strFieldLen cfg.pubTopic + cfg.pubPayload.length
  if cap < mqttFixedHdrMax + rem then none
  else some ((mqttPktPublish <<< 4) ::
    (encRemainingLen rem ++ (encStr cfg.pubTopic ++ cfg.pubPayload)))

/-- A turn of the loop of `send_all`. -/
def sendAllTurn (data : List UInt8) : Client (Option Bool) := do
  let c ← get
  if data.length ≤ c.off then
    let now ← ask .nowMs
    modify fun c ↦ { c with lastTxMs := now }
    return some true
  match ← ask (.send c.fd (data.drop c.off)) with
  | .ok 0 => return some false
  | .ok (w + 1) => do
    modify fun c ↦ { c with off := c.off + (w + 1) }
    return none
  | .error errno =>
    if errnoIsTimeout errno = true then
      ask .delay
      return none
    else return some false

/-- `send_all`. -/
def sendAll (data : List UInt8) : Client Bool := do
  modify fun c ↦ { c with off := 0 }
  forever (sendAllTurn data)

/-- `send_connect`, `send_subscribe` and `send_publish`, which send what they have built. -/
def sendBuilt : Option (List UInt8) → Client Bool
  | none => return false
  | some data => sendAll data

def sendConnect : Client Bool := do
  let c ← get
  sendBuilt (connectPacket c.cap c.cfg)

def sendSubscribe (pktId : UInt16) : Client Bool := do
  let c ← get
  sendBuilt (subscribePacket c.cap c.cfg pktId)

def sendPublish : Client Bool := do
  let c ← get
  sendBuilt (publishPacket c.cap c.cfg)

end WsmDriver.Mqtt
