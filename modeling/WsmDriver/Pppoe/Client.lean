import Mathlib.Data.Finset.Erase
import Mathlib.Data.Finset.Insert
import WsmDriver.Effect.Trace
import WsmDriver.Format.Block
import WsmDriver.Pppoe.Md5
import WsmDriver.W6300.Bytes

/-!
# The PPPoE client

`PPPoE.c`, and the task of `pppoe_session.c`. A session is brought up over a raw socket of the chip:
a concentrator is discovered, the link is agreed on (LCP), the user gives a name and a password (PAP
or CHAP), an address is assigned (IPCP), and what has come of it is written to the chip.

The arrays of the source are lists of bytes of their sizes. An access outside of them has no defined
behaviour; here it is an operation after which the client does nothing more. The variables that the
loops of `ppp_recv` work on are in the store, since a loop has none of its own; of `acknak_opt` and
`rjt_opt` these are the bytes that have been put in.
-/

namespace WsmDriver.Pppoe

open Effect Program
open Format (Block readBytes)
open W6300 (be16 word)

/-! ## Constants -/

def pppMaxRetrysendCount : UInt8 := 5

def pppMaxRetryrecvCount : UInt8 := 32

def pppMaxRetryCount : UInt16 := 5

/-- The two Ethernet types. -/
def pppoeDiscovery : UInt16 := 0x8863

def pppoeSession : UInt16 := 0x8864

def pppoeVerType : UInt8 := 0x11

/-- `PPPoE_PADI` and the other codes of discovery. -/
def pppoePadi : UInt8 := 0x09

def pppoePado : UInt8 := 0x07

def pppoePadr : UInt8 := 0x19

def pppoePads : UInt8 := 0x65

/-- The tags of discovery. -/
def pppoedServiceName : UInt16 := 0x0101

def pppoedHostUniq : UInt16 := 0x0103

def pppoedAcCookie : UInt16 := 0x0104

/-- The protocols of a session. -/
def pppoeLcp : UInt16 := 0xC021

def pppoePap : UInt16 := 0xC023

def pppoeChap : UInt16 := 0xC223

def pppoeIpcp : UInt16 := 0x8021

/-- `PPP_CONFIG_REQ` and the other codes of the protocols. -/
def pppConfigReq : UInt8 := 0x01

def pppConfigAck : UInt8 := 0x02

def pppConfigNak : UInt8 := 0x03

def pppConfigRej : UInt8 := 0x04

def pppTermReq : UInt8 := 0x05

def pppTermAck : UInt8 := 0x06

def pppEchoReq : UInt8 := 0x09

/-- The options of LCP. -/
def lcpMru : UInt8 := 0x01

def lcpAuth : UInt8 := 0x03

def lcpMagicnum : UInt8 := 0x05

/-- The one algorithm of CHAP that is supported. -/
def chapMd5 : UInt8 := 0x05

/-- `OPTMSG_LEN`. -/
def optmsgLen : ℕ := 80

/-- `CV_HV_LEN`. -/
def cvHvLen : ℕ := 16

def pppoeDataBufSize : ℕ := 2048

/-! ## The store -/

/-- `PPPMSG`, the words in host order. -/
structure Pppmsg where
  dstMac : Block 6 := .zeros 6
  srcMac : Block 6 := .zeros 6
  etherType : UInt16 := 0
  versionType : UInt8 := 0
  frameCode : UInt8 := 0
  sessionId : UInt16 := 0
  len : UInt16 := 0
  deriving DecidableEq

def Pppmsg.bytes (m : Pppmsg) : List UInt8 :=
  m.dstMac.1 ++ m.srcMac.1 ++ be16 m.etherType ++ [m.versionType, m.frameCode] ++
    be16 m.sessionId ++ be16 m.len

/-- `PROTOCOL`, likewise. -/
structure Protocol where
  protocol : UInt16 := 0
  pcode : UInt8 := 0
  id : UInt8 := 0
  len : UInt16 := 0
  opt : Block optmsgLen := .zeros optmsgLen
  deriving DecidableEq

def Protocol.bytes (p : Protocol) : List UInt8 :=
  be16 p.protocol ++ [p.pcode, p.id] ++ be16 p.len ++ p.opt.1

/-- `pppoe_state`. The source has nothing else in the variable. -/
inductive PppoeState
  | discovery | lcp | pap | chap | ipcp | failed
  deriving DecidableEq

/-- The flags of `pppoe_control_flag`, which is a set of them. -/
inductive Flag
  | discoveryRcvPado | discoveryRcvPads | lcpCrRcv | lcpCrSnt | papAckRcv | chapSucRcv | ipcpCrSnt
  | ipcpCrRcv | ipcpNakRcv | terminationAckRcv | padoServicename
  deriving DecidableEq

/-- `t_idx`, what there is to go of the tags or options, and what has been put into `acknak_opt` and
`rjt_opt`. -/
structure Scan where
  tIdx : UInt16 := 0
  left : UInt16 := 0
  acknak : List UInt8 := []
  rjt : List UInt8 := []
  deriving DecidableEq

/-- The variables of `PPPoE.c`, with those of `pppoe_session.c` that it uses. -/
structure Globals where
  /-- `gDATABUF`, which `buf` points to. -/
  buf : Block pppoeDataBufSize := .zeros pppoeDataBufSize
  /-- `PPPMSG_req` and `PPPPROTO`. -/
  req : Pppmsg := {}
  proto : Protocol := {}
  nasMac : Block 6 := .zeros 6
  nasSessionid : UInt16 := 0
  authProtocol : UInt16 := 0
  chapAlgorithm : UInt8 := 0
  context : Md5Ctx := ⟨⟨0, 0, 0, 0⟩, 0, 0, .zeros 64⟩
  protocolId : UInt8 := 1
  pppoeState : PppoeState := .discovery
  controlFlag : Finset Flag := ∅
  retrySendCount : UInt8 := 0
  recvCount : UInt8 := 0
  retryCount : UInt16 := 0
  /-- `pppoe_ip`. -/
  ip : Block 4 := .zeros 4
  /-- The variables of the loops of `ppp_recv`, and `ret` of `ppp_start`. -/
  scan : Scan := {}
  ret : UInt8 := 2
  deriving DecidableEq

/-- `pppoe_id` and `pppoe_pw`. Their lengths are bytes. -/
structure Login where
  id : List UInt8
  pw : List UInt8
  id_lt : id.length < 256
  pw_lt : pw.length < 256

/-! ## Operations -/

/-- What `getSn_SR` may say, as far as it matters. -/
inductive SockStatus
  | closed | macraw | other
  deriving DecidableEq

inductive SockCommand
  | send | recv
  deriving DecidableEq

inductive PppOp
  | getSr
  | close
  /-- `socket`, in `Sn_MR_MACRAW`. -/
  | socket
  | getShar
  | getRxRsr
  /-- `wiz_recv_data` of the two bytes in front of a frame, and of a frame. -/
  | recvHead
  | recvData (n : ℕ)
  | sendData (frame : List UInt8)
  | setCr (c : SockCommand)
  | getCr
  | sleepMs (ms : ℕ)
  /-- `setMR(getMR() | MR_PPPOE)`, or `NETMR2` on the chips that have it there. -/
  | enablePppoe
  | setShar (mac : Block 6)
  | setSipr (ip : Block 4)
  | setPsid (sid : UInt16)
  | setPtimer (t : UInt8)
  | isUp
  /-- An access outside of an array. -/
  | undefined
  deriving DecidableEq

abbrev PppOp.Ans : PppOp → Type
  | .getSr => SockStatus
  | .getShar => Block 6
  | .getRxRsr => UInt16
  | .recvHead => UInt8 × UInt8
  | .recvData _ => List UInt8
  | .getCr => UInt8
  | .isUp => Bool
  | .undefined | .close | .socket | .sendData _ | .setCr _ | .sleepMs _ | .enablePppoe | .setShar
      _ | .setSipr _ | .setPsid _
  | .setPtimer _ => Unit

abbrev Ppp := Program Globals PppOp.Ans

abbrev ask (o : PppOp) : Ppp o.Ans := perform o

/-- Go on with what is in memory. -/
def defined {α : Type} : Option α → Ppp α
  | some a => return a
  | none => do
    ask .undefined
    forever (return none)

/-- `setSn_CR`, and the loop until the chip has taken the command. -/
def command (c : SockCommand) : Ppp Unit := do
  ask (.setCr c)
  forever do
    if (← ask .getCr) = 0 then return some ()
    return none

/-- `pppoe_control_flag = pppoe_control_flag | flag`. -/
def raise (flag : Flag) : Ppp Unit :=
  modify fun s ↦ { s with controlFlag := insert flag s.controlFlag }

/-- `set_pppinfo`. -/
def setPppinfo (nasMac : Block 6) (pppIp : Block 4) (nasSessionid : UInt16) : Ppp Unit := do
  ask .enablePppoe
  ask (.setShar nasMac)
  ask (.setSipr pppIp)
  ask (.setPsid nasSessionid)
  ask (.setPtimer 200)

/-! ## Sending -/

/-- The frame, and the buffer it is put together in. -/
def assemble (s : Globals) : Option (List UInt8 × Block pppoeDataBufSize) := do
  let ptr := if s.pppoeState = .discovery then s.proto.opt.1 else s.proto.bytes
  let payload ← readBytes s.req.len.toNat ptr 0
  let frame := s.req.bytes ++ payload
  let buf ← s.buf.write 0 frame
  return (frame, buf)

/-- `ppp_send`. -/
def pppSend : Ppp Unit := do
  let s ← get
  let (frame, buf) ← defined (assemble s)
  set { s with buf }
  ask (.sendData frame)
  command .send

/-- What every message of a session is sent with. -/
def sendProtocol (protocol : UInt16) (pcode id : UInt8) (msg : List UInt8) : Ppp Unit := do
  let s ← get
  let opt ← defined (s.proto.opt.write 0 msg)
  set { s with
    proto := ⟨protocol, pcode, id, .ofNat (msg.length + 4), opt⟩
    req := { s.req with len := .ofNat (msg.length + 6) } }
  pppSend

/-- `protocol_id++`. -/
def nextId : Ppp UInt8 :=
  modifyGet fun s ↦ (s.protocolId, { s with protocolId := s.protocolId + 1 })

/-- The header of a frame of the session. -/
def Globals.inSession (s : Globals) : Globals :=
  { s with req := { s.req with etherType := pppoeSession, frameCode := 0, sessionId :=
    s.nasSessionid } }

/-- `do_discovery`. -/
def doDiscovery : Ppp Unit := do
  let mac ← ask .getShar
  let s ← get
  let opt ← defined
    (s.proto.opt.write 0 ([0x01, 0x01, 0x00, 0x00, 0x01, 0x03, 0x00, 0x08, 0x00, 0x00] ++ mac.1))
  set { s with
    proto := { s.proto with opt }
    req := ⟨⟨.replicate 6 0xFF, rfl⟩, mac, pppoeDiscovery, pppoeVerType, pppoePadi, 0, 16⟩ }
  pppSend

/-- `do_lcp`. -/
def doLcp : Ppp Unit := do
  modify Globals.inSession
  let id ← nextId
  sendProtocol pppoeLcp pppConfigReq id [0x05, 0x06, 0x00, 0x01, 0x02, 0x03]

/-- `do_lcp_echo`. -/
def doLcpEcho : Ppp Unit := do
  modify Globals.inSession
  let id ← nextId
  sendProtocol pppoeLcp pppEchoReq id [0x00, 0x01, 0x02, 0x03]

/-- `do_pap`. -/
def doPap (login : Login) : Ppp Unit := do
  let id ← nextId
  sendProtocol pppoePap pppConfigReq id
    (.ofNat login.id.length :: login.id ++ .ofNat login.pw.length :: login.pw)

/-- `do_ipcp`. -/
def doIpcp : Ppp Unit := do
  let id ← nextId
  sendProtocol pppoeIpcp pppConfigReq id [0x03, 0x06, 0x00, 0x00, 0x00, 0x00]

/-! ## Tags and options -/

/-- A loop over the tags or options of a frame. A turn may be undefined, may leave the loop, or goes
on. -/
def scanLoop (turn : Globals → Option (Option Globals)) : Ppp Unit :=
  forever do
    match ← defined (turn (← get)) with
    | none => return some ()
    | some s => do
      set s
      return none

/-- A turn of the loop over the tags of a PADO. -/
def padoTurn (s : Globals) : Option (Option Globals) := do
  let c := s.scan
  if c.left = 0 then return none
  let head ← s.buf.read c.tIdx.toNat 4
  let tagname := word head
  let pppTagLen := word (head.drop 2)
  let size := pppTagLen.toNat + 4
  if optmsgLen < c.acknak.length + size then return none
  let rest : Scan := { c with tIdx := c.tIdx + (pppTagLen + 4), left := c.left - (pppTagLen + 4) }
  if tagname = pppoedServiceName then
    if .padoServicename ∈ s.controlFlag then return some { s with scan := rest }
    let tag ← s.buf.read c.tIdx.toNat size
    return some { s with
      scan := { rest with acknak := c.acknak ++ tag }
      controlFlag := insert .padoServicename s.controlFlag }
  if tagname = pppoedHostUniq ∨ tagname = pppoedAcCookie then
    let tag ← s.buf.read c.tIdx.toNat size
    return some { s with scan := { rest with acknak := c.acknak ++ tag } }
  return some { s with scan := rest }

/-- What is made of an option of LCP at `t`: is it acknowledged, or else rejected? -/
def lcpOption (optCode : UInt8) (_ t : ℕ) (s : Globals) : Option (Bool × Globals) := do
  -- `LCP_MRU` runs into `LCP_AUTH`
  if optCode = lcpMru ∨ optCode = lcpAuth then
    let v ← s.buf.read (t + 2) 3
    return (true, { s with authProtocol := word v, chapAlgorithm := v.getD 2 0 })
  return (optCode = lcpMagicnum, s)

/-- And of IPCP: 2 is the compression protocol, 3 the address. -/
def ipcpOption (optCode : UInt8) (optLen t : ℕ) (s : Globals) : Option (Bool × Globals) := do
  if optCode = 0x03 then
    -- `opt_len - 2` is the size of the copy, and huge if it is negative
    if optLen < 2 then none
    let v ← s.buf.read (t + 2) (optLen - 2)
    let ip ← s.ip.write 0 v
    return (true, { s with ip })
  return (optCode = 0x02, s)

/-- A turn of the loop over the options of LCP or IPCP. -/
def optionTurn (option : UInt8 → ℕ → ℕ → Globals → Option (Bool × Globals))
    (s : Globals) : Option (Option Globals) := do
  let c := s.scan
  if c.left = 0 then return none
  let head ← s.buf.read c.tIdx.toNat 2
  let optCode := head.getD 0 0
  let optLen := head.getD 1 0
  if optmsgLen < c.acknak.length + optLen.toNat ∨ optmsgLen < c.rjt.length + optLen.toNat then
    return none
  let opt ← s.buf.read c.tIdx.toNat optLen.toNat
  let (known, s) ← option optCode optLen.toNat c.tIdx.toNat s
  let rest : Scan := { c with tIdx := c.tIdx + optLen.toUInt16, left := c.left - optLen.toUInt16 }
  return some { s with
    scan := if known then { rest with acknak := c.acknak ++ opt } else
      { rest with rjt := c.rjt ++ opt } }

/-! ## Receiving -/

/-- A PADO. -/
def handlePado : Ppp Unit := do
  modify fun s ↦
    { s with nasMac := s.buf.part 6 6 (by decide), scan := ⟨20, word (s.buf.1.drop 18), [], []⟩ }
  scanLoop padoTurn
  let s ← get
  let opt ← defined (s.proto.opt.write 0 s.scan.acknak)
  set { s with
    proto := { s.proto with opt }
    req := { s.req with
      dstMac := s.nasMac, frameCode := pppoePadr, len := .ofNat s.scan.acknak.length } }
  pppSend
  raise .discoveryRcvPado

/-- The options of a Configure-Request, or of a Configure-Nak. -/
def scanOptions (option : UInt8 → ℕ → ℕ → Globals → Option (Bool × Globals)) :
    Ppp Scan := do
  modify fun s ↦ { s with scan := ⟨26, word (s.buf.1.drop 24) - 4, [], []⟩ }
  scanLoop (optionTurn option)
  return (← get).scan

/-- The messages of LCP. -/
def handleLcp (pppCode : UInt8) : Ppp Unit := do
  modify fun s ↦ { s with proto := { s.proto with protocol := pppoeLcp } }
  if pppCode = pppConfigReq then
    let id := (← get).buf.1.getD 23 0
    let c ← scanOptions lcpOption
    if c.rjt ≠ [] then sendProtocol pppoeLcp pppConfigRej id c.rjt
    else do
      sendProtocol pppoeLcp pppConfigAck id c.acknak
      raise .lcpCrRcv
  else if pppCode = pppConfigAck then raise .lcpCrSnt
  else if pppCode = pppTermAck then raise .terminationAckRcv
  else if pppCode = pppTermReq then do
    modify Globals.inSession
    let id ← nextId
    sendProtocol pppoeLcp pppTermAck id [0x00, 0x01, 0x02, 0x03]
  else return ()

/-- The messages of PAP. -/
def handlePap (pppCode : UInt8) : Ppp Unit :=
  when (pppCode = pppConfigAck) (raise .papAckRcv)

/-- What is answered to a challenge, and the context in the end. The array the digest is made of has
room for `OPTMSG_LEN` bytes, and so has the one for the answer. -/
def chapResponse (login : Login) (s : Globals) : Option (List UInt8 × Md5Ctx) := do
  let value ← s.buf.read 27 (s.buf.1.getD 26 0).toNat
  let str := value ++ login.pw ++ login.id
  if optmsgLen < str.length then none
  let (digest, context) ← md5Update (md5Start s.context.buffer) str >>= md5Final
  let response := UInt8.ofNat cvHvLen :: digest ++ login.id
  if optmsgLen < response.length then none
  return (response, context)

/-- The messages of CHAP. -/
def handleChap (login : Login) (pppCode : UInt8) : Ppp Unit := do
  let s ← get
  if s.chapAlgorithm = chapMd5 then
    if pppCode = 0x01 then
      let (response, context) ← defined (chapResponse login s)
      set { s with context }
      sendProtocol pppoeChap 0x02 (s.buf.1.getD 23 0) response
    else when (pppCode = 0x03) (raise .chapSucRcv)
  else return ()

/-- The messages of IPCP. -/
def handleIpcp (pppCode : UInt8) : Ppp Unit := do
  if pppCode = pppConfigReq ∨ pppCode = pppConfigNak then
    let id := (← get).buf.1.getD 23 0
    let c ← scanOptions ipcpOption
    if c.rjt ≠ [] then sendProtocol pppoeIpcp pppConfigRej id c.rjt
    else if pppCode = pppConfigReq then do
      sendProtocol pppoeIpcp pppConfigAck id c.acknak
      raise .ipcpCrRcv
    else do
      sendProtocol pppoeIpcp pppConfigReq id c.acknak
      raise .ipcpNakRcv
  else if pppCode = pppConfigAck ∧ .ipcpNakRcv ∈ (← get).controlFlag then
    raise .ipcpCrSnt

/-- The check of the destination: the differences of the six bytes add up to nothing. -/
def tmp8 (mac : Block 6) (buf : Block pppoeDataBufSize) : UInt8 :=
  (buf.1.zip mac.1).foldl (fun t (b, m) ↦ t + b - m) 0

/-- What is made of a frame that has been received. -/
def handleFrame (login : Login) (mac : Block 6) : Ppp Unit := do
  let s ← get
  let ethertype := word (s.buf.1.drop 12)
  let pppoecode := s.buf.1.getD 15 0
  let protocol := word (s.buf.1.drop 20)
  let pppCode := s.buf.1.getD 22 0
  if tmp8 mac s.buf = 0 then
    if ethertype = pppoeDiscovery then
      if pppoecode = pppoePado then handlePado
      else if pppoecode = pppoePads then do
        raise .discoveryRcvPads
        modify fun s ↦ { s with nasSessionid := word (s.buf.1.drop 16) }
      else return ()
    else if ethertype = pppoeSession then
      if protocol = pppoeLcp then handleLcp pppCode
      else if protocol = pppoePap then handlePap pppCode
      else if protocol = pppoeChap then handleChap login pppCode
      else when (protocol = pppoeIpcp) (handleIpcp pppCode)
    else return ()
  else return ()

/-- `ppp_recv`. -/
def pppRecv (login : Login) : Ppp Unit := do
  modify fun s ↦ { s with controlFlag := s.controlFlag.erase .padoServicename }
  let mac ← ask .getShar
  let head ← ask .recvHead
  command .recv
  let n := ((head.1.toUInt16 <<< 8 ||| head.2.toUInt16) - 2).toNat
  defined (if n ≤ pppoeDataBufSize then some () else none)
  let bytes ← ask (.recvData n)
  modify fun s ↦ { s with buf := s.buf.fill (bytes.take n) }
  command .recv
  handleFrame login mac

/-! ## The phases -/

/-- A turn of the loops that receive until a flag is there, 32 times at most. -/
def receiveTurn (login : Login) (flag : Flag) (onFlag : Ppp Unit) : Ppp (Option Unit) := do
  let s ← get
  if flag ∉ s.controlFlag ∧ s.recvCount < pppMaxRetryrecvCount then
    ask (.sleepMs 20)
    modify fun s ↦ { s with recvCount := s.recvCount + 1 }
    if 0 < (← ask .getRxRsr) then
      pppRecv login
      if flag ∈ (← get).controlFlag then onFlag
    return none
  else return some ()

/-- Such a loop. -/
def receiveLoop (login : Login) (flag : Flag) (onFlag : Ppp Unit) : Ppp Unit := do
  modify fun s ↦ { s with recvCount := 0 }
  forever (receiveTurn login flag onFlag)

def resetRetry (s : Globals) : Globals := { s with retrySendCount := 0 }

def countRetry (s : Globals) : Globals := { s with retrySendCount := s.retrySendCount + 1 }

/-- The phase of `PPPoE_DISCOVERY`. -/
def discoveryPhase (login : Login) : Ppp Unit := do
  if .discoveryRcvPado ∉ (← get).controlFlag then
    doDiscovery
    modify countRetry
  receiveLoop login .discoveryRcvPads (modify fun s ↦ resetRetry { s with pppoeState := .lcp })

/-- The phase of `PPPoE_LCP`. -/
def lcpPhase (login : Login) : Ppp Unit := do
  if .lcpCrRcv ∉ (← get).controlFlag then
    doLcpEcho
    modify countRetry
  receiveLoop login .lcpCrRcv (modify resetRetry)
  if .lcpCrRcv ∈ (← get).controlFlag then
    doLcp
    modify countRetry
    receiveLoop login .lcpCrSnt (modify fun s ↦
      if s.authProtocol = pppoePap then resetRetry { s with pppoeState := .pap }
      else if s.authProtocol = pppoeChap then resetRetry { s with pppoeState := .chap }
      else { s with pppoeState := .failed })

/-- The phase of `PPPoE_PAP`. -/
def papPhase (login : Login) : Ppp Unit := do
  if .papAckRcv ∉ (← get).controlFlag then
    doPap login
    modify countRetry
  receiveLoop login .papAckRcv (modify fun s ↦ resetRetry { s with pppoeState := .ipcp })

/-- The phase of `PPPoE_CHAP`. -/
def chapPhase (login : Login) : Ppp Unit :=
  receiveLoop login .chapSucRcv (modify fun s ↦ { s with pppoeState := .ipcp })

/-- The phase of `PPPoE_IPCP`. -/
def ipcpPhase (login : Login) : Ppp Unit := do
  receiveLoop login .ipcpCrRcv (modify resetRetry)
  if .ipcpCrRcv ∈ (← get).controlFlag then
    doIpcp
    modify countRetry
    receiveLoop login .ipcpCrSnt do
      modify resetRetry
      let s ← get
      setPppinfo s.nasMac s.ip s.nasSessionid
      modify fun s ↦ { s with ret := 1 }

/-- The phase of `PPP_FAILED`. -/
def failedPhase : Ppp Unit :=
  modify fun s ↦ { s with
    retryCount := s.retryCount + 1, controlFlag := ∅, retrySendCount := 0,
    pppoeState := .discovery }

/-- `ppp_start`. -/
def pppStart (login : Login) : Ppp UInt8 := do
  modify fun s ↦ { s with ret := 2 }
  match ← ask .getSr with
  | .closed => do
    ask .close
    ask .socket
  | .macraw => do
    modify fun s ↦ if pppMaxRetrysendCount < s.retrySendCount then
      { s with pppoeState := .failed } else s
    match (← get).pppoeState with
    | .discovery => discoveryPhase login
    | .lcp => lcpPhase login
    | .pap => papPhase login
    | .chap => chapPhase login
    | .ipcp => ipcpPhase login
    | .failed => failedPhase
    modify fun s ↦ if pppMaxRetrysendCount ≤ s.retrySendCount then
      { s with pppoeState := .failed } else s
  | .other => pure ()
  return (← get).ret

/-! ## The task -/

/-- A turn of the loop that waits for the chip. -/
def waitChipTurn : Ppp (Option Unit) := do
  if ← ask .isUp then return some ()
  ask (.sleepMs 100)
  return none

/-- A turn of the loop of `pppoe_task`. -/
def pppoeTaskTurn (login : Login) : Ppp (Option Unit) := do
  let ret ← pppStart login
  if ret = 1 ∨ pppMaxRetryCount < (← get).retryCount then return some ()
  ask (.sleepMs 10)
  return none

/-- `pppoe_task`, up to where it only sleeps. -/
def pppoeTask (login : Login) : Ppp Unit := do
  forever waitChipTurn
  forever (pppoeTaskTurn login)

end WsmDriver.Pppoe
