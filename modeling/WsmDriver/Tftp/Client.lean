import WsmDriver.Effect.Logic
import WsmDriver.W6300.Bytes

/-!
# The TFTP client

`tftp_core.c`: a file is read from a server in blocks of 512 bytes, each acknowledged before the
server sends the next. The client is polled: `tftpc_run` resends what has not been answered for too
long, and takes one datagram. It keeps its state in globals, the receive buffer among them, which
holds the bytes of earlier datagrams behind those of the newest one.
-/

namespace WsmDriver.Tftp

open Effect Program
open W6300 (be16 word)

/-! ## The data -/

/-- `TFTP_RRQ` and the other opcodes. -/
def tftpRrq : UInt16 := 1

def tftpData : UInt16 := 3

def tftpAck : UInt16 := 4

def tftpError : UInt16 := 5

def tftpOack : UInt16 := 6

/-- `TFTP_SERVER_PORT` and `TFTP_TEMP_PORT`. -/
def tftpServerPort : UInt16 := 69

def tftpTempPort : UInt16 := 51000

/-- `TFTP_BLK_SIZE` and `MAX_MTU_SIZE`. -/
def tftpBlkSize : UInt32 := 512

def maxMtuSize : ℕ := 1514

/-- `g_tftp_state`. -/
inductive State
  | none | rrq | wrq | data | ack | oack
  deriving DecidableEq, Repr

/-- `g_progress_state`. -/
inductive Progress
  | progress | fail | success
  deriving DecidableEq, Repr

/-- The globals. A string is kept without its end. -/
structure Globals where
  socket : ℤ := -1
  filename : List UInt8 := []
  serverIp : UInt32 := 0
  serverPort : UInt16 := 0
  localPort : UInt16 := 0
  state : State := .none
  blockNum : UInt16 := 0
  timeout : UInt32 := 5
  resendFlag : Bool := false
  timeCnt : UInt32 := 0
  retryCnt : UInt32 := 0
  rcvBuf : List UInt8 := []
  progress : Progress := .progress
  deriving DecidableEq, Repr

/-- A datagram that was received. -/
structure Received where
  data : List UInt8
  fromIp : UInt32
  fromPort : UInt16
  deriving DecidableEq, Repr

/-- What the client asks of the transport and of the application. -/
inductive TftpOp
  /-- `tftp_transport_open`. -/
  | openSocket (localPort : UInt16)
  /-- `tftp_transport_send`. -/
  | send (fd : ℤ) (packet : List UInt8) (ip : UInt32) (port : UInt16)
  /-- `tftp_transport_recv` of at most `len` bytes. -/
  | recv (fd : ℤ) (len : ℕ)
  /-- `save_data`: a pointer to `data`, and how much of it is meant. -/
  | saveData (data : List UInt8) (dataLen : UInt32) (blockNumber : UInt16)
  deriving DecidableEq

/-- The answer to each operation. -/
abbrev TftpOp.Ans : TftpOp → Type
  | .openSocket _ | .send .. => ℤ
  | .recv .. => Option Received
  | .saveData .. => Unit

/-- The programs of the client. -/
abbrev Client := Program Globals TftpOp.Ans

/-- Perform an operation. -/
abbrev ask (o : TftpOp) : Client o.Ans := perform o

/-! ## Timeouts -/

/-- `init_tftp`. -/
def Globals.init (s : Globals) : Globals :=
  { s with
    filename := []
    serverIp := 0
    serverPort := 0
    localPort := 0
    state := .none
    blockNum := 0
    resendFlag := false
    retryCnt := 0
    timeCnt := 0
    progress := .progress }

/-- `tftp_cancel_timeout`. -/
def Globals.cancelTimeout (s : Globals) : Globals :=
  if s.resendFlag = true then { s with resendFlag := false, retryCnt := 0, timeCnt := 0 } else s

/-- `tftp_reg_timeout`. -/
def Globals.regTimeout (s : Globals) : Globals :=
  if s.resendFlag = false then { s with resendFlag := true, retryCnt := 0, timeCnt := 0 } else s

/-- `tftpc_timeout_handler`. -/
def tftpcTimeoutHandler : Client Unit :=
  modify fun s ↦ if s.resendFlag = true then { s with timeCnt := s.timeCnt + 1 } else s

/-! ## Sending -/

/-- `send_udp_packet`. -/
def sendUdpPacket (packet : List UInt8) (ip : UInt32) (port : UInt16) : Client ℤ := do
  let s ← get
  let sndLen ← ask (.send s.socket packet ip port)
  return if sndLen ≠ packet.length then -1 else sndLen

/-- A string with its end. -/
def cString (text : List UInt8) : List UInt8 := text ++ [0]

/-- `TRANS_BINARY`: `"octet"`. -/
def transBinary : List UInt8 := [0x6f, 0x63, 0x74, 0x65, 0x74]

/-- `default_tftp_opt`: the option `"timeout"` with the value `"5"`. -/
def defaultTftpOpt : List UInt8 × List UInt8 := ([0x74, 0x69, 0x6d, 0x65, 0x6f, 0x75, 0x74], [0x35])

/-- The packet that `send_tftp_rrq` builds. -/
def rrqPacket (filename mode : List UInt8) (opt : List (List UInt8 × List UInt8)) : List UInt8 :=
  be16 tftpRrq ++ cString filename ++ cString mode ++ opt.flatMap fun o ↦ cString o.1 ++ cString o.2

/-- `send_tftp_rrq`. -/
def sendTftpRrq (filename mode : List UInt8) (opt : List (List UInt8 × List UInt8)) :
    Client Unit := do
  let s ← get
  discard (sendUdpPacket (rrqPacket filename mode opt) s.serverIp tftpServerPort)
  modify fun s ↦ ({ s with state := .rrq, filename := filename } : Globals).regTimeout

/-- The packet that `send_tftp_ack` builds. -/
def ackPacket (blockNumber : UInt16) : List UInt8 := be16 tftpAck ++ be16 blockNumber

/-- `send_tftp_ack`. -/
def sendTftpAck (blockNumber : UInt16) : Client Unit := do
  let s ← get
  discard (sendUdpPacket (ackPacket blockNumber) s.serverIp s.serverPort)
  modify Globals.regTimeout

/-! ## Receiving -/

/-- `ntohs` of the two bytes at `i`, in place. -/
def swapAt (buf : List UInt8) (i : ℕ) : List UInt8 :=
  (buf.set i (buf.getD (i + 1) 0)).set (i + 1) (buf.getD i 0)

/-- A block that is the expected one. -/
def acceptBlock (msgLen : UInt32) (blockNum : UInt16) : Client Unit := do
  modify fun s ↦ { s with state := .data, blockNum := blockNum }
  let s ← get
  ask (.saveData (s.rcvBuf.drop 4) (msgLen - 4) blockNum)
  modify Globals.cancelTimeout

/-- What is done with every block: it is acknowledged, and a short one is the end. -/
def answerBlock (msgLen : UInt32) (blockNum : UInt16) : Client Unit := do
  sendTftpAck blockNum
  when (msgLen - 4 < tftpBlkSize) do
    modify fun s ↦ { s.init with progress := .success }

/-- `recv_tftp_data`. -/
def recvTftpData (msgLen : UInt32) : Client Unit := do
  let s ← get
  let blockNum := word (s.rcvBuf.drop 2)
  modify fun s ↦ { s with rcvBuf := swapAt (swapAt s.rcvBuf 0) 2 }
  if s.state = .rrq ∨ s.state = .oack then
    when (blockNum = 1) (acceptBlock msgLen blockNum)
    answerBlock msgLen blockNum
  else if s.state = .data then
    -- The sum is an `int`.
    when (blockNum.toNat = s.blockNum.toNat + 1) (acceptBlock msgLen blockNum)
    answerBlock msgLen blockNum
  else return ()

/-- `recv_tftp_oack`. The options are not looked at. -/
def recvTftpOack : Client Unit := do
  let s ← get
  if s.state = .rrq then
    modify fun s ↦ ({ s with state := .oack } : Globals).cancelTimeout
    sendTftpAck 0
  else if s.state = .wrq then
    modify fun s ↦ ({ s with state := .ack } : Globals).cancelTimeout
  else return ()

/-- `recv_tftp_error`. -/
def recvTftpError : Client Unit :=
  modify fun s ↦
    { ({ s with rcvBuf := swapAt (swapAt s.rcvBuf 0) 2 } : Globals).init with progress := .fail }

/-- `recv_tftp_packet` takes the server's port from the answer to a request. -/
def Globals.learnPort (s : Globals) (fromPort : UInt16) : Globals :=
  if s.state = .wrq ∨ s.state = .rrq then { s with serverPort := fromPort } else s

/-- `recv_tftp_packet`. A client does nothing about requests and acknowledgements. -/
def recvTftpPacket (packetLen : UInt32) (fromIp : UInt32) (fromPort : UInt16) : Client Unit := do
  let s ← get
  if fromIp ≠ s.serverIp then return ()
  else
    let opcode := word s.rcvBuf
    modify fun s ↦ s.learnPort fromPort
    if opcode = tftpData then recvTftpData packetLen
    else if opcode = tftpOack then recvTftpOack
    else if opcode = tftpError then recvTftpError
    else return ()

/-! ## The calls -/

/-- The `switch` of `tftpc_run`: what has not been answered is sent again. -/
def resendPacket (s : Globals) : Client Unit :=
  if s.state = .rrq then sendTftpRrq s.filename transBinary [defaultTftpOpt]
  else when (s.state = .oack ∨ s.state = .data) (sendTftpAck s.blockNum)

/-- The first half of `tftpc_run`. -/
def timeoutProcess : Client Unit := do
  let s ← get
  when (s.resendFlag = true ∧ s.timeout ≤ s.timeCnt) do
    resendPacket s
    modify fun s ↦ { s with timeCnt := 0, retryCnt := s.retryCnt + 1 }
    modify fun s ↦ if 5 ≤ s.retryCnt then { s.init with progress := .fail } else s

/-- The second half, with what was received. -/
def receiveProcess : Option Received → Client Unit
  | none => pure ()
  | some r => do
    modify fun s ↦ { s with rcvBuf := r.data ++ s.rcvBuf.drop r.data.length }
    recvTftpPacket (UInt32.ofNat r.data.length) r.fromIp r.fromPort

/-- `tftpc_run`. -/
def tftpcRun : Client Progress := do
  timeoutProcess
  let s ← get
  let received ← ask (.recv s.socket maxMtuSize)
  receiveProcess received
  let s ← get
  return s.progress

/-- `tftpc_init`. -/
def tftpcInit (buf : List UInt8) : Client Unit := do
  modify Globals.init
  let socket ← ask (.openSocket tftpTempPort)
  modify fun s ↦ { s with socket := socket, rcvBuf := buf }

/-- `tftpc_read_request`. -/
def tftpcReadRequest (serverIp : UInt32) (filename : List UInt8) : Client Unit := do
  modify fun s ↦ { s with serverIp := serverIp, progress := .progress }
  sendTftpRrq filename transBinary [defaultTftpOpt]

end WsmDriver.Tftp
