import WsmDriver.W6300.Bytes
import WsmDriver.W6300.Types

/-!
# The functions of `esp_eth_mac_w6300.c`

The paths of a frame through the driver, in the order of the source. `ESP_GOTO_ON_ERROR` is the
error of the failing program, `ESP_GOTO_ON_FALSE` is `ensure`, and what the source does not look at
is caught.
-/

namespace WsmDriver.W6300

open Effect Failing

/-! ## Bus accesses -/

/-- `w6300_read`. -/
def w6300Read (r : Reg) (len : ℕ) : Mac (Vector UInt8 len) := ExceptT.mk (ask (.read r len))

/-- `w6300_write`. -/
def w6300Write (r : Reg) (data : List UInt8) : Mac Unit := ExceptT.mk (ask (.write r data))

/-- `w6300_write_u8`. -/
def w6300WriteU8 (r : Reg) (value : UInt8) : Mac Unit := w6300Write r [value]

/-- `w6300_read_u16`: the 16-bit registers are big-endian. -/
def w6300ReadU16 (r : Reg) : Mac UInt16 := do
  let buf ← w6300Read r 2
  return ((buf.get 0).toUInt16 <<< 8) ||| (buf.get 1).toUInt16

/-- `w6300_write_u16`. -/
def w6300WriteU16 (r : Reg) (value : UInt16) : Mac Unit :=
  w6300Write r [(value >>> 8).toUInt8, value.toUInt8]

/-! ## Chip housekeeping -/

/-- The `for` loop of `w6300_send_command`, with `n` turns left. -/
def w6300AwaitCommand : ℕ → Mac Unit
  | 0 => throw .timeout
  | n + 1 => do
    let command ← w6300Read .sockCr 1
    if command.get 0 = 0 then return ()
    else
      discard <| op (.vTaskDelay 10)
      w6300AwaitCommand n

/-- `w6300_send_command`. -/
def w6300SendCommand (command : UInt8) (timeoutMs : ℕ) : Mac Unit := do
  w6300WriteU8 .sockCr command
  w6300AwaitCommand (timeoutMs / 10)

/-- `w6300_clear_sock_intr`. -/
def w6300ClearSockIntr (bits : UInt8) : Mac Unit := w6300WriteU8 .sockIrclr bits

/-- The body of the loops that read a size until two reads agree. -/
def w6300AgreedSize (r : Reg) : Mac (Option UInt16) := do
  let size0 ← w6300ReadU16 r
  let size1 ← w6300ReadU16 r
  return if size0 ≠ size1 then none else some size0

/-- `w6300_get_tx_free_size`. -/
def w6300GetTxFreeSize : Mac UInt16 := Failing.forever (w6300AgreedSize .sockTxFsr)

/-- `w6300_get_rx_received_size`. -/
def w6300GetRxReceivedSize : Mac UInt16 := Failing.forever (w6300AgreedSize .sockRxRsr)

/-- `w6300_get_rx_received_size` as it is called: its result is not looked at, and the size stays 0
if it fails. -/
def w6300RxReceivedSize : Driver UInt16 := do
  match ← w6300GetRxReceivedSize.run with
  | .ok size => return size
  | .error _ => return 0

/-! ## Transmitting -/

/-- `is_w6300_sane_for_rxtx`. -/
def isW6300SaneForRxtx : Driver Bool := do
  match ← (w6300Read .physr 1).run with
  | .ok physr => return decide (physr.get 0 &&& physrLnk ≠ 0)
  | .error _ => return false

/-- The body of the wait of `emac_w6300_transmit`. -/
def emacW6300TransmitTurn (start : UInt64) : Mac (Option Unit) := do
  let now ← op .espTimerGetTime
  let sane ← ExceptT.lift isW6300SaneForRxtx
  let emac ← get
  ensure (sane = true ∧ now - start ≤ emac.txTmo.toUInt64) .fail
  let status ← w6300Read .sockIr 1
  return if status.get 0 &&& sirSendok = 0 then none else some ()

/-- `emac_w6300_transmit`. -/
def emacW6300Transmit (buf : List UInt8) : Mac Unit := do
  ensure (buf.length ≤ ethMaxPacketSize) .invalidArg
  let freeSize ← w6300GetTxFreeSize
  ensure (buf.length ≤ freeSize.toNat) .noMem
  let offset ← w6300ReadU16 .sockTxWr
  w6300Write (.memSockTx offset) buf
  w6300WriteU16 .sockTxWr (offset + UInt16.ofNat buf.length)
  w6300SendCommand scrSend 100
  let start ← op .espTimerGetTime
  Failing.forever (emacW6300TransmitTurn start)
  w6300ClearSockIntr sirSendok

/-! ## Receiving -/

/-- What the two header bytes say: the length of the frame, header included. -/
def headerTotal (head : Vector UInt8 2) : UInt16 :=
  ((head.get 0 &&& rxHeaderLenMask).toUInt16 <<< 8) ||| (head.get 1).toUInt16

/-- `w6300_read_frame_header`: the payload length. -/
def w6300ReadFrameHeader (offset : UInt16) : Mac UInt16 := do
  let head ← w6300Read (.memSockRx offset) 2
  ensure (rxHeaderSize ≤ headerTotal head) .invalidSize
  return headerTotal head - rxHeaderSize

/-- What every path starts with once there are bytes: the read pointer, and the payload length of
the frame it points at. -/
def w6300NextFrame : Mac (UInt16 × UInt16) := do
  let offset ← w6300ReadU16 .sockRxRd
  let rxLen ← w6300ReadFrameHeader offset
  return (offset, rxLen)

/-- `emac_w6300_alloc_recv_buf`: the result with the buffer, `none` for a null pointer, and what is
stored in `*length`. -/
def emacW6300AllocRecvBuf (length : UInt32) :
    Driver (Except EspErr (Option AutoBufInfo) × UInt32) := do
  let remainBytes ← w6300RxReceivedSize
  if remainBytes = 0 then return (.ok none, 0)
  match ← w6300NextFrame.run with
  | .error err => return (.error err, 0)
  | .ok (offset, rxLen) =>
    -- Frames larger than expected are truncated.
    let copyLen := if length < rxLen.toUInt32 then length else rxLen.toUInt32
    if copyLen.toNat < ethMinPacketSize - ethCrcLen then
      return (.error .invalidSize, rxLen.toUInt32)
    let granted ← ask (.malloc copyLen)
    if granted = true then
      return (.ok (some ⟨offset.toUInt32, copyLen, rxLen.toUInt32, remainBytes.toUInt32⟩),
        rxLen.toUInt32)
    else return (.error .noMem, rxLen.toUInt32)

/-- The end of `emac_w6300_receive` and of `emac_w6300_flush_recv_frame`: the read pointer moves
behind the frame, which is committed, and the bytes left tell whether there is more to do. -/
def w6300CommitFrame (offset rxLen remainBytes : UInt16) : Mac Unit := do
  w6300WriteU16 .sockRxRd offset
  w6300SendCommand scrRecv 100
  modify fun emac ↦ { emac with packetsRemain := decide (0 < remainBytes - (rxLen + rxHeaderSize)) }

/-- The second half of `emac_w6300_receive`: read the payload behind the header at `offset` and
commit the frame. -/
def w6300TakeFrame (offset copyLen rxLen remainBytes : UInt16) : Mac (UInt32 × List UInt8) := do
  let payload ← w6300Read (.memSockRx (offset + rxHeaderSize)) copyLen.toNat
  w6300CommitFrame (offset + rxHeaderSize + rxLen) rxLen remainBytes
  return (copyLen.toUInt32, payload.toList)

/-- `emac_w6300_receive` into a buffer that starts with `info`: what is stored in `*length` and the
bytes stored in the buffer. On an error `*length` is 0. -/
def emacW6300Receive (info : AutoBufInfo) (length : UInt32) : Mac (UInt32 × List UInt8) := do
  modify fun emac ↦ { emac with packetsRemain := false }
  if length = rxBufSizeAuto then
    w6300TakeFrame info.offset.toUInt16 info.copyLen.toUInt16 info.rxLen.toUInt16
      info.remain.toUInt16
  else
    let remainBytes ← ExceptT.lift w6300RxReceivedSize
    if remainBytes = 0 then return (0, [])
    let (offset, rxLen) ← w6300NextFrame
    let copyLen := if length < rxLen.toUInt32 then length else rxLen.toUInt32
    w6300TakeFrame offset copyLen.toUInt16 rxLen remainBytes

/-- `emac_w6300_flush_recv_frame`. -/
def emacW6300FlushRecvFrame : Mac Unit := do
  modify fun emac ↦ { emac with packetsRemain := false }
  let remainBytes ← ExceptT.lift w6300RxReceivedSize
  if remainBytes = 0 then return ()
  let (offset, rxLen) ← w6300NextFrame
  w6300CommitFrame (offset + (rxLen + rxHeaderSize)) rxLen remainBytes

/-! ## The task -/

/-- What the task does with an allocated buffer: the frame goes to the stack, or the buffer is
freed. -/
def emacW6300Deliver (buffer : AutoBufInfo) (frameLen : UInt32) : Driver Unit := do
  match ← (emacW6300Receive buffer rxBufSizeAuto).run with
  | .error _ => ask .free
  | .ok (bufLen, frame) =>
    if bufLen = 0 then ask .free
    else if bufLen < frameLen then ask .free
    else ask (.stackInput frame)

/-- What the task does with the result of the allocation. Without memory, or after an unexpected
error, the frame is dropped. -/
def emacW6300Dispatch : Except EspErr (Option AutoBufInfo) × UInt32 → Driver Unit
  | (.ok (some buffer), frameLen) => emacW6300Deliver buffer frameLen
  | (.ok none, _) => pure ()
  | (.error _, _) => discard emacW6300FlushRecvFrame.run

/-- The body of the `do`/`while` loop of `emac_w6300_task`, which goes on while packets remain. -/
def emacW6300TaskTurn : Driver (Option Unit) := do
  let allocated ← emacW6300AllocRecvBuf (UInt32.ofNat ethMaxPacketSize)
  emacW6300Dispatch allocated
  let emac ← get
  return if emac.packetsRemain = true then none else some ()

/-- The wait at the head of the loop of `emac_w6300_task`: whether there is something to look at. -/
def emacW6300Wait : Driver Bool := do
  let emac ← get
  if 0 ≤ emac.intGpioNum then
    let notified ← ask (.ulTaskNotifyTake true)
    if notified = 0 then
      let level ← ask (.gpioGetLevel emac.intGpioNum)
      return decide (level = 0)
    else return true
  else
    discard <| ask (.ulTaskNotifyTake false)
    return true

/-- Read `Sn_IR` into `status`. -/
def emacW6300ReadStatus : Driver Unit := do
  match ← (w6300Read .sockIr 1).run with
  | .error _ => return ()
  | .ok status => modify fun emac ↦ { emac with status := status.get 0 }

/-- What the task does once it was woken. -/
def emacW6300Serve : Driver Unit := do
  emacW6300ReadStatus
  let emac ← get
  if emac.status &&& sirRecv ≠ 0 then
    discard (w6300ClearSockIntr sirRecv).run
    Program.forever emacW6300TaskTurn
  else return ()

/-- The body of the loop of `emac_w6300_task`. -/
def emacW6300TaskBody : Driver (Option Empty) := do
  let awake ← emacW6300Wait
  if awake = true then
    emacW6300Serve
    return none
  else return none

/-- `emac_w6300_task`. -/
def emacW6300Task : Driver Empty := Program.forever emacW6300TaskBody

end WsmDriver.W6300
