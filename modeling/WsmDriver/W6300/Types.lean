import WsmDriver.Effect.Except
import Mathlib.Data.Int.Order.Basic

/-!
# The data of the W6300 MAC driver

What `esp_eth_mac_w6300.c` keeps and what it asks of the outside. The driver runs the chip's socket
0 in MACRAW mode: whole Ethernet frames go through the two 16 KB rings of that socket, each received
one behind a 2-byte PACKET-INFO header. The rings are addressed by 16-bit pointers that the chip
wraps.

The driver reaches the chip by bus accesses of its own, not through ioLibrary. Each access may fail,
and it is the only thing that happens atomically.
-/

namespace WsmDriver.W6300

open Effect

/-- `esp_err_t` values other than `ESP_OK`: the ones the driver names, and whatever a bus driver
reports. -/
inductive EspErr
  | fail | noMem | invalidArg | invalidSize | timeout
  | other (v : ℕ)
  deriving DecidableEq, Repr

/-! ## Constants -/

/-- `ETH_MAX_PACKET_SIZE`. -/
def ethMaxPacketSize : ℕ := 1522

/-- `ETH_MIN_PACKET_SIZE`. -/
def ethMinPacketSize : ℕ := 64

/-- `ETH_CRC_LEN`. -/
def ethCrcLen : ℕ := 4

/-- `W6300_RX_HEADER_SIZE`. -/
def rxHeaderSize : UInt16 := 2

/-- `W6300_RX_HEADER_LEN_MASK`: only these bits of the first header byte are the length. -/
def rxHeaderLenMask : UInt8 := 0x07

/-- `W6300_ETH_MAC_RX_BUF_SIZE_AUTO`. -/
def rxBufSizeAuto : UInt32 := 0

/-- `W6300_SOCK0_BUF_KB`, in bytes. -/
def sock0BufSize : ℕ := 16 * 1024

/-- `W6300_SCR_SEND` and `W6300_SCR_RECV`. -/
def scrSend : UInt8 := 0x20

def scrRecv : UInt8 := 0x40

/-- `W6300_SIR_SENDOK` and `W6300_SIR_RECV`. -/
def sirSendok : UInt8 := 0x10

def sirRecv : UInt8 := 0x04

/-- `W6300_PHYSR_LNK`. -/
def physrLnk : UInt8 := 0x01

/-! ## The driver and its surroundings -/

/-- The registers and memories of the chip that frames go through: those of socket 0, and the PHY
status. -/
inductive Reg
  | sockCr | sockIr | sockIrclr | sockTxFsr | sockTxWr | sockRxRsr | sockRxRd
  | memSockTx (offset : UInt16)
  | memSockRx (offset : UInt16)
  | physr
  deriving DecidableEq

/-- What the driver asks of the bus, of the allocator, of the operating system and of the stack. -/
inductive MacOp
  /-- `spi.read` of `len` bytes from `r` on. -/
  | read (r : Reg) (len : ℕ)
  /-- `spi.write`. -/
  | write (r : Reg) (data : List UInt8)
  /-- `malloc`: whether there is memory. -/
  | malloc (size : UInt32)
  | free
  /-- `stack_input`. -/
  | stackInput (frame : List UInt8)
  | vTaskDelay (ms : ℕ)
  | espTimerGetTime
  /-- `ulTaskNotifyTake`, without end or for a second: the number of notifications. -/
  | ulTaskNotifyTake (bounded : Bool)
  | gpioGetLevel (num : ℤ)
  deriving DecidableEq

/-- The answer to each operation. A read that succeeds has filled the buffer. -/
abbrev MacOp.Ans : MacOp → Type
  | .read _ len => Except EspErr (Vector UInt8 len)
  | .write .. => Except EspErr Unit
  | .malloc _ => Bool
  | .free | .stackInput _ | .vTaskDelay _ => Unit
  | .espTimerGetTime => UInt64
  | .ulTaskNotifyTake _ => UInt32
  | .gpioGetLevel _ => ℤ

/-- `emac_w6300_t`, and the `status` of its task, which keeps its value when a read fails. -/
structure Emac where
  packetsRemain : Bool := false
  intGpioNum : ℤ := -1
  txTmo : UInt32 := 200
  status : UInt8 := 0
  deriving DecidableEq, Repr

/-- `emac_w6300_auto_buf_info_t`: what is left in an allocated buffer for the function that fills
it. -/
structure AutoBufInfo where
  offset : UInt32
  copyLen : UInt32
  rxLen : UInt32
  remain : UInt32
  deriving DecidableEq, Repr

/-- The programs of the driver that return no `esp_err_t`. -/
abbrev Driver := Program Emac MacOp.Ans

/-- The programs of the driver that return an `esp_err_t`: on `ESP_OK`, with what they store through
their pointers. -/
abbrev Mac := Failing EspErr Emac MacOp.Ans

/-- Perform an operation. -/
abbrev ask (o : MacOp) : Driver o.Ans := Program.perform o

/-- Perform an operation on a path that may fail. -/
abbrev op (o : MacOp) : Mac o.Ans := Failing.perform EspErr o

end WsmDriver.W6300
