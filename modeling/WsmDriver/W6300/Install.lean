import Mathlib.Data.Int.Order.Basic
import WsmDriver.Effect.Except
import WsmDriver.Effect.Trace

/-!
# The life of a MAC driver

`esp_eth_mac_new_w6300` takes memory, a device on the SPI bus, a mutex, a task and, where the chip
is polled, a timer. Where one of these steps fails it gives back what it has got by then, and
`emac_w6300_del` gives back everything. Only one step is not undone: a device stays on the bus if
there is no mutex for it.

In between the Ethernet layer installs the driver, tells it about the link, and uninstalls it. The
chip comes out of a reset with its registers locked. A handler of interrupts, or the timer, then
wakes the task. Nobody looks whether the handler could be added.

What is held is kept beside the data of the driver, and changed by the calls into ESP-IDF only. The
task, the timer and the handler are given the driver's memory, which therefore is freed after them.

These are the functions that make the driver and delete it, and those that the Ethernet layer calls.
What the task does is not among them. With an interrupt line it wakes up every second, and where the
line is low it looks at the chip, whether the driver is installed or not.
-/

namespace WsmDriver.W6300.Install

open Effect Program Recorded

/-! ## The chip -/

/-- The registers that are used to bring the chip up, those of a socket with its number. -/
inductive Reg
  | cidr | rtl | sysr | sycr0 | sycr1 | chplckr | netlckr | phylckr | imr | simr | net4mr | net6mr
  | intptmr | sockMr | sockCr | sockSr | sockImr
  | sockTxbufSize (i : ℕ)
  | sockRxbufSize (i : ℕ)
  deriving DecidableEq

/-- `W6300_CHIP_ID`, and `W6300_RTL_MASK`. -/
def chipId : UInt16 := 0x6300

def rtlMask : UInt8 := 0x0F

/-- `W6300_CHIP_UNLOCK`, `W6300_NET_UNLOCK` and `W6300_PHY_UNLOCK`. -/
def chipUnlock : UInt8 := 0xCE

def netUnlock : UInt8 := 0x3A

def phyUnlock : UInt8 := 0x53

/-- `W6300_SYSR_CHPL`, `W6300_SYSR_NETL` and `W6300_SYSR_PHYL`: what is still locked. -/
def sysrLocks : UInt8 := 0x80 ||| 0x40 ||| 0x20

/-- `W6300_SYCR0_RST` and `W6300_SYCR1_IEN`. -/
def sycr0Rst : UInt8 := 0x00

def sycr1Ien : UInt8 := 0x80

/-- `W6300_SOCK0_BUF_KB`. -/
def sock0BufKb : UInt8 := 16

/-- `W6300_NETXMR_PB`. -/
def netxmrPb : UInt8 := 0x01

/-- `W6300_SMR_MAC_RAW | W6300_SMR_MAC_FILTER | W6300_SMR_MAC_BLOCK_MCAST`. -/
def macrawMode : UInt8 := 0x07 ||| 0x80 ||| 0x20

/-- `W6300_SIR_RECV` and `W6300_SIMR_SOCK0`. -/
def sirRecv : UInt8 := 0x04

def simrSock0 : UInt8 := 0x01

/-- `W6300_SCR_OPEN` and `W6300_SCR_CLOSE`. -/
def scrOpen : UInt8 := 0x01

def scrClose : UInt8 := 0x10

/-- `W6300_SOCK_MACRAW`. -/
def sockMacraw : UInt8 := 0x42

/-- `ESP_ERR_INVALID_ARG`, `ESP_ERR_INVALID_STATE`, `ESP_ERR_TIMEOUT` and
`ESP_ERR_INVALID_VERSION`. -/
def espErrInvalidArg : ℤ := 0x102

def espErrInvalidState : ℤ := 0x103

def espErrTimeout : ℤ := 0x107

def espErrInvalidVersion : ℤ := 0x10A

/-! ## The data -/

/-- What is looked at of a `spi_device_interface_config_t`. -/
structure SpiDevcfg where
  /-- `SPI_DEVICE_HALFDUPLEX`. -/
  halfDuplex : Bool := true
  commandBits : ℕ := 0
  addressBits : ℕ := 0
  deriving DecidableEq

/-- `eth_w6300_config_t`, with which functions of the custom SPI driver are not null. -/
structure W6300Config where
  intGpioNum : ℤ := -1
  pollPeriodMs : UInt32 := 0
  spiHostId : ℤ := 1
  spiDevcfg : SpiDevcfg := {}
  customInit : Bool := false
  customDeinit : Bool := false
  customRead : Bool := false
  customWrite : Bool := false

/-- `eth_mac_config_t`. -/
structure MacConfig where
  swResetTimeoutMs : UInt32 := 100
  rxTaskStackSize : UInt32 := 2048
  rxTaskPrio : UInt32 := 15
  /-- `ETH_MAC_FLAG_PIN_TO_CORE`. -/
  pinToCore : Bool := false

/-- `emac_w6300_t`, as far as it is filled in here, with the `eth_spi_info_t` that `ctx` points
to. -/
structure EmacW6300 where
  swResetTimeoutMs : UInt32 := 0
  intGpioNum : ℤ := 0
  pollPeriodMs : UInt32 := 0
  txTmo : UInt32 := 0
  /-- `spi` is the custom driver. -/
  custom : Bool := false
  ctx : Option ℕ := none
  rxTaskHdl : Option ℕ := none
  rxBuffer : Option ℕ := none
  pollTimer : Option ℕ := none
  hdl : Option ℕ := none
  lock : Option ℕ := none
  deriving DecidableEq

/-! ## Operations -/

/-- What is done with the pin of the interrupt line. -/
inductive GpioCall
  | funcSel | inputEnable | pullupEn | setIntrType | intrEnable | resetPin
  deriving DecidableEq

/-- `eth_link_t`. -/
inductive Link
  | up | down
  | other (n : ℕ)
  deriving DecidableEq

/-- The calls that the Ethernet layer makes while the driver is installed. -/
inductive MacCall
  | start | stop
  | setLink (link : Link)
  deriving DecidableEq

/-- What is asked of ESP-IDF and FreeRTOS, and of the chip. -/
inductive IdfOp
  /-- `calloc` of an `emac_w6300_t`, and of an `eth_spi_info_t`. -/
  | callocEmac
  | callocSpi
  /-- `heap_caps_malloc` of the receive buffer. -/
  | mallocRx
  | freeEmac (p : Option ℕ)
  | freeSpi (p : Option ℕ)
  | freeRx (p : Option ℕ)
  | busAddDevice (host : ℤ) (cfg : SpiDevcfg)
  | busRemoveDevice (hdl : Option ℕ)
  | createMutex
  | deleteMutex (lock : Option ℕ)
  /-- `init` and `deinit` of the custom SPI driver. -/
  | customInit
  | customDeinit (ctx : Option ℕ)
  | taskCreate (stackSize prio : UInt32) (pinToCore : Bool)
  | taskDelete (task : Option ℕ)
  | timerCreate
  | timerDelete (timer : Option ℕ)
  | timerStart (timer : Option ℕ) (periodUs : UInt32)
  | timerStop (timer : Option ℕ)
  | timerIsActive (timer : Option ℕ)
  | gpio (call : GpioCall) (pin : ℤ)
  | isrHandlerAdd (pin : ℤ)
  | isrHandlerRemove (pin : ℤ)
  /-- `on_state_changed` with `ETH_STATE_LLINIT`, in which the PHY driver resets the chip, or
  `ETH_STATE_DEINIT`. -/
  | onStateChanged (llinit : Bool)
  /-- `spi.read` and `spi.write`. -/
  | read (r : Reg) (len : ℕ)
  | write (r : Reg) (data : List UInt8)
  | vTaskDelay (ms : ℕ)
  /-- Is the driver to be installed? Or else it is deleted. -/
  | install
  /-- The next call, unless the driver is uninstalled. -/
  | next
  deriving DecidableEq

/-- The answer to each operation: a handle, with `none` for a failure, or an `esp_err_t`. -/
abbrev IdfOp.Ans : IdfOp → Type
  | .callocEmac | .callocSpi | .mallocRx | .busAddDevice .. | .createMutex | .customInit
  | .taskCreate .. | .timerCreate => Option ℕ
  | .timerStart .. | .timerStop _ | .isrHandlerAdd _ | .onStateChanged _ | .write .. =>
    Except ℤ Unit
  | .read _ len => Except ℤ (Vector UInt8 len)
  | .timerIsActive _ | .install => Bool
  | .next => Option MacCall
  | .freeEmac _ | .freeSpi _ | .freeRx _ | .busRemoveDevice _ | .deleteMutex _ | .customDeinit
      _ | .taskDelete _
  | .timerDelete _ | .gpio .. | .isrHandlerRemove _ | .vTaskDelay _ => Unit

abbrev Driver := Program EmacW6300 IdfOp.Ans

/-- The programs that return an `esp_err_t`. -/
abbrev Chip := Failing ℤ EmacW6300 IdfOp.Ans

/-- Perform an operation. -/
abbrev ask (o : IdfOp) : Driver o.Ans := perform o

/-! ## The SPI transport -/

/-- `w6300_spi_init` from the label `err` on, with an `eth_spi_info_t`. -/
def w6300SpiInitErr (spi : ℕ) : Driver (Option ℕ) := do
  let s ← get
  when (s.lock ≠ none) (ask (.deleteMutex s.lock))
  ask (.freeSpi (some spi))
  return none

/-- The frame format that a device is added with, unless it is not that of the chip. -/
def frameFormat (cfg : SpiDevcfg) : Option SpiDevcfg :=
  if cfg.commandBits = 0 ∧ cfg.addressBits = 0 then
    some { cfg with commandBits := 8, addressBits := 24 }
  else if cfg.commandBits = 8 ∧ cfg.addressBits = 24 then some cfg
  else none

/-- From the mutex on. -/
def w6300SpiInitMutex (spi : ℕ) : Driver (Option ℕ) := do
  let lock ← ask .createMutex
  modify fun s ↦ { s with lock }
  if lock = none then w6300SpiInitErr spi else return some spi

/-- `w6300_spi_init`. -/
def w6300SpiInit (cfg : W6300Config) : Driver (Option ℕ) := do
  match ← ask .callocSpi with
  | none => return none
  | some spi => do
    modify fun s ↦ { s with hdl := none, lock := none }
    if cfg.spiDevcfg.halfDuplex = false then w6300SpiInitErr spi
    else
      match frameFormat cfg.spiDevcfg with
      | none => w6300SpiInitErr spi
      | some devcfg => do
        let hdl ← ask (.busAddDevice cfg.spiHostId devcfg)
        modify fun s ↦ { s with hdl }
        if hdl = none then w6300SpiInitErr spi else w6300SpiInitMutex spi

/-- `w6300_spi_deinit`. -/
def w6300SpiDeinit (ctx : Option ℕ) : Driver Unit := do
  let s ← get
  ask (.busRemoveDevice s.hdl)
  ask (.deleteMutex s.lock)
  ask (.freeSpi ctx)

/-- `emac->spi.init`. -/
def spiInit (cfg : W6300Config) : Driver (Option ℕ) :=
  if cfg.customInit ∧ cfg.customDeinit ∧ cfg.customRead ∧ cfg.customWrite then do
    modify fun s ↦ { s with custom := true }
    ask .customInit
  else do
    modify fun s ↦ { s with custom := false }
    w6300SpiInit cfg

/-- `emac->spi.deinit`. -/
def spiDeinit : Driver Unit := do
  let s ← get
  if s.custom = true then ask (.customDeinit s.ctx) else w6300SpiDeinit s.ctx

/-! ## The driver -/

/-- `esp_eth_mac_new_w6300` from the label `err` on, with an `emac_w6300_t`. -/
def espEthMacNewErr (emac : ℕ) : Driver (Option ℕ) := do
  let s ← get
  when (s.pollTimer ≠ none) (ask (.timerDelete s.pollTimer))
  when (s.rxTaskHdl ≠ none) (ask (.taskDelete s.rxTaskHdl))
  when (s.ctx ≠ none) spiDeinit
  ask (.freeRx s.rxBuffer)
  ask (.freeEmac (some emac))
  return none

/-- From the timer on. -/
def espEthMacNewTimer (emac : ℕ) : Driver (Option ℕ) := do
  if (← get).intGpioNum < 0 then
    let pollTimer ← ask .timerCreate
    modify fun s ↦ { s with pollTimer }
    if pollTimer = none then espEthMacNewErr emac else return some emac
  else return some emac

/-- From the receive buffer on. -/
def espEthMacNewBuffer (emac : ℕ) : Driver (Option ℕ) := do
  let rxBuffer ← ask .mallocRx
  modify fun s ↦ { s with rxBuffer }
  if rxBuffer = none then espEthMacNewErr emac else espEthMacNewTimer emac

/-- From the task on. -/
def espEthMacNewTask (emac : ℕ) (macConfig : MacConfig) : Driver (Option ℕ) := do
  let rxTaskHdl ← ask (.taskCreate macConfig.rxTaskStackSize macConfig.rxTaskPrio
    macConfig.pinToCore)
  modify fun s ↦ { s with rxTaskHdl }
  if rxTaskHdl = none then espEthMacNewErr emac else espEthMacNewBuffer emac

/-- `W6300_100M_TX_TMO_US`. -/
def txTmo100M : UInt32 := 200

/-- `esp_eth_mac_new_w6300`. The chip is either polled or has an interrupt line. -/
def espEthMacNewW6300 : Option W6300Config → Option MacConfig → Driver (Option ℕ)
  | some cfg, some macConfig =>
    if decide (0 ≤ cfg.intGpioNum) = decide (0 < cfg.pollPeriodMs) then return none
    else do
      match ← ask .callocEmac with
      | none => return none
      | some emac => do
        set ({ swResetTimeoutMs := macConfig.swResetTimeoutMs, intGpioNum := cfg.intGpioNum,
               pollPeriodMs := cfg.pollPeriodMs, txTmo := txTmo100M } : EmacW6300)
        let ctx ← spiInit cfg
        modify fun s ↦ { s with ctx }
        if ctx = none then espEthMacNewErr emac else espEthMacNewTask emac macConfig
  | _, _ => return none

/-- `emac_w6300_del`. -/
def emacW6300Del (emac : ℕ) : Driver Unit := do
  let s ← get
  when (s.pollTimer ≠ none) (ask (.timerDelete s.pollTimer))
  ask (.taskDelete s.rxTaskHdl)
  spiDeinit
  ask (.freeRx s.rxBuffer)
  ask (.freeEmac (some emac))

/-! ## Bringing the chip up -/

/-- `w6300_read`. -/
def w6300Read (r : Reg) (len : ℕ) : Chip (Vector UInt8 len) := ExceptT.mk (ask (.read r len))

/-- The byte of a register that has one. -/
def byte (v : Vector UInt8 1) : UInt8 := v.get (Fin.last 0)

/-- `w6300_write_u8`. -/
def w6300WriteU8 (r : Reg) (value : UInt8) : Chip Unit := ExceptT.mk (ask (.write r [value]))

/-- `w6300_write_u16`. -/
def w6300WriteU16 (r : Reg) (value : UInt16) : Chip Unit :=
  ExceptT.mk (ask (.write r [(value >>> 8).toUInt8, value.toUInt8]))

/-- `w6300_unlock_all`. -/
def w6300UnlockAll : Chip Unit := do
  w6300WriteU8 .chplckr chipUnlock
  w6300WriteU8 .netlckr netUnlock
  w6300WriteU8 .phylckr phyUnlock
  let sysr ← w6300Read .sysr 1
  Failing.ensure (byte sysr &&& sysrLocks = 0) espErrInvalidState

/-- `w6300_read_id`. -/
def w6300ReadId : Chip UInt16 := do
  let cidr ← w6300Read .cidr 2
  let rtl ← w6300Read .rtl 1
  return ((cidr.get ⟨0, Nat.two_pos⟩ ||| ((byte rtl &&& rtlMask) <<< 1)).toUInt16 <<< 8) |||
    (cidr.get ⟨1, Nat.one_lt_two⟩).toUInt16

/-- The loop of `w6300_verify_id`, with so many turns left. -/
def w6300VerifyId : ℕ → Chip Unit
  | 0 => throw espErrInvalidVersion
  | n + 1 => do
    if (← w6300ReadId) = chipId then return ()
    else
      ExceptT.lift (ask (.vTaskDelay 10))
      w6300VerifyId n

/-- `w6300_reset`. -/
def w6300Reset : Chip Unit := do
  w6300WriteU8 .chplckr chipUnlock
  w6300WriteU8 .sycr0 sycr0Rst
  ExceptT.lift (ask (.vTaskDelay 10))
  w6300VerifyId ((← get).swResetTimeoutMs.toNat / 10)
  w6300UnlockAll

/-- Registers of one byte, one after the other. -/
def writeAll : List (Reg × UInt8) → Chip Unit
  | [] => return ()
  | (r, value) :: l => do
    w6300WriteU8 r value
    writeAll l

/-- The sizes of the buffers of the sockets: all for the first. -/
def bufSizes : List (Reg × UInt8) :=
  [(.sockRxbufSize 0, sock0BufKb), (.sockTxbufSize 0, sock0BufKb)] ++
    (List.range' 1 7).flatMap fun i ↦ [(.sockRxbufSize i, 0), (.sockTxbufSize i, 0)]

/-- The other registers of one byte: no answers of the chip's own, no interrupts yet, and the first
socket in MACRAW. -/
def modes : List (Reg × UInt8) :=
  [(.net4mr, netxmrPb), (.net6mr, netxmrPb), (.imr, 0), (.simr, 0), (.sockMr, macrawMode),
    (.sockImr, sirRecv)]

/-- `w6300_setup_default`. -/
def w6300SetupDefault : Chip Unit := do
  writeAll bufSizes
  writeAll modes
  w6300WriteU16 .intptmr 0
  let sycr1 ← w6300Read .sycr1 1
  w6300WriteU8 .sycr1 (byte sycr1 ||| sycr1Ien)

/-- The loop of `w6300_send_command`, with so many turns left. -/
def awaitCommand : ℕ → Chip Unit
  | 0 => throw espErrTimeout
  | n + 1 => do
    let command ← w6300Read .sockCr 1
    if byte command = 0 then return ()
    else
      ExceptT.lift (ask (.vTaskDelay 10))
      awaitCommand n

/-- `w6300_send_command`. -/
def w6300SendCommand (command : UInt8) (timeoutMs : ℕ) : Chip Unit := do
  w6300WriteU8 .sockCr command
  awaitCommand (timeoutMs / 10)

/-! ## The calls -/

/-- `emac_w6300_start`. -/
def emacW6300Start : Chip Unit := do
  w6300SendCommand scrOpen 100
  let status ← w6300Read .sockSr 1
  Failing.ensure (byte status = sockMacraw) espErrInvalidState
  w6300WriteU8 .simr simrSock0

/-- `emac_w6300_stop`. -/
def emacW6300Stop : Chip Unit := do
  w6300WriteU8 .simr 0
  w6300SendCommand scrClose 100

/-- `emac_w6300_set_link`. -/
def emacW6300SetLink : Link → Chip Unit
  | .up => do
    emacW6300Start
    let s ← get
    if s.pollTimer ≠ none then ExceptT.mk (ask (.timerStart s.pollTimer (s.pollPeriodMs * 1000)))
  | .down => do
    emacW6300Stop
    let s ← get
    if s.pollTimer ≠ none then ExceptT.mk (ask (.timerStop s.pollTimer))
  | .other _ => throw espErrInvalidArg

/-- The interrupt line is given up. -/
def releaseLine : Driver Unit := do
  let s ← get
  when (0 ≤ s.intGpioNum) do
    ask (.isrHandlerRemove s.intGpioNum)
    ask (.gpio .resetPin s.intGpioNum)

/-- `emac_w6300_init` up to the chip. -/
def acquireLine : Driver Unit := do
  let s ← get
  when (0 ≤ s.intGpioNum) do
    ask (.gpio .funcSel s.intGpioNum)
    ask (.gpio .inputEnable s.intGpioNum)
    ask (.gpio .pullupEn s.intGpioNum)
    ask (.gpio .setIntrType s.intGpioNum)
    ask (.gpio .intrEnable s.intGpioNum)
    discard (ask (.isrHandlerAdd s.intGpioNum))

/-- The rest of it, up to the label `err`. -/
def bringUp : Chip Unit := do
  ExceptT.mk (ask (.onStateChanged true))
  w6300Reset
  w6300SetupDefault

/-- `emac_w6300_init`. -/
def emacW6300Init : Driver (Except ℤ Unit) := do
  acquireLine
  match ← bringUp.run with
  | .ok _ => return .ok ()
  | .error err => do
    releaseLine
    discard (ask (.onStateChanged false))
    return .error err

/-- `emac_w6300_deinit`. -/
def emacW6300Deinit : Driver Unit := do
  discard emacW6300Stop.run
  releaseLine
  let s ← get
  when (s.pollTimer ≠ none) do
    if ← ask (.timerIsActive s.pollTimer) then discard (ask (.timerStop s.pollTimer))
  discard (ask (.onStateChanged false))

def MacCall.prog : MacCall → Chip Unit
  | .start => emacW6300Start
  | .stop => emacW6300Stop
  | .setLink link => emacW6300SetLink link

/-! ## A life -/

/-- A turn of the Ethernet layer while the driver is installed. -/
def callTurn : Driver (Option Unit) := do
  match ← ask .next with
  | none => return some ()
  | some c => do
    discard c.prog.run
    return none

/-- The driver is installed and uninstalled, or deleted. -/
def lifeTurn (emac : ℕ) : Driver (Option Unit) := do
  if ← ask .install then
    match ← emacW6300Init with
    | .error _ => return none
    | .ok _ => do
      forever callTurn
      emacW6300Deinit
      return none
  else
    emacW6300Del emac
    return some ()

/-- A driver from its making to its deletion, as the Ethernet layer uses it. -/
def life (cfg : Option W6300Config) (macConfig : Option MacConfig) : Driver Unit := do
  match ← espEthMacNewW6300 cfg macConfig with
  | none => return ()
  | some emac => forever (lifeTurn emac)

/-! ## What the driver holds -/

/-- What has been taken and not given back, and whether a mutex was asked for in vain. -/
structure Kit where
  (emac spiInfo rxBuffer device mutex context task timer : Option ℕ := none)
  mutexRefused : Bool := false
  deriving DecidableEq

/-- With what has been set up: the pin that a handler was asked for, and that has one, the timer if
it may be running, and the chip. Of the chip it is known whether it has been brought up and not
down, whether its first lock and, as SYSR has shown, all of them have been opened since the last
reset, and whether the socket was in MACRAW after the last command. -/
structure Books extends Kit where
  (asked handler : Option ℤ := none)
  (running up key unlocked macraw : Bool := false)
  deriving DecidableEq

def Books.noteRead (r : Reg) (data : List UInt8) (b : Books) : Books :=
  match r with
  | .sysr => { b with unlocked := data.head?.any fun v ↦ v &&& sysrLocks = 0 }
  | .sockSr => { b with macraw := data.head?.any fun v ↦ v = sockMacraw }
  | _ => b

/-- A write that fails may have had its effect. -/
def Books.noteWrite (r : Reg) (data : List UInt8) (ok : Bool) (b : Books) : Books :=
  match r with
  | .chplckr => { b with key := ok && decide (data = [chipUnlock]) }
  | .sycr0 => { b with key := false, unlocked := false, macraw := false }
  | .sockCr => { b with macraw := false }
  | _ => b

/-- What an answer changes about it. -/
def Books.note (o : IdfOp) (_ : EmacW6300) (a : o.Ans) (b : Books) : Books :=
  match o, a with
  | .callocEmac, p => { b with emac := p }
  | .callocSpi, p => { b with spiInfo := p }
  | .mallocRx, p => { b with rxBuffer := p }
  | .busAddDevice _ _, hdl => { b with device := hdl }
  | .createMutex, lock => { b with mutex := lock, mutexRefused := lock.isNone }
  | .customInit, ctx => { b with context := ctx }
  | .taskCreate _ _ _, task => { b with task := task }
  | .timerCreate, timer => { b with timer := timer }
  | .freeEmac _, _ => { b with emac := none }
  | .freeSpi _, _ => { b with spiInfo := none }
  | .freeRx _, _ => { b with rxBuffer := none }
  | .busRemoveDevice _, _ => { b with device := none }
  | .deleteMutex _, _ => { b with mutex := none }
  | .customDeinit _, _ => { b with context := none }
  | .taskDelete _, _ => { b with task := none }
  | .timerDelete _, _ => { b with timer := none }
  | .timerStart _ _, _ => { b with running := true }
  | .timerStop _, _ => { b with running := false }
  | .timerIsActive _, active => { b with running := active }
  | .isrHandlerAdd pin, .ok _ => { b with asked := some pin, handler := some pin }
  | .isrHandlerAdd pin, .error _ => { b with asked := some pin }
  | .isrHandlerRemove _, _ => { b with asked := none, handler := none }
  | .onStateChanged llinit, _ =>
    { b with up := llinit, key := false, unlocked := false, macraw := false }
  | .read r _, .ok v => b.noteRead r v.toList
  | .write r data, .ok _ => b.noteWrite r data true
  | .write r data, .error _ => b.noteWrite r data false
  | .read _ _, .error _ | .gpio _ _, _ | .vTaskDelay _, _ | .install, _ | .next, _ => b

/-- A driver has all that it needs: a timer if and only if the chip is polled, and either what a
custom transport has made of itself, or a device with its mutex. -/
structure Complete (s : EmacW6300) (k : Kit) : Prop where
  emac : k.emac ≠ none
  rxBuffer : k.rxBuffer ≠ none
  task : k.task ≠ none
  timer : k.timer ≠ none ↔ s.intGpioNum < 0
  transport : if s.custom = true
    then k.context ≠ none ∧ k.spiInfo = none ∧ k.device = none ∧ k.mutex = none
    else k.context = none ∧ k.spiInfo ≠ none ∧ k.device ≠ none ∧ k.mutex ≠ none

/-- Nothing wakes the task, and the chip is down. -/
structure Idle (b : Books) : Prop where
  asked : b.asked = none
  handler : b.handler = none
  running : b.running = false
  up : b.up = false

/-- The pin of the interrupt line, if there is one. -/
def line (s : EmacW6300) : Option ℤ := if 0 ≤ s.intGpioNum then some s.intGpioNum else none

/-- A handler was asked for if there is an interrupt line, and only then. -/
structure Lined (s : EmacW6300) (b : Books) : Prop where
  asked : b.asked = line s
  handler : line s = none → b.handler = none

/-- The driver is installed: the chip is up and open, and the interrupt line is set up. -/
structure Installed (s : EmacW6300) (b : Books) : Prop extends Lined s b where
  up : b.up = true
  unlocked : b.unlocked = true
  running : s.pollTimer = none → b.running = false

/-- **The rules.** Nothing is taken twice, and only what is held is given back; a null pointer may
be freed where the buffer is, and a handler is removed once whenever it was asked for, even in vain.
The memory of the driver outlives the task, the timer and the handler, and the timer is not deleted
while it runs. The chip is accessed only by a driver that has all that it needs, and between the two
changes of state. What is locked is not written before SYSR has shown that it is open, nor are
interrupts enabled unless the socket is in MACRAW. -/
def Orderly (o : IdfOp) (s : EmacW6300) (b : Books) : Prop :=
  match o with
  | .callocEmac => b.emac = none
  | .callocSpi => b.spiInfo = none
  | .mallocRx => b.rxBuffer = none
  | .busAddDevice _ _ => b.device = none
  | .createMutex => b.mutex = none
  | .customInit => b.context = none
  | .taskCreate _ _ _ => b.emac ≠ none ∧ b.task = none
  | .timerCreate => b.emac ≠ none ∧ b.timer = none
  | .freeEmac p => p ≠ none ∧ b.emac = p ∧ b.task = none ∧ b.timer = none ∧ b.handler = none
  | .freeSpi p => p ≠ none ∧ b.spiInfo = p
  | .freeRx p => b.rxBuffer = p
  | .busRemoveDevice hdl => hdl ≠ none ∧ b.device = hdl
  | .deleteMutex lock => lock ≠ none ∧ b.mutex = lock
  | .customDeinit ctx => ctx ≠ none ∧ b.context = ctx
  | .taskDelete task => task ≠ none ∧ b.task = task
  | .timerDelete timer => timer ≠ none ∧ b.timer = timer ∧ b.running = false
  | .timerStart timer _ | .timerStop timer | .timerIsActive timer => timer ≠ none ∧ b.timer = timer
  | .gpio _ pin => 0 ≤ pin
  | .isrHandlerAdd _ => b.emac ≠ none ∧ b.asked = none ∧ b.handler = none
  | .isrHandlerRemove pin => b.asked = some pin
  | .onStateChanged llinit => b.up = !llinit
  | .read _ _ => Complete s b.toKit ∧ b.up = true
  | .write .chplckr _ | .write .netlckr _ | .write .phylckr _ => Complete s b.toKit ∧ b.up = true
  | .write .sycr0 _ => Complete s b.toKit ∧ b.up = true ∧ b.key = true
  | .write .simr data => Complete s b.toKit ∧ b.up = true ∧ b.unlocked = true ∧
      (data = [0] ∨ b.macraw = true)
  | .write _ _ => Complete s b.toKit ∧ b.up = true ∧ b.unlocked = true
  | .vTaskDelay _ => True
  | .install => Complete s b.toKit ∧ Idle b
  | .next => Complete s b.toKit ∧ Installed s b

/-- Nothing is held but a device for which there was no mutex. -/
def Gone (b : Books) : Prop :=
  (∃ device : Option ℕ, b.toKit = { device, mutexRefused := device.isSome }) ∧ Idle b

/-! ## What the driver knows of it -/

variable {E : Type} {V : Env EmacW6300 E IdfOp.Ans} {s : EmacW6300} {k : Kit} {b : Books}
    {emac spi : ℕ}

/-- The transport: none, a custom one, or that of the driver. -/
inductive Transport (s : EmacW6300) (k : Kit) : Prop
  | absent (hctx : s.ctx = none) (hcontext : k.context = none) (hinfo : k.spiInfo = none)
      (hmutex : k.mutex = none) (hrefused : k.mutexRefused = k.device.isSome)
  | custom (hctx : s.ctx ≠ none) (hcustom : s.custom = true) (hcontext : k.context = s.ctx)
      (hinfo : k.spiInfo = none)
      (hmutex : k.mutex = none) (hdevice : k.device = none) (hrefused : k.mutexRefused = false)
  | default (hctx : s.ctx ≠ none) (hcustom : s.custom = false) (hcontext : k.context = none)
      (hinfo : k.spiInfo = s.ctx)
      (hlock : s.lock ≠ none) (hmutex : k.mutex = s.lock) (hhdl : s.hdl ≠ none)
        (hdevice : k.device = s.hdl)
      (hrefused : k.mutexRefused = false)

/-- The pointers of the driver are what it holds. -/
structure Mirrors (emac : ℕ) (s : EmacW6300) (k : Kit) : Prop where
  emac : k.emac = some emac
  rxBuffer : k.rxBuffer = s.rxBuffer
  task : k.task = s.rxTaskHdl
  timer : k.timer = s.pollTimer
  transport : Transport s k

/-- A driver that has been made. -/
structure Made (emac : ℕ) (s : EmacW6300) (k : Kit) : Prop extends Mirrors emac s k where
  hasCtx : s.ctx ≠ none
  hasTask : s.rxTaskHdl ≠ none
  hasBuffer : s.rxBuffer ≠ none
  hasTimer : s.pollTimer ≠ none ↔ s.intGpioNum < 0

theorem Made.complete (h : Made emac s k) : Complete s k where
  emac := h.emac ▸ Option.some_ne_none emac
  rxBuffer := h.rxBuffer ▸ h.hasBuffer
  task := h.task ▸ h.hasTask
  timer := h.timer ▸ h.hasTimer
  transport := by
    cases h.transport with
    | absent hctx => exact absurd hctx h.hasCtx
    | custom hctx hcustom hcontext hinfo hmutex hdevice =>
      rw [if_pos hcustom]
      exact ⟨hcontext ▸ hctx, hinfo, hdevice, hmutex⟩
    | default hctx hcustom hcontext hinfo hlock hmutex hhdl hdevice =>
      rw [if_neg (Bool.eq_false_iff.mp hcustom)]
      exact ⟨hcontext, hinfo ▸ hctx, hdevice ▸ hhdl, hmutex ▸ hlock⟩

/-- What an attempt comes to. -/
def Result (r : Option ℕ) (s : EmacW6300) (b : Books) : Prop :=
  match r with
  | none => Gone b
  | some emac => Made emac s b.toKit ∧ Idle b

/-- The transport is the same whatever the other pointers are. -/
theorem Transport.beside (h : Transport s k)
    (rxTaskHdl rxBuffer pollTimer task buffer timer : Option ℕ) :
    Transport { s with rxTaskHdl, rxBuffer, pollTimer }
    { k with task, rxBuffer := buffer, timer } := by
  cases h with
  | absent hctx hcontext hinfo hmutex hrefused => exact .absent hctx hcontext hinfo hmutex hrefused
  | custom hctx hcustom hcontext hinfo hmutex hdevice hrefused =>
    exact .custom hctx hcustom hcontext hinfo hmutex hdevice hrefused
  | default hctx hcustom hcontext hinfo hlock hmutex hhdl hdevice hrefused =>
    exact .default hctx hcustom hcontext hinfo hlock hmutex hhdl hdevice hrefused

theorem Transport.without (h : Transport s k) :
    Transport s { k with timer := none, task := none } :=
  h.beside s.rxTaskHdl s.rxBuffer s.pollTimer none k.rxBuffer none

/-! ## Giving back -/

theorem when_timerDelete (h : b.timer = s.pollTimer) (hidle : Idle b) :
    Recorded V Books.note Orderly (when (s.pollTimer ≠ none) (ask (.timerDelete s.pollTimer)))
      (fun _ s' b' ↦ s' = s ∧ Idle b' ∧ b'.toKit = { b.toKit with timer := none }) s b := by
  refine .when (fun hne ↦ .perform ⟨hne, h, hidle.running⟩ fun _ ↦ ?_) fun hnone ↦
    ⟨rfl, hidle, ?_⟩
  · exact ⟨rfl, ⟨hidle.asked, hidle.handler, hidle.running, hidle.up⟩, rfl⟩
  · rw [not_not.mp hnone] at h
    rw [← h]

theorem when_taskDelete (h : b.task = s.rxTaskHdl) (hidle : Idle b) :
    Recorded V Books.note Orderly (when (s.rxTaskHdl ≠ none) (ask (.taskDelete s.rxTaskHdl)))
      (fun _ s' b' ↦ s' = s ∧ Idle b' ∧ b'.toKit = { b.toKit with task := none }) s b := by
  refine .when (fun hne ↦ .perform ⟨hne, h⟩ fun _ ↦ ?_) fun hnone ↦ ⟨rfl, hidle, ?_⟩
  · exact ⟨rfl, ⟨hidle.asked, hidle.handler, hidle.running, hidle.up⟩, rfl⟩
  · rw [not_not.mp hnone] at h
    rw [← h]

/-- Without the transport. -/
def Kit.bare (k : Kit) : Kit :=
  { k with context := none, spiInfo := none, mutex := none, device := none }

theorem spiDeinit_bare (h : Transport s b.toKit) (hctx : s.ctx ≠ none) (hidle : Idle b) :
    Recorded V Books.note Orderly spiDeinit
      (fun _ s' b' ↦ s' = s ∧ Idle b' ∧ b'.toKit = b.toKit.bare ∧ b.mutexRefused = false)
        s b := by
  cases h with
  | absent hnone => exact absurd hnone hctx
  | custom hctx hcustom hcontext hinfo hmutex hdevice hrefused =>
    refine .get_bind
        (.ite (fun _ ↦ .perform ⟨hctx, hcontext⟩ fun _ ↦ ⟨rfl, ?_, ?_, hrefused⟩)
        fun hno ↦
      absurd hcustom hno)
    · exact ⟨hidle.asked, hidle.handler, hidle.running, hidle.up⟩
    · rcases b with ⟨⟨⟩⟩
      simp_all [Kit.bare, Books.note]
  | default hctx hcustom hcontext hinfo hlock hmutex hhdl hdevice hrefused =>
    refine .get_bind (.ite (fun hyes ↦ absurd hyes (Bool.eq_false_iff.mp hcustom)) fun _ ↦
      .get_bind ?_)
    refine .perform_bind ⟨hhdl, hdevice⟩ fun _ ↦ .perform_bind ⟨hlock, hmutex⟩ fun _ ↦
      .perform ⟨hctx, hinfo⟩ fun _ ↦
        ⟨rfl, ⟨hidle.asked, hidle.handler, hidle.running, hidle.up⟩, ?_, hrefused⟩
    rcases b with ⟨⟨⟩⟩
    simp_all [Kit.bare, Books.note]

/-- The label `err` gives back everything, for nobody else is left that would. -/
theorem espEthMacNewErr_gone (h : Mirrors emac s b.toKit) (hidle : Idle b) :
    Recorded V Books.note Orderly (espEthMacNewErr emac) Result s b := by
  refine .get_bind (.seq (when_timerDelete h.timer hidle) ?_)
  rintro _ _ b₁ ⟨rfl, hidle₁, hkit₁⟩
  refine .seq (when_taskDelete (by rw [hkit₁]; exact h.task) hidle₁) ?_
  rintro _ s b₂ ⟨rfl, hidle₂, hkit₂⟩
  rw [hkit₁] at hkit₂
  have htransport : Transport s b₂.toKit := hkit₂ ▸ h.transport.without
  -- What is left of the transport is a device without a mutex, if there is one.
  refine .seq (M := fun _ s' b' ↦ s' = s ∧ Idle b' ∧ ∃ device : Option ℕ,
    b'.toKit = { emac := some emac, rxBuffer := s.rxBuffer, device, mutexRefused := device.isSome })
    (.when (fun hctx ↦ ?_) fun hctx ↦ ?_) ?_
  · refine (spiDeinit_bare htransport hctx hidle₂).imp ?_
    rintro _ _ b₃ ⟨rfl, hidle₃, hkit₃, hrefused⟩
    refine ⟨rfl, hidle₃, none, ?_⟩
    rw [hkit₂] at hkit₃ hrefused
    rw [hkit₃, ← h.emac, ← h.rxBuffer]
    simpa [Kit.bare] using hrefused
  · cases h.transport with
    | absent _ hcontext hinfo hmutex hrefused =>
      refine ⟨rfl, hidle₂, b.device, ?_⟩
      rw [hkit₂, ← h.emac, ← h.rxBuffer, ← hrefused, ← hcontext]
      simp [hinfo, hmutex, hcontext]
    | custom hctx' => exact absurd hctx' hctx
    | default hctx' => exact absurd hctx' hctx
  · rintro _ s' b₃ ⟨rfl, hidle₃, device, hkit₃⟩
    refine .perform_bind (by rw [Orderly, hkit₃]) fun _ ↦ .perform_bind ?_ fun _ ↦ .pure ?_
    · refine ⟨Option.some_ne_none _, ?_, ?_, ?_, hidle₃.handler⟩
      · exact congrArg Kit.emac hkit₃
      · exact congrArg Kit.task hkit₃
      · exact congrArg Kit.timer hkit₃
    · refine ⟨⟨device, ?_⟩, hidle₃.asked, hidle₃.handler, hidle₃.running, hidle₃.up⟩
      change ({ b₃.toKit with rxBuffer := none, emac := none } : Kit) = _
      rw [hkit₃]

/-! ## Taking -/

theorem w6300SpiInitErr_absent (hinfo : b.spiInfo = some spi) (hlock : s.lock = none) :
    Recorded V Books.note Orderly (w6300SpiInitErr spi)
      (fun r s' b' ↦ r = none ∧ s' = s ∧ b' = { b with spiInfo := none }) s b := by
  refine .get_bind (.when_bind (fun hne ↦ absurd hlock hne) fun _ ↦ ?_)
  exact .perform_bind ⟨Option.some_ne_none spi, hinfo⟩ fun _ ↦ .pure ⟨rfl, rfl, rfl⟩

/-- A driver of which only the memory is there. -/
structure Fresh (s : EmacW6300) : Prop where
  ctx : s.ctx = none
  rxTaskHdl : s.rxTaskHdl = none
  rxBuffer : s.rxBuffer = none
  pollTimer : s.pollTimer = none

/-- What the transport comes to: the pointer to it will be the one returned. -/
def Transported (emac : ℕ) (s₀ : EmacW6300) (ctx : Option ℕ) (s : EmacW6300) (b : Books) :
    Prop :=
  (∃ custom hdl lock, s = { s₀ with custom, hdl, lock }) ∧
    Mirrors emac { s with ctx } b.toKit ∧ Idle b

theorem Fresh.transported {s₀ : EmacW6300} {ctx : Option ℕ} {b : Books} (h : Fresh s₀)
    (hs : ∃ custom hdl lock, s = { s₀ with custom, hdl, lock })
    (hb : b.emac = some emac ∧ b.rxBuffer = none ∧ b.task = none ∧ b.timer = none)
    (ht : Transport { s with ctx } b.toKit) (hidle : Idle b) : Transported emac s₀ ctx s b := by
  refine ⟨hs, ⟨hb.1, ?_, ?_, ?_, ht⟩, hidle⟩
  · obtain ⟨custom, hdl, lock, rfl⟩ := hs
    exact hb.2.1.trans h.rxBuffer.symm
  · obtain ⟨custom, hdl, lock, rfl⟩ := hs
    exact hb.2.2.1.trans h.rxTaskHdl.symm
  · obtain ⟨custom, hdl, lock, rfl⟩ := hs
    exact hb.2.2.2.trans h.pollTimer.symm

/-- From the mutex on. Without it the device stays. -/
theorem w6300SpiInitMutex_transported {s₀ : EmacW6300} {hdl : ℕ} (h : Fresh s₀)
    (hs : ∃ lock, s = { s₀ with custom := false, hdl := some hdl, lock }) :
    Recorded V Books.note Orderly (w6300SpiInitMutex spi) (Transported emac s₀) s
      { emac := some emac, spiInfo := some spi, device := some hdl } := by
  obtain ⟨lock₀, rfl⟩ := hs
  refine .perform_bind rfl fun lock ↦ .modify_bind (.ite (fun hnone ↦ ?_) fun hlock ↦ .pure ?_)
  · subst hnone
    refine (w6300SpiInitErr_absent rfl rfl).imp ?_
    rintro _ _ _ ⟨rfl, rfl, rfl⟩
    exact h.transported ⟨_, _, _, rfl⟩ ⟨rfl, rfl, rfl, rfl⟩ (.absent rfl rfl rfl rfl rfl)
      ⟨rfl, rfl, rfl, rfl⟩
  · obtain ⟨lock, rfl⟩ := Option.ne_none_iff_exists'.mp hlock
    refine h.transported ⟨_, _, _, rfl⟩ ⟨rfl, rfl, rfl, rfl⟩
      (.default ?_ rfl rfl rfl hlock rfl ?_ rfl rfl) ⟨rfl, rfl, rfl, rfl⟩
    · exact Option.some_ne_none spi
    · exact Option.some_ne_none hdl

theorem w6300SpiInit_transported {s₀ : EmacW6300} (h : Fresh s₀) (cfg : W6300Config) :
    Recorded V Books.note Orderly (w6300SpiInit cfg) (Transported emac s₀)
    { s₀ with custom := false }
      { emac := some emac } := by
  refine .perform_bind rfl fun p ↦ ?_
  cases p with
  | none =>
    exact .pure (h.transported ⟨_, _, _, rfl⟩ ⟨rfl, rfl, rfl, rfl⟩
      (.absent rfl rfl rfl rfl rfl) ⟨rfl, rfl, rfl, rfl⟩)
  | some spi =>
    have herr : ∀ {s}, (∃ hdl, s = { s₀ with custom := false, hdl, lock := none }) →
        Recorded V Books.note Orderly (w6300SpiInitErr spi) (Transported emac s₀) s
          { emac := some emac, spiInfo := some spi } := by
      rintro _ ⟨hdl, rfl⟩
      refine (w6300SpiInitErr_absent rfl rfl).imp ?_
      rintro _ _ _ ⟨rfl, rfl, rfl⟩
      exact h.transported ⟨_, _, _, rfl⟩ ⟨rfl, rfl, rfl, rfl⟩ (.absent rfl rfl rfl rfl rfl)
        ⟨rfl, rfl, rfl, rfl⟩
    refine .modify_bind (.ite (fun _ ↦ herr ⟨_, rfl⟩) fun _ ↦ ?_)
    cases frameFormat cfg.spiDevcfg with
    | none => exact herr ⟨_, rfl⟩
    | some devcfg =>
      refine .perform_bind rfl fun hdl ↦ .modify_bind ?_
      cases hdl with
      | none => exact .ite (fun _ ↦ herr ⟨_, rfl⟩) fun hno ↦ absurd rfl hno
      | some hdl =>
        exact .ite (fun hno ↦ absurd hno (Option.some_ne_none hdl)) fun _ ↦
          w6300SpiInitMutex_transported h ⟨_, rfl⟩

theorem spiInit_transported (h : Fresh s) (cfg : W6300Config) :
    Recorded V Books.note Orderly (spiInit cfg) (Transported emac s) s { emac := some emac } := by
  refine .ite (fun _ ↦ .modify_bind (.perform rfl fun ctx ↦ ?_)) fun _ ↦
    .modify_bind (w6300SpiInit_transported h cfg)
  cases ctx with
  | none =>
    exact h.transported ⟨_, _, _, rfl⟩ ⟨rfl, rfl, rfl, rfl⟩ (.absent rfl rfl rfl rfl rfl)
      ⟨rfl, rfl, rfl, rfl⟩
  | some ctx =>
    refine h.transported ⟨_, _, _, rfl⟩ ⟨rfl, rfl, rfl, rfl⟩
      (.custom ?_ rfl rfl rfl rfl rfl rfl) ⟨rfl, rfl, rfl, rfl⟩
    exact Option.some_ne_none ctx

theorem espEthMacNewTimer_result (h : Mirrors emac s b.toKit) (hidle : Idle b) (hctx : s.ctx ≠ none)
    (htask : s.rxTaskHdl ≠ none) (hbuffer : s.rxBuffer ≠ none) (htimer : s.pollTimer = none) :
    Recorded V Books.note Orderly (espEthMacNewTimer emac) Result s b := by
  have hemac : b.emac ≠ none := h.emac ▸ Option.some_ne_none emac
  refine .get_bind (.ite (fun hpolled ↦ ?_) fun hline ↦ ?_)
  · refine .perform_bind ⟨hemac, h.timer.trans htimer⟩ fun timer ↦ .modify_bind ?_
    have h' : Mirrors emac { s with pollTimer := timer } { b.toKit with timer } :=
      ⟨h.emac, h.rxBuffer, h.task, rfl, h.transport.beside s.rxTaskHdl s.rxBuffer timer b.task
        b.rxBuffer timer⟩
    have hidle' : Idle (Books.note .timerCreate s timer b) :=
      ⟨hidle.asked, hidle.handler, hidle.running, hidle.up⟩
    refine .ite (fun _ ↦ espEthMacNewErr_gone h' hidle') fun htimer ↦ .pure ⟨?_, hidle'⟩
    exact ⟨h', hctx, htask, hbuffer, iff_of_true htimer hpolled⟩
  · exact .pure ⟨⟨h, hctx, htask, hbuffer, iff_of_false (not_not.mpr htimer) hline⟩, hidle⟩

theorem espEthMacNewBuffer_result (h : Mirrors emac s b.toKit) (hidle : Idle b)
    (hctx : s.ctx ≠ none) (htask : s.rxTaskHdl ≠ none) (hbuffer : s.rxBuffer = none)
    (htimer : s.pollTimer = none) :
    Recorded V Books.note Orderly (espEthMacNewBuffer emac) Result s b := by
  refine .perform_bind (h.rxBuffer.trans hbuffer) fun rxBuffer ↦ .modify_bind ?_
  have h' : Mirrors emac { s with rxBuffer } { b.toKit with rxBuffer } :=
    ⟨h.emac, rfl, h.task, h.timer, h.transport.beside s.rxTaskHdl rxBuffer s.pollTimer b.task
      rxBuffer b.timer⟩
  have hidle' : Idle (Books.note .mallocRx s rxBuffer b) :=
    ⟨hidle.asked, hidle.handler, hidle.running, hidle.up⟩
  exact .ite (fun _ ↦ espEthMacNewErr_gone h' hidle') fun hbuffer ↦
    espEthMacNewTimer_result h' hidle' hctx htask hbuffer htimer

theorem espEthMacNewTask_result (h : Mirrors emac s b.toKit) (hidle : Idle b) (hctx : s.ctx ≠ none)
    (htask : s.rxTaskHdl = none) (hbuffer : s.rxBuffer = none) (htimer : s.pollTimer = none)
    (macConfig : MacConfig) :
    Recorded V Books.note Orderly (espEthMacNewTask emac macConfig) Result s b := by
  have hemac : b.emac ≠ none := h.emac ▸ Option.some_ne_none emac
  refine .perform_bind ⟨hemac, h.task.trans htask⟩ fun task ↦ .modify_bind ?_
  have h' : Mirrors emac { s with rxTaskHdl := task } { b.toKit with task } :=
    ⟨h.emac, h.rxBuffer, rfl, h.timer, h.transport.beside task s.rxBuffer s.pollTimer task
      b.rxBuffer b.timer⟩
  refine .ite (fun _ ↦ espEthMacNewErr_gone h' ?_) fun htask ↦
    espEthMacNewBuffer_result h' ?_ hctx htask hbuffer htimer
  · exact ⟨hidle.asked, hidle.handler, hidle.running, hidle.up⟩
  · exact ⟨hidle.asked, hidle.handler, hidle.running, hidle.up⟩

/-- **Making.** -/
theorem espEthMacNewW6300_result (cfg : Option W6300Config) (macConfig : Option MacConfig) :
    Recorded V Books.note Orderly (espEthMacNewW6300 cfg macConfig) Result s {} := by
  have hgone {b : Books} (hb : b = {}) : Gone b := by
    subst hb
    exact ⟨⟨none, rfl⟩, rfl, rfl, rfl, rfl⟩
  rcases cfg with _ | cfg
  · exact .pure (hgone rfl)
  rcases macConfig with _ | macConfig
  · exact .pure (hgone rfl)
  refine .ite (fun _ ↦ .pure (hgone rfl)) fun _ ↦ .perform_bind rfl fun p ↦ ?_
  cases p with
  | none => exact .pure (hgone rfl)
  | some emac =>
    refine .set_bind (.seq (spiInit_transported ⟨rfl, rfl, rfl, rfl⟩ cfg) ?_)
    rintro ctx _ b ⟨⟨custom, hdl, lock, rfl⟩, hmirrors, hidle⟩
    refine .modify_bind (.ite (fun _ ↦ espEthMacNewErr_gone hmirrors hidle) fun hctx ↦ ?_)
    exact espEthMacNewTask_result hmirrors hidle hctx rfl rfl rfl macConfig

/-- **Deleting.** -/
theorem emacW6300Del_gone (h : Made emac s b.toKit) (hidle : Idle b) :
    Recorded V Books.note Orderly (emacW6300Del emac) (fun _ _ ↦ Gone) s b := by
  refine .get_bind (.seq (when_timerDelete h.timer hidle) ?_)
  rintro _ _ b₁ ⟨rfl, hidle₁, hkit₁⟩
  refine .perform_bind ⟨h.hasTask, by rw [hkit₁]; exact h.task⟩ fun _ ↦ ?_
  refine .seq (spiDeinit_bare ?_ h.hasCtx ⟨hidle₁.asked, hidle₁.handler, hidle₁.running,
    hidle₁.up⟩) ?_
  · change Transport _ ({ b₁.toKit with task := none } : Kit)
    rw [hkit₁]
    exact h.transport.without
  rintro _ s b₂ ⟨rfl, hidle₂, hkit₂, hrefused⟩
  change b₂.toKit = ({ b₁.toKit with task := none } : Kit).bare at hkit₂
  change b₁.mutexRefused = false at hrefused
  rw [hkit₁] at hkit₂ hrefused
  refine .perform_bind ?_ fun _ ↦ .perform ?_ fun _ ↦ ?_
  · exact (congrArg Kit.rxBuffer hkit₂).trans h.rxBuffer
  · refine ⟨Option.some_ne_none _, ?_, ?_, ?_, hidle₂.handler⟩
    · exact (congrArg Kit.emac hkit₂).trans h.emac
    · exact congrArg Kit.task hkit₂
    · exact congrArg Kit.timer hkit₂
  · refine ⟨⟨none, ?_⟩, hidle₂.asked, hidle₂.handler, hidle₂.running, hidle₂.up⟩
    change ({ b₂.toKit with rxBuffer := none, emac := none } : Kit) = _
    rw [hkit₂]
    simpa [Kit.bare] using hrefused

/-! ## The chip -/

/-- What an access to the chip leaves alone. -/
structure Steady (b b' : Books) : Prop where
  kit : b'.toKit = b.toKit
  asked : b'.asked = b.asked
  handler : b'.handler = b.handler
  running : b'.running = b.running
  up : b'.up = b.up

theorem Steady.refl (b : Books) : Steady b b := ⟨rfl, rfl, rfl, rfl, rfl⟩

theorem Steady.trans {b₁ b₂ b₃ : Books} (h : Steady b₁ b₂) (h' : Steady b₂ b₃) :
    Steady b₁ b₃ :=
  ⟨h'.kit.trans h.kit, h'.asked.trans h.asked, h'.handler.trans h.handler,
    h'.running.trans h.running, h'.up.trans h.up⟩

theorem steady_noteRead (r : Reg) (data : List UInt8) (b : Books) :
    Steady b (b.noteRead r data) := by
  cases r <;> exact ⟨rfl, rfl, rfl, rfl, rfl⟩

theorem steady_noteWrite (r : Reg) (data : List UInt8) (ok : Bool) (b : Books) :
    Steady b (b.noteWrite r data ok) := by
  cases r <;> exact ⟨rfl, rfl, rfl, rfl, rfl⟩

/-- The chip is up, of a driver that has all that it needs. -/
structure Awake (s : EmacW6300) (b : Books) : Prop where
  complete : Complete s b.toKit
  up : b.up = true

theorem Awake.steady {b' : Books} (h : Awake s b) (hb : Steady b b') : Awake s b' :=
  ⟨hb.kit ▸ h.complete, hb.up.trans h.up⟩

variable {α β : Type}

/-- A program that only accesses the chip, under `I`, with what holds if it succeeds. -/
abbrev Accesses (V : Env EmacW6300 E IdfOp.Ans) (I : Books → Prop) (p : Chip α)
    (Q : α → Books → Prop) (s : EmacW6300) (b : Books) : Prop :=
  Recorded V Books.note Orderly p.run (fun r s' b' ↦ s' = s ∧ Steady b b' ∧ I b' ∧ ∀ a, r =
    .ok a → Q a b') s b

namespace Accesses

variable {I : Books → Prop} {Q : α → Books → Prop}

theorem bind {p : Chip β} {f : β → Chip α} {M : β → Books → Prop} (h : Accesses V I p M s b)
    (hf : ∀ a b', Steady b b' → I b' → M a b' → Accesses V I (f a) Q s b') :
    Accesses V I (p >>= f) Q s b := by
  change Recorded V Books.note Orderly (p >>= f).run _ s b
  rw [ExceptT.run_bind]
  refine .seq h ?_
  rintro (err | a) _ b' ⟨rfl, hb, hI, hM⟩
  · exact .pure ⟨rfl, hb, hI, by rintro _ ⟨⟩⟩
  · refine (hf a b' hb hI (hM a rfl)).imp ?_
    rintro _ _ b'' ⟨rfl, hb', hI', hQ⟩
    exact ⟨rfl, hb.trans hb', hI', hQ⟩

/-- Where nothing is to be known of what comes first, but that it keeps `I`. -/
theorem step {p : Chip β} {f : β → Chip α} (h : Accesses V I p (fun _ _ ↦ True) s b)
    (hf : ∀ a b', Steady b b' → I b' → Accesses V I (f a) Q s b') :
    Accesses V I (p >>= f) Q s b :=
  h.bind fun a b' hb hI _ ↦ hf a b' hb hI

theorem pure {a : α} (hI : I b) (h : Q a b) : Accesses V I (Pure.pure a) Q s b :=
  Recorded.pure ⟨rfl, .refl b, hI, by rintro _ ⟨⟩; exact h⟩

theorem throw {err : ℤ} (hI : I b) : Accesses V I (MonadExcept.throw err) Q s b :=
  Recorded.pure ⟨rfl, .refl b, hI, by rintro _ ⟨⟩⟩

theorem ensure {c : Prop} [Decidable c] {err : ℤ} {Q : Unit → Books → Prop} (hI : I b)
    (h : c → Q () b) : Accesses V I (Failing.ensure c err) Q s b := by
  by_cases hc : c
  · rw [Failing.ensure, if_pos hc]
    exact pure hI (h hc)
  · rw [Failing.ensure, if_neg hc]
    exact throw hI

theorem delay {ms : ℕ} {Q : Unit → Books → Prop} (hI : I b) (h : Q () b) :
    Accesses V I (ExceptT.lift (ask (.vTaskDelay ms))) Q s b :=
  Recorded.perform_bind trivial fun _ ↦ .pure ⟨rfl, .refl b, hI, fun _ _ ↦ h⟩

theorem get_bind {f : EmacW6300 → Chip α} (h : Accesses V I (f s) Q s b) :
    Accesses V I (get >>= f) Q s b := h

theorem ite {c : Prop} [Decidable c] {p q : Chip α} (hp : c → Accesses V I p Q s b)
    (hq : ¬c → Accesses V I q Q s b) : Accesses V I (if c then p else q) Q s b := by
  split
  · exact hp ‹_›
  · exact hq ‹_›

theorem read {r : Reg} {len : ℕ} {Q : Vector UInt8 len → Books → Prop} (h : Awake s b) (hI : I b)
    (hQ : ∀ v : Vector UInt8 len, I (b.noteRead r v.toList) ∧ Q v (b.noteRead r v.toList)) :
    Accesses V I (w6300Read r len) Q s b := by
  refine .perform ⟨h.complete, h.up⟩ fun a ↦ ?_
  cases a with
  | error err => exact ⟨rfl, .refl b, hI, by rintro _ ⟨⟩⟩
  | ok v => exact ⟨rfl, steady_noteRead r v.toList b, (hQ v).1, by rintro _ ⟨⟩; exact (hQ v).2⟩

theorem write {r : Reg} {data : List UInt8} {Q : Unit → Books → Prop}
    (h : Orderly (.write r data) s b) (hI : I (b.noteWrite r data false))
    (hQ : I (b.noteWrite r data true) ∧ Q () (b.noteWrite r data true)) :
    Accesses V I (ExceptT.mk (ask (.write r data))) Q s b := by
  refine .perform h fun a ↦ ?_
  cases a with
  | error err => exact ⟨rfl, steady_noteWrite r data false b, hI, by rintro _ ⟨⟩⟩
  | ok _ => exact ⟨rfl, steady_noteWrite r data true b, hQ.1, fun _ _ ↦ hQ.2⟩

end Accesses

/-- Whatever is locked. -/
abbrev Anyhow (_ : Books) : Prop := True

/-- All has been seen open. -/
abbrev Unlocked (b : Books) : Prop := b.unlocked = true

theorem head_toList (v : Vector UInt8 1) : v.toList.head? = some (byte v) := by
  obtain ⟨⟨l⟩, hl⟩ := v
  match l, hl with
  | [x], _ => rfl

/-- Once SYSR has shown it, everything is open. -/
theorem accesses_unlockAll (h : Awake s b) :
    Accesses V Anyhow w6300UnlockAll (fun _ ↦ Unlocked) s b := by
  refine .step (.write ⟨h.complete, h.up⟩ trivial ⟨trivial, trivial⟩) fun _ b₁ hb₁ _ ↦ ?_
  have h₁ := h.steady hb₁
  refine .step (.write ⟨h₁.complete, h₁.up⟩ trivial ⟨trivial, trivial⟩)
    fun _ b₂ hb₂ _ ↦ ?_
  have h₂ := h₁.steady hb₂
  refine .step (.write ⟨h₂.complete, h₂.up⟩ trivial ⟨trivial, trivial⟩)
    fun _ b₃ hb₃ _ ↦ ?_
  refine .bind (.read (Q := fun v b' ↦ b'.unlocked = decide (byte v &&& sysrLocks = 0))
    (h₂.steady hb₃) trivial fun v ↦ ⟨trivial, ?_⟩) fun v b₄ _ _ hv ↦ ?_
  · change (v.toList.head?.any fun v ↦ decide (v &&& sysrLocks = 0)) = _
    rw [head_toList]
    rfl
  · exact .ensure trivial fun hopen ↦ hv.trans (decide_eq_true hopen)

theorem accesses_readId (h : Awake s b) : Accesses V Anyhow w6300ReadId (fun _ _ ↦ True) s b := by
  refine .step (.read h trivial fun _ ↦ ⟨trivial, trivial⟩) fun _ b₁ hb₁ _ ↦ ?_
  exact .step (.read (h.steady hb₁) trivial fun _ ↦ ⟨trivial, trivial⟩) fun _ _ _ _ ↦
    .pure trivial trivial

theorem accesses_verifyId (n : ℕ) : ∀ {b : Books}, Awake s b →
    Accesses V Anyhow (w6300VerifyId n) (fun _ _ ↦ True) s b := by
  induction n with
  | zero => exact fun _ ↦ .throw trivial
  | succ n ih =>
    intro b h
    refine .step (accesses_readId h) fun id b₁ hb₁ _ ↦
      .ite (fun _ ↦ .pure trivial trivial) fun _ ↦ ?_
    exact .step (.delay trivial trivial) fun _ _ hb₂ _ ↦ ih ((h.steady hb₁).steady hb₂)

/-- The first lock is opened before the reset, and all of them after it. -/
theorem accesses_reset (h : Awake s b) : Accesses V Anyhow w6300Reset (fun _ ↦ Unlocked) s b := by
  refine .bind (M := fun _ b' ↦ b'.key = true)
    (.write ⟨h.complete, h.up⟩ trivial ⟨trivial, rfl⟩) fun _ b₁ hb₁ _ hkey ↦ ?_
  have h₁ := h.steady hb₁
  refine .step (.write ⟨h₁.complete, h₁.up, hkey⟩ trivial ⟨trivial, trivial⟩)
    fun _ b₂ hb₂ _ ↦ ?_
  have h₂ := h₁.steady hb₂
  refine .step (.delay trivial trivial) fun _ b₃ hb₃ _ ↦ .get_bind ?_
  have h₃ := h₂.steady hb₃
  exact .step (accesses_verifyId _ h₃) fun _ _ hb₄ _ ↦ accesses_unlockAll (h₃.steady hb₄)

/-- A register that may be written once everything is open. -/
def Plain (x : Reg × UInt8) : Prop :=
  ∀ (s : EmacW6300) (b : Books), Awake s b → Unlocked b →
    Orderly (.write x.1 [x.2]) s b ∧ ∀ ok, b.noteWrite x.1 [x.2] ok = b

theorem plain_bufSizes : ∀ x ∈ bufSizes, Plain x := by
  intro x hx
  simp only [bufSizes, List.mem_append, List.mem_cons, List.not_mem_nil, or_false,
    List.mem_flatMap] at hx
  obtain (rfl | rfl) | ⟨i, -, rfl | rfl⟩ := hx <;> exact fun s b h ho ↦
    ⟨⟨h.complete, h.up, ho⟩, fun _ ↦ rfl⟩

theorem plain_modes : ∀ x ∈ modes, Plain x := by
  intro x hx
  simp only [modes, List.mem_cons, List.not_mem_nil, or_false] at hx
  obtain rfl | rfl | rfl | rfl | rfl | rfl := hx
  case inr.inr.inr.inl => exact fun s b h ho ↦
    ⟨⟨h.complete, h.up, ho, .inl rfl⟩, fun _ ↦ rfl⟩
  all_goals exact fun s b h ho ↦ ⟨⟨h.complete, h.up, ho⟩, fun _ ↦ rfl⟩

theorem accesses_writeAll {l : List (Reg × UInt8)} (hl : ∀ x ∈ l, Plain x) :
    ∀ {b : Books}, Awake s b → Unlocked b → Accesses V Unlocked (writeAll l)
    (fun _ _ ↦ True) s b := by
  induction l with
  | nil => exact fun _ ho ↦ .pure ho trivial
  | cons x l ih =>
    intro b h ho
    obtain ⟨hrule, hsame⟩ := hl x List.mem_cons_self s b h ho
    refine .step (.write hrule ?_ ⟨?_, trivial⟩) fun _ b₁ hb₁ ho₁ ↦
      ih (fun y hy ↦ hl y (List.mem_cons_of_mem x hy)) (h.steady hb₁) ho₁
    · rwa [hsame]
    · rwa [hsame]

theorem accesses_setupDefault (h : Awake s b) (ho : Unlocked b) :
    Accesses V Unlocked w6300SetupDefault (fun _ _ ↦ True) s b := by
  refine .step (accesses_writeAll plain_bufSizes h ho) fun _ b₁ hb₁ ho₁ ↦ ?_
  have h₁ := h.steady hb₁
  refine .step (accesses_writeAll plain_modes h₁ ho₁) fun _ b₂ hb₂ ho₂ ↦ ?_
  have h₂ := h₁.steady hb₂
  refine .step (.write ⟨h₂.complete, h₂.up, ho₂⟩ ho₂ ⟨ho₂, trivial⟩)
    fun _ b₃ hb₃ ho₃ ↦ ?_
  have h₃ := h₂.steady hb₃
  refine .step (.read h₃ ho₃ fun _ ↦ ⟨ho₃, trivial⟩) fun _ b₄ hb₄ ho₄ ↦ ?_
  have h₄ := h₃.steady hb₄
  exact .write ⟨h₄.complete, h₄.up, ho₄⟩ ho₄ ⟨ho₄, trivial⟩

theorem accesses_awaitCommand (n : ℕ) : ∀ {b : Books}, Awake s b → Unlocked b →
    Accesses V Unlocked (awaitCommand n) (fun _ _ ↦ True) s b := by
  induction n with
  | zero => exact fun _ ho ↦ .throw ho
  | succ n ih =>
    intro b h ho
    refine .step (.read h ho fun _ ↦ ⟨ho, trivial⟩) fun _ b₁ hb₁ ho₁ ↦
      .ite (fun _ ↦ .pure ho₁ trivial) fun _ ↦ ?_
    exact .step (.delay ho₁ trivial) fun _ _ hb₂ ho₂ ↦ ih ((h.steady hb₁).steady hb₂) ho₂

theorem accesses_sendCommand {command : UInt8} {timeoutMs : ℕ} (h : Awake s b) (ho : Unlocked b) :
    Accesses V Unlocked (w6300SendCommand command timeoutMs) (fun _ _ ↦ True) s b :=
  .step (.write ⟨h.complete, h.up, ho⟩ ho ⟨ho, trivial⟩) fun _ _ hb₁ ho₁ ↦
    accesses_awaitCommand _ (h.steady hb₁) ho₁

/-- Interrupts are enabled once the socket has been seen in MACRAW. -/
theorem accesses_start (h : Awake s b) (ho : Unlocked b) :
    Accesses V Unlocked emacW6300Start (fun _ _ ↦ True) s b := by
  refine .step (accesses_sendCommand h ho) fun _ b₁ hb₁ ho₁ ↦ ?_
  have h₁ := h.steady hb₁
  refine .bind (.read (Q := fun v b' ↦ b'.macraw = decide (byte v = sockMacraw)) h₁ ho₁ fun v ↦
    ⟨ho₁, ?_⟩) fun v b₂ hb₂ ho₂ hv ↦ ?_
  · change (v.toList.head?.any fun v ↦ decide (v = sockMacraw)) = _
    rw [head_toList]
    rfl
  · refine .bind (M := fun _ b' ↦ b'.macraw = true) (.ensure ho₂ fun hstatus ↦ ?_)
      fun _ b₃ hb₃ ho₃ hmacraw ↦ ?_
    · exact hv.trans (decide_eq_true hstatus)
    have h₃ := (h₁.steady hb₂).steady hb₃
    exact .write ⟨h₃.complete, h₃.up, ho₃, .inr hmacraw⟩ ho₃ ⟨ho₃, trivial⟩

theorem accesses_stop (h : Awake s b) (ho : Unlocked b) :
    Accesses V Unlocked emacW6300Stop (fun _ _ ↦ True) s b :=
  .step (.write ⟨h.complete, h.up, ho, .inl rfl⟩ ho ⟨ho, trivial⟩) fun _ _ hb₁ ho₁ ↦
    accesses_sendCommand (h.steady hb₁) ho₁

/-! ## Installed -/

/-- Between two calls of the Ethernet layer: the driver holds what it held. -/
abbrev Serves (V : Env EmacW6300 E IdfOp.Ans) (p : Driver α) (s : EmacW6300) (b : Books) : Prop :=
  Recorded V Books.note Orderly p (fun _ s' b' ↦ s' = s ∧ b'.toKit = b.toKit ∧
    Installed s b') s b

theorem Lined.steady {b' : Books} (h : Lined s b) (hasked : b'.asked = b.asked)
    (hhandler : b'.handler = b.handler) : Lined s b' :=
  ⟨hasked.trans h.asked, fun hnone ↦ hhandler.trans (h.handler hnone)⟩

theorem Installed.steady {b' : Books} (h : Installed s b) (hb : Steady b b') (ho : Unlocked b') :
    Installed s b' :=
  ⟨h.toLined.steady hb.asked hb.handler, hb.up.trans h.up, ho, fun hnone ↦ hb.running.trans
    (h.running hnone)⟩

theorem Installed.awake (h : Installed s b) (hmade : Made emac s b.toKit) : Awake s b :=
  ⟨hmade.complete, h.up⟩

theorem serves_of_accesses {p : Chip α} {Q : α → Books → Prop} (h : Installed s b)
    (hp : Accesses V Unlocked p Q s b) : Serves V p.run s b :=
  hp.imp fun _ _ _ hr ↦ ⟨hr.1, hr.2.1.kit, h.steady hr.2.1 hr.2.2.1⟩

theorem serves_discard {p : Driver α} (h : Serves V p s b) : Serves V (discard p) s b :=
  Recorded.seq h fun _ _ _ h ↦ .pure h

/-- After the chip, the timer is told about the link. -/
theorem serves_timer {p : Chip Unit} {q : EmacW6300 → Chip Unit} (h : Installed s b)
    (hmade : Made emac s b.toKit) (hp : Accesses V Unlocked p (fun _ _ ↦ True) s b)
    (hq : ∀ b', s.pollTimer ≠ none → b'.timer = s.pollTimer → Installed s b' →
      Serves V (q s).run s b') :
    Serves V (p >>= fun _ ↦ get >>= fun s ↦ if s.pollTimer ≠ none then q s else pure ()).run s
      b := by
  rw [ExceptT.run_bind]
  refine .seq hp ?_
  rintro (err | a) s b' ⟨rfl, hb, ho, -⟩
  · exact .pure ⟨rfl, hb.kit, h.steady hb ho⟩
  have hserves : Serves V (if s.pollTimer ≠ none then q s else pure ()).run s b' := by
    split
    · rename_i htimer
      exact hq b' htimer ((congrArg Kit.timer hb.kit).trans hmade.timer) (h.steady hb ho)
    · exact .pure ⟨rfl, rfl, h.steady hb ho⟩
  refine Recorded.get_bind (hserves.imp ?_)
  rintro _ _ b'' ⟨rfl, hkit, h''⟩
  exact ⟨rfl, hkit.trans hb.kit, h''⟩

theorem serves_call (c : MacCall) (h : Installed s b) (hmade : Made emac s b.toKit) :
    Serves V c.prog.run s b := by
  have hstart := accesses_start (V := V) (h.awake hmade) h.unlocked
  have hstop := accesses_stop (V := V) (h.awake hmade) h.unlocked
  rcases c with _ | _ | _ | _ | n
  · exact serves_of_accesses h hstart
  · exact serves_of_accesses h hstop
  · refine serves_timer (q := fun s ↦ ExceptT.mk
      (ask (.timerStart s.pollTimer (s.pollPeriodMs * 1000)))) h hmade hstart ?_
    intro b' hne htimer h'
    exact .perform ⟨hne, htimer⟩ fun _ ↦
      ⟨rfl, rfl, ⟨h'.asked, h'.handler⟩, h'.up, h'.unlocked, fun hnone ↦ absurd hnone hne⟩
  · refine serves_timer (q := fun s ↦ ExceptT.mk (ask (.timerStop s.pollTimer))) h hmade hstop ?_
    intro b' hne htimer h'
    exact .perform ⟨hne, htimer⟩ fun _ ↦
      ⟨rfl, rfl, ⟨h'.asked, h'.handler⟩, h'.up, h'.unlocked, fun _ ↦ rfl⟩
  · exact .pure ⟨rfl, rfl, h⟩

theorem serves_calls (h : Installed s b) (hmade : Made emac s b.toKit) :
    Serves V (forever callTurn) s b := by
  refine .forever (fun s' b' ↦ s' = s ∧ b'.toKit = b.toKit ∧ Installed s b') ⟨rfl, rfl, h⟩ ?_
  rintro s b' ⟨rfl, hkit, h'⟩
  have hmade' := hkit ▸ hmade
  refine .perform_bind ⟨hmade'.complete, h'⟩ fun c ↦ ?_
  cases c with
  | none => exact .pure ⟨rfl, hkit, h'⟩
  | some c =>
    refine .seq (serves_discard (serves_call c h' hmade')) ?_
    rintro _ s b'' ⟨rfl, hkit', h''⟩
    exact .pure ⟨rfl, hkit'.trans hkit, h''⟩

/-! ## Coming and going -/

/-- What the interrupt line leaves alone. -/
structure Apart (b b' : Books) : Prop where
  kit : b'.toKit = b.toKit
  running : b'.running = b.running
  up : b'.up = b.up
  unlocked : b'.unlocked = b.unlocked

theorem recorded_acquireLine (hidle : Idle b) (hemac : b.emac ≠ none) :
    Recorded V Books.note Orderly acquireLine
      (fun _ s' b' ↦ s' = s ∧ Apart b b' ∧ Lined s b') s b := by
  refine .get_bind (.when (fun hpin ↦ ?_) fun hpin ↦ ?_)
  · have hline : line s = some s.intGpioNum := if_pos hpin
    refine .perform_bind hpin fun _ ↦ .perform_bind hpin fun _ ↦ .perform_bind hpin fun _ ↦
      .perform_bind hpin fun _ ↦ .perform_bind hpin fun _ ↦
        .discard_perform ⟨hemac, hidle.asked, hidle.handler⟩ fun a ↦ ?_
    cases a with
    | ok _ =>
      exact ⟨rfl, ⟨rfl, rfl, rfl, rfl⟩, hline.symm, fun hnone ↦ by simp [hline] at hnone⟩
    | error err => exact ⟨rfl, ⟨rfl, rfl, rfl, rfl⟩, hline.symm, fun _ ↦ hidle.handler⟩
  · have hline : line s = none := if_neg hpin
    exact ⟨rfl, ⟨rfl, rfl, rfl, rfl⟩, hidle.asked.trans hline.symm, fun _ ↦ hidle.handler⟩

/-- What was asked for is removed, whether it is there or not. -/
theorem recorded_releaseLine (h : Lined s b) :
    Recorded V Books.note Orderly releaseLine
      (fun _ s' b' ↦ s' = s ∧ Apart b b' ∧ b'.asked = none ∧ b'.handler = none) s b := by
  refine .get_bind (.when (fun hpin ↦ ?_) fun hpin ↦ ?_)
  · have hline : line s = some s.intGpioNum := if_pos hpin
    exact .perform_bind (h.asked.trans hline) fun _ ↦ .perform hpin fun _ ↦
      ⟨rfl, ⟨rfl, rfl, rfl, rfl⟩, rfl, rfl⟩
  · have hline : line s = none := if_neg hpin
    exact ⟨rfl, ⟨rfl, rfl, rfl, rfl⟩, h.asked.trans hline, h.handler hline⟩

/-- Where the chip is brought up, it is open. -/
theorem recorded_bringUp (hcomplete : Complete s b.toKit) (hup : b.up = false) :
    Recorded V Books.note Orderly bringUp.run (fun r s' b' ↦ s' = s ∧ b'.toKit = b.toKit ∧
      b'.asked = b.asked ∧ b'.handler = b.handler ∧ b'.running = b.running ∧ b'.up = true ∧
        ∀ a, r = .ok a → Unlocked b') s b := by
  rw [bringUp, ExceptT.run_bind]
  refine .perform_bind hup fun a ↦ ?_
  cases a with
  | error err => exact .pure ⟨rfl, rfl, rfl, rfl, rfl, rfl, by rintro _ ⟨⟩⟩
  | ok _ =>
    have hawake : Awake s (Books.note (.onStateChanged true) s (.ok ()) b) := ⟨hcomplete, rfl⟩
    have haccesses : Accesses V Anyhow (w6300Reset >>= fun _ ↦ w6300SetupDefault)
        (fun _ ↦ Unlocked) s (Books.note (.onStateChanged true) s (.ok ()) b) :=
      .bind (accesses_reset hawake) fun _ b₁ hb₁ _ ho ↦
        ((accesses_setupDefault (hawake.steady hb₁) ho).imp fun _ _ _ h ↦ ⟨h.1, h.2.1, trivial,
          fun _ _ ↦ h.2.2.1⟩)
    exact haccesses.imp fun _ _ _ h ↦
      ⟨h.1, h.2.1.kit, h.2.1.asked, h.2.1.handler, h.2.1.running, h.2.1.up, h.2.2.2⟩

theorem recorded_init (hmade : Made emac s b.toKit) (hidle : Idle b) :
    Recorded V Books.note Orderly emacW6300Init (fun r s' b' ↦ s' = s ∧ b'.toKit = b.toKit ∧
      match r with
      | .ok _ => Installed s b'
      | .error _ => Idle b') s b := by
  refine .seq (recorded_acquireLine hidle hmade.complete.emac) ?_
  rintro _ s b₁ ⟨rfl, hb₁, hline⟩
  refine .seq (recorded_bringUp (hb₁.kit ▸ hmade.complete) (hb₁.up.trans hidle.up)) ?_
  rintro (err | a) s b₂ ⟨rfl, hkit, hasked, hhandler, hrunning, hup, ho⟩
  · refine .seq (recorded_releaseLine (hline.steady hasked hhandler)) ?_
    rintro _ s b₃ ⟨rfl, hb₃, hasked₃, hnone₃⟩
    refine .seq (.discard_perform (Q := fun _ s' b' ↦ s' = s ∧ b'.toKit = b.toKit ∧ Idle b') ?_
      fun _ ↦ ?_) ?_
    · exact hb₃.up.trans hup
    · refine ⟨rfl, (hb₃.kit.trans hkit).trans hb₁.kit, hasked₃, hnone₃, ?_, rfl⟩
      exact hb₃.running.trans (hrunning.trans (hb₁.running.trans hidle.running))
    · rintro _ s _ ⟨rfl, h⟩
      exact .pure ⟨rfl, h⟩
  · refine .pure ⟨rfl, hkit.trans hb₁.kit, hline.steady hasked hhandler, hup, ho a rfl,
      fun _ ↦ ?_⟩
    exact hrunning.trans (hb₁.running.trans hidle.running)

theorem recorded_deinit (hmade : Made emac s b.toKit) (h : Installed s b) :
    Recorded V Books.note Orderly emacW6300Deinit (fun _ s' b' ↦ s' = s ∧ b'.toKit = b.toKit ∧
      Idle b') s b := by
  refine .seq (serves_discard (serves_of_accesses h (accesses_stop (h.awake hmade) h.unlocked))) ?_
  rintro _ s b₁ ⟨rfl, hkit₁, h₁⟩
  refine .seq (recorded_releaseLine h₁.toLined) ?_
  rintro _ s b₂ ⟨rfl, hb₂, hasked, hnone⟩
  have htimer : b₂.timer = s.pollTimer :=
    (congrArg Kit.timer (hb₂.kit.trans hkit₁)).trans hmade.timer
  -- Whether the timer runs is asked, or there is none.
  refine .get_bind (.seq (M := fun _ s' b' ↦ s' = s ∧ b'.toKit = b.toKit ∧ b'.asked = none ∧
    b'.handler = none ∧ b'.up = true ∧ b'.running = false) (.when (fun hne ↦ ?_) fun hno ↦
      ?_) ?_)
  · refine .perform_bind ⟨hne, htimer⟩ fun active ↦ .ite (fun _ ↦ ?_) fun hactive ↦ .pure ?_
    · refine .discard_perform ⟨hne, htimer⟩ fun _ ↦ ?_
      exact ⟨rfl, hb₂.kit.trans hkit₁, hasked, hnone, hb₂.up.trans h₁.up, rfl⟩
    · exact ⟨rfl, hb₂.kit.trans hkit₁, hasked, hnone, hb₂.up.trans h₁.up,
        Bool.eq_false_iff.mpr hactive⟩
  · exact ⟨rfl, hb₂.kit.trans hkit₁, hasked, hnone, hb₂.up.trans h₁.up,
      hb₂.running.trans (h₁.running (not_not.mp hno))⟩
  · rintro _ s b₃ ⟨rfl, hkit₃, hasked₃, hnone₃, hup₃, hrunning₃⟩
    exact .discard_perform hup₃ fun _ ↦ ⟨rfl, hkit₃, hasked₃, hnone₃, hrunning₃, rfl⟩

/-! ## A life -/

theorem recorded_lifeTurn (hmade : Made emac s b.toKit) (hidle : Idle b) :
    Recorded V Books.note Orderly (lifeTurn emac) (fun r s' b' ↦ match r with
      | none => Made emac s' b'.toKit ∧ Idle b'
      | some _ => Gone b') s b := by
  refine .perform_bind ⟨hmade.complete, hidle⟩ fun install ↦
    .ite (fun _ ↦ .seq (recorded_init hmade hidle) ?_) fun _ ↦
      .seq (emacW6300Del_gone hmade hidle) fun _ _ _ h ↦ .pure h
  rintro (err | a) s b₁ ⟨rfl, hkit₁, h₁⟩
  · exact .pure ⟨hkit₁ ▸ hmade, h₁⟩
  refine .seq (serves_calls h₁ (hkit₁ ▸ hmade)) ?_
  rintro _ s b₂ ⟨rfl, hkit₂, h₂⟩
  have hmade₂ := (hkit₂.trans hkit₁) ▸ hmade
  refine .seq (recorded_deinit hmade₂ h₂) ?_
  rintro _ s b₃ ⟨rfl, hkit₃, h₃⟩
  exact .pure ⟨hkit₃ ▸ hmade₂, h₃⟩

theorem recorded_life (cfg : Option W6300Config) (macConfig : Option MacConfig) :
    Recorded V Books.note Orderly (life cfg macConfig) (fun _ _ ↦ Gone) s {} := by
  refine .seq (espEthMacNewW6300_result cfg macConfig) ?_
  rintro (_ | emac) s b h
  · exact .pure h
  · refine .forever (fun s' b' ↦ Made emac s' b'.toKit ∧ Idle b') h ?_
    rintro s b ⟨hmade, hidle⟩
    refine (recorded_lifeTurn hmade hidle).imp ?_
    rintro (_ | _) _ _ h <;> exact h

/-- **The driver is orderly, and gives back what it takes.** Whatever is configured, whichever calls
and accesses fail that can take or start something, and whatever the Ethernet layer does in between.
In the end nothing is held, but the device for which there was no mutex, if it came to that. -/
theorem mac_orderly {e : E} {cfg : Option W6300Config} {macConfig : Option MacConfig} :
    (∀ o s' e', Performs (V.noted Books.note) (life cfg macConfig) s (e, {}) o s' e' →
      Orderly o s' e'.2) ∧
      ∀ u s' e', Returns (V.noted Books.note) (life cfg macConfig) s (e, {}) u s' e' → Gone e'.2 :=
  ⟨fun _ _ _ h ↦ (recorded_life cfg macConfig).performs h,
    fun _ _ _ h ↦ (recorded_life cfg macConfig).returns h⟩

end WsmDriver.W6300.Install
