import Mathlib.Data.Int.Order.Basic
import WsmDriver.Effect.History
import WsmDriver.Effect.Trace

/-!
# Bringing the SPI transport up and down

`wsm_driver_spi_init` takes a mutex, a bus and a device, one after the other, and where one of these
steps fails it gives back what it has got by then, through labels that fall through to one another.
The bus is only there to be given back if the driver has initialized it: an application may have
done so before.

What the driver holds is not in its own data alone. It is kept here beside it, and changed by the
calls into ESP-IDF only.

## Representation

A label is a function, and falls through to the next one by calling it. An `esp_err_t` is a number,
`ESP_OK` is 0. A handle is a number too, with `none` for `NULL`; what succeeds answers a handle that
is none.
-/

namespace WsmDriver.Spi.BringUp

open Effect Program Recorded

/-! ## The data -/

/-- `ESP_OK`, `ESP_ERR_NO_MEM` and `ESP_ERR_INVALID_ARG`. -/
def espOk : ℤ := 0

def espErrNoMem : ℤ := 0x101

def espErrInvalidArg : ℤ := 0x102

/-- `SPI2_HOST` and `SPI3_HOST`. -/
def spi2Host : ℤ := 1

def spi3Host : ℤ := 2

/-- The build: the `WSM_DRIVER_DEF_SPI_*` defaults, and whether the chip is connected by QSPI, and
by four lines. -/
structure Build where
  host : ℤ := spi2Host
  clockHz : ℤ := 20000000
  miso : ℤ := 13
  mosi : ℤ := 11
  clk : ℤ := 12
  cs : ℤ := 10
  rst : ℤ := 9
  int : ℤ := 14
  io2 : ℤ := 15
  io3 : ℤ := 16
  useQspi : Bool := false
  qspiQuad : Bool := false

/-- `WSM_DRIVER_DEF_SPI_TIMEOUT_MS`. -/
def defTimeoutMs : UInt32 := 1000

/-- `wsm_driver_spi_config_t`. -/
structure SpiConfig where
  hostId : ℤ := 0
  clockHz : ℤ := 0
  pinMiso : ℤ := 0
  pinMosi : ℤ := 0
  pinSclk : ℤ := 0
  pinCs : ℤ := 0
  pinRst : ℤ := 0
  pinInt : ℤ := 0
  pinIo2 : ℤ := 0
  pinIo3 : ℤ := 0
  lockTimeoutMs : UInt32 := 0
  busInitializedByCaller : Bool := false
  deriving DecidableEq

/-- `wsm_driver_spi_context_t`. -/
structure SpiContext where
  initialized : Bool := false
  csActive : Bool := false
  busOwned : Bool := false
  spiDev : Option ℕ := none
  lock : Option ℕ := none
  cfg : SpiConfig := {}
  deriving DecidableEq

/-- `resolve_pin`. -/
def resolvePin (configured fallback : ℤ) : ℤ := if 0 ≤ configured then configured else fallback

/-- `apply_defaults`. -/
def applyDefaults (k : Build) (cfg : SpiConfig) : SpiConfig where
  hostId := if cfg.hostId ≠ spi2Host ∧ cfg.hostId ≠ spi3Host then k.host else cfg.hostId
  clockHz := if cfg.clockHz ≤ 0 then k.clockHz else cfg.clockHz
  pinSclk := resolvePin cfg.pinSclk k.clk
  pinCs := resolvePin cfg.pinCs k.cs
  pinMosi := resolvePin cfg.pinMosi k.mosi
  pinMiso := resolvePin cfg.pinMiso k.miso
  pinInt := resolvePin cfg.pinInt k.int
  pinRst := resolvePin cfg.pinRst k.rst
  pinIo2 := resolvePin cfg.pinIo2 k.io2
  pinIo3 := resolvePin cfg.pinIo3 k.io3
  lockTimeoutMs := if cfg.lockTimeoutMs = 0 then defTimeoutMs else cfg.lockTimeoutMs
  busInitializedByCaller := cfg.busInitializedByCaller

/-- `spi_bus_config_t`. -/
structure BusConfig where
  mosiIoNum : ℤ
  misoIoNum : ℤ
  sclkIoNum : ℤ
  quadwpIoNum : ℤ := -1
  quadhdIoNum : ℤ := -1
  data4IoNum : ℤ := -1
  data5IoNum : ℤ := -1
  data6IoNum : ℤ := -1
  data7IoNum : ℤ := -1
  maxTransferSz : ℤ := 2048
  /-- `SPICOMMON_BUSFLAG_MASTER | SPICOMMON_BUSFLAG_QUAD`. -/
  quadMaster : Bool := false
  deriving DecidableEq

/-- The `buscfg` of `wsm_driver_spi_init`. -/
def buscfg (k : Build) (cfg : SpiConfig) : BusConfig :=
  let buscfg : BusConfig :=
    { mosiIoNum := cfg.pinMosi, misoIoNum := cfg.pinMiso, sclkIoNum := cfg.pinSclk }
  if k.useQspi = true then
    let buscfg := { buscfg with maxTransferSz := 16 * 1024 + 8 }
    if k.qspiQuad = true then
      { buscfg with quadwpIoNum := cfg.pinIo2, quadhdIoNum := cfg.pinIo3, quadMaster := true }
    else buscfg
  else buscfg

/-- `spi_device_interface_config_t`. -/
structure DeviceConfig where
  mode : ℕ := 0
  clockSpeedHz : ℤ
  spicsIoNum : ℤ := -1
  queueSize : ℕ := 1
  /-- `SPI_DEVICE_HALFDUPLEX`. -/
  halfDuplex : Bool
  deriving DecidableEq

/-- The bit of a pin in a mask. -/
def pinBit (pin : ℤ) : UInt64 := 1 <<< UInt64.ofNat pin.toNat

/-- `gpio_config_t`: an output without pull-up, or an input with one. -/
structure GpioConfig where
  pinBitMask : UInt64
  output : Bool
  pullUpEn : Bool
  deriving DecidableEq

/-! ## Operations -/

/-- What is asked of ESP-IDF and FreeRTOS. -/
inductive IdfOp
  /-- `xSemaphoreCreateRecursiveMutex`. -/
  | createMutex
  /-- `vSemaphoreDelete`. -/
  | deleteMutex (lock : Option ℕ)
  | busInitialize (host : ℤ) (cfg : BusConfig)
  | busFree (host : ℤ)
  | busAddDevice (host : ℤ) (cfg : DeviceConfig)
  | busRemoveDevice (dev : Option ℕ)
  | gpioConfig (cfg : GpioConfig)
  | gpioSetLevel (pin : ℤ) (high : Bool)
  deriving DecidableEq

/-- The answer to each operation: a handle, an `esp_err_t`, or both. -/
abbrev IdfOp.Ans : IdfOp → Type
  | .createMutex => Option ℕ
  | .busAddDevice .. => ℤ × ℕ
  | .busInitialize .. | .gpioConfig _ => ℤ
  | .deleteMutex _ | .busFree _ | .busRemoveDevice _ | .gpioSetLevel .. => Unit

abbrev Driver := Program SpiContext IdfOp.Ans

/-- Perform an operation. -/
abbrev ask (o : IdfOp) : Driver o.Ans := perform o

/-! ## The functions -/

/-- `wsm_driver_spi_init` from the label `err` on. -/
def spiInitErr (ret : ℤ) : Driver ℤ := do
  ask (.deleteMutex (← get).lock)
  modify fun _ ↦ {}
  return ret

/-- From the label `err_bus` on. -/
def spiInitErrBus (ret : ℤ) : Driver ℤ := do
  let s ← get
  when (s.busOwned = true) (ask (.busFree s.cfg.hostId))
  spiInitErr ret

/-- From the label `err_dev` on. -/
def spiInitErrDev (ret : ℤ) : Driver ℤ := do
  ask (.busRemoveDevice (← get).spiDev)
  modify fun s ↦ { s with spiDev := none }
  spiInitErrBus ret

/-- `wsm_driver_spi_init` from the pins on. -/
def spiInitPins : Driver ℤ := do
  let s ← get
  let ret ← ask (.gpioConfig {
    pinBitMask := pinBit s.cfg.pinCs ||| pinBit s.cfg.pinRst, output := true, pullUpEn := false })
  if ret ≠ espOk then spiInitErrDev ret
  else
    let ret ← ask (.gpioConfig { pinBitMask := pinBit s.cfg.pinInt, output := false, pullUpEn :=
      true })
    if ret ≠ espOk then spiInitErrDev ret
    else
      ask (.gpioSetLevel s.cfg.pinCs true)
      ask (.gpioSetLevel s.cfg.pinRst true)
      modify fun s ↦ { s with csActive := false, initialized := true }
      return espOk

/-- From the device on. -/
def spiInitDevice (k : Build) : Driver ℤ := do
  let s ← get
  let ret ← ask
    (.busAddDevice s.cfg.hostId { clockSpeedHz := s.cfg.clockHz, halfDuplex := k.useQspi })
  if ret.1 ≠ espOk then spiInitErrBus ret.1
  else
    modify fun s ↦ { s with spiDev := some ret.2 }
    spiInitPins

/-- From the bus on. -/
def spiInitBus (k : Build) : Driver ℤ := do
  let s ← get
  if s.cfg.busInitializedByCaller = false then
    let ret ← ask (.busInitialize s.cfg.hostId (buscfg k s.cfg))
    if ret ≠ espOk then spiInitErr ret
    else
      modify fun s ↦ { s with busOwned := true }
      spiInitDevice k
  else spiInitDevice k

/-- `wsm_driver_spi_init`, with `none` for a null pointer. -/
def wsmDriverSpiInit (k : Build) : Option SpiConfig → Driver ℤ
  | none => return espErrInvalidArg
  | some cfg => do
    if (← get).initialized = true then return espOk
    modify fun _ ↦ { cfg := applyDefaults k cfg }
    let lock ← ask .createMutex
    modify fun s ↦ { s with lock := lock }
    if lock = none then return espErrNoMem
    spiInitBus k

/-- `wsm_driver_spi_deinit`. -/
def wsmDriverSpiDeinit : Driver ℤ := do
  let s ← get
  if s.initialized = false then return espOk
  when (s.spiDev ≠ none) do
    ask (.busRemoveDevice s.spiDev)
    modify fun s ↦ { s with spiDev := none }
  when (s.busOwned = true) (ask (.busFree s.cfg.hostId))
  when (s.lock ≠ none) do
    ask (.deleteMutex s.lock)
    modify fun s ↦ { s with lock := none }
  modify fun _ ↦ {}
  return espOk

/-! ## What the driver holds -/

/-- The mutexes, the devices and the buses that the driver has got and not given back. -/
structure Held where
  mutexes : List ℕ := []
  devices : List ℕ := []
  buses : List ℤ := []
  deriving DecidableEq

/-- What an answer changes about them. -/
def held : (o : IdfOp) → SpiContext → o.Ans → Held → Held
  | .createMutex, _, a, e => { e with mutexes := a.toList ++ e.mutexes }
  | .deleteMutex lock, _, _, e => { e with mutexes := lock.elim e.mutexes e.mutexes.erase }
  | .busInitialize host _, _, ret, e => if ret = espOk then { e with buses := host :: e.buses } else
      e
  | .busFree host, _, _, e => { e with buses := e.buses.erase host }
  | .busAddDevice _ _, _, a, e => if a.1 = espOk then { e with devices := a.2 :: e.devices } else e
  | .busRemoveDevice dev, _, _, e => { e with devices := dev.elim e.devices e.devices.erase }
  | .gpioConfig _, _, _, e => e
  | .gpioSetLevel _ _, _, _, e => e

/-- Only what the driver holds is given back. -/
def GivesBackHeld : IdfOp → SpiContext → Held → Prop
  | .deleteMutex lock, _, e => ∃ h ∈ e.mutexes, lock = some h
  | .busFree host, _, e => host ∈ e.buses
  | .busRemoveDevice dev, _, e => ∃ h ∈ e.devices, dev = some h
  | _, _, _ => True

/-- The driver holds one mutex and one device, its own, and the bus if it owns that. -/
def HoldsAll (s : SpiContext) (e : Held) : Prop :=
  ∃ lock dev, s.lock = some lock ∧ s.spiDev = some dev ∧
    e = ⟨[lock], [dev], if s.busOwned = true then [s.cfg.hostId] else []⟩

variable {E : Type} {V : Env SpiContext E IdfOp.Ans} {k : Build} {s : SpiContext} {e : Held}
    {lock dev : ℕ} {ret : ℤ}

/-- The driver gave back everything and says why. -/
def GaveUp (ret r : ℤ) (s : SpiContext) (e : Held) : Prop := r = ret ∧ s = {} ∧ e = {}

theorem spiInitErr_gaveUp (hlock : s.lock = some lock) :
    Recorded V held GivesBackHeld (spiInitErr ret) (GaveUp ret) s ⟨[lock], [], []⟩ := by
  refine .get_bind (.perform_bind ⟨lock, List.mem_singleton_self _, hlock⟩ fun _ ↦ .modify_bind
    (.pure ⟨rfl, rfl, ?_⟩))
  simp [held, hlock]

theorem spiInitErrBus_gaveUp (hlock : s.lock = some lock) :
    Recorded V held GivesBackHeld (spiInitErrBus ret)
    (GaveUp ret) s ⟨[lock], [], if s.busOwned = true then [s.cfg.hostId] else []⟩ := by
  refine .get_bind (.when_bind (fun howned ↦ ?_) fun howned ↦ ?_)
  · rw [if_pos howned]
    refine .perform_bind (List.mem_singleton_self _) fun _ ↦ ?_
    simpa [held] using spiInitErr_gaveUp hlock
  · rw [if_neg howned]
    exact spiInitErr_gaveUp hlock

theorem spiInitErrDev_gaveUp (h : HoldsAll s e) :
    Recorded V held GivesBackHeld (spiInitErrDev ret) (GaveUp ret) s e := by
  obtain ⟨lock, dev, hlock, hdev, rfl⟩ := h
  refine .get_bind (.perform_bind ⟨dev, List.mem_singleton_self _, hdev⟩ fun _ ↦ .modify_bind ?_)
  simpa [held, hdev] using spiInitErrBus_gaveUp (s := { s with spiDev := none }) hlock

/-! ## Each call -/

/-- The driver is up with a configuration, and holds what it needs. -/
structure Up (k : Build) (cfg : SpiConfig) (s : SpiContext) (e : Held) : Prop where
  initialized : s.initialized = true
  configured : s.cfg = applyDefaults k cfg
  owned : s.busOwned = !cfg.busInitializedByCaller
  holds : HoldsAll s e

/-- What comes out of an attempt: the driver is up, or holds nothing. -/
def Settled (k : Build) (cfg : SpiConfig) (r : ℤ) (s : SpiContext) (e : Held) : Prop :=
  (r = espOk ∧ Up k cfg s e) ∨ (r ≠ espOk ∧ s.initialized = false ∧ e = {})

variable {cfg : SpiConfig} {r : ℤ}

theorem GaveUp.settled (h : GaveUp ret r s e) (hret : ret ≠ espOk) : Settled k cfg r s e := by
  obtain ⟨rfl, rfl, rfl⟩ := h
  exact .inr ⟨hret, rfl, rfl⟩

theorem spiInitPins_settled (hcfg : s.cfg = applyDefaults k cfg)
    (howned : s.busOwned = !cfg.busInitializedByCaller) (h : HoldsAll s e) :
    Recorded V held GivesBackHeld spiInitPins (Settled k cfg) s e := by
  have hfail : ∀ {ret}, ret ≠ espOk →
      Recorded V held GivesBackHeld (spiInitErrDev ret) (Settled k cfg) s e :=
    fun hret ↦ (spiInitErrDev_gaveUp h).imp fun _ _ _ hgave ↦ hgave.settled hret
  refine .get_bind (.perform_bind trivial fun ret ↦ .ite hfail fun _ ↦ ?_)
  refine .perform_bind trivial fun ret ↦ .ite hfail fun _ ↦ ?_
  refine .perform_bind trivial fun _ ↦ .perform_bind trivial fun _ ↦
    .modify_bind (.pure (.inl ⟨rfl, ?_⟩))
  exact ⟨rfl, hcfg, howned, h⟩

theorem spiInitDevice_settled (hcfg : s.cfg = applyDefaults k cfg)
    (howned : s.busOwned = !cfg.busInitializedByCaller) (hlock : s.lock = some lock) :
    Recorded V held GivesBackHeld (spiInitDevice k) (Settled k cfg) s
      ⟨[lock], [], if s.busOwned = true then [s.cfg.hostId] else []⟩ := by
  refine .get_bind (.perform_bind trivial fun ret ↦ .ite (fun hret ↦ ?_) fun hret ↦
    .modify_bind ?_)
  · rw [held, if_neg hret]
    exact (spiInitErrBus_gaveUp hlock).imp fun _ _ _ hgave ↦ hgave.settled hret
  · rw [held, if_pos (not_not.mp hret)]
    exact spiInitPins_settled hcfg howned ⟨lock, ret.2, hlock, rfl, rfl⟩

theorem spiInitBus_settled (hcfg : s.cfg = applyDefaults k cfg) (howned : s.busOwned = false)
    (hlock : s.lock = some lock) :
    Recorded V held GivesBackHeld (spiInitBus k) (Settled k cfg) s ⟨[lock], [], []⟩ := by
  have hcaller : s.cfg.busInitializedByCaller = cfg.busInitializedByCaller := by
    rw [hcfg]
    rfl
  refine .get_bind (.ite (fun hbus ↦ .perform_bind trivial fun ret ↦ .ite (fun hret ↦ ?_)
    fun hret ↦ .modify_bind ?_) fun hbus ↦ ?_)
  · rw [held, if_neg hret]
    exact (spiInitErr_gaveUp hlock).imp fun _ _ _ hgave ↦ hgave.settled hret
  · rw [held, if_pos (not_not.mp hret)]
    refine spiInitDevice_settled hcfg ?_ hlock
    rw [← hcaller, hbus, Bool.not_false]
  · rw [Bool.not_eq_false, hcaller] at hbus
    have hshared : s.busOwned = !cfg.busInitializedByCaller := by rw [howned, hbus, Bool.not_true]
    have hdevice := spiInitDevice_settled (V := V) (k := k) hcfg hshared hlock
    rwa [howned] at hdevice

/-- **Bringing up.** -/
theorem wsmDriverSpiInit_settled (h : s.initialized = false) :
    Recorded V held GivesBackHeld (wsmDriverSpiInit k (some cfg)) (Settled k cfg) s {} := by
  refine .get_bind (.ite (fun hinit ↦ ?_) fun _ ↦ .modify_bind (.perform_bind trivial fun lock ↦
    .modify_bind ?_))
  · rw [h] at hinit
    cases hinit
  refine .ite (fun hlock ↦ ?_) fun hlock ↦ ?_
  · subst hlock
    exact .pure (.inr ⟨by decide, rfl, rfl⟩)
  · obtain ⟨lock, rfl⟩ := Option.ne_none_iff_exists'.mp hlock
    exact spiInitBus_settled rfl rfl rfl

/-- **Taking down.** -/
theorem wsmDriverSpiDeinit_down (hinit : s.initialized = true) (h : HoldsAll s e) :
    Recorded V held GivesBackHeld wsmDriverSpiDeinit (GaveUp espOk) s e := by
  obtain ⟨lock, dev, hlock, hdev, rfl⟩ := h
  refine .get_bind (.ite (fun hdown ↦ ?_) fun _ ↦ .when_bind (fun _ ↦ ?_) fun hnone ↦ ?_)
  · rw [hinit] at hdown
    cases hdown
  swap
  · rw [hdev] at hnone
    exact absurd (Option.some_ne_none dev) hnone
  rw [hdev, hlock]
  refine .bind (.perform_bind ⟨dev, List.mem_singleton_self _, rfl⟩ fun _ ↦ .update ?_)
  -- With the device gone, the mutex is given back whether the bus was freed or was somebody else's.
  have hrest : Recorded V held GivesBackHeld (do
      Program.when (some lock ≠ none) do
        ask (.deleteMutex (some lock))
        modify fun s ↦ { s with lock := none }
      modify fun _ ↦ {}
      return espOk) (GaveUp espOk) { s with spiDev := none } ⟨[lock], [], []⟩ := by
    refine .when_bind (fun _ ↦ ?_) fun hnone ↦ absurd (Option.some_ne_none _) hnone
    refine .bind (.perform_bind ⟨lock, List.mem_singleton_self _, rfl⟩ fun _ ↦ .update
      (.modify_bind (.pure ⟨rfl, rfl, ?_⟩)))
    simp [held]
  refine .when_bind (fun howned ↦ ?_) fun howned ↦ ?_
  · rw [if_pos howned]
    refine .perform_bind (List.mem_singleton_self _) fun _ ↦ ?_
    simpa [held] using hrest
  · rw [if_neg howned]
    simpa [held] using hrest

/-! ## All calls -/

/-- The calls. -/
inductive SpiCall
  | init (cfg : Option SpiConfig)
  | deinit
  deriving DecidableEq

def SpiCall.prog (k : Build) : SpiCall → Driver ℤ
  | .init cfg => wsmDriverSpiInit k cfg
  | .deinit => wsmDriverSpiDeinit

/-- The configuration the driver is up with, to someone who sees the calls and what they return. -/
def upAfter (up : Option SpiConfig) : SpiCall → ℤ → Option SpiConfig
  | .init cfg, r => if r = espOk then up.or cfg else up
  | .deinit, _ => none

def upWith {E : Type} (log : List (Event SpiCall E ℤ)) : Option SpiConfig :=
  log.foldl (fun up x ↦ upAfter up x.call x.result) none

/-- Down, with nothing, or up. -/
def Balanced (k : Build) (s : SpiContext) (e : Held) : Option SpiConfig → Prop
  | none => s.initialized = false ∧ e = {}
  | some cfg => Up k cfg s e

theorem wsmDriverSpiInit_up (hinit : s.initialized = true) (cfg : Option SpiConfig) :
    (wsmDriverSpiInit k cfg).exec? s = some (if cfg = none then espErrInvalidArg else espOk,
      s) := by
  cases cfg with
  | none => rfl
  | some cfg =>
    rw [wsmDriverSpiInit, exec?_get_bind, if_pos hinit]
    rfl

/-- **One call.** -/
theorem SpiCall.balanced {up : Option SpiConfig} (h : Balanced k s e up) (c : SpiCall) :
    Recorded V held GivesBackHeld (c.prog k) (fun r s' e' ↦ Balanced k s' e' (upAfter up c r))
      s e := by
  rcases c with ⟨_ | cfg⟩ | _
  · exact .pure h
  · cases up with
    | none =>
      obtain ⟨hinit, rfl⟩ := h
      refine (wsmDriverSpiInit_settled hinit).imp fun r s' e' hr ↦ ?_
      obtain ⟨rfl, hup⟩ | ⟨hr, hdown⟩ := hr
      · exact hup
      · rw [upAfter, if_neg hr]
        exact hdown
    | some cfg' =>
      -- The driver is up, and stays as it is.
      refine .get_bind ?_
      rw [if_pos h.initialized]
      exact .pure h
  · cases up with
    | none =>
      refine .get_bind ?_
      rw [if_pos h.1]
      exact .pure h
    | some cfg =>
      refine (wsmDriverSpiDeinit_down h.initialized h.holds).imp fun r s' e' hr ↦ ?_
      obtain ⟨-, rfl, rfl⟩ := hr
      exact ⟨rfl, rfl⟩

variable (V k) in
/-- The sequences of calls, from the start of the program. -/
abbrev Calls (e₀ : E) : List (Event SpiCall (E × Held) ℤ) → SpiContext → E × Held → Prop :=
  Session (V.noted held) (SpiCall.prog k) {} (e₀, {})

theorem Calls.balanced {e₀ : E} {log : List (Event SpiCall (E × Held) ℤ)} {e : E × Held}
    (h : Calls V k e₀ log s e) : Balanced k s e.2 (upWith log) := by
  induction h with
  | start => exact ⟨rfl, rfl⟩
  | drift _ hd ih =>
    rw [hd.2]
    exact ih
  | call c _ hr ih =>
    rw [upWith, List.foldl_append]
    exact (SpiCall.balanced ih c).returns hr

/-- **Bringing up is all or nothing.** After any calls, whichever of the calls into ESP-IDF failed,
the driver holds nothing, or, if it is up, one mutex, one device, and the bus if and only if the
configuration it is up with did not say that the caller had initialized it. Only what is held is
given back, in the middle of any call. And to bring up a driver that is up asks for nothing and
changes nothing. -/
theorem spi_all_or_nothing {e₀ : E} {log : List (Event SpiCall (E × Held) ℤ)} {e : E × Held}
    (h : Calls V k e₀ log s e) :
    s.initialized = (upWith log).isSome ∧ (upWith log = none → e.2 = ⟨[], [], []⟩) ∧
    (∀ cfg, upWith log = some cfg → ∃ lock dev, e.2 =
      ⟨[lock], [dev], if cfg.busInitializedByCaller = true then [] else
        [(applyDefaults k cfg).hostId]⟩) ∧
    (∀ (c : SpiCall) o s' e', Performs (V.noted held) (c.prog k) s e o s' e' →
      GivesBackHeld o s' e'.2) ∧
    (s.initialized = true → ∀ cfg,
      (wsmDriverSpiInit k cfg).exec? s = some (if cfg = none then espErrInvalidArg else espOk,
        s)) := by
  have hbal := h.balanced
  refine ⟨?_, fun hdown ↦ ?_, fun cfg hup ↦ ?_, fun c o s' e' hp ↦ ?_, fun hinit cfg ↦ ?_⟩
  · cases hup : upWith log with
    | none => exact (hup ▸ hbal : Balanced k s e.2 none).1
    | some cfg => exact (hup ▸ hbal : Balanced k s e.2 (some cfg)).initialized
  · rw [hdown] at hbal
    exact hbal.2
  · rw [hup] at hbal
    obtain ⟨lock, dev, -, -, hheld⟩ := hbal.holds
    refine ⟨lock, dev, ?_⟩
    rw [hheld, hbal.owned, hbal.configured]
    cases cfg.busInitializedByCaller
    · rfl
    · rfl
  · exact (c.balanced hbal).performs hp
  · exact wsmDriverSpiInit_up hinit cfg

/-- ESP-IDF in which only the device cannot be added to a bus of the driver's own. -/
def deviceless : (o : IdfOp) → Unit → o.Ans × Unit
  | .createMutex, _ => (some 1, ())
  | .busInitialize _ _, _ => (0, ())
  | .busAddDevice host _, _ => (if host = spi3Host then (0, 2) else (0x105, 0), ())
  | .gpioConfig _, _ => (0, ())
  | .deleteMutex _, _ | .busFree _, _ | .busRemoveDevice _, _ | .gpioSetLevel _ _, _ => ((), ())

/-- A bus of the driver's own, and one that the caller has initialized. -/
def ownBus : SpiConfig := { hostId := spi2Host }

def sharedBus : SpiConfig := { hostId := spi3Host, busInitializedByCaller := true }

/-- A first attempt fails, and the second, on a bus of the caller's, succeeds. -/
theorem spi_all_or_nothing_second : ∃ log s e, Calls (.script deviceless) {} () log s e ∧
    log.length = 2 ∧
    s.initialized = (upWith log).isSome ∧ (upWith log).isSome = true ∧
    (upWith log = none → e.2 = ⟨[], [], []⟩) := by
  have hanswer : ∀ o s e, (Env.script deviceless : Env SpiContext Unit IdfOp.Ans).answer o s e
      (deviceless o e).1 (deviceless o e).2 := fun _ _ _ ↦ ⟨rfl, rfl⟩
  have hstart : Calls (.script deviceless) {} () [] {} ((), {}) := .start
  have hfirst :=
    hstart.call (.init (some ownBus)) (r := 0x105) (returns_runNoted hanswer (n := 40) (by decide))
  have hsecond :=
    hfirst.call (.init (some sharedBus)) (r := 0) (returns_runNoted hanswer (n := 40) (by decide))
  exact ⟨_, _, _, hsecond, rfl, (spi_all_or_nothing hsecond).1, rfl,
    (spi_all_or_nothing hsecond).2.1⟩

end WsmDriver.Spi.BringUp
