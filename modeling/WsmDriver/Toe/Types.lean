import WsmDriver.Effect.Program
import Mathlib.Logic.Function.Basic
import Mathlib.Data.Int.Order.Basic

/-!
# The data of the TOE backend

The descriptor tables of `wiznet_toe.c` and the interface through which it reaches the chip. A
descriptor (the value a caller holds) and a hardware socket number are two different things:

```text
desc fd .sn  ->  hardware socket, or -1 when the descriptor holds none
owner sn     ->  owning descriptor, TOE_SN_FREE, or TOE_SN_RAW
```

Both tables are indexed by `int` in the source and by `ℤ` here; only the entries inside the bounds
of the configuration belong to the program. The two narrow fields, `desc fd .sn` and `owner sn`,
are `int8_t`, and every store into them goes through `int8`.

The WIZnet ioLibrary is a submodule of the repository and not part of it. Its calls and the register
accessors it provides are the operations of `ChipOp`; what they answer is left to the environment.
-/

namespace WsmDriver

open Effect

/-- An IPv4 address, most significant byte first. -/
abbrev Ip4 := Vector UInt8 4

/-- `0.0.0.0`, what `memset(ip, 0, 4)` leaves. -/
def Ip4.zero : Ip4 := #v[0, 0, 0, 0]

/-- An Ethernet address. -/
abbrev Mac := Vector UInt8 6

/-! ## Narrow integers -/

/-- Conversion to `int8_t`. -/
def int8 (x : ℤ) : ℤ := x.bmod 256

/-- Conversion to `uint8_t`. -/
def uint8 (x : ℤ) : ℤ := x % 256

theorem int8_of_lt {x : ℤ} (h₀ : 0 ≤ x) (h₁ : x < 128) : int8 x = x := by
  rw [int8, Int.bmod_def]
  omega

theorem uint8_of_lt {x : ℤ} (h₀ : 0 ≤ x) (h₁ : x < 256) : uint8 x = x :=
  Int.emod_eq_of_lt h₀ h₁

/-! ## Constants -/

/-- `g_sn_owner` value of a hardware socket nobody holds. -/
def toeSnFree : ℤ := -1

/-- `g_sn_owner` value of a hardware socket handed out by `wiztoe_socket_reserve`. -/
def toeSnRaw : ℤ := -2

/-- `toe_listener_reopen` returns this while the chip has no source address. -/
def wiztoeDefer : ℤ := 1

/-- Blocking call hit `SO_RCVTIMEO`. -/
def wiztoeErrTimeout : ℤ := -2

/-- The socket is non-blocking and the operation would have blocked. -/
def wiztoeErrWouldblock : ℤ := -3

/-- How long `close` waits for a graceful TCP shutdown. -/
def wiztoeDisconnectTimeoutMs : UInt32 := 250

/-- ioLibrary results. -/
def sockOk : ℤ := 1

def sockBusy : ℤ := 0

def sockerrSockclosed : ℤ := -4

def sockerrSockstatus : ℤ := -7

/-! ## The tables -/

/-- The compile-time parameters: `WIZTOE_MAX_SOCK`, `WIZTOE_MAX_DESC`, and whether the chip is one
that locks its network registers (`_WIZCHIP_ > W5500`). -/
structure ToeConfig where
  maxSock : ℕ
  maxDesc : ℕ
  netLock : Bool
  deriving DecidableEq, Repr

/-- The W5500 build: eight hardware sockets, one descriptor for each. -/
def w5500 : ToeConfig := ⟨8, 8, false⟩

/-- Descriptor indices and hardware socket numbers fit the `int8_t` fields that store them. -/
structure ToeConfig.Fits (cfg : ToeConfig) : Prop where
  maxSock_le : cfg.maxSock ≤ 128
  maxDesc_le : cfg.maxDesc ≤ 128

theorem w5500_fits : w5500.Fits := ⟨by decide, by decide⟩

/-- `toe_desc_t`. -/
structure Desc where
  used : Bool := false
  /-- Bound hardware socket, `-1` = none. -/
  sn : ℤ := 0
  isUdp : Bool := false
  opened : Bool := false
  listening : Bool := false
  nodelay : Bool := false
  /-- POSIX `O_NONBLOCK`. -/
  nonblocking : Bool := false
  /-- `SHUT_RD`: report EOF instead of buffered data. -/
  rdShutdown : Bool := false
  port : UInt16 := 0
  rcvTimeoutMs : UInt32 := 0
  sndTimeoutMs : UInt32 := 0
  dstIp : Ip4 := Ip4.zero
  dstPort : UInt16 := 0
  connected : Bool := false
  deriving DecidableEq, Repr

/-- `g_desc`, `g_sn_owner` and `g_tables_init`. -/
structure Tables where
  desc : ℤ → Desc
  owner : ℤ → ℤ
  tablesInit : Bool

namespace Tables

/-- The zero-initialised statics. -/
def zero : Tables := ⟨fun _ ↦ {}, fun _ ↦ 0, false⟩

/-- Assign to fields of `g_desc[fd]`. -/
def upd (t : Tables) (fd : ℤ) (f : Desc → Desc) : Tables :=
  { t with desc := Function.update t.desc fd (f (t.desc fd)) }

/-- Assign to `g_sn_owner[sn]`. -/
def setOwner (t : Tables) (sn v : ℤ) : Tables :=
  { t with owner := Function.update t.owner sn v }

variable (t : Tables) (fd fd' sn sn' v : ℤ) (f : Desc → Desc)

@[simp] theorem upd_desc_self : (t.upd fd f).desc fd = f (t.desc fd) := by simp [upd]

theorem upd_desc_ne {fd fd' : ℤ} (h : fd' ≠ fd) : (t.upd fd f).desc fd' = t.desc fd' := by
  simp [upd, h]

theorem upd_desc : (t.upd fd f).desc fd' = if fd' = fd then f (t.desc fd) else t.desc fd' := by
  simp [upd, Function.update_apply]

@[simp] theorem upd_upd (g : Desc → Desc) : (t.upd fd f).upd fd g = t.upd fd fun d ↦ g (f d) := by
  simp [upd]

theorem setOwner_upd : (t.upd fd f).setOwner sn v = (t.setOwner sn v).upd fd f := rfl

@[simp] theorem upd_owner : (t.upd fd f).owner = t.owner := rfl

@[simp] theorem upd_tablesInit : (t.upd fd f).tablesInit = t.tablesInit := rfl

@[simp] theorem setOwner_desc : (t.setOwner sn v).desc = t.desc := rfl

@[simp] theorem setOwner_tablesInit : (t.setOwner sn v).tablesInit = t.tablesInit := rfl

@[simp] theorem setOwner_owner_self : (t.setOwner sn v).owner sn = v := by simp [setOwner]

theorem setOwner_owner_ne {sn sn' : ℤ} (h : sn' ≠ sn) : (t.setOwner sn v).owner sn' =
    t.owner sn' := by
  simp [setOwner, h]

theorem setOwner_owner : (t.setOwner sn v).owner sn' = if sn' = sn then v else t.owner sn' := by
  simp [setOwner, Function.update_apply]

end Tables

/-! ## The chip and ioLibrary -/

/-- `Sn_SR`: the status values the source names, and everything else the register may read. -/
inductive SnSR
  | closed | init | listen | synsent | synrecv | established | finWait | closing | timeWait
  | closeWait | lastAck | udp
  /-- A value the source does not name. -/
  | other (v : ℕ)
  deriving DecidableEq, Repr

/-- `Sn_MR` protocol values. -/
inductive SnMR
  | tcp | udp
  deriving DecidableEq, Repr

/-- `wiz_NetInfo`. -/
structure WizNetInfo where
  mac : Mac
  ip : Ip4
  sn : Ip4
  gw : Ip4
  dns : Ip4 := Ip4.zero
  /-- `NETINFO_DHCP` as opposed to `NETINFO_STATIC`. -/
  dhcp : Bool
  deriving DecidableEq, Repr

/-- What `wiznet_toe.c` asks of ioLibrary, of the chip registers and of the port helpers. -/
inductive ChipOp
  /-- ioLibrary `socket(sn, protocol, port, flag)`; the only flag used is `SF_TCP_NODELAY`. -/
  | socket (sn : ℤ) (protocol : SnMR) (port : UInt16) (tcpNodelay : Bool)
  | listen (sn : ℤ)
  | connect (sn : ℤ) (addr : Ip4) (port : UInt16)
  | send (sn : ℤ) (buf : List UInt8)
  | recv (sn : ℤ) (len : ℕ)
  | sendto (sn : ℤ) (buf : List UInt8) (addr : Ip4) (port : UInt16)
  | recvfrom (sn : ℤ) (len : ℕ)
  | close (sn : ℤ)
  | getSnSR (sn : ℤ)
  | getSnRxRsr (sn : ℤ)
  | getSnTxFsr (sn : ℤ)
  | getSnRxMax (sn : ℤ)
  | getSnTxMax (sn : ℤ)
  | getSnDipr (sn : ℤ)
  | getSnDport (sn : ℤ)
  | getSnTtl (sn : ℤ)
  | setSnTtl (sn : ℤ) (v : UInt8)
  | getSnTos (sn : ℤ)
  | setSnTos (sn : ℤ) (v : UInt8)
  | setSnKpalvtr (sn : ℤ) (v : UInt8)
  /-- `setSn_CR(sn, Sn_CR_DISCON)`. -/
  | setSnCrDiscon (sn : ℤ)
  | getSnCr (sn : ℤ)
  /-- `getSn_IR(sn) & Sn_IR_TIMEOUT`. -/
  | getSnIrTimeout (sn : ℤ)
  | getSIPR
  /-- `ctlwizchip(CW_GET_PHYLINK, &link)`: the result, and whether `link` is `PHY_LINK_ON`. -/
  | getPhylink
  /-- `ctlwizchip(CW_SYS_UNLOCK, SYS_NET_LOCK)`. -/
  | sysUnlock
  | setNetinfo (ni : WizNetInfo)
  | getNetinfo
  /-- `toe_time_us()`. -/
  | toeTimeUs
  /-- `toe_yield_1ms()`. -/
  | toeYield1ms
  deriving DecidableEq

/-- The answer to each operation. A receiving call answers its result and the bytes it stored. -/
abbrev ChipOp.Ans : ChipOp → Type
  | .socket .. | .listen _ | .connect .. | .send .. | .sendto .. => ℤ
  | .recv .. => ℤ × List UInt8
  | .recvfrom .. => ℤ × List UInt8 × Ip4 × UInt16
  | .close _ => Unit
  | .getSnSR _ => SnSR
  | .getSnRxRsr _ | .getSnTxFsr _ | .getSnRxMax _ | .getSnTxMax _ => ℕ
  | .getSnDipr _ => Ip4
  | .getSnDport _ => UInt16
  | .getSnTtl _ | .getSnTos _ | .getSnCr _ => UInt8
  | .setSnTtl .. | .setSnTos .. | .setSnKpalvtr .. | .setSnCrDiscon _ => Unit
  | .getSnIrTimeout _ => Bool
  | .getSIPR => UInt32
  | .getPhylink => ℤ × Bool
  | .sysUnlock | .setNetinfo _ => Unit
  | .getNetinfo => WizNetInfo
  | .toeTimeUs => UInt32
  | .toeYield1ms => Unit

/-- What was asked and what was answered, newest first. -/
abbrev ChipLog := List (Sigma ChipOp.Ans)

/-- The hardware socket an operation addresses; `none` for the registers common to all of them
and for the port helpers. -/
def ChipOp.sock? : ChipOp → Option ℤ
  | .socket sn .. | .listen sn | .connect sn .. | .send sn _ | .recv sn _ | .sendto sn .. => some sn
  | .recvfrom sn _ | .close sn | .getSnSR sn | .getSnRxRsr sn | .getSnTxFsr sn => some sn
  | .getSnRxMax sn | .getSnTxMax sn | .getSnDipr sn | .getSnDport sn | .getSnTtl sn => some sn
  | .setSnTtl sn _ | .getSnTos sn | .setSnTos sn _ | .setSnKpalvtr sn _ => some sn
  | .setSnCrDiscon sn | .getSnCr sn | .getSnIrTimeout sn => some sn
  | .getSIPR | .getPhylink | .sysUnlock | .setNetinfo _ | .getNetinfo => none
  | .toeTimeUs | .toeYield1ms => none

/-- The programs of `wiznet_toe.c`. -/
abbrev Toe := Program Tables ChipOp.Ans

/-- Perform an operation. -/
abbrev chip (o : ChipOp) : Toe o.Ans := Program.perform o

end WsmDriver
