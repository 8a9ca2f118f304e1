import WsmDriver.Effect.Program
import Mathlib.Data.Int.Order.Basic

/-!
# The data of the DHCP client

What `wsm_dhcp.c` keeps for a client and what it asks of the outside: of the socket functions it is
given, of the interface, of the clock and of the random number generator.

The clock is `esp_timer_get_time`, in microseconds since the system was started. It and the
deadlines computed from it are integers without a bound here; that they fit the 64 bits they have in
the source is something to be proved about them.
-/

namespace WsmDriver.Dhcp

open Effect

/-- The `esp_err_t` values other than `ESP_OK` that these functions return. -/
inductive EspErr
  | fail | noMem | invalidArg | invalidState
  deriving DecidableEq, Repr

/-- Whether a pointer argument is `NULL`. -/
inductive Ptr
  | null | valid
  deriving DecidableEq, Repr

/-- An IPv4 address, as its four bytes. -/
abbrev Ip4 := Vector UInt8 4

/-- A hardware address. -/
abbrev Mac := Vector UInt8 6

/-- `0.0.0.0`. -/
def inaddrAny : Ip4 := Vector.replicate 4 0

/-- `INADDR_BROADCAST`. -/
def inaddrBroadcast : Ip4 := Vector.replicate 4 255

/-! ## Constants -/

/-- `DHCP_CLIENT_PORT` and `DHCP_SERVER_PORT`. -/
def clientPort : UInt16 := 68

def serverPort : UInt16 := 67

/-- `WSM_DHCP_XMIT_TRIES`. -/
def defaultXmitTries : UInt8 := 4

/-- `WSM_DHCP_XMIT_INTERVAL_MS`. -/
def defaultXmitIntervalMs : UInt32 := 2000

/-- `WSM_DHCP_STEP_PACKETS`. -/
def defaultStepPackets : UInt8 := 4

/-- `WSM_DHCP_DEFAULT_RENEW_S`: when to renew if the server sends no lease time. -/
def defaultRenewS : UInt32 := 1800

/-- `WSM_DHCP_BUF_SIZE`. -/
def bufSize : ℕ := 1024 * 2

/-! ## The client -/

/-- `wsm_dhcp_status_t`. No function of the source returns the last of them. -/
inductive Status
  | pending | leased | failed | conflict
  deriving DecidableEq, Repr

/-- `wsm_dhcp_netinfo_t`. -/
structure NetInfo where
  ip : Ip4 := inaddrAny
  sn : Ip4 := inaddrAny
  gw : Ip4 := inaddrAny
  dns : Ip4 := inaddrAny
  leaseS : UInt32 := 0
  deriving DecidableEq, Repr

/-- `wsm_dhcp_ops_t`, as far as it is not behaviour: which of its pointers are there, the `fcntl` of
its socket functions included. -/
structure Ops where
  sock : Bool := true
  fcntl : Bool := true
  prepare : Bool := true
  applyLease : Bool := true
  deriving DecidableEq, Repr

/-- `wsm_dhcp_config_t`. -/
structure Config where
  ops : Option Ops := none
  recvTimeoutMs : UInt32 := 0
  stepPackets : UInt8 := 0
  xmitTries : UInt8 := 0
  xmitIntervalMs : UInt32 := 0
  deriving DecidableEq, Repr

/-- `dhcp_state_t`. -/
inductive State
  | selecting | requesting | bound
  deriving DecidableEq, Repr

/-- `struct wsm_dhcp_client`, without its message buffer: it is filled anew before every use. -/
structure Client where
  ops : Ops := {}
  fd : ℤ := -1
  state : State := .selecting
  xid : UInt32 := 0
  mac : Mac := Vector.replicate 6 0
  ifname : List UInt8 := []
  serverId : Ip4 := inaddrAny
  offered : Ip4 := inaddrAny
  tries : ℕ := 0
  nextTxUs : ℤ := 0
  renewAtUs : ℤ := 0
  lease : NetInfo := {}
  bound : Bool := false
  recvTimeoutMs : UInt32
  stepPackets : UInt8
  xmitTries : UInt8
  xmitIntervalMs : UInt32
  deriving DecidableEq, Repr

/-! ## Operations -/

/-- The socket options the engine sets. Of a name as much is copied as `ifr_name` holds. -/
inductive SockOpt
  | soBroadcast | soReuseaddr
  | soRcvtimeo (sec usec : UInt32)
  | soBindtodevice (ifname : List UInt8)
  deriving DecidableEq, Repr

/-- What the engine asks of its surroundings. -/
inductive DhcpOp
  | espRandom
  | espTimerGetTime
  | prepare
  | applyLease (info : NetInfo)
  /-- `socket(AF_INET, SOCK_DGRAM, IPPROTO_UDP)`. -/
  | socket
  | setsockopt (fd : ℤ) (opt : SockOpt)
  /-- `fcntl(fd, F_SETFL, O_NONBLOCK)`. -/
  | fcntl (fd : ℤ)
  | bind (fd : ℤ) (addr : Ip4) (port : UInt16)
  | close (fd : ℤ)
  | sendto (fd : ℤ) (buf : List UInt8) (addr : Ip4) (port : UInt16)
  | recvfrom (fd : ℤ) (size : ℕ)
  deriving DecidableEq

/-- The answer to each operation. A receive that returns a negative number is `none`, and one that
returns `n` is the first `n` bytes of the buffer. -/
abbrev DhcpOp.Ans : DhcpOp → Type
  | .espRandom => UInt32
  | .espTimerGetTime => ℤ
  | .prepare => Mac × List UInt8
  | .applyLease _ => Unit
  | .socket | .setsockopt .. | .fcntl _ | .bind .. | .close _ | .sendto .. => ℤ
  | .recvfrom .. => Option (List UInt8)

/-- The programs of the engine. -/
abbrev Engine := Program Client DhcpOp.Ans

/-- Perform an operation. -/
abbrev ask (o : DhcpOp) : Engine o.Ans := Program.perform o

end WsmDriver.Dhcp
