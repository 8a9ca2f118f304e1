import WsmDriver.Toe.Api
import WsmDriver.Effect.History

/-!
# The calls an application can make

`wiznet_toe.h` as a type: one constructor for each function of the header, and the program it runs.
Results are dropped here; a history of calls is about the tables and the chip, and statements about
a result are made about the function itself.
-/

namespace WsmDriver

open Effect

/-- The `wiztoe_*` functions with their arguments. -/
inductive Call
  | networkInit (ip mask gw : Ip4) (mac : Mac)
  | socket (domain type protocol : ℤ)
  | isUdp (fd : ℤ)
  | snOfFd (fd : ℤ)
  | setNonblocking (fd : ℤ) (enable : Bool)
  | getNonblocking (fd : ℤ)
  | available (fd : ℤ)
  | shutdown (fd : ℤ) (shutRd shutWr : Bool)
  | bind (fd : ℤ) (port : UInt16)
  | listen (fd backlog : ℤ)
  | accept (fd : ℤ)
  | connect (fd : ℤ) (ip : Ip4) (port : UInt16)
  | send (fd : ℤ) (buf : List UInt8)
  | recv (fd : ℤ) (len : ℕ)
  | sendto (fd : ℤ) (buf : List UInt8) (ip : Ip4) (port : UInt16)
  | recvfrom (fd : ℤ) (len : ℕ)
  | peer (fd : ℤ)
  | getsockname (fd : ℤ)
  | localIp
  | localMac
  | socketReserve
  | socketRelease (sn : ℤ)
  | close (fd : ℤ)
  | setsockopt (fd : ℤ) (opt : WiztoeOpt) (val : Option (List UInt8))
  | getsockopt (fd : ℤ) (opt : WiztoeOpt) (room : Option ℕ)

variable (cfg : ToeConfig)

/-- The program a call runs. -/
def Call.prog : Call → Toe Unit
  | .networkInit ip mask gw mac => wiztoeNetworkInit cfg ip mask gw mac
  | .socket domain type protocol => discard <| wiztoeSocket cfg domain type protocol
  | .isUdp fd => discard <| wiztoeIsUdp cfg fd
  | .snOfFd fd => discard <| wiztoeSnOfFd cfg fd
  | .setNonblocking fd enable => discard <| wiztoeSetNonblocking cfg fd enable
  | .getNonblocking fd => discard <| wiztoeGetNonblocking cfg fd
  | .available fd => discard <| wiztoeAvailable cfg fd
  | .shutdown fd shutRd shutWr => discard <| wiztoeShutdown cfg fd shutRd shutWr
  | .bind fd port => discard <| wiztoeBind cfg fd port
  | .listen fd backlog => discard <| wiztoeListen cfg fd backlog
  | .accept fd => discard <| wiztoeAccept cfg fd
  | .connect fd ip port => discard <| wiztoeConnect cfg fd ip port
  | .send fd buf => discard <| wiztoeSend cfg fd buf
  | .recv fd len => discard <| wiztoeRecv cfg fd len
  | .sendto fd buf ip port => discard <| wiztoeSendto cfg fd buf ip port
  | .recvfrom fd len => discard <| wiztoeRecvfrom cfg fd len
  | .peer fd => discard <| wiztoePeer cfg fd
  | .getsockname fd => discard <| wiztoeGetsockname cfg fd
  | .localIp => discard wiztoeLocalIp
  | .localMac => discard wiztoeLocalMac
  | .socketReserve => discard <| wiztoeSocketReserve cfg
  | .socketRelease sn => wiztoeSocketRelease cfg sn
  | .close fd => discard <| wiztoeClose cfg fd
  | .setsockopt fd opt val => discard <| wiztoeSetsockopt cfg fd opt val
  | .getsockopt fd opt room => discard <| wiztoeGetsockopt cfg fd opt room

/-- The descriptor a call is made on. -/
def Call.fd? : Call → Option ℤ
  | .isUdp fd | .snOfFd fd | .setNonblocking fd _ | .getNonblocking fd | .available fd => some fd
  | .shutdown fd _ _ | .bind fd _ | .listen fd _ | .accept fd | .connect fd _ _ => some fd
  | .send fd _ | .recv fd _ | .sendto fd _ _ _ | .recvfrom fd _ | .peer fd => some fd
  | .getsockname fd | .close fd | .setsockopt fd _ _ | .getsockopt fd _ _ => some fd
  | .networkInit .. | .socket .. | .localIp | .localMac | .socketReserve => none
  | .socketRelease _ => none

/-- `wiztoe_socket_release` is for sockets handed out by `wiztoe_socket_reserve`: the discipline
asked of a caller, the header's raw-socket contract. -/
def Call.Disciplined (c : Call) (t : Tables) : Prop :=
  ∀ sn, c = .socketRelease sn → 0 ≤ sn ∧ sn < cfg.maxSock ∧ t.owner sn = toeSnRaw

/-! ## Histories -/

/-- Histories of the backend from zero-initialised tables, in which `wiztoe_socket_release` is only
applied to reserved hardware sockets. Nothing is asked of the chip and of ioLibrary. -/
abbrev ToeHistory {E : Type} (V : Call → Env Tables E ChipOp.Ans) : E → Tables → E → Prop :=
  History V (fun c t _ ↦ c.Disciplined cfg t) (Call.prog cfg) .zero

/-- Histories of the backend in which the caller does as it likes. -/
abbrev AnyHistory {E : Type} (V : Call → Env Tables E ChipOp.Ans) : E → Tables → E → Prop :=
  History V (fun _ _ _ ↦ True) (Call.prog cfg) .zero

/-- A chip that opens whatever it is asked to open, reports the status `sr` and has nothing else to
say. -/
def placidChip (sr : SnSR) : (o : ChipOp) → Unit → o.Ans × Unit
  | .socket sn .., _ => (sn, ())
  | .listen _, _ | .connect .., _ => (sockOk, ())
  | .send _ buf, _ | .sendto _ buf .., _ => (buf.length, ())
  | .recv .., _ => ((0, []), ())
  | .recvfrom .., _ => ((0, [], Ip4.zero, 0), ())
  | .close _, _ | .setSnTtl .., _ | .setSnTos .., _ | .setSnKpalvtr .., _ => ((), ())
  | .setSnCrDiscon _, _ | .sysUnlock, _ | .setNetinfo _, _ | .toeYield1ms, _ => ((), ())
  | .getSnSR _, _ => (sr, ())
  | .getSnRxRsr _, _ | .getSnTxFsr _, _ | .getSnRxMax _, _ | .getSnTxMax _, _ => (0, ())
  | .getSnDipr _, _ => (Ip4.zero, ())
  | .getSnDport _, _ => (0, ())
  | .getSnTtl _, _ | .getSnTos _, _ | .getSnCr _, _ => (0, ())
  | .getSnIrTimeout _, _ => (false, ())
  | .getSIPR, _ | .toeTimeUs, _ => (1, ())
  | .getPhylink, _ => ((0, true), ())
  | .getNetinfo, _ =>
    ({ mac := #v[0, 0, 0, 0, 0, 0], ip := .zero, sn := .zero, gw := .zero, dhcp := false }, ())

/-- The tables after the call `c`, answered by the placid chip. -/
def afterCall (sr : SnSR) (c : Call) (t : Tables) : Tables :=
  (runWith (placidChip sr) 30 ⟨c.prog cfg, t, ()⟩).store

variable {cfg}

theorem afterCall_returns {U : Env Tables Unit ChipOp.Ans} {sr : SnSR} {c : Call} {t : Tables}
    (hU : ∀ o t e, U.answer o t e (placidChip sr o e).1 (placidChip sr o e).2)
    (hn : (runWith (placidChip sr) 30 ⟨c.prog cfg, t, ()⟩).prog.result? = some ()) :
    Returns U (c.prog cfg) t () () (afterCall cfg sr c t) () := by
  have hcall := returns_runWith (.always hU) trivial hn
  rwa [Subsingleton.elim (runWith (placidChip sr) 30 ⟨c.prog cfg, t, ()⟩).env ()] at hcall

theorem ToeHistory.afterCall {V : Call → Env Tables Unit ChipOp.Ans} {sr : SnSR} {c : Call}
    {t : Tables} (h : ToeHistory cfg V () t ()) (hd : c.Disciplined cfg t)
    (hV : ∀ o t e, (V c).answer o t e (placidChip sr o e).1 (placidChip sr o e).2)
    (hn : (runWith (placidChip sr) 30 ⟨c.prog cfg, t, ()⟩).prog.result? = some ()) :
    ToeHistory cfg V () (WsmDriver.afterCall cfg sr c t) () :=
  h.call c hd (afterCall_returns hV hn)

/-- A TCP socket of which nothing is known but that it exists. -/
def oneTcpSocket : Tables := afterCall w5500 .closed (.socket 2 1 0) .zero

end WsmDriver
