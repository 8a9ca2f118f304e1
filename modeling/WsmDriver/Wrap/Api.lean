import WsmDriver.Toe.Api

/-!
# The functions of `wiztoe_wrap.c`

The entry points of lwIP's socket interface as the linker redirects them: every one of them goes to
the TOE backend, and turns what that returns into a POSIX result.

## Representation

A function that fails returns `-1` and leaves a number in `errno`; one that succeeds clears `errno`.
A result is therefore `Except Errno`. A buffer the caller passes is the list of its bytes, and a
null pointer is `none`. The socket addresses hold an IPv4 address and a port, which lwIP's
byte-order functions convert from and to the order they have in memory. A total of bytes is a
`ssize_t`, which has 32 bits on the processors the driver is built for: a sum that is greater wraps.
-/

namespace WsmDriver

open Effect Program

/-- What the layer leaves in `errno`. -/
inductive Errno
  | enfile | eaddrinuse | eopnotsupp | ewouldblock | einval | econnrefused | eio | ebadf | efault
  | enoprotoopt | enotconn
  deriving DecidableEq, Repr

/-- The configuration of the backend, and lwIP's `LWIP_SOCKET_OFFSET`. -/
structure WrapConfig extends ToeConfig where
  socketOffset : ℤ
  deriving DecidableEq, Repr

/-- A build with the W5500 whose socket numbers begin at 54. -/
def wrapW5500 : WrapConfig := { w5500 with socketOffset := 54 }

/-- `struct sockaddr_in`. -/
structure SockaddrIn where
  ip : Ip4
  port : UInt16
  deriving DecidableEq, Repr

/-- `struct timeval`. -/
structure Timeval where
  sec : ℤ
  usec : ℤ
  deriving DecidableEq, Repr

/-- The pairs of a level and an option that the layer knows. -/
inductive SockOptName
  | soReuseaddr | soBroadcast | soBindtodevice | soKeepalive | soRcvtimeo | soSndtimeo
  | soError | soType | soRcvbuf | soSndbuf
  | tcpNodelay | tcpKeepidle
  | ipAddMembership | ipDropMembership | ipMulticastTtl | ipMulticastIf | ipMulticastLoop
  | ipTtl | ipTos
  /-- Every other pair. -/
  | other
  deriving DecidableEq, Repr

/-- `SHUT_RD`, `SHUT_WR`, `SHUT_RDWR` and every other number. -/
inductive ShutHow
  | rd | wr | rdwr | other
  deriving DecidableEq, Repr

variable (w : WrapConfig)

/-- The descriptor of the backend that a file descriptor stands for. -/
def WrapConfig.toeFd (s : ℤ) : ℤ := s - w.socketOffset

/-- `toe_is_wouldblock`. -/
def toeIsWouldblock (rc : ℤ) : Prop := rc = wiztoeErrTimeout ∨ rc = wiztoeErrWouldblock

instance (rc : ℤ) : Decidable (toeIsWouldblock rc) := by
  unfold toeIsWouldblock; infer_instance

theorem toeIsWouldblock.neg {rc : ℤ} (h : toeIsWouldblock rc) : rc < 0 := by
  rcases h with rfl | rfl <;> decide

/-- `sizeof(struct sockaddr_in)`. -/
def sizeofSockaddrIn : ℕ := 16

/-- `toe_fill_sockaddr`: what is written, when `room` is `*addrlen`, or `none` for a null
pointer. -/
def toeFillSockaddr (room : Option ℕ) (ip : Ip4) (port : UInt16) : Option SockaddrIn :=
  if sizeofSockaddrIn ≤ room.getD 0 then some ⟨ip, port⟩ else none

/-- What a call that transfers data makes of the backend's result. -/
def toeTransferred (n : ℤ) : Except Errno ℤ :=
  if toeIsWouldblock n then .error .ewouldblock else if n < 0 then .error .eio else .ok n

/-- What a call that only succeeds or fails makes of the backend's result. -/
def toeDone (e : Errno) (r : ℤ) : Except Errno Unit := if r < 0 then .error e else .ok ()

/-! ## Sockets -/

/-- `__wrap_lwip_socket`. -/
def wrapLwipSocket (domain type protocol : ℤ) : Toe (Except Errno ℤ) := do
  let fd ← wiztoeSocket w.toToeConfig domain type protocol
  if fd < 0 then return .error .enfile
  return .ok (fd + w.socketOffset)

/-- `__wrap_lwip_bind`. -/
def wrapLwipBind (s : ℤ) (name : SockaddrIn) : Toe (Except Errno Unit) := do
  let r ← wiztoeBind w.toToeConfig (w.toeFd s) name.port
  return toeDone .eaddrinuse r

/-- `__wrap_lwip_listen`. -/
def wrapLwipListen (s backlog : ℤ) : Toe (Except Errno Unit) := do
  let r ← wiztoeListen w.toToeConfig (w.toeFd s) backlog
  return toeDone .eopnotsupp r

/-- `__wrap_lwip_accept`. -/
def wrapLwipAccept (s : ℤ) (room : Option ℕ) : Toe (Except Errno (ℤ × Option SockaddrIn)) := do
  let fd ← wiztoeAccept w.toToeConfig (w.toeFd s)
  if toeIsWouldblock fd then return .error .ewouldblock
  if fd < 0 then return .error .einval
  let (ip, port) ← wiztoePeer w.toToeConfig fd
  return .ok (fd + w.socketOffset, toeFillSockaddr room ip port)

/-- `__wrap_lwip_connect`. -/
def wrapLwipConnect (s : ℤ) (name : SockaddrIn) : Toe (Except Errno Unit) := do
  let r ← wiztoeConnect w.toToeConfig (w.toeFd s) name.ip name.port
  return toeDone .econnrefused r

/-- `__wrap_lwip_close`. -/
def wrapLwipClose (s : ℤ) : Toe (Except Errno Unit) := do
  let r ← wiztoeClose w.toToeConfig (w.toeFd s)
  return toeDone .ebadf r

/-- `__wrap_lwip_getsockname`. -/
def wrapLwipGetsockname (s : ℤ) (room : Option ℕ) : Toe (Except Errno (Option SockaddrIn)) := do
  let (ip, port) ← wiztoeGetsockname w.toToeConfig (w.toeFd s)
  return .ok (toeFillSockaddr room ip port)

/-- `__wrap_lwip_getpeername`. -/
def wrapLwipGetpeername (s : ℤ) (room : Option ℕ) : Toe (Except Errno (Option SockaddrIn)) := do
  let (ip, port) ← wiztoePeer w.toToeConfig (w.toeFd s)
  return .ok (toeFillSockaddr room ip port)

/-- `__wrap_lwip_fcntl` with `F_GETFL`: whether the result is `O_NONBLOCK`. -/
def wrapLwipGetfl (s : ℤ) : Toe (Except Errno Bool) := do
  let nb ← wiztoeGetNonblocking w.toToeConfig (w.toeFd s)
  if nb < 0 then return .error .ebadf
  return .ok (decide (nb ≠ 0))

/-- `__wrap_lwip_fcntl` with `F_SETFL`, where `nonblock` is whether `val` has `O_NONBLOCK`. -/
def wrapLwipSetfl (s : ℤ) (nonblock : Bool) : Toe (Except Errno Unit) := do
  let r ← wiztoeSetNonblocking w.toToeConfig (w.toeFd s) nonblock
  return toeDone .ebadf r

/-- `__wrap_lwip_shutdown`. -/
def wrapLwipShutdown (s : ℤ) (how : ShutHow) : Toe (Except Errno Unit) := do
  if how = .other then return .error .einval
  let r ← wiztoeShutdown w.toToeConfig (w.toeFd s) (decide (how = .rd ∨ how = .rdwr))
    (decide (how = .wr ∨ how = .rdwr))
  return toeDone .enotconn r

/-! ## Transfers -/

/-- `__wrap_lwip_send`. -/
def wrapLwipSend (s : ℤ) (data : List UInt8) : Toe (Except Errno ℤ) := do
  let n ← wiztoeSend w.toToeConfig (w.toeFd s) data
  return toeTransferred n

/-- `__wrap_lwip_write`. -/
def wrapLwipWrite (s : ℤ) (data : List UInt8) : Toe (Except Errno ℤ) := wrapLwipSend w s data

/-- `__wrap_lwip_recv`: the result and the bytes stored. -/
def wrapLwipRecv (s : ℤ) (len : ℕ) : Toe (Except Errno (ℤ × List UInt8)) := do
  let (n, bytes) ← wiztoeRecv w.toToeConfig (w.toeFd s) len
  return (toeTransferred n).map fun n ↦ (n, bytes)

/-- `__wrap_lwip_read`. -/
def wrapLwipRead (s : ℤ) (len : ℕ) : Toe (Except Errno (ℤ × List UInt8)) := wrapLwipRecv w s len

/-- The two ways of `__wrap_lwip_recvfrom`: the result, the bytes stored and the sender. -/
def toeRecvfromEither (fd : ℤ) (len : ℕ) : Bool → Toe (ℤ × List UInt8 × Ip4 × UInt16)
  | true => do
    let (n, bytes, peer) ← wiztoeRecvfrom w.toToeConfig fd len
    -- Without a sender the result is negative, and nobody looks at what is in `ip`.
    return (n, bytes, peer.getD (Ip4.zero, 0))
  | false => do
    let (n, bytes) ← wiztoeRecv w.toToeConfig fd len
    let peer ← wiztoePeer w.toToeConfig fd
    return (n, bytes, peer)

/-- `__wrap_lwip_recvfrom`, where `room` is `*fromlen`, or `none` for a null pointer. -/
def wrapLwipRecvfrom (s : ℤ) (len : ℕ) (room : Option ℕ) :
    Toe (Except Errno (ℤ × List UInt8 × Option SockaddrIn)) := do
  let isUdp ← wiztoeIsUdp w.toToeConfig (w.toeFd s)
  let (n, bytes, ip, port) ← toeRecvfromEither w (w.toeFd s) len isUdp
  return (toeTransferred n).map fun n ↦ (n, bytes, toeFillSockaddr room ip port)

/-- The two ways of `__wrap_lwip_sendto`. -/
def toeSendEither (fd : ℤ) (data : List UInt8) (dst : Option SockaddrIn) (isUdp : Bool) : Toe ℤ :=
  match dst, isUdp with
  | some dst, true => wiztoeSendto w.toToeConfig fd data dst.ip dst.port
  | _, _ => wiztoeSend w.toToeConfig fd data

/-- `__wrap_lwip_sendto`. -/
def wrapLwipSendto (s : ℤ) (data : List UInt8) (dst : Option SockaddrIn) :
    Toe (Except Errno ℤ) := do
  let isUdp ← wiztoeIsUdp w.toToeConfig (w.toeFd s)
  let n ← toeSendEither w (w.toeFd s) data dst isUdp
  return toeTransferred n

/-! ## Vectors of buffers -/

/-- A sum as a `ssize_t` holds it. -/
def ssizeT (x : ℤ) : ℤ := x.bmod 0x100000000

/-- The greatest `ssize_t`. -/
def ssizeMax : ℕ := 0x7FFFFFFF

theorem ssizeT_of_le {x : ℤ} (hpos : 0 ≤ x) (hle : x ≤ ssizeMax) : ssizeT x = x := by
  unfold ssizeMax at hle
  exact Int.bmod_eq_of_le (by omega) (by omega)

theorem ssizeT_add (x y : ℤ) : ssizeT (ssizeT x + y) = ssizeT (x + y) := Int.bmod_add_bmod

/-- What is returned when the backend fails with something done or not. -/
def partially {α : Type} (total : ℤ) (r : α) (e : Errno) : Except Errno α :=
  if 0 < total then .ok r else .error e

/-- The loop of `__wrap_lwip_writev`. -/
def writevLoop (fd : ℤ) : List (List UInt8) → ℤ → Toe (Except Errno ℤ)
  | [], total => return .ok total
  | buf :: iov, total =>
    if buf.length = 0 then writevLoop fd iov total
    else do
      let n ← wiztoeSend w.toToeConfig fd buf
      if toeIsWouldblock n then return partially total total .ewouldblock
      if n < 0 then return partially total total .eio
      if n < buf.length then return .ok (ssizeT (total + n))
      writevLoop fd iov (ssizeT (total + n))

/-- `__wrap_lwip_writev`. -/
def wrapLwipWritev (s : ℤ) (iov : Option (List (List UInt8))) : Toe (Except Errno ℤ) :=
  match iov with
  | none | some [] => return .error .einval
  | some iov => writevLoop w (w.toeFd s) iov 0

/-- The test of `__wrap_lwip_readv` that keeps it from waiting with data in hand. -/
def toeMayRead (fd total : ℤ) : Toe Bool := do
  if total ≤ 0 then return true
  let n ← wiztoeAvailable w.toToeConfig fd
  return decide (0 < n)

/-- Buffers nothing is stored in. -/
def untouched (iov : List ℕ) : List (List UInt8) := iov.map fun _ ↦ []

/-- The loop of `__wrap_lwip_readv` over the lengths of the buffers that are left: the total, and
the bytes stored in each buffer. Those in `stored` have been dealt with. -/
def readvLoop (fd : ℤ) : List ℕ → ℤ → List (List UInt8) →
    Toe (Except Errno (ℤ × List (List UInt8)))
  | [], total, stored => return .ok (total, stored)
  | len :: iov, total, stored =>
    if len = 0 then readvLoop fd iov total (stored ++ [[]])
    else do
      let may ← toeMayRead w fd total
      if may = false then return .ok (total, stored ++ untouched (len :: iov))
      let (n, bytes) ← wiztoeRecv w.toToeConfig fd len
      if toeIsWouldblock n then
        return partially total (total, stored ++ untouched (len :: iov)) .ewouldblock
      if n < 0 then return partially total (total, stored ++ untouched (len :: iov)) .eio
      if n < len then return .ok (ssizeT (total + n), stored ++ bytes :: untouched iov)
      readvLoop fd iov (ssizeT (total + n)) (stored ++ [bytes])

/-- `__wrap_lwip_readv`: the result, and the bytes stored in each buffer. -/
def wrapLwipReadv (s : ℤ) (iov : Option (List ℕ)) :
    Toe (Except Errno (ℤ × List (List UInt8))) :=
  match iov with
  | none | some [] => return .error .einval
  | some iov => readvLoop w (w.toeFd s) iov 0 []

/-! ## Socket options -/

/-- A `uint32_t` in memory. -/
def u32Bytes (x : UInt32) : List UInt8 :=
  [x.toUInt8, (x >>> 8).toUInt8, (x >>> 16).toUInt8, (x >>> 24).toUInt8]

/-- `sizeof(struct timeval)`: eight bytes of seconds, four of microseconds, and four of padding. -/
def sizeofTimeval : ℕ := 16

/-- The `struct timeval` at the start of a piece of memory. -/
def Timeval.ofBytes (val : List UInt8) : Timeval where
  sec := Int.bmod ((readU32 val).toNat + 0x100000000 * (readU32 (val.drop 4)).toNat)
    0x10000000000000000
  usec := (readU32 (val.drop 8)).toInt32.toInt

/-- The milliseconds of a `struct timeval`, as the cast to `uint32_t` leaves them. The division is
that of C. -/
def Timeval.ms (tv : Timeval) : UInt32 := .ofInt (tv.sec * 1000 + tv.usec.tdiv 1000)

/-- The `struct timeval` for a number of milliseconds. -/
def Timeval.ofMs (ms : UInt32) : Timeval := ⟨(ms / 1000).toNat, (ms % 1000 * 1000).toNat⟩

/-- An option that is the backend's too. -/
def toeSetOpt (fd : ℤ) (o : WiztoeOpt) (val : List UInt8) : Toe (Except Errno Unit) := do
  let r ← wiztoeSetsockopt w.toToeConfig fd o (some val)
  return toeDone .einval r

/-- `SO_RCVTIMEO` and `SO_SNDTIMEO`. -/
def toeSetTimeo (fd : ℤ) (o : WiztoeOpt) (val : List UInt8) : Toe (Except Errno Unit) :=
  if val.length < sizeofTimeval then return .error .einval
  else toeSetOpt w fd o (u32Bytes (Timeval.ofBytes val).ms)

/-- `__wrap_lwip_setsockopt`. The `optlen` bytes at `optval` are `val`. -/
def wrapLwipSetsockopt (s : ℤ) (opt : SockOptName) (optval : Option (List UInt8)) :
    Toe (Except Errno Unit) :=
  match optval with
  | none => return .error .efault
  | some val =>
    match opt with
    | .soReuseaddr | .soBroadcast | .soBindtodevice => return .ok ()
    | .soKeepalive => toeSetOpt w (w.toeFd s) .keepalive val
    | .soRcvtimeo => toeSetTimeo w (w.toeFd s) .rcvtimeoMs val
    | .soSndtimeo => toeSetTimeo w (w.toeFd s) .sndtimeoMs val
    | .tcpNodelay => toeSetOpt w (w.toeFd s) .nodelay val
    | .tcpKeepidle => toeSetOpt w (w.toeFd s) .keepidle val
    | .ipAddMembership | .ipDropMembership => return .error .enoprotoopt
    | .ipMulticastTtl | .ipMulticastIf | .ipMulticastLoop => return .ok ()
    | .ipTtl => toeSetOpt w (w.toeFd s) .ttl val
    | .ipTos => toeSetOpt w (w.toeFd s) .tos val
    | _ => return .error .enoprotoopt

/-- What `__wrap_lwip_getsockopt` stores at `optval`. -/
inductive OptValue
  | int (v : ℤ)
  | timeval (tv : Timeval)
  deriving DecidableEq, Repr

/-- An option that is the backend's too, of the size of an `int`. -/
def toeGetOpt (fd : ℤ) (o : WiztoeOpt) (room : ℕ) : Toe (Except Errno OptValue) := do
  if room < 4 then return .error .einval
  let (r, v) ← wiztoeGetsockopt w.toToeConfig fd o (some room)
  return (toeDone .einval r).map fun _ ↦ .int v

/-- `SO_RCVTIMEO` and `SO_SNDTIMEO`. -/
def toeGetTimeo (fd : ℤ) (o : WiztoeOpt) (room : ℕ) : Toe (Except Errno OptValue) := do
  if room < sizeofTimeval then return .error .einval
  let (r, ms) ← wiztoeGetsockopt w.toToeConfig fd o (some 4)
  return (toeDone .einval r).map fun _ ↦ .timeval (.ofMs (.ofInt ms))

/-- `__wrap_lwip_getsockopt`, where `room` is `*optlen`, or `none` for a null pointer. -/
def wrapLwipGetsockopt (s : ℤ) (opt : SockOptName) (room : Option ℕ) :
    Toe (Except Errno OptValue) :=
  match room with
  | none => return .error .efault
  | some room =>
    match opt with
    | .soError => toeGetOpt w (w.toeFd s) .error room
    | .soType => toeGetOpt w (w.toeFd s) .type room
    | .soRcvbuf => toeGetOpt w (w.toeFd s) .rcvbuf room
    | .soSndbuf => toeGetOpt w (w.toeFd s) .sndbuf room
    | .soRcvtimeo => toeGetTimeo w (w.toeFd s) .rcvtimeoMs room
    | .soSndtimeo => toeGetTimeo w (w.toeFd s) .sndtimeoMs room
    | .ipTtl => toeGetOpt w (w.toeFd s) .ttl room
    | .ipTos => toeGetOpt w (w.toeFd s) .tos room
    | _ => return .error .enoprotoopt

end WsmDriver
