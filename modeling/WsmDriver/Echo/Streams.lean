import WsmDriver.Sockets.Service

/-!
# Echo over TCP

The TCP server and the TCP client of `loopback.c`, and the listeners of `multi_socket.c`, each of
which has a task of its own. All three of them send back what they receive, a buffer at a time.
-/

namespace WsmDriver.Echo

open Effect Program Sockets

/-- `LOOPBACK_BUF_SIZE` and `MULTI_SOCKET_BUF_SIZE`. -/
def loopbackBufSize : ℕ := 2048

def multiSocketBufSize : ℕ := 2048

/-- The store is the `off` of `send_all`. -/
abbrev Echoing := Program ℕ SockOp.Ans

/-! ## The services -/

/-- A turn of the loop over a connection. -/
def echoTurn (fd : ℤ) (size : ℕ) : Echoing (Option Unit) := do
  match ← ask (.recv fd size) with
  | .ok (b :: bytes) => return if ← sendAll fd (b :: bytes) then none else some ()
  | _ => return some ()

/-- A turn of the loop of `loopback_tcp_server`. -/
def loopbackTcpServerTurn (lsock : ℤ) (bufSize : ℕ) : Echoing (Option Unit) := do
  match ← ask (.accept lsock) with
  | .error _ => return none
  | .ok (c, _) => do
    forever (echoTurn c bufSize)
    ask (.close c)
    return none

/-- `loopback_tcp_server`. -/
def loopbackTcpServer (port : UInt16) (bufSize : ℕ) : Echoing Unit := do
  let lsock ← ask (.socket true)
  if lsock < 0 then return ()
  ask (.setReuseaddr lsock)
  if ← bindListen lsock port then forever (loopbackTcpServerTurn lsock bufSize)
  else ask (.close lsock)

/-- A turn of the loop of `loopback_tcp_client`. -/
def loopbackTcpClientTurn (target : SockAddr) (bufSize : ℕ) : Echoing (Option Unit) := do
  let s ← ask (.socket true)
  if s < 0 then
    ask (.delayMs 1000)
    return none
  if ← ask (.connect s target) then forever (echoTurn s bufSize)
  ask (.close s)
  ask (.delayMs 1000)
  return none

/-- `loopback_tcp_client`. -/
def loopbackTcpClient (target : SockAddr) (bufSize : ℕ) : Echoing Unit :=
  forever (loopbackTcpClientTurn target bufSize)

/-- `loopback_task`, for `LOOPBACK_TCP_SERVER` and for `LOOPBACK_TCP_CLIENT`. -/
def loopbackTask (run : Echoing Unit) : Echoing Unit := do
  if ← ask (.malloc loopbackBufSize) then
    forever waitLinkTurn
    run
  else return ()

/-- A turn of the loop of `worker_task`. -/
def workerTaskTurn (lfd : ℤ) : Echoing (Option Unit) := do
  match ← ask (.accept lfd) with
  | .error _ => do
    ask (.delayMs 100)
    return none
  | .ok (c, _) => do
    forever (echoTurn c multiSocketBufSize)
    ask (.close c)
    return none

/-- `worker_task`. -/
def workerTask (lfd : ℤ) : Echoing Unit := do
  if ← ask (.malloc (multiSocketBufSize + 1)) then forever (workerTaskTurn lfd)
  else ask (.close lfd)

/-! ## What comes back -/

/-- Everything is sent back before more of it is read. -/
def echoManners (size : ℕ) : Manners where
  mayRead len l := l.broken = false ∧ l.out = l.inn ∧ len = size
  maySay data l := l.broken = false ∧ l.out ++ data = l.inn
  mayLeave l := l.out <+: l.inn ∧ (l.broken = false → l.out = l.inn)

open Manners

section

variable {E : Type} {V : Env ℕ E SockOp.Ans} {size : ℕ} {fd lfd : ℤ} {d₀ : Desk} {off : ℕ}

/-- The connection is one that may be closed. -/
abbrev Left (size : ℕ) (d₀ : Desk) (fd : ℤ) (d : Desk) : Prop :=
  ∃ l, (echoManners size).mayLeave l ∧ d = d₀.put fd l

theorem keeps_server {turn : Echoing (Option Unit)}
    (hturn : ∀ off, Keeps V (echoManners size) turn (fun r _ d ↦ r = none ∧ d = waiting lfd) off
      (waiting lfd))
    {Q : Unit → ℕ → Desk → Prop} :
    Keeps V (echoManners size) (forever turn) Q off (waiting lfd) := by
  refine .forever (fun _ d ↦ d = waiting lfd) rfl ?_
  rintro off _ rfl
  refine (hturn off).imp ?_
  rintro _ off _ ⟨rfl, rfl⟩
  rfl

theorem keeps_loopbackTask {run : Echoing Unit}
    (hrun : ∀ off, Keeps V (echoManners size) run (fun _ _ d ↦ d = Desk.empty) off Desk.empty) :
    Keeps V (echoManners size) (loopbackTask run) (fun _ _ d ↦ d = Desk.empty) off Desk.empty := by
  refine .perform_bind trivial fun mem ↦ .ite (fun _ ↦ ?_) fun _ ↦ .pure rfl
  refine .seq (keeps_waitLink (Q := fun _ _ d ↦ d = Desk.empty) rfl) ?_
  rintro _ off _ rfl
  exact hrun off

variable (hV : ∀ o s e a e', V.answer o s e a e' → o.Fair a)

include hV

theorem keeps_echo (hd₀ : Beside d₀ fd) :
    Keeps V (echoManners size) (forever (echoTurn fd size)) (fun _ _ d ↦ Left size d₀ fd d) off
    (d₀.put fd {}) := by
  refine .forever (fun _ d ↦ ∃ l : Line, (l.broken = false ∧ l.out = l.inn) ∧ d =
    d₀.put fd l) ⟨_, ⟨rfl, rfl⟩, rfl⟩ ?_
  rintro off _ ⟨l, ⟨hwhole, heven⟩, rfl⟩
  have hleft : (echoManners size).mayLeave l := ⟨heven ▸ List.prefix_refl _, fun _ ↦ heven⟩
  refine keeps_recv_bind hV hd₀ ⟨hwhole, heven, rfl⟩ (fun bytes hne _ ↦ ?_) fun a hnone ↦ ?_
  · obtain ⟨b, bytes, rfl⟩ := List.exists_cons_of_ne_nil hne
    refine .seq (keeps_sendAll hV hd₀ ?_) ?_
    · intro part rest h _
      refine ⟨hwhole, ?_⟩
      simp [Line.say, Line.hear, heven, h]
    rintro ok off d ⟨-, l', hpushed, rfl⟩
    cases ok with
    | true =>
      obtain rfl : l' = _ := hpushed
      exact .pure ⟨(l.hear (b :: bytes)).say (b :: bytes),
        ⟨hwhole, congrArg (· ++ _) heven⟩, rfl⟩
    | false =>
      obtain ⟨part, hpart, rfl⟩ := hpushed
      refine .pure ⟨((l.hear (b :: bytes)).say part).snap,
        ⟨?_, fun h ↦ Bool.noConfusion (h : true = false)⟩, rfl⟩
      simpa [Line.say, Line.hear, Line.snap, heven] using hpart
  · rcases a with errno | _ | ⟨b, bytes⟩
    · exact .pure ⟨l, hleft, rfl⟩
    · exact .pure ⟨l, hleft, rfl⟩
    · exact absurd (hnone _ rfl) (List.cons_ne_nil _ _)

/-- A turn of a server that does something harmless when `accept` fails. -/
theorem keeps_serverTurn {fail : Echoing (Option Unit)}
    (hfail : ∀ off, Keeps V (echoManners size) fail (fun r _ d ↦ r = none ∧ d = waiting lfd) off
      (waiting lfd)) :
    Keeps V (echoManners size) (ask (.accept lfd) >>= fun a ↦ match a with
      | .error _ => fail
      | .ok (c, _) => do
        forever (echoTurn c size)
        ask (.close c)
        return none) (fun r _ d ↦ r = none ∧ d = waiting lfd) off (waiting lfd) := by
  refine keeps_accept_bind hV (fun _ ↦ hfail _) fun fd _ hd₀ ↦ .seq (keeps_echo hV hd₀) ?_
  rintro _ off _ ⟨l, hleft, rfl⟩
  exact keeps_close_bind hd₀ hleft (.pure ⟨rfl, rfl⟩)

theorem keeps_loopbackTcpServer (port : UInt16) :
    Keeps V (echoManners size) (loopbackTcpServer port size)
    (fun _ _ d ↦ d = Desk.empty) off Desk.empty := by
  refine .perform_bind rfl fun lsock ↦ .ite (fun h ↦ .pure (if_pos h)) fun h ↦ ?_
  have hopened : Desk.note (.socket true) off lsock Desk.empty = waiting lsock := if_neg h
  rw [hopened]
  refine .perform_bind trivial fun _ ↦
    .seq (keeps_bindListen (Q := fun _ _ d ↦ d = waiting lsock) fun _ ↦ rfl) ?_
  rintro ok off _ rfl
  refine .ite (fun _ ↦ ?_) fun _ ↦ .perform (.inl rfl) fun _ ↦ waiting_clear
  exact keeps_server fun _ ↦ keeps_serverTurn hV fun _ ↦ .pure ⟨rfl, rfl⟩

theorem keeps_loopbackTcpClient (target : SockAddr) :
    Keeps V (echoManners size) (loopbackTcpClient target size)
    (fun _ _ d ↦ d = Desk.empty) off Desk.empty := by
  refine .forever (fun _ d ↦ d = Desk.empty) rfl ?_
  rintro off _ rfl
  refine .perform_bind rfl fun s ↦ .ite (fun h ↦ .perform_bind trivial fun _ ↦ .pure (if_pos h))
    fun h ↦ ?_
  have hopened : Desk.note (.socket true) off s Desk.empty = Desk.empty.put s {} := if_neg h
  rw [hopened]
  have hend : ∀ {off d}, Left size Desk.empty s d →
      Keeps V (echoManners size) (do
        ask (.close s)
        ask (.delayMs 1000)
        return none) (fun (_ : Option Unit) _ d ↦ d = Desk.empty) off d := by
    rintro off _ ⟨l, hleft, rfl⟩
    exact keeps_close_bind beside_empty hleft (.perform_bind trivial fun _ ↦ .pure rfl)
  refine .perform_bind ⟨_, _, beside_empty, rfl, rfl⟩ fun ok ↦ .ite (fun _ ↦ ?_) fun _ ↦ ?_
  · exact .seq (keeps_echo hV beside_empty) fun _ _ _ hleft ↦ hend hleft
  · exact hend ⟨{}, ⟨List.prefix_refl _, fun _ ↦ rfl⟩, rfl⟩

theorem keeps_workerTask :
    Keeps V (echoManners multiSocketBufSize) (workerTask lfd) (fun _ _ d ↦ d = Desk.empty) off
    (waiting lfd) := by
  refine .perform_bind trivial fun mem ↦ .ite (fun _ ↦ ?_) fun _ ↦ .perform (.inl rfl) fun _ ↦
    waiting_clear
  refine keeps_server fun _ ↦ keeps_serverTurn hV fun _ ↦ ?_
  exact .perform_bind trivial fun _ ↦ .pure ⟨rfl, rfl⟩

end

/-! ## The tasks -/

/-- A task that echoes. The listener of a worker has been opened for it. -/
inductive Task
  | server (port : UInt16)
  | client (target : SockAddr)
  | worker (lfd : ℤ)

namespace Task

def prog : Task → Echoing Unit
  | .server port => loopbackTask (loopbackTcpServer port loopbackBufSize)
  | .client target => loopbackTask (loopbackTcpClient target loopbackBufSize)
  | .worker lfd => workerTask lfd

def bufSize : Task → ℕ
  | .worker _ => multiSocketBufSize
  | _ => loopbackBufSize

/-- The desk when it starts. -/
def desk : Task → Desk
  | .worker lfd => waiting lfd
  | _ => Desk.empty

end Task

/-- **They echo**: whatever the other ends do, all that has been received is sent back before more
of it is read, and nothing else is. No descriptor is left open. -/
theorem echo_keeps_manners {E : Type} {V : Env ℕ E SockOp.Ans}
    (hV : ∀ o s e a e', V.answer o s e a e' → o.Fair a) (task : Task) {off off' : ℕ} {e : E}
    {e' : E × Desk} {o : SockOp}
    (h : Performs (V.noted Desk.note) task.prog off (e, task.desk) o off' e') :
    (echoManners task.bufSize).Kept o e'.2 := by
  cases task with
  | server port => exact (keeps_loopbackTask fun _ ↦ keeps_loopbackTcpServer hV port).performs h
  | client target => exact (keeps_loopbackTask fun _ ↦ keeps_loopbackTcpClient hV target).performs h
  | worker lfd => exact (keeps_workerTask hV).performs h

/-- A worker and a client with this to say, after so many steps. -/
def briefEcho (n : ℕ) : Config ℕ (List UInt8 × Desk) SockOp.Ans Unit :=
  runNoted oneClient Desk.note n ⟨workerTask 3, 0, [0x68, 0x69], waiting 3⟩

theorem echo_keeps_manners_worker :
    (echoManners multiSocketBufSize).Kept (.send 4 [0x68, 0x69]) (briefEcho 9).env.2 :=
  echo_keeps_manners oneClient_fair (.worker 3)
    (performs_runNoted (V := Env.script oneClient) (n := 9) (fun _ _ _ ↦ ⟨rfl, rfl⟩)
      (by decide))

end WsmDriver.Echo
