import WsmDriver.Netbios.Responder
import WsmDriver.Sockets.Service

/-!
# The NetBIOS service

The rest of `netbios.c`: the socket, and the loop that hands what it receives to `netbios_handle`
and sends what that makes of it.

The address of the interface is asked for at every query for the name, and there may be none yet. So
an `Exchange` is a datagram, its sender and the address that was asked for; and what has been sent
at any moment answers, one for one and in order, the exchanges that have an answer.

What has an answer is said of the datagram, not of what `netbios_handle` makes of it. So the queries
that it answers though it should not are left out, `Loose` ones.
-/

namespace WsmDriver.Netbios

open Effect Program
open Sockets (Errno SockAddr SockOp)

/-! ## The loop -/

/-- `NETBIOS_RECV_TIMEOUT_MS`, `NETBIOS_PORT` and `NETBIOS_BUF_SIZE`. -/
def netbiosRecvTimeoutMs : UInt32 := 5000

def netbiosPort : UInt16 := 137

def netbiosBufSize : ℕ := 512

/-- The socket calls and the two hooks of `netbios_ops_t`. -/
inductive NetbiosOp
  | sock (o : SockOp)
  | getIp
  | getIfname
  deriving DecidableEq

abbrev NetbiosOp.Ans : NetbiosOp → Type
  | .sock o => o.Ans
  | .getIp => Option (Vector UInt8 4)
  | .getIfname => List UInt8

abbrev Responding := Program Unit NetbiosOp.Ans

abbrev ask (o : NetbiosOp) : Responding o.Ans := perform o

/-- `sock_bind_iface`. -/
def sockBindIface (fd : ℤ) (ifname : List UInt8) : Responding Unit :=
  when (ifname ≠ []) (ask (.sock (.setDevice fd (ifname.take 15))))

/-- `netbios_handle`, with the hook it asks for the address where an answer is due. -/
def handle (nbName req : List UInt8) : Responding (Option (List UInt8)) :=
  if (netbiosHandle nbName (some (.replicate 4 0)) req).isSome then do
    let ip ← ask .getIp
    return netbiosHandle nbName ip req
  else return none

/-- A turn of the loop of `netbios_serve`. -/
def netbiosServeTurn (nbName : List UInt8) (fd : ℤ) (cap : ℕ) : Responding (Option Unit) := do
  match ← ask (.sock (.recvfrom fd cap)) with
  | .error errno => do
    if errno.again then return none
    ask (.sock (.delayMs 100))
    return none
  | .ok ([], _) => return none
  | .ok (b :: req, src) => do
    match ← handle nbName (b :: req) with
    | none => return none
    | some resp => do
      discard (ask (.sock (.sendto fd resp src)))
      return none

/-- `netbios_serve`. -/
def netbiosServe (nbName : List UInt8) (cap : ℕ) : Responding Unit := do
  let ifname ← ask .getIfname
  let fd ← ask (.sock (.socket false))
  if fd < 0 then return ()
  ask (.sock (.setReuseaddr fd))
  ask (.sock (.setBroadcast fd))
  ask (.sock (.setRcvtimeo fd netbiosRecvTimeoutMs))
  sockBindIface fd ifname
  if ← ask (.sock (.bind fd netbiosPort)) then forever (netbiosServeTurn nbName fd cap)
  else ask (.sock (.close fd))

/-- A turn of the loop that waits for the link. -/
def waitLinkTurn : Responding (Option Unit) := do
  if ← ask (.sock .isUp) then return some ()
  ask (.sock (.delayMs 100))
  return none

/-- `netbios_task`. -/
def netbiosTask (nbName : List UInt8) : Responding Unit := do
  if ← ask (.sock (.malloc netbiosBufSize)) then
    forever waitLinkTurn
    netbiosServe nbName netbiosBufSize
  else return ()

/-! ## What has been answered -/

/-- A datagram. If the address of the interface was asked for, `ip` is the answer. -/
structure Exchange where
  dgram : List UInt8
  src : SockAddr
  ip : Option (Option (Vector UInt8 4)) := none
  deriving DecidableEq

/-- What an observer has seen, the latest first. -/
structure Post where
  fd : Option ℤ := none
  port : Option UInt16 := none
  got : List Exchange := []
  put : List (List UInt8 × SockAddr) := []
  deriving DecidableEq

/-- The last exchange has this address. -/
def withIp (ip : Option (Vector UInt8 4)) : List Exchange → List Exchange
  | x :: xs => { x with ip := some ip } :: xs
  | [] => []

def Post.note (o : NetbiosOp) (_ : Unit) (a : o.Ans) (w : Post) : Post :=
  match o, a with
  | .sock (.socket _), fd => if fd < 0 then w else { w with fd := some fd }
  | .sock (.bind _ port), ok => { w with port := if ok then some port else none }
  | .sock (.close _), _ => { w with fd := none, port := none }
  | .sock (.recvfrom _ _), .ok (b :: req, src) => { w with got := ⟨b :: req, src, none⟩ :: w.got }
  | .sock (.sendto _ data dst), _ => { w with put := (data, dst) :: w.put }
  | .getIp, ip => { w with got := withIp ip w.got }
  | _, _ => w

/-- A query for the name, with the label terminated. -/
structure AsksFor (nb : NbName) (req : List UInt8) : Prop extends NameQuery req where
  root : req.getD 45 0 = 0
  names : Names nb req

/-- The datagrams are answers to the exchanges that have one, each to the sender of the query. -/
inductive Answered (nb : NbName) : List Exchange → List (List UInt8 × SockAddr) → Prop
  | nil : Answered nb [] []
  | other {x xs ys} (hask : ¬AsksFor nb x.dgram) (h : Answered nb xs ys) : Answered nb (x :: xs) ys
  | noIp {x xs ys} (hip : x.ip = some none) (h : Answered nb xs ys) : Answered nb (x :: xs) ys
  | answer {x xs ys ip resp} (hask : AsksFor nb x.dgram) (hip : x.ip = some (some ip))
      (hresp : Answers x.dgram ip resp)
      (h : Answered nb xs ys) : Answered nb (x :: xs) ((resp, x.src) :: ys)

/-- **The rules, at a call.** All that has been received is answered before more of it is, no more
and no less. -/
def Serves (nb : NbName) (o : NetbiosOp) (_ : Unit) (w : Post) : Prop :=
  match o with
  | .sock (.socket _) => w.fd = none
  | .sock (.bind fd port) => w.fd = some fd ∧ w.port = none ∧ port = netbiosPort
  | .sock (.close fd) => w.fd = some fd ∧ w.port = none
  | .sock (.recvfrom fd _) => w.fd = some fd ∧ w.port = some netbiosPort ∧ Answered nb w.got w.put
  | .sock (.sendto fd data dst) =>
    w.fd = some fd ∧ w.port = some netbiosPort ∧ Answered nb w.got ((data, dst) :: w.put)
  | .getIp => ∃ x xs, w.got = x :: xs ∧ AsksFor nb x.dgram
  | .sock (.accept _) | .sock (.connect _ _) | .sock (.recv _ _) | .sock (.send _ _) | .sock
      (.listen _ _) => False
  | _ => True

/-- No loose query has come. -/
def Post.Strict (nb : NbName) (w : Post) : Prop := ∀ x ∈ w.got, ¬Loose nb x.dgram

/-- The answers in which none comes. -/
def Strict (nb : NbName) (o : NetbiosOp) (_ : Unit) (a : o.Ans) : Prop :=
  match o, a with
  | .sock (.recvfrom _ _), .ok (req, _) => ¬Loose nb req
  | _, _ => True

variable {nb : NbName} {req : List UInt8} {ip : Vector UInt8 4}

theorem netbiosHandle_eq_some_iff_asksFor (hstrict : ¬Loose nb req) {resp : List UInt8} :
    netbiosHandle nb.chars (some ip) req = some resp ↔ AsksFor nb req ∧ resp = answer req ip := by
  rw [netbiosHandle_eq_some_iff]
  constructor
  · rintro ⟨hq, hheard, hresp⟩
    obtain ⟨hroot, hnames⟩ := (sameName_heard_of_not_loose hq hstrict).mp hheard
    exact ⟨⟨hq, hroot, hnames⟩, hresp⟩
  · rintro ⟨⟨hq, hroot, hnames⟩, hresp⟩
    exact ⟨hq, (sameName_heard_of_not_loose hq hstrict).mpr ⟨hroot, hnames⟩, hresp⟩

theorem isSome_netbiosHandle_iff (hstrict : ¬Loose nb req) :
    (netbiosHandle nb.chars (some ip) req).isSome = true ↔ AsksFor nb req := by
  simp [Option.isSome_iff_exists, netbiosHandle_eq_some_iff_asksFor hstrict]

theorem netbiosHandle_none (nbName req : List UInt8) : netbiosHandle nbName none req = none := by
  unfold netbiosHandle
  split
  · rfl
  · dsimp only
    split
    · rfl
    · split
      · rfl
      · split <;> rfl

section

variable {E : Type} {V : Env Unit E NetbiosOp.Ans} {fd : ℤ} {got : List Exchange}
    {put : List (List UInt8 × SockAddr)}

/-- The post of the loop. -/
abbrev served (fd : ℤ) (got : List Exchange) (put : List (List UInt8 × SockAddr)) : Post :=
  ⟨some fd, some netbiosPort, got, put⟩

/-- One datagram. -/
theorem recorded_handle (hstrict : ¬Loose nb req) (src : SockAddr) (h : Answered nb got put) :
    Recorded V Post.note (Serves nb) (handle nb.chars req)
      (fun r _ w ↦ ∃ ip, w = served fd (⟨req, src, ip⟩ :: got) put ∧ match r with
        | none => Answered nb w.got put
        | some resp => Answered nb w.got ((resp, src) :: put)) ()
            (served fd (⟨req, src, none⟩ :: got) put) := by
  refine .ite (fun hsome ↦ ?_) fun hsome ↦ .pure ⟨none, rfl, .other (fun hask ↦ ?_) h⟩
  rotate_left
  · exact hsome ((isSome_netbiosHandle_iff hstrict).mpr hask)
  have hask := (isSome_netbiosHandle_iff hstrict).mp hsome
  refine .perform_bind ⟨_, _, rfl, hask⟩ fun ip ↦ .pure ⟨some ip, rfl, ?_⟩
  cases ip with
  | none =>
    rw [netbiosHandle_none]
    exact .noIp rfl h
  | some ip =>
    rw [(netbiosHandle_eq_some_iff_asksFor hstrict).mpr ⟨hask, rfl⟩]
    exact .answer hask rfl (answers_answer hask.toNameQuery) h

variable (hV : ∀ o s e a e', V.answer o s e a e' → Strict nb o s a)

include hV

theorem recorded_netbiosServeTurn {cap : ℕ} (h : Answered nb got put) :
    Recorded V Post.note (Serves nb) (netbiosServeTurn nb.chars fd cap)
      (fun r _ w ↦ r = none ∧ ∃ got put, w = served fd got put ∧ Answered nb got put) ()
      (served fd got put) := by
  refine .answer_bind ⟨rfl, rfl, h⟩ fun _ a _ ha ↦ ?_
  replace ha : Strict nb _ () a := hV _ _ _ _ _ ha
  rcases a with errno | ⟨_ | ⟨b, req⟩, src⟩
  · exact .ite (fun _ ↦ .pure ⟨rfl, _, _, rfl, h⟩) fun _ ↦ .perform_bind trivial fun _ ↦
      .pure ⟨rfl, _, _, rfl, h⟩
  · exact .pure ⟨rfl, _, _, rfl, h⟩
  · refine .seq (recorded_handle ha src h) ?_
    rintro (_ | resp) _ _ ⟨ip, rfl, hans⟩
    · exact .pure ⟨rfl, _, _, rfl, hans⟩
    · exact .seq (.discard_perform ⟨rfl, rfl, hans⟩ fun _ ↦ rfl) fun _ _ w hw ↦
        .pure ⟨rfl, _, _, hw, hans⟩

theorem recorded_netbiosTask :
    Recorded V Post.note (Serves nb) (netbiosTask nb.chars) (fun _ _ w ↦ w.fd = none) () {} := by
  refine .perform_bind trivial fun mem ↦ .ite (fun _ ↦ ?_) fun _ ↦ .pure rfl
  refine .seq (M := fun _ _ w ↦ w = {}) (.forever (fun _ w ↦ w = {}) rfl ?_) ?_
  · rintro _ _ rfl
    exact .perform_bind trivial fun _ ↦ .ite (fun _ ↦ .pure rfl) fun _ ↦
      .perform_bind trivial fun _ ↦ .pure rfl
  rintro _ _ _ rfl
  refine .perform_bind trivial fun ifname ↦ .perform_bind rfl fun fd ↦
    .ite (fun hneg ↦ .pure ?_) fun hneg ↦ ?_
  · rw [Post.note, if_pos hneg]
    rfl
  have hopened : Post.note (.sock (.socket false)) () fd {} = { fd := some fd } := if_neg hneg
  rw [show Post.note .getIfname () ifname {} = {} from rfl, hopened]
  refine .perform_bind trivial fun _ ↦ .perform_bind trivial fun _ ↦
    .perform_bind trivial fun _ ↦ ?_
  refine .seq (M := fun _ _ w ↦ w = { fd := some fd })
    (.when (fun _ ↦ .perform trivial fun _ ↦ rfl) fun _ ↦ rfl) ?_
  rintro _ _ _ rfl
  refine .perform_bind ⟨rfl, rfl, rfl⟩ fun ok ↦ .ite (fun hok ↦ ?_) fun hok ↦
    .perform ⟨rfl, if_neg hok⟩ fun _ ↦ rfl
  subst hok
  refine .forever (fun _ w ↦ ∃ got put, w = served fd got put ∧ Answered nb got put)
    ⟨[], [], rfl, .nil⟩ ?_
  rintro _ _ ⟨got, put, rfl, h⟩
  refine (recorded_netbiosServeTurn hV h).imp ?_
  rintro _ _ _ ⟨rfl, h⟩
  exact h

end

theorem not_loose_nil (nb : NbName) : ¬Loose nb [] := fun h ↦ absurd h.1.length (by decide)

theorem strict_withIp {ip : Option (Vector UInt8 4)} :
    (∀ x ∈ withIp ip got, ¬Loose nb x.dgram) ↔ ∀ x ∈ got, ¬Loose nb x.dgram := by
  cases got with
  | nil => rfl
  | cons x xs => rw [withIp, List.forall_mem_cons, List.forall_mem_cons]

/-- Once a loose query has come, it has. -/
theorem strict_note (o : NetbiosOp) (s : Unit) (a : o.Ans) (w : Post)
    (h : (Post.note o s a w).Strict nb) : w.Strict nb ∧ Strict nb o s a := by
  cases o with
  | getIp => exact ⟨strict_withIp.mp h, trivial⟩
  | getIfname => exact ⟨h, trivial⟩
  | sock o =>
    cases o with
    | recvfrom fd cap =>
      rcases a with errno | ⟨_ | ⟨b, req⟩, src⟩
      · exact ⟨h, trivial⟩
      · exact ⟨h, not_loose_nil nb⟩
      · exact ⟨fun x hx ↦ h x (List.mem_cons_of_mem _ hx), h _ List.mem_cons_self⟩
    | socket stream =>
      refine ⟨?_, trivial⟩
      unfold Post.note at h
      dsimp only at h
      split at h
      · exact h
      · exact h
    | _ => exact ⟨h, trivial⟩

/-- **Every query is answered once, in order.** However the calls fail, and whatever arrives but
loose queries, what has been handed to `sendto` answers the queries for the name that have been
received while the interface had an address. -/
theorem netbiosTask_serves {E : Type} {V : Env Unit E NetbiosOp.Ans} {nb : NbName} {e : E}
    {e' : E × Post} {o : NetbiosOp}
    (h : Performs (V.noted Post.note) (netbiosTask nb.chars) () (e, {}) o () e')
    (hstrict : e'.2.Strict nb) : Serves nb o () e'.2 := by
  have hV : ∀ o s e a e', (V.whose (Strict nb)).answer o s e a e' → Strict nb o s a :=
    fun _ _ _ _ _ ↦ And.right
  exact (recorded_netbiosTask hV).performs (h.noted_whose strict_note hstrict)

/-- A query for `W` that arrives over and over, at an interface with an address. -/
def queried (o : NetbiosOp) (_ : Unit) : o.Ans × Unit :=
  match o with
  | .getIp => (some #v[192, 168, 0, 6], ())
  | .getIfname => ([], ())
  | .sock (.recvfrom _ _) => (.ok (queryW 0, ⟨0xC0A80009, 137⟩), ())
  | .sock o => ((Sockets.oneClient o []).1, ())

/-- The responder and this querier after so many steps. -/
def briefQuery (n : ℕ) : Config Unit (Unit × Post) NetbiosOp.Ans Unit :=
  runNoted queried Post.note n ⟨netbiosTask letterW.chars, (), (), {}⟩

theorem performs_briefQuery {n : ℕ} {o : NetbiosOp} (h : (briefQuery n).prog.asks? = some o) :
    Performs ((Env.script queried).noted Post.note) (netbiosTask letterW.chars) () ((), {}) o
    (briefQuery n).store
      (briefQuery n).env :=
  performs_runNoted (V := Env.script queried) (fun _ _ _ ↦ ⟨rfl, rfl⟩) h

theorem strict_briefQuery : (briefQuery 16).env.2.Strict letterW := by
  have hgot : ∀ x ∈ (briefQuery 16).env.2.got, x.dgram = queryW 0 := by decide
  intro x hx
  rw [hgot x hx]
  rintro ⟨-, ⟨-, hroot⟩ | ⟨hzero, -⟩⟩
  · exact hroot (by decide)
  · exact absurd hzero (by decide)

theorem netbiosTask_serves_letterW :
    Serves letterW (.sock (.sendto 3 (answer (queryW 0) #v[192, 168, 0, 6]) ⟨0xC0A80009, 137⟩)) ()
      (briefQuery 16).env.2 :=
  netbiosTask_serves (performs_briefQuery (n := 16) (by decide)) strict_briefQuery

end WsmDriver.Netbios
