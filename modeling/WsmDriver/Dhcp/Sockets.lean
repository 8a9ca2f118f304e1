import WsmDriver.Dns.Resolver
import WsmDriver.Effect.Parallel

/-!
# The sockets of the engine

A client has a socket while it runs, and a lookup has one while it lasts. Of all that is asked of
the socket functions a ledger is kept, each entry under the name of the client, or the lookup, that
asked; by the ledger, a descriptor that its owner has obtained and not closed since is open.

What a call does to the ledger is stated for each function once: which descriptor its owner holds
afterwards, if any. The rest, any number of clients in any order of calls, is an induction over the
calls.
-/

namespace WsmDriver.Dhcp

open Effect Effect.Recorded

/-! ## The ledger -/

/-- Who asks: the client at an address, or a lookup. -/
abbrev Owner := Option ℕ

/-- What was asked and answered, newest first. -/
abbrev Ledger := List (Owner × Sigma DhcpOp.Ans)

/-- An answer is entered under the name of its owner. -/
def entry (o : Owner) (op : DhcpOp) (_ : Client) (a : op.Ans) (b : Ledger) : Ledger :=
  (o, ⟨op, a⟩) :: b

/-- The descriptor is obtained from `socket`. -/
def obtains (fd : ℤ) : Sigma DhcpOp.Ans → Bool
  | ⟨.socket, a⟩ => decide (a = fd)
  | _ => false

/-- The descriptor is closed. -/
def closes (fd : ℤ) : Sigma DhcpOp.Ans → Bool
  | ⟨.close fd', _⟩ => decide (fd' = fd)
  | _ => false

/-- How often the owner has obtained the descriptor. -/
def obtained (o : Owner) (fd : ℤ) (b : Ledger) : ℕ :=
  b.countP fun x ↦ decide (x.1 = o) && obtains fd x.2

/-- How often the owner has closed it. -/
def closed (o : Owner) (fd : ℤ) (b : Ledger) : ℕ :=
  b.countP fun x ↦ decide (x.1 = o) && closes fd x.2

/-- Of all descriptors the owner has exactly `d` open, if that is one, and has closed every other as
often as it was obtained. -/
def Holds (o : Owner) (d : ℤ) (b : Ledger) : Prop :=
  ∀ fd, 0 ≤ fd → obtained o fd b = closed o fd b + if fd = d then 1 else 0

/-- The descriptor that a socket function is given. -/
def descriptor : DhcpOp → Option ℤ
  | .setsockopt fd _ | .fcntl fd | .bind fd _ _ | .close fd | .sendto fd _ _ _ | .recvfrom fd _ =>
    some fd
  | _ => none

/-- A socket function is given a descriptor that its owner has open. -/
def OnOpen (o : Owner) (op : DhcpOp) (_ : Client) (b : Ledger) : Prop :=
  ∀ fd, descriptor op = some fd → 0 ≤ fd ∧ closed o fd b < obtained o fd b

/-- The operation opens and closes nothing. -/
def isQuiet : DhcpOp → Bool
  | .socket | .close _ => false
  | _ => true

variable {o o' : Owner} {d d' fd : ℤ} {b : Ledger} {op : DhcpOp}

theorem Holds.quiet (h : Holds o d b) (hop : isQuiet op = true) (a : op.Ans) :
    Holds o d ((o', ⟨op, a⟩) :: b) := by
  intro fd hfd
  have hobtains : obtains fd ⟨op, a⟩ = false := by
    cases op <;> first | rfl | cases hop
  have hcloses : closes fd ⟨op, a⟩ = false := by
    cases op <;> first | rfl | cases hop
  simp only [obtained, closed, List.countP_cons, hobtains, hcloses, Bool.and_false,
    Bool.false_eq_true, if_false]
  exact h fd hfd

theorem Holds.other (h : Holds o d b) (ho : o' ≠ o) (x : Sigma DhcpOp.Ans) :
    Holds o d ((o', x) :: b) := by
  intro fd hfd
  simp only [obtained, closed, List.countP_cons, decide_eq_false ho, Bool.false_and,
    Bool.false_eq_true, if_false]
  exact h fd hfd

/-- Who holds nothing holds what `socket` answers. -/
theorem Holds.socket (h : Holds o d b) (hd : d < 0) (a : ℤ) :
    Holds o a ((o, ⟨.socket, a⟩) :: b) := by
  intro fd hfd
  have hb := h fd hfd
  rw [if_neg (by omega)] at hb
  simp only [obtained, closed, List.countP_cons, obtains, closes, decide_true, Bool.true_and,
    decide_eq_true_eq, Bool.false_eq_true, if_false, eq_comm (a := fd)] at hb ⊢
  omega

theorem Holds.close (h : Holds o d b) (a : ℤ) (hd' : d' < 0) :
    Holds o d' ((o, ⟨.close d, a⟩) :: b) := by
  intro fd hfd
  have hb := h fd hfd
  rw [if_neg (show fd ≠ d' by omega)]
  simp only [obtained, closed, List.countP_cons, obtains, closes, decide_true, Bool.true_and,
    decide_eq_true_eq, Bool.false_eq_true, if_false, eq_comm (a := fd)] at hb ⊢
  omega

theorem Holds.nil (hd : d < 0) : Holds o d [] := by
  intro fd hfd
  rw [if_neg (by omega)]
  rfl

theorem Holds.none (h : Holds o d b) (hd : d < 0) (hd' : d' < 0) : Holds o d' b := by
  intro fd hfd
  rw [h fd hfd, if_neg (by omega), if_neg (by omega)]

/-- A function that is given the descriptor its owner holds. -/
theorem Holds.onOpen {c : Client} (h : Holds o d b) (hd : 0 ≤ d)
    (hop : ∀ fd, descriptor op = some fd → fd = d) : OnOpen o op c b := by
  intro fd hfd
  obtain rfl := hop fd hfd
  refine ⟨hd, ?_⟩
  rw [h fd hd, if_pos rfl]
  exact Nat.lt_succ_self _

theorem onOpen_of_none {c : Client} (h : descriptor op = none) : OnOpen o op c b := by
  intro fd hfd
  rw [h] at hfd
  cases hfd

/-! ## What each function does to it -/

section

variable {E : Type} {V : Env Client E DhcpOp.Ans} {c : Client} {α : Type}

/-- The client keeps the descriptor it has. -/
def KeepsSocket (o : Owner) (d : ℤ) (c : Client) (b : Ledger) : Prop := c.fd = d ∧ Holds o d b

theorem Holds.ask_bind {k : op.Ans → Engine α} {Q : α → Client → Ledger → Prop}
    (h : Holds o d b) (hop : isQuiet op = true) (hguard : OnOpen o op c b)
    (hk : ∀ a b', Holds o d b' → Recorded V (entry o) (OnOpen o) (k a) Q c b') :
    Recorded V (entry o) (OnOpen o) (ask op >>= k) Q c b :=
  .perform_bind hguard fun a ↦ hk a _ (h.quiet hop a)

theorem Holds.discard_ask {Q : PUnit → Client → Ledger → Prop} (h : Holds o d b)
    (hop : isQuiet op = true) (hguard : OnOpen o op c b)
    (hk : ∀ b', Holds o d b' → Q ⟨⟩ c b') :
    Recorded V (entry o) (OnOpen o) (discard (ask op)) Q c b :=
  .discard_perform hguard fun a ↦ hk _ (h.quiet hop a)

theorem sockSetRecvMode_holds (hasFcntl : Bool) (ms : UInt32) (hd : 0 ≤ d) (h : Holds o d b) :
    Recorded V (entry o) (OnOpen o) (sockSetRecvMode hasFcntl d ms)
    (fun _ c' b' ↦ c' = c ∧ Holds o d b') c b := by
  unfold sockSetRecvMode
  refine .ite (fun _ ↦ .when (fun _ ↦ ?_) fun _ ↦ ⟨rfl, h⟩) fun _ ↦ ?_
  · exact h.discard_ask rfl (h.onOpen hd fun _ hfd ↦ (Option.some.inj hfd).symm) fun _ h' ↦
      ⟨rfl, h'⟩
  · exact h.discard_ask rfl (h.onOpen hd fun _ hfd ↦ (Option.some.inj hfd).symm) fun _ h' ↦
      ⟨rfl, h'⟩

theorem sockBindIface_holds (ifname : List UInt8) (hd : 0 ≤ d) (h : Holds o d b) :
    Recorded V (entry o) (OnOpen o) (sockBindIface d ifname) (fun _ c' b' ↦ c' = c ∧ Holds o d b')
      c b :=
  .when (fun _ ↦ h.discard_ask rfl (h.onOpen hd fun _ hfd ↦ (Option.some.inj hfd).symm)
    fun _ h' ↦ ⟨rfl, h'⟩) fun _ ↦ ⟨rfl, h⟩

/-- Opening leaves the client with a descriptor, or without and nothing open. -/
theorem dhcpOpen_holds (hc : c.fd < 0) (h : Holds o c.fd b) :
    Recorded V (entry o) (OnOpen o) dhcpOpen
    (fun r c' b' ↦ Holds o c'.fd b' ∧ (r = false → c'.fd < 0)) c b := by
  unfold dhcpOpen
  refine .get_bind (.perform_bind (onOpen_of_none rfl) fun fd ↦ ?_)
  replace h := h.socket hc fd
  refine .ite (fun hfd ↦ .pure ⟨h.none hfd hc, fun _ ↦ hc⟩) fun hfd ↦ ?_
  replace hfd := Int.not_lt.mp hfd
  have hguard : ∀ {op c b}, Holds o fd b → descriptor op = some fd → OnOpen o op c b :=
    fun h hop ↦ h.onOpen hfd fun fd' hfd' ↦ Option.some.inj (hfd'.symm.trans hop)
  refine .bind (h.discard_ask rfl (hguard h rfl) fun b₁ h₁ ↦ ?_)
  refine .bind (h₁.discard_ask rfl (hguard h₁ rfl) fun b₂ h₂ ↦ ?_)
  refine .seq (sockSetRecvMode_holds _ _ hfd h₂) ?_
  rintro _ _ b₃ ⟨rfl, h₃⟩
  refine .seq (sockBindIface_holds _ hfd h₃) ?_
  rintro _ _ b₄ ⟨rfl, h₄⟩
  refine h₄.ask_bind rfl (hguard h₄ rfl) fun bound b₅ h₅ ↦ .ite (fun _ ↦ ?_) fun _ ↦ ?_
  · exact .bind (.discard_perform (hguard h₅ rfl) fun a ↦ .pure ⟨h₅.close a hc,
      fun _ ↦ hc⟩)
  · exact .modify_bind (.pure ⟨h₅, fun h ↦ absurd h (by decide)⟩)

theorem dhcpEnterSelecting_keeps (h : KeepsSocket o d c b) :
    Recorded V (entry o) (OnOpen o) dhcpEnterSelecting (fun _ ↦ KeepsSocket o d) c b :=
  .modify_bind (h.2.ask_bind rfl (onOpen_of_none rfl) fun _ _ h' ↦ .update ⟨h.1, h'⟩)

theorem dhcpTransmit_keeps (now : ℤ) (hd : 0 ≤ d) (h : KeepsSocket o d c b) :
    Recorded V (entry o) (OnOpen o) (dhcpTransmit now) (fun _ ↦ KeepsSocket o d) c b := by
  obtain ⟨rfl, h⟩ := h
  refine .modify_bind (.get_bind (.bind (.get_bind ?_)))
  exact h.discard_ask rfl (h.onOpen hd fun _ hfd ↦ (Option.some.inj hfd).symm) fun _ h' ↦
    .update ⟨rfl, h'⟩

theorem dhcpParse_keeps (p : List UInt8) (h : KeepsSocket o d c b) :
    Recorded V (entry o) (OnOpen o) (dhcpParse p) (fun _ ↦ KeepsSocket o d) c b :=
  .get_bind (.ite (fun _ ↦ .modify_bind (.pure h)) fun _ ↦ .pure h)

theorem dhcpHandle_keeps (p : List UInt8) (h : KeepsSocket o d c b) :
    Recorded V (entry o) (OnOpen o) (dhcpHandle p) (fun _ ↦ KeepsSocket o d) c b := by
  unfold dhcpHandle
  refine .seq (dhcpParse_keeps p h) ?_
  rintro ⟨type, got⟩ c₁ b₁ h₁
  refine .ite (fun _ ↦ .pure h₁) fun _ ↦ .ite (fun _ ↦ ?_) fun _ ↦
    .get_bind (.ite (fun _ ↦ ?_) fun _ ↦ ?_)
  · exact .seq (dhcpEnterSelecting_keeps h₁) fun _ _ _ h₂ ↦ .pure h₂
  · exact .modify_bind (.pure h₁)
  · refine .ite (fun _ ↦ .modify_bind ?_) fun _ ↦ .pure h₁
    refine h₁.2.ask_bind rfl (onOpen_of_none rfl) fun _ b₂ h₂ ↦ .modify_bind ?_
    exact h₂.ask_bind rfl (onOpen_of_none rfl) fun _ b₃ h₃ ↦
      .modify_bind (.pure ⟨h₁.1, h₃⟩)

theorem dhcpReceive_keeps (hd : 0 ≤ d) (h : KeepsSocket o d c b) :
    Recorded V (entry o) (OnOpen o) dhcpReceive (fun _ ↦ KeepsSocket o d) c b := by
  obtain ⟨rfl, h⟩ := h
  refine .get_bind (h.ask_bind rfl (h.onOpen hd fun _ hfd ↦ (Option.some.inj hfd).symm)
    fun a b' h' ↦ ?_)
  rcases a with _ | _ | ⟨x, p⟩
  · exact .pure ⟨rfl, h'⟩
  · exact .pure ⟨rfl, h'⟩
  · exact dhcpHandle_keeps _ ⟨rfl, h'⟩

theorem dhcpExchange_keeps (now : ℤ) (hd : 0 ≤ d) (h : KeepsSocket o d c b) :
    Recorded V (entry o) (OnOpen o) (dhcpExchange now) (fun _ ↦ KeepsSocket o d) c b := by
  refine .get_bind (.ite (fun _ ↦ ?_) fun _ ↦ ?_)
  · exact .seq (dhcpEnterSelecting_keeps h) fun _ _ _ h₁ ↦ .pure h₁
  · exact .seq (.when (fun _ ↦ dhcpTransmit_keeps now hd h) fun _ ↦ h) fun _ _ _ h₁ ↦
      dhcpReceive_keeps hd h₁

theorem dhcpTurn_keeps (hd : 0 ≤ d) (h : KeepsSocket o d c b) :
    Recorded V (entry o) (OnOpen o) dhcpTurn (fun _ ↦ KeepsSocket o d) c b := by
  refine h.2.ask_bind rfl (onOpen_of_none rfl) fun now b₁ h₁ ↦
    .get_bind (.ite (fun _ ↦ .pure ⟨h.1, h₁⟩) fun _ ↦ ?_)
  refine .seq (M := fun _ ↦ KeepsSocket o d)
    (.when (fun _ ↦ dhcpEnterSelecting_keeps ⟨h.1, h₁⟩) fun _ ↦ ⟨h.1, h₁⟩) ?_
  exact fun _ _ _ h₂ ↦ dhcpExchange_keeps now hd h₂

theorem dhcpTurns_keeps (hd : 0 ≤ d) : ∀ (n : ℕ) {c : Client} {b : Ledger},
    KeepsSocket o d c b →
    Recorded V (entry o) (OnOpen o) (dhcpTurns n) (fun _ ↦ KeepsSocket o d) c b := by
  intro n
  induction n with
  | zero => exact fun h ↦ .pure h
  | succ n ih =>
    intro c b h
    refine .seq (dhcpTurn_keeps hd h) ?_
    rintro (_ | r) c' b' h'
    · exact ih h'
    · exact .pure h'

/-! ## What each call does to it -/

theorem wsmDhcpStart_holds (p : Ptr) (h : Holds o c.fd b) :
    Recorded V (entry o) (OnOpen o) (wsmDhcpStart p)
    (fun r c' b' ↦ Holds o c'.fd b' ∧ (p ≠ .null → (∃ err, r = .error err) → c'.fd < 0))
      c b := by
  unfold wsmDhcpStart
  refine .ite (fun hp ↦ .pure ⟨h, fun hne ↦ absurd hp hne⟩) fun _ ↦
    .get_bind (.ite (fun _ ↦ .pure ⟨h, ?_⟩) fun hfd ↦ ?_)
  · rintro - ⟨err, herr⟩
    cases herr
  replace hfd := Int.not_le.mp hfd
  refine h.ask_bind rfl (onOpen_of_none rfl) fun got b₁ h₁ ↦ ?_
  obtain ⟨mac, ifname⟩ := got
  refine .modify_bind (.seq (dhcpEnterSelecting_keeps (d := c.fd) ⟨rfl, h₁⟩) ?_)
  rintro _ c₂ b₂ ⟨hc₂, h₂⟩
  refine .modify_bind (.seq (dhcpOpen_holds (hc₂ ▸ hfd) (hc₂ ▸ h₂)) ?_)
  rintro opened c₃ b₃ ⟨h₃, hneg⟩
  refine .ite (fun _ ↦ .pure ⟨h₃, ?_⟩) fun hopened ↦
    .pure ⟨h₃, fun _ _ ↦ hneg (Bool.eq_false_of_not_eq_true hopened)⟩
  rintro - ⟨err, herr⟩
  cases herr

theorem wsmDhcpPoll_holds (p info : Ptr) (h : Holds o c.fd b) :
    Recorded V (entry o) (OnOpen o) (wsmDhcpPoll p info) (fun _ c' b' ↦ Holds o c'.fd b') c b := by
  refine .ite (fun _ ↦ .pure h) fun _ ↦ .get_bind (.ite (fun _ ↦ .pure h) fun hfd ↦ ?_)
  refine .seq (.get_bind (dhcpTurns_keeps (Int.not_lt.mp hfd) _ ⟨rfl, h⟩)) ?_
  rintro ⟨r, filled⟩ c' b' ⟨hc', h'⟩
  exact .pure (hc' ▸ h')

/-- Stopping leaves the client without. -/
theorem wsmDhcpStop_holds (p : Ptr) (h : Holds o c.fd b) :
    Recorded V (entry o) (OnOpen o) (wsmDhcpStop p)
    (fun _ c' b' ↦ Holds o c'.fd b' ∧ (p ≠ .null → c'.fd < 0)) c b := by
  refine .ite (fun hp ↦ .pure ⟨h, fun hne ↦ absurd hp hne⟩) fun _ ↦
    .get_bind (.ite (fun hfd ↦ .pure ⟨h, fun _ ↦ hfd⟩) ?_)
  intro hfd
  replace hfd := Int.not_lt.mp hfd
  refine .bind (.discard_perform (h.onOpen hfd fun _ hfd' ↦ (Option.some.inj hfd').symm) fun a ↦
    .update ⟨?_, ?_⟩)
  · exact h.close a (by decide : (-1 : ℤ) < 0)
  · exact fun _ ↦ (by decide : (-1 : ℤ) < 0)

theorem wsmDhcpClientDestroy_holds (p : Ptr) (h : Holds o c.fd b) :
    Recorded V (entry o) (OnOpen o) (wsmDhcpClientDestroy p)
      (fun _ c' b' ↦ Holds o c'.fd b' ∧ (p ≠ .null → c'.fd < 0)) c b :=
  .ite (fun hp ↦ .pure ⟨h, fun hne ↦ absurd hp hne⟩) fun _ ↦ wsmDhcpStop_holds p h

theorem dnsReceive_holds (id : UInt16) (sent : ℤ) (outIp : Ip4) (hd : 0 ≤ d) (h : Holds o d b) :
    Recorded V (entry o) (OnOpen o) (Dns.dnsReceive d id sent outIp) (fun _ _ ↦ Holds o d) c b := by
  refine .ite (fun _ ↦ .pure h) fun _ ↦ ?_
  refine h.ask_bind rfl (h.onOpen hd fun _ hfd ↦ (Option.some.inj hfd).symm) fun a b' h' ↦ ?_
  rcases a with _ | _ | ⟨x, p⟩
  · exact .pure h'
  · exact .pure h'
  · exact .pure h'

theorem dnsExchange_holds (server : Ip4) (domain : List UInt8) (outIp : Ip4) (hd : 0 ≤ d)
    (h : Holds o d b) :
    Recorded V (entry o) (OnOpen o) (Dns.dnsExchange d server domain outIp)
    (fun _ _ ↦ Holds o d) c b := by
  refine h.ask_bind rfl (onOpen_of_none rfl) fun random b₁ h₁ ↦ ?_
  cases Dns.dnsEncodeName (Dns.dnsBufSize - Dns.dnsHeaderLen - 4) domain with
  | none => exact .pure h₁
  | some name =>
    refine h₁.ask_bind rfl (h₁.onOpen hd fun _ hfd ↦ (Option.some.inj hfd).symm)
      fun sent b₂ h₂ ↦ ?_
    exact dnsReceive_holds _ sent outIp hd h₂

/-- A lookup has a socket only while it lasts. -/
theorem dnsResolve_holds (hasFcntl : Bool) (server : Ip4) (domain : List UInt8) (ms : UInt32)
    (outIp : Ip4) (hd : d < 0) (h : Holds o d b) :
    Recorded V (entry o) (OnOpen o) (Dns.dnsResolve hasFcntl server domain ms outIp)
    (fun _ _ ↦ Holds o d) c b := by
  refine .ite (fun _ ↦ .pure h) fun _ ↦ .perform_bind (onOpen_of_none rfl) fun fd ↦ ?_
  replace h := h.socket hd fd
  refine .ite (fun hfd ↦ .pure (h.none hfd hd)) fun hfd ↦ ?_
  replace hfd := Int.not_lt.mp hfd
  refine .seq (sockSetRecvMode_holds _ _ hfd h) ?_
  rintro _ _ b₁ ⟨-, h₁⟩
  refine .seq (dnsExchange_holds server domain outIp hfd h₁) fun r c₂ b₂ h₂ ↦ ?_
  exact .bind (.discard_perform (h₂.onOpen hfd fun _ hfd' ↦ (Option.some.inj hfd').symm) fun a ↦
    .pure (h₂.close a hd))

theorem wsmDnsResolve_holds (sock : Option Bool) (server : Option Ip4)
    (hostname : Option (List UInt8)) (ms : UInt32) (outIp : Option Ip4) (hd : d < 0)
    (h : Holds o d b) :
    Recorded V (entry o) (OnOpen o) (Dns.wsmDnsResolve sock server hostname ms outIp)
    (fun _ _ ↦ Holds o d) c b := by
  unfold Dns.wsmDnsResolve
  split
  · exact .seq (dnsResolve_holds _ _ _ _ _ hd h) fun _ _ _ h' ↦ .pure h'
  · exact .pure h

end

/-! ## Any number of clients -/

/-- The calls on a client. -/
inductive ClientCall
  | start
  | poll (info : Ptr)
  | stop
  | destroy
  deriving DecidableEq

/-- The program of a call, without its result. -/
def ClientCall.prog : ClientCall → Ptr → Engine Unit
  | .start, c => discard (wsmDhcpStart c)
  | .poll info, c => discard (wsmDhcpPoll c info)
  | .stop, c => wsmDhcpStop c
  | .destroy, c => wsmDhcpClientDestroy c

/-- What a call leaves of the client in memory: `wsm_dhcp_client_destroy` frees it. -/
def ClientCall.left : ClientCall → Client → Option Client
  | .destroy, _ => none
  | _, c => some c

/-- The clients in memory, by their addresses. -/
abbrev Clients := ℕ → Option Client

/-- The descriptor an owner should have open: a client its own, and a lookup none. -/
def heldBy (m : Clients) : Owner → ℤ
  | none => -1
  | some i => (m i).elim (-1) Client.fd

variable {E : Type} (V : Owner → Env Client E DhcpOp.Ans) (e₀ : E)

/-- The surroundings of an owner, with the ledger. -/
abbrev booked (o : Owner) : Env Client (E × Ledger) DhcpOp.Ans := (V o).noted (entry o)

/-- What is reached by any sequence of calls on any clients, and of lookups. -/
inductive Calls : Clients → E × Ledger → Prop
  | start : Calls (fun _ ↦ none) (e₀, [])
  | drift {m : Clients} {e e' : E × Ledger} (o : Owner) (h : Calls m e)
      (hd : (booked V o).drift e e') : Calls m e'
  | create {m : Clients} {e : E × Ledger} {c : Client} (i : ℕ) (h : Calls m e) (hi : m i = none)
      (hc : Created c) : Calls (Function.update m i (some c)) e
  | call {m : Clients} {e e' : E × Ledger} {c c' : Client} (i : ℕ) (k : ClientCall) (h : Calls m e)
      (hi : m i = some c) (hr : Returns (booked V (some i)) (k.prog .valid) c e () c' e') :
      Calls (Function.update m i (k.left c')) e'
  | null {m : Clients} {e e' : E × Ledger} {c c' : Client} (k : ClientCall) (h : Calls m e)
      (hr : Returns (booked V none) (k.prog .null) c e () c' e') : Calls m e'
  | resolve {m : Clients} {e e' : E × Ledger} {c c' : Client} {r : Except EspErr Unit × Option Ip4}
      (sock : Option Bool) (server : Option Ip4) (hostname : Option (List UInt8)) (ms : UInt32)
        (outIp : Option Ip4)
      (h : Calls m e)
      (hr : Returns (booked V none) (Dns.wsmDnsResolve sock server hostname ms outIp) c e r c' e') :
        Calls m e'

variable {V e₀} {m : Clients} {e e' : E × Ledger} {c c' : Client} {i : ℕ}

/-- A call leaves the client with what it has open. -/
theorem ClientCall.holds {b : Ledger} (k : ClientCall) (p : Ptr) (h : Holds o c.fd b) :
    Recorded (V o) (entry o) (OnOpen o) (k.prog p)
      (fun _ c' b' ↦ Holds o c'.fd b' ∧ (k = .destroy → p ≠ .null → c'.fd < 0)) c b := by
  cases k with
  | start =>
    exact .bind ((wsmDhcpStart_holds p h).imp fun _ _ _ h' ↦ .pure ⟨h'.1, fun hk ↦ nomatch hk⟩)
  | poll info =>
    exact .bind ((wsmDhcpPoll_holds p info h).imp fun _ _ _ h' ↦
      .pure ⟨h', fun hk ↦ nomatch hk⟩)
  | stop => exact (wsmDhcpStop_holds p h).imp fun _ _ _ h' ↦ ⟨h'.1, fun hk ↦ nomatch hk⟩
  | destroy => exact (wsmDhcpClientDestroy_holds p h).imp fun _ _ _ h' ↦ ⟨h'.1, fun _ ↦ h'.2⟩

/-- A call without a client asks for nothing. -/
theorem ClientCall.exec_null (k : ClientCall) (c : Client) : (k.prog .null).exec? c =
    some ((), c) := by
  cases k <;> rfl

/-- What others hold, a call leaves alone. -/
theorem booked_keeps (ho : o' ≠ o) : (booked V o).Keeps fun e ↦ Holds o' d e.2 where
  drift hd h := by
    rw [hd.2]
    exact h
  answer ha h := by
    rw [ha.2]
    exact h.other ho.symm _

theorem Holds.returns {α : Type} {p : Engine α} {a : α} (h : Holds o' d e.2) (ho : o' ≠ o)
    (hr : Returns (booked V o) p c e a c' e') : Holds o' d e'.2 :=
  (wlp_keeps (booked_keeps ho) h).returns hr

/-- **The accounts are kept.** -/
theorem Calls.holds (h : Calls V e₀ m e) : ∀ o, Holds o (heldBy m o) e.2 := by
  induction h with
  | start =>
    intro o
    cases o
    · exact Holds.nil (d := -1) (by decide)
    · exact Holds.nil (d := -1) (by decide)
  | drift o' _ hd ih =>
    intro o
    rw [hd.2]
    exact ih o
  | @create _ _ c i _ hi hc ih =>
    -- The address was free, so what its former client held has been closed.
    rintro (_ | j)
    · exact ih none
    · by_cases hj : j = i
      · subst hj
        obtain ⟨_, _, _, _, _, _, _, _, rfl⟩ := hc.eq
        have hnone := ih (some j)
        rw [heldBy, hi] at hnone
        rw [heldBy, Function.update_self]
        exact hnone
      · rw [heldBy, Function.update_of_ne hj]
        exact ih (some j)
  | @call _ e e' c c' i k _ hi hr ih =>
    rintro (_ | j)
    · exact (ih none).returns (by simp) hr
    · by_cases hj : j = i
      · subst hj
        have hc := ih (some j)
        rw [heldBy, hi] at hc
        obtain ⟨hheld, hfreed⟩ := (k.holds .valid hc).returns hr
        rw [heldBy, Function.update_self]
        cases k with
        | destroy =>
          -- Afterwards there is no client that could hold the socket.
          have hnone : (-1 : ℤ) < 0 := by decide
          exact hheld.none (hfreed rfl (by decide)) hnone
        | _ => exact hheld
      · rw [heldBy, Function.update_of_ne hj]
        exact (ih (some j)).returns (by simpa using hj) hr
  | null k _ hr ih =>
    intro o
    obtain ⟨-, -, hd⟩ := (Returns.iff_of_exec? (k.exec_null _)).mp hr
    rw [hd.unnoted.2]
    exact ih o
  | resolve sock server hostname ms outIp _ hr ih =>
    rintro (_ | j)
    · have hnone : (-1 : ℤ) < 0 := by decide
      exact (wsmDnsResolve_holds sock server hostname ms outIp hnone (ih none)).returns hr
    · exact (ih (some j)).returns (by simp) hr

/-! ## One descriptor for each -/

/-- `socket` never answers a descriptor that somebody has open. -/
def Fresh : Ledger → Prop
  | [] => True
  | x :: b => Fresh b ∧ ∀ fd, 0 ≤ fd → obtains fd x.2 = true → ∀ o, obtained o fd b ≤
      closed o fd b

/-- Then nobody else has open what one has. -/
theorem Fresh.unique {b : Ledger} (h : Fresh b) (hfd : 0 ≤ fd)
    (ho : closed o fd b < obtained o fd b) (ho' : closed o' fd b < obtained o' fd b) : o = o' := by
  induction b with
  | nil => exact absurd ho (Nat.lt_irrefl 0)
  | cons x b ih =>
    obtain ⟨hfresh, hx⟩ := h
    have hcases : ∀ {o}, closed o fd (x :: b) < obtained o fd (x :: b) →
        closed o fd b < obtained o fd b ∨ x.1 = o ∧ obtains fd x.2 = true := by
      intro o ho
      by_cases hobtains : x.1 = o ∧ obtains fd x.2 = true
      · exact .inr hobtains
      · refine .inl ?_
        simp only [obtained, closed, List.countP_cons, Bool.and_eq_true, decide_eq_true_eq,
          if_neg hobtains] at ho ⊢
        omega
    by_cases hobtains : obtains fd x.2 = true
    · have hnone := hx fd hfd hobtains
      have h₁ := (hcases ho).resolve_left (Nat.not_lt.mpr (hnone o))
      have h₂ := (hcases ho').resolve_left (Nat.not_lt.mpr (hnone o'))
      exact h₁.1.symm.trans h₂.1
    · exact ih hfresh ((hcases ho).resolve_right fun hx ↦ hobtains hx.2)
        ((hcases ho').resolve_right fun hx ↦ hobtains hx.2)

/-- **The engine leaks no socket.** After any calls on any clients, and any lookups, every owner has
closed each descriptor as often as it was given it, except for the one that a running client has,
and has that once; no two clients have one if `socket` keeps them apart. Every socket function is
given a descriptor that its caller has open. And where a start fails, the client is left with
none. -/
theorem sockets_balanced (h : Calls V e₀ m e) :
    (∀ o fd, 0 ≤ fd → obtained o fd e.2 = closed o fd e.2 + if fd = heldBy m o then 1 else 0) ∧
    (Fresh e.2 → ∀ i j c c', m i = some c → m j = some c' → 0 ≤ c.fd → c.fd = c'.fd →
      i = j) ∧
    (∀ i c, m i = some c → ∀ (k : ClientCall) p op c' e',
      Performs (booked V (some i)) (k.prog p) c e op c' e' →
      OnOpen (some i) op c' e'.2) ∧
    (∀ sock server hostname ms outIp c op c' e', Performs (booked V none)
      (Dns.wsmDnsResolve sock server hostname ms outIp) c e op c' e' → OnOpen none op c' e'.2) ∧
    ∀ i c, m i = some c → ∀ err c' e', Returns (booked V (some i)) (wsmDhcpStart .valid) c e
    (.error err) c' e' →
      c'.fd < 0 ∧ ∀ fd, 0 ≤ fd → obtained (some i) fd e'.2 = closed (some i) fd e'.2 := by
  have hheld := h.holds
  have hclient : ∀ {i c}, m i = some c → Holds (some i) c.fd e.2 := by
    intro i c hi
    have hi' := hheld (some i)
    rwa [heldBy, hi] at hi'
  refine ⟨hheld, fun hfresh i j c c' hi hj hc heq ↦ ?_, fun i c hi k p op c' e' hp ↦ ?_,
    fun sock server hostname ms outIp c op c' e' hp ↦ ?_, fun i c hi err c' e' hr ↦ ?_⟩
  · -- Both have obtained the descriptor once more than they have closed it.
    have hopen : ∀ {i : ℕ} {c'' : Client}, m i = some c'' → c.fd = c''.fd →
        closed (some i) c.fd e.2 < obtained (some i) c.fd e.2 := by
      intro i c'' hi heq
      rw [hclient hi c.fd hc, if_pos heq]
      exact Nat.lt_succ_self _
    exact Option.some.inj (hfresh.unique hc (hopen hi rfl) (hopen hj heq))
  · exact (k.holds p (hclient hi)).performs hp
  · have hnone : (-1 : ℤ) < 0 := by decide
    exact (wsmDnsResolve_holds sock server hostname ms outIp hnone (hheld none)).performs hp
  · obtain ⟨hfree, hneg⟩ := (wsmDhcpStart_holds .valid (hclient hi)).returns hr
    have hfd := hneg (by decide) ⟨err, rfl⟩
    refine ⟨hfd, fun fd hfd' ↦ ?_⟩
    rw [hfree fd hfd', if_neg (by omega), Nat.add_zero]

/-- Where a call to `wsm_dhcp_start` leaves the default client. -/
def bookedStart : Effect.Config Client (Script × Ledger) DhcpOp.Ans Unit :=
  runNoted scripted (entry (some 0)) 40 ⟨ClientCall.start.prog .valid, defaultClient, (1, []), []⟩

/-- A client that was created and started, and has a socket. -/
theorem sockets_balanced_started : ∃ m e, Calls (fun _ ↦ .script scripted) (1, []) m e ∧
    heldBy m (some 0) = 3 ∧
    ∀ o fd, 0 ≤ fd → obtained o fd e.2 = closed o fd e.2 + if fd = heldBy m o then 1 else 0 := by
  have hstart : Calls (fun _ ↦ .script scripted) (1, [])
      (Function.update (fun _ ↦ none) 0 (some bookedStart.store)) bookedStart.env := by
    have hcreated : Calls (fun _ ↦ .script scripted) (1, [])
        (Function.update (fun _ ↦ none) 0 (some defaultClient))
        ((1, []), []) := .create 0 .start rfl defaultClient_created
    have hcall := hcreated.call 0 .start (Function.update_self ..)
      (returns_runNoted (V := .script scripted) (fun _ _ _ ↦ ⟨rfl, rfl⟩) (n := 40)
        (by decide))
    rwa [Function.update_idem] at hcall
  refine ⟨_, _, hstart, ?_, (sockets_balanced hstart).1⟩
  rw [heldBy, Function.update_self]
  decide

end WsmDriver.Dhcp
