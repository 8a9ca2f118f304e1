import WsmDriver.Dhcp.Rules

/-!
# One transaction

A transaction begins with a random number. In it the client asks for an address, is offered one,
requests it and is granted one; each of the four leaves an entry in the log, and what has to be said
about a transaction is said about the entries since its random number was drawn.

An acknowledgement is not compared with the offer, and a server identifier is taken from every
message of the transaction, whatever the client makes of the rest of it.
-/

namespace WsmDriver.Dhcp

open Effect

/-- The entries since the transaction began. -/
def transaction (l : DhcpLog) : DhcpLog := l.takeWhile fun x ↦ x.2.1 ≠ .espRandom

theorem transaction_cons {x : Entry} (h : x.2.1 ≠ .espRandom) (l : DhcpLog) :
    transaction (x :: l) = x :: transaction l := List.takeWhile_cons_of_pos (by simpa using h)

/-- An offer of the address `a` was accepted. -/
def OfferOf (a : Ip4) (xid : UInt32) (x : Entry) : Prop :=
  ∃ p ∈ heard x, Offers x.1 p ∧ x.1.xid = xid ∧ (parse p).info.ip = a

/-- The address `a` was requested. -/
def RequestOf (a : Ip4) (xid : UInt32) (x : Entry) : Prop :=
  ∃ buf ∈ said x, optionOf buf optMsgType = some [dhcpRequest] ∧ optionOf buf optRequestedIp =
    some a.toList ∧
    be32 (buf.drop offXid) = xid

/-- The lease `i` was granted. -/
def AckOf (i : NetInfo) (xid : UInt32) (x : Entry) : Prop :=
  ∃ p ∈ heard x, Acknowledges x.1 p ∧ x.1.xid = xid ∧ (parse p).info = i

instance (a : Ip4) (xid : UInt32) (x : Entry) : Decidable (OfferOf a xid x) :=
  inferInstanceAs (Decidable (∃ p ∈ heard x, Offers x.1 p ∧ x.1.xid = xid ∧
    (parse p).info.ip = a))

/-! ## Offer, request, acknowledgement -/

/-- An address was offered and then requested. -/
def Requested (c : Client) (l : DhcpLog) : Prop :=
  ∃ request offer, [request, offer].Sublist (transaction l) ∧ OfferOf c.offered c.xid offer ∧
    RequestOf c.offered c.xid request

/-- The client knows what it was offered, and has requested it if it is not about to. -/
structure Pursues (c : Client) (l : DhcpLog) : Prop where
  offer : ∃ x ∈ transaction l, OfferOf c.offered c.xid x
  request : 0 < c.nextTxUs → Requested c l

/-- An address was offered, requested, and a lease granted. -/
def Granted (i : NetInfo) (xid : UInt32) (l : DhcpLog) : Prop :=
  ∃ a ack request offer, [ack, request, offer].Sublist (transaction l) ∧ OfferOf a xid offer ∧
    RequestOf a xid request ∧ AckOf i xid ack

/-- The clock counts from the start of the system. -/
def SinceBoot (l : DhcpLog) : Prop := ∀ t ∈ readings l, 0 ≤ t

instance (l : DhcpLog) : Decidable (SinceBoot l) :=
  inferInstanceAs (Decidable (∀ t ∈ readings l, 0 ≤ t))

theorem SinceBoot.tail {x : Entry} {l : DhcpLog} (h : SinceBoot (x :: l)) : SinceBoot l :=
  fun t ht ↦ h t (((List.sublist_cons_self x l).filterMap reading).subset ht)

theorem SinceBoot.lastReading {l : DhcpLog} (h : SinceBoot l) : 0 ≤ Dhcp.lastReading l := by
  unfold Dhcp.lastReading
  match hl : readings l with
  | [] => exact Int.le_refl 0
  | t :: _ => exact h t (hl ▸ List.mem_cons_self)

variable {c c' : Client} {l : DhcpLog} {x : Entry}

theorem Requested.cons (h : Requested c l) (hx : x.2.1 ≠ .espRandom) (ho : c'.offered = c.offered)
    (hid : c'.xid = c.xid) : Requested c' (x :: l) := by
  obtain ⟨request, offer, hsub, hoffer, hrequest⟩ := h
  rw [Requested, transaction_cons hx, ho, hid]
  exact ⟨request, offer, hsub.cons x, hoffer, hrequest⟩

theorem Requested.pursues (h : Requested c l) : Pursues c l where
  offer := by
    obtain ⟨request, offer, hsub, hoffer, -⟩ := h
    exact ⟨offer, hsub.subset (by simp), hoffer⟩
  request _ := h

theorem Pursues.cons (h : Pursues c l) (hx : x.2.1 ≠ .espRandom) (ho : c'.offered = c.offered)
    (hid : c'.xid = c.xid) (hn : c'.nextTxUs = c.nextTxUs) : Pursues c' (x :: l) where
  offer := by
    obtain ⟨y, hy, hoffer⟩ := h.offer
    rw [transaction_cons hx, ho, hid]
    exact ⟨y, List.mem_cons_of_mem x hy, hoffer⟩
  request hpos := (h.request (hn ▸ hpos)).cons hx ho hid

/-- What is due is sent before anything is received: the next transmission is due at once when an
offer has been accepted, and the clock is not before the start of the system. -/
theorem granted_rules : Rules (fun c l ↦ SinceBoot l → c.state = .requesting → Pursues c l)
    (fun c l ↦ SinceBoot l → c.state = .requesting → Pursues c l)
    (fun c l ↦ SinceBoot l → c.state = .requesting → Pursues c l)
    (fun c l ↦ SinceBoot l → c.state = .requesting → Requested c l) (fun _ _ _ ↦ True)
    (fun i c l ↦ SinceBoot l → Granted i c.xid l) (fun _ _ ↦ True) where
  clock t h hb hs := (h hb.tail hs).cons (fun h ↦ by cases h) rfl rfl rfl
  select xid _ _ hs := by cases hs
  expire _ _ _ _ _ := trivial
  message _ _ _ _ := trivial
  transmit {c l} a h _ _ _ hb hs := by
    obtain ⟨offer, hmem, hoffer⟩ := (h hb.tail hs).offer
    have hmessage : c.message = build c dhcpRequest := by
      rw [Client.message, show c.state = .requesting from hs]
      rfl
    refine ⟨(c.counted, ⟨.sendto c.fd c.message inaddrBroadcast serverPort, a⟩), offer, ?_,
      hoffer, c.message, rfl, ?_⟩
    · rw [transaction_cons (fun h ↦ by cases h)]
      exact (List.singleton_sublist.mpr hmem).cons_cons _
    · rw [hmessage]
      exact ⟨optionOf_build_msgType c dhcpRequest, optionOf_build_requestedIp c,
        be32_build c dhcpRequest⟩
  wait h _ hdue hb hs := (h hb hs).request (lt_of_le_of_lt hb.lastReading hdue)
  silence a h _ hb hs := ((h hb.tail hs).cons (fun h ↦ by cases h) rfl rfl).pursues
  foreign p h _ hb hs := ((h hb.tail hs).cons (fun h ↦ by cases h) rfl rfl).pursues
  ignore {c l} p h _ _ _ _ hb hs := by
    have hr : Requested (c.parsed p) ((c, ⟨.recvfrom c.fd bufSize, some p⟩) :: l) :=
      (h hb.tail hs).cons (fun h ↦ by cases h) rfl rfl
    exact hr.pursues
  refuse p xid _ _ _ hs := by cases hs
  accept {c l} p _ ho _ _ := by
    refine ⟨⟨(c, ⟨.recvfrom c.fd bufSize, some p⟩), ?_, p, rfl, ho, rfl, rfl⟩,
      fun h ↦ absurd h (lt_irrefl 0)⟩
    rw [transaction_cons (fun h ↦ by cases h)]
    exact List.mem_cons_self
  lease {c l} p h ha hb := by
    obtain ⟨request, offer, hsub, hoffer, hrequest⟩ := h hb.tail ha.1
    refine ⟨c.offered, (c, ⟨.recvfrom c.fd bufSize, some p⟩), request, offer, ?_, hoffer,
      hrequest, p, rfl, ha, rfl, rfl⟩
    rw [transaction_cons (fun h ↦ by cases h)]
    exact hsub.cons_cons _
  install p t _ _ _ hs := by cases hs
  enter h _ := h
  leave h := h
  start _ _ _ _ _ _ hs := by cases hs
  opening {c l} x h hx hb hs := by
    refine (h hb.tail hs).cons ?_ rfl rfl rfl
    intro hrandom
    obtain ⟨o, a⟩ := x
    obtain rfl : o = .espRandom := hrandom
    exact hx
  opened fd a h _ _ hb hs := (h hb.tail hs).cons (fun h ↦ by cases h) rfl rfl rfl
  unopened h := h
  stop a _ _ _ hs := by cases hs

variable {E : Type} {V : Env Client E DhcpOp.Ans} {c₀ : Client} {e₀ e : E}

/-- **A lease is installed after an offer, a request and an acknowledgement of one transaction, in
that order.** It is the lease of the acknowledgement. -/
theorem lease_granted (h₀ : Created c₀) {k : Call} {i : NetInfo} (hl : SinceBoot l)
    (h : During (fun _ : Call ↦ V.observed) (fun _ _ _ ↦ True) Call.prog c₀ (e₀, []) k c
      (.applyLease i) c' (e, l)) :
    Granted i c'.xid l := by
  obtain ⟨ops, timeout, packets, tries, interval, -, -, -, rfl⟩ := h₀.eq
  exact granted_rules.watched (fun _ hs ↦ by cases hs) h hl

/-- A server has offered `9.9.9.9` and acknowledged `ip`, and the lease is about to be installed. -/
def installingLease (ip : Ip4) : Effect.Config Client (Script × DhcpLog) DhcpOp.Ans Unit :=
  afterCall 38 (.poll .valid .valid) (started [fromServer dhcpOffer (Vector.replicate 4 9) [],
    fromServer dhcpAck ip []]).store
    (started [fromServer dhcpOffer (Vector.replicate 4 9) [], fromServer dhcpAck ip []]).env

theorem installingLease_during (ip : Ip4) {i : NetInfo}
    (h : (installingLease ip).prog.asks? = some (.applyLease i)) :
    ∃ e₀ c, During (fun _ : Call ↦ (Env.script scripted).observed)
    (fun _ _ _ ↦ True) Call.prog defaultClient (e₀, []) (.poll .valid .valid) c
      (.applyLease i) (installingLease ip).store
      ((installingLease ip).env.1, (installingLease ip).env.2) := by
  rw [installingLease] at h ⊢
  exact ⟨_, _, (started_run _).during h⟩

theorem lease_granted_first :
    Granted { ip := Vector.replicate 4 9 } (installingLease (Vector.replicate 4 9)).store.xid
    (installingLease (Vector.replicate 4 9)).env.2 := by
  have hl : SinceBoot (installingLease (Vector.replicate 4 9)).env.2 := by decide +kernel
  obtain ⟨e₀, c, hd⟩ := installingLease_during (Vector.replicate 4 9)
    (i := { ip := Vector.replicate 4 9 }) (by decide +kernel)
  exact lease_granted defaultClient_created hl hd

/-- The address that is installed need not be the one that was offered and requested. -/
theorem not_lease_requested :
    ¬∀ (c₀ : Client) (e₀ : Script) (k : Call) (c : Client) (i : NetInfo) (c' : Client)
    (e : Script) (l : DhcpLog), Created c₀ → SinceBoot l →
    During (fun _ : Call ↦ (Env.script scripted).observed) (fun _ _ _ ↦ True) Call.prog c₀
    (e₀, []) k c (.applyLease i) c' (e, l) →
      ∃ a ack request offer, [ack, request, offer].Sublist (transaction l) ∧
      OfferOf a c'.xid offer ∧
        RequestOf a c'.xid request ∧ AckOf i c'.xid ack ∧ i.ip = a := by
  intro hall
  have hl : SinceBoot (installingLease (Vector.replicate 4 8)).env.2 := by decide +kernel
  have hnone : ∀ x ∈ transaction (installingLease (Vector.replicate 4 8)).env.2,
      ¬OfferOf (Vector.replicate 4 8) (installingLease (Vector.replicate 4 8)).store.xid x := by
        decide +kernel
  obtain ⟨e₀, c, hd⟩ := installingLease_during (Vector.replicate 4 8)
    (i := { ip := Vector.replicate 4 8 }) (by decide +kernel)
  obtain ⟨a, ack, request, offer, hsub, hoffer, -, -, rfl⟩ :=
    hall _ _ _ _ _ _ _ _ defaultClient_created hl hd
  exact hnone offer (hsub.subset (by simp)) hoffer

end WsmDriver.Dhcp
