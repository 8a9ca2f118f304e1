import WsmDriver.Dhcp.Transaction

/-!
# Several servers

Several servers may answer one DISCOVER. The client takes the first offer it gets, and what it
requests from then on has to name the address and the server of that offer. The address is written
when the offer is accepted. The server is written by the parser, from every message of the
transaction.
-/

namespace WsmDriver.Dhcp

open Effect

/-- The offer that was accepted last. -/
def lastOffer (l : DhcpLog) : Option (List UInt8) :=
  l.findSome? fun x ↦ (heard x).filter fun p ↦ Offers x.1 p

/-- The server a message names. -/
def serverOf (p : List UInt8) : Ip4 := (parse p).serverId.getD inaddrAny

/-- While it requests an address, the client has both the address and the server from the offer it
accepted. -/
def Coherent (c : Client) (l : DhcpLog) : Prop :=
  c.state = .requesting → ∃ p, lastOffer l = some p ∧ c.offered = (parse p).info.ip ∧
    c.serverId = serverOf p

/-- A datagram that does not mix up the servers. If it is a reply and the client goes on requesting,
it names no server or the one the client has; if it is an offer that names no server, the client has
none. -/
def Unmixed (c : Client) (p : List UInt8) : Prop :=
  (c.state = .requesting → IsReply c.xid c.mac p → ¬Acknowledges c p → ¬Refuses c p →
    (parse p).serverId.getD c.serverId = c.serverId) ∧
  (Offers c p → (parse p).serverId = none → c.serverId = inaddrAny)

instance (c : Client) (p : List UInt8) : Decidable (Unmixed c p) :=
  inferInstanceAs (Decidable (_ ∧ _))

variable {c c' : Client} {l : DhcpLog} {p : List UInt8}

theorem lastOffer_cons {x : Entry} (h : ∀ p ∈ heard x, ¬Offers x.1 p) (l : DhcpLog) :
    lastOffer (x :: l) = lastOffer l := by
  have hx : (heard x).filter (fun p ↦ Offers x.1 p) = none := by
    rw [Option.filter_eq_none_iff]
    exact fun p hp ↦ by simpa using h p hp
  rw [lastOffer, List.findSome?_cons, hx]
  rfl

theorem lastOffer_accept (h : Offers c p) (l : DhcpLog) :
    lastOffer ((c, ⟨.recvfrom c.fd bufSize, some p⟩) :: l) = some p := by
  simp [lastOffer, heard, h]

theorem Coherent.cons (h : Coherent c l) {x : Entry} (hx : ∀ p ∈ heard x, ¬Offers x.1 p)
    (hs : c'.state = c.state) (ho : c'.offered = c.offered) (hid : c'.serverId = c.serverId) :
    Coherent c' (x :: l) := by
  rw [Coherent, hs, ho, hid, lastOffer_cons hx]
  exact h

/-- **What mixes the servers up, and what does not.** A datagram that the client ignores and one
that it takes for an offer leave it coherent exactly if they are unmixed. -/
theorem coherent_ignore_iff (h : Coherent c l) (hp : IsReply c.xid c.mac p) (ho : ¬Offers c p)
    (ha : ¬Acknowledges c p) (hr : ¬Refuses c p) :
    Coherent (c.parsed p) ((c, ⟨.recvfrom c.fd bufSize, some p⟩) :: l) ↔ Unmixed c p := by
  have hl : lastOffer ((c, ⟨.recvfrom c.fd bufSize, some p⟩) :: l) = lastOffer l :=
    lastOffer_cons (fun q hq ↦ Option.some_inj.mp hq ▸ ho) l
  rw [Coherent, hl]
  refine ⟨fun hc ↦ ⟨fun hs _ _ _ ↦ ?_, fun ho' ↦ absurd ho' ho⟩, fun hu hs ↦ ?_⟩
  · obtain ⟨q, hq, -, hserver⟩ := h hs
    obtain ⟨q', hq', -, hserver'⟩ := hc hs
    obtain rfl := Option.some_inj.mp (hq.symm.trans hq')
    exact hserver'.trans hserver.symm
  · obtain ⟨q, hq, haddr, hserver⟩ := h hs
    exact ⟨q, hq, haddr, (hu.1 hs hp ha hr).trans hserver⟩

theorem coherent_accept_iff (ho : Offers c p) :
    Coherent (c.accepting p) ((c, ⟨.recvfrom c.fd bufSize, some p⟩) :: l) ↔ Unmixed c p := by
  have hs : c.state ≠ .requesting := by rw [ho.1]; decide
  have hserver : (c.accepting p).serverId = serverOf p ↔
      ((parse p).serverId = none → c.serverId = inaddrAny) := by
    change (parse p).serverId.getD c.serverId = (parse p).serverId.getD inaddrAny ↔ _
    cases (parse p).serverId with
    | none => exact ⟨fun h _ ↦ h, fun h ↦ h rfl⟩
    | some i => exact ⟨fun _ h ↦ (by cases h), fun _ ↦ rfl⟩
  rw [Coherent, lastOffer_accept ho]
  refine ⟨fun hc ↦ ⟨fun hs' ↦ absurd hs' hs, fun _ ↦ hserver.mp ?_⟩,
    fun hu _ ↦ ⟨p, rfl, rfl, hserver.mpr (hu.2 ho)⟩⟩
  obtain ⟨q, hq, -, hq'⟩ := hc rfl
  obtain rfl := Option.some_inj.mp hq
  exact hq'

/-- All datagrams received so far are unmixed. -/
def AllUnmixed (l : DhcpLog) : Prop := ∀ x ∈ l, ∀ p ∈ heard x, Unmixed x.1 p

instance (l : DhcpLog) : Decidable (AllUnmixed l) :=
  inferInstanceAs (Decidable (∀ x ∈ l, ∀ p ∈ heard x, Unmixed x.1 p))

/-- A request that names the offer accepted last. -/
def NamesOffer (buf : List UInt8) (l : DhcpLog) : Prop :=
  ∃ p, lastOffer l = some p ∧ optionOf buf optRequestedIp = some (parse p).info.ip.toList ∧
    optionOf buf optServerId = some (serverOf p).toList

theorem AllUnmixed.tail {x : Entry} (h : AllUnmixed (x :: l)) : AllUnmixed l :=
  fun y hy ↦ h y (List.mem_cons_of_mem x hy)

theorem coherent_rules :
    Rules (fun c l ↦ AllUnmixed l → Coherent c l) (fun c l ↦ AllUnmixed l → Coherent c l)
    (fun c l ↦ AllUnmixed l → Coherent c l) (fun c l ↦ AllUnmixed l → Coherent c l)
    (fun buf c l ↦ AllUnmixed l → Coherent c l ∧ (c.state = .requesting → NamesOffer buf l))
    (fun _ _ _ ↦ True) (fun _ _ ↦ True) where
  clock t h hu := (h hu.tail).cons (fun _ hp ↦ by cases hp) rfl rfl rfl
  select xid _ _ hs := by cases hs
  expire _ _ _ _ _ := trivial
  message {c l} h _ _ _ hu := by
    refine ⟨h hu, fun hs ↦ ?_⟩
    obtain ⟨p, hl, ho, hserver⟩ := h hu hs
    -- A request names the two fields that are coherent.
    have hmessage : c.message = build c dhcpRequest := by
      rw [Client.message, show c.state = .requesting from hs]
      rfl
    rw [hmessage, NamesOffer, optionOf_build_requestedIp, optionOf_build_serverId]
    exact ⟨p, hl, congrArg (fun a : Ip4 ↦ some a.toList) ho,
      congrArg (fun a : Ip4 ↦ some a.toList) hserver⟩
  transmit a h _ _ _ hu := (h hu.tail).cons (fun _ hp ↦ by cases hp) rfl rfl rfl
  wait h _ _ := h
  silence a h ha hu := (h hu.tail).cons (not_offers_of_silence ha) rfl rfl rfl
  foreign p h hp hu := (h hu.tail).cons (fun q hq ho ↦ hp (Option.some_inj.mp hq ▸ ho.2.1)) rfl
    rfl rfl
  ignore p h hp ho ha hr hu :=
    (coherent_ignore_iff (h hu.tail) hp ho ha hr).mpr (hu _ List.mem_cons_self p rfl)
  refuse p xid _ _ _ hs := by cases hs
  accept p _ ho hu := (coherent_accept_iff ho).mpr (hu _ List.mem_cons_self p rfl)
  lease _ _ _ := trivial
  install p t _ _ _ hs := by cases hs
  enter h _ := h
  leave h := h
  start _ _ _ _ _ _ hs := by cases hs
  opening {c l} x h hx hu := by
    refine (h hu.tail).cons (fun p hp ↦ ?_) rfl rfl rfl
    obtain ⟨o, a⟩ := x
    cases o with
    | recvfrom => exact hx.elim
    | _ => cases hp
  opened fd a h _ _ hu := (h hu.tail).cons (fun _ hp ↦ by cases hp) rfl rfl rfl
  unopened h := h
  stop a _ _ _ hs := by cases hs

variable {E : Type} {V : Env Client E DhcpOp.Ans} {c₀ : Client} {e₀ : E}

/-- **The client requests from the server that made the offer.** In a run without a message that
mixes up the servers, it is coherent between the calls and whenever it asks for something in the
middle of one (but while it installs a lease), and every request names what the accepted offer
named. -/
theorem offer_coherent (h₀ : Created c₀) :
    (∀ c e, Run V c₀ e₀ c e → AllUnmixed e.2 → Coherent c e.2) ∧
    ∀ k c o c' e, During (fun _ : Call ↦ V.observed) (fun _ _ _ ↦ True) Call.prog c₀
    (e₀, []) k c o c' e → AllUnmixed e.2 →
      (∀ i, o ≠ .applyLease i) → Coherent c' e.2 ∧
        ∀ fd buf addr port, o = .sendto fd buf addr port → c'.state = .requesting →
        NamesOffer buf e.2 := by
  have hstart : AllUnmixed [] → Coherent c₀ [] := by
    obtain ⟨ops, timeout, packets, tries, interval, -, -, -, rfl⟩ := h₀.eq
    exact fun _ hs ↦ by cases hs
  refine ⟨fun c e h hu ↦ coherent_rules.run hstart h hu, fun k c o c' e h hu hi ↦ ?_⟩
  have hw := coherent_rules.watched hstart h
  cases o with
  | sendto fd buf addr port =>
    refine ⟨(hw hu).1, fun fd' buf' addr' port' ho hs ↦ ?_⟩
    obtain ⟨-, rfl, -, -⟩ := DhcpOp.sendto.inj ho
    exact (hw hu).2 hs
  | applyLease i => exact absurd rfl (hi i)
  | recvfrom => exact ⟨hw hu, fun _ _ _ _ ho ↦ by cases ho⟩
  | espRandom =>
    have hs : c'.state = .selecting := hw
    exact ⟨fun hs' ↦ absurd (hs.symm.trans hs') (by decide), fun _ _ _ _ ho ↦ by cases ho⟩
  | espTimerGetTime =>
    refine ⟨hw.elim (fun h ↦ h hu) fun hs hs' ↦ ?_, fun _ _ _ _ ho ↦ by cases ho⟩
    rw [hs] at hs'
    cases hs'
  | _ => exact ⟨hw hu, fun _ _ _ _ ho ↦ by cases ho⟩

/-- The server `1.1.1.1` has offered `9.9.9.9`, and what came then is `p`. -/
def offeredThen (p : List UInt8) : Effect.Config Client (Script × DhcpLog) DhcpOp.Ans Unit :=
  afterCall 100 (.poll .valid .valid)
    (started [fromServer dhcpOffer (Vector.replicate 4 9) [(optServerId, [1, 1, 1, 1])], p]).store
    (started [fromServer dhcpOffer (Vector.replicate 4 9) [(optServerId, [1, 1, 1, 1])], p]).env

theorem offeredThen_run (p : List UInt8) (h : (offeredThen p).prog.result? = some ()) :
    ∃ e₀, Run (Env.script scripted) defaultClient e₀ (offeredThen p).store
    (offeredThen p).env := by
  rw [offeredThen] at h ⊢
  exact ⟨_, (started_run _).afterCall h⟩

/-- The same server offers once more. -/
theorem offer_coherent_twice :
    Coherent (offeredThen (fromServer dhcpOffer (Vector.replicate 4 8)
      [(optServerId, [1, 1, 1, 1])])).store
      (offeredThen (fromServer dhcpOffer (Vector.replicate 4 8)
        [(optServerId, [1, 1, 1, 1])])).env.2 := by
  have hu : AllUnmixed (offeredThen (fromServer dhcpOffer (Vector.replicate 4 8)
      [(optServerId, [1, 1, 1, 1])])).env.2 := by
    decide +kernel
  obtain ⟨e₀, hrun⟩ :=
    offeredThen_run (fromServer dhcpOffer (Vector.replicate 4 8) [(optServerId, [1, 1, 1, 1])])
    (by decide +kernel)
  exact (offer_coherent defaultClient_created).1 _ _ hrun hu

/-- A second server's offer, which the client ignores, changes whom it requests from. -/
theorem not_offer_coherent :
    ¬∀ (c₀ : Client) (e₀ : Script) (c : Client) (e : Script × DhcpLog), Created c₀ →
    Run (Env.script scripted) c₀ e₀ c e → Coherent c e.2 := by
  intro hall
  obtain ⟨e₀, hrun⟩ :=
    offeredThen_run (fromServer dhcpOffer (Vector.replicate 4 8) [(optServerId, [2, 2, 2, 2])])
    (by decide +kernel)
  obtain ⟨p, hp, -, hserver⟩ := hall _ _ _ _ defaultClient_created hrun (by decide +kernel)
  have hlast :
      lastOffer (offeredThen (fromServer dhcpOffer (Vector.replicate 4 8)
      [(optServerId, [2, 2, 2, 2])])).env.2 =
      some (fromServer dhcpOffer (Vector.replicate 4 9) [(optServerId, [1, 1, 1, 1])]) := by
        decide +kernel
  obtain rfl := Option.some_inj.mp (hp.symm.trans hlast)
  have hne : (offeredThen (fromServer dhcpOffer (Vector.replicate 4 8)
      [(optServerId, [2, 2, 2, 2])])).store.serverId ≠
      serverOf (fromServer dhcpOffer (Vector.replicate 4 9) [(optServerId, [1, 1, 1, 1])]) := by
        decide +kernel
  exact hne hserver

end WsmDriver.Dhcp
