import WsmDriver.Dhcp.Client
import WsmDriver.Effect.Trace
import WsmDriver.Effect.History

/-!
# What the DHCP client can do

A statement about the runs of the client is a statement about its store and the log of what it
asked, with the answers and with the store as it was at each question. `Rules` lists, once,
everything the programs do to the two: an assertion that survives each of these moves holds at every
point of every run, whatever the surroundings answer.

There are three assertions: between calls, between the turns of a poll, and at the moment before a
receive, when everything due has been sent. And there are conditions on the messages sent, on the
leases installed and on the end of a phase that ran out of tries.
-/

namespace WsmDriver.Dhcp

open Effect

/-- What was asked and answered, with the client as it was then. -/
abbrev Entry := Client × Sigma DhcpOp.Ans

/-- The entries of a run, newest first. -/
abbrev DhcpLog := List Entry

/-- The clock reading of an entry. -/
def reading : Entry → Option ℤ
  | (_, ⟨.espTimerGetTime, t⟩) => some t
  | _ => none

/-- The datagram an entry received. -/
def heard : Entry → Option (List UInt8)
  | (_, ⟨.recvfrom .., a⟩) => a
  | _ => none

/-- The message an entry sent. -/
def said : Entry → Option (List UInt8)
  | (_, ⟨.sendto _ buf _ _, _⟩) => some buf
  | _ => none

/-- The clock readings of a run. -/
def readings (l : DhcpLog) : List ℤ := l.filterMap reading

/-- The last of them. -/
def lastReading (l : DhcpLog) : ℤ := (readings l).headD 0

/-! ## The moves of the store -/

namespace Client

/-- Back to the beginning: `dhcp_enter_selecting` up to the random number. -/
def reset (c : Client) : Client := { c with state := .selecting, tries := 0, nextTxUs := 0 }

/-- `dhcp_enter_selecting`. -/
def selecting (c : Client) (xid : UInt32) : Client :=
  { c.reset with xid := xid, serverId := inaddrAny, offered := inaddrAny }

/-- One try more. -/
def counted (c : Client) : Client := { c with tries := c.tries + 1 }

/-- The message the state asks for. -/
def message (c : Client) : List UInt8 :=
  build c (if c.state = .selecting then dhcpDiscover else dhcpRequest)

/-- The message is sent, and the next one is put off. -/
def sent (c : Client) (now : ℤ) : Client := { c.counted with nextTxUs := now + c.counted.backoffUs }

/-- What parsing leaves behind. -/
def parsed (c : Client) (p : List UInt8) : Client :=
  { c with serverId := (parse p).serverId.getD c.serverId }

/-- An offer is taken. -/
def accepting (c : Client) (p : List UInt8) : Client :=
  { c.parsed p with offered := (parse p).info.ip, state := .requesting, tries := 0, nextTxUs := 0 }

/-- A lease is about to be installed. -/
def installing (c : Client) (p : List UInt8) : Client := { c.parsed p with lease := (parse p).info }

/-- It has been installed. -/
def installed (c : Client) (p : List UInt8) : Client :=
  { c.installing p with state := .bound, bound := true }

end Client

/-- A datagram is taken as an offer, an acknowledgement or a refusal. -/
def Offers (c : Client) (p : List UInt8) : Prop :=
  c.state = .selecting ∧ IsReply c.xid c.mac p ∧ (parse p).type = dhcpOffer

def Acknowledges (c : Client) (p : List UInt8) : Prop :=
  c.state = .requesting ∧ IsReply c.xid c.mac p ∧ (parse p).type = dhcpAck

def Refuses (c : Client) (p : List UInt8) : Prop := IsReply c.xid c.mac p ∧ (parse p).type = dhcpNak

instance (c : Client) (p : List UInt8) : Decidable (Offers c p) :=
  inferInstanceAs (Decidable (_ ∧ _ ∧ _))

instance (c : Client) (p : List UInt8) : Decidable (Acknowledges c p) :=
  inferInstanceAs (Decidable (_ ∧ _ ∧ _))

instance (c : Client) (p : List UInt8) : Decidable (Refuses c p) :=
  inferInstanceAs (Decidable (_ ∧ _))

/-- A datagram is taken for one thing only. -/
theorem Acknowledges.not_offers {c : Client} {p : List UInt8} (h : Acknowledges c p) :
    ¬Offers c p :=
  fun ho ↦ absurd (h.1.symm.trans ho.1) (by decide)

theorem Refuses.not_offers {c : Client} {p : List UInt8} (h : Refuses c p) : ¬Offers c p :=
  fun ho ↦ absurd (h.2.symm.trans ho.2.2) (by decide)

theorem not_offers_of_silence {c : Client} {a : Option (List UInt8)} (h : a.getD [] = []) :
    ∀ p ∈ a, ¬Offers c p := by
  rintro p rfl ho
  obtain rfl : p = [] := h
  exact absurd ho.2.1.1 (by decide)

/-- What is asked while a socket is being opened that will not stay open by it. -/
def Opening : Sigma DhcpOp.Ans → Prop
  | ⟨.socket, _⟩ | ⟨.setsockopt .., _⟩ | ⟨.fcntl _, _⟩ | ⟨.close _, _⟩ => True
  | ⟨.bind .., a⟩ => a < (0 : ℤ)
  | _ => False

/-! ## The rules -/

/-- The assertions `I` at rest and `J` before a receive survive a turn; the messages sent satisfy
`S`, the leases installed `A`, and where a phase runs out of tries `X` holds. -/
structure TurnRules (I J : Client → DhcpLog → Prop)
    (S : List UInt8 → Client → DhcpLog → Prop) (A : NetInfo → Client → DhcpLog → Prop)
    (X : Client → DhcpLog → Prop) : Prop where
  clock {c l} (t : ℤ) : I c l → I c ((c, ⟨.espTimerGetTime, t⟩) :: l)
  select {c l} (xid : UInt32) : I c l → I (c.selecting xid) ((c.reset, ⟨.espRandom, xid⟩) :: l)
  expire {c l} (xid : UInt32) : I c l → c.state ≠ .bound → c.nextTxUs ≤ lastReading l →
    c.xmitTries.toNat ≤ c.tries →
    X (c.selecting xid) ((c.reset, ⟨.espRandom, xid⟩) :: l)
  message {c l} : I c l → c.state ≠ .bound → c.nextTxUs ≤ lastReading l → c.tries <
    c.xmitTries.toNat →
    S c.message c.counted l
  transmit {c l} (a : ℤ) : I c l → c.state ≠ .bound → c.nextTxUs ≤ lastReading l →
    c.tries < c.xmitTries.toNat →
    J (c.sent (lastReading l))
      ((c.counted, ⟨.sendto c.fd c.message inaddrBroadcast serverPort, a⟩) :: l)
  wait {c l} : I c l → c.state ≠ .bound → lastReading l < c.nextTxUs → J c l
  silence {c l} (a : Option (List UInt8)) : J c l → (a.getD [] = []) →
    I c ((c, ⟨.recvfrom c.fd bufSize, a⟩) :: l)
  foreign {c l} (p : List UInt8) : J c l → ¬IsReply c.xid c.mac p →
    I c ((c, ⟨.recvfrom c.fd bufSize, some p⟩) :: l)
  ignore {c l} (p : List UInt8) : J c l → IsReply c.xid c.mac p → ¬Offers c p →
    ¬Acknowledges c p → ¬Refuses c p →
    I (c.parsed p) ((c, ⟨.recvfrom c.fd bufSize, some p⟩) :: l)
  refuse {c l} (p : List UInt8) (xid : UInt32) : J c l → Refuses c p →
    I (c.selecting xid) (((c.parsed p).reset, ⟨.espRandom, xid⟩) ::
      (c, ⟨.recvfrom c.fd bufSize, some p⟩) :: l)
  accept {c l} (p : List UInt8) : J c l → Offers c p →
    I (c.accepting p) ((c, ⟨.recvfrom c.fd bufSize, some p⟩) :: l)
  lease {c l} (p : List UInt8) : J c l → Acknowledges c p →
    A (parse p).info (c.installing p) ((c, ⟨.recvfrom c.fd bufSize, some p⟩) :: l)
  install {c l} (p : List UInt8) (t : ℤ) : J c l → Acknowledges c p →
    I { c.installed p with renewAtUs := t + (parse p).info.t1Us }
      ((c.installed p, ⟨.espTimerGetTime, t⟩) ::
      (c.installing p, ⟨.applyLease (parse p).info, ()⟩) ::
        (c, ⟨.recvfrom c.fd bufSize, some p⟩) :: l)

/-- The assertion `R` between calls survives every call: it gives `I` in a poll, which is made only
with a socket open, and `O` while one is being opened, and both give it back. -/
structure Rules (R O I J : Client → DhcpLog → Prop)
    (S : List UInt8 → Client → DhcpLog → Prop) (A : NetInfo → Client → DhcpLog → Prop)
    (X : Client → DhcpLog → Prop) :
    Prop extends TurnRules I J S A X where
  enter {c l} : R c l → 0 ≤ c.fd → I c l
  leave {c l} : I c l → R c l
  start {c l} (mac : Mac) (ifname : List UInt8) (xid : UInt32) : R c l → c.fd < 0 →
    O { Client.selecting { c with mac := mac, ifname := ifname } xid with bound := false }
      ((Client.reset { c with mac := mac, ifname := ifname }, ⟨.espRandom, xid⟩) ::
        (c, ⟨.prepare, (mac, ifname)⟩) :: l)
  opening {c l} (x : Sigma DhcpOp.Ans) : O c l → Opening x → O c ((c, x) :: l)
  opened {c l} (fd a : ℤ) : O c l → 0 ≤ fd → 0 ≤ a →
    R { c with fd := fd } ((c, ⟨.bind fd inaddrAny clientPort, a⟩) :: l)
  unopened {c l} : O c l → R c l
  stop {c l} (a : ℤ) : R c l → 0 ≤ c.fd →
    R { c with fd := -1, state := .selecting, bound := false, lease := {} }
      ((c, ⟨.close c.fd, a⟩) :: l)

/-- What holds when something is asked. The clock is read at the beginning of a turn, and once more
when the lease is installed. -/
def Watched (R I J : Client → DhcpLog → Prop) (S : List UInt8 → Client → DhcpLog → Prop)
    (A : NetInfo → Client → DhcpLog → Prop) : DhcpOp → Client → DhcpLog → Prop
  | .sendto _ buf _ _ => S buf
  | .applyLease i => A i
  | .recvfrom .. => J
  | .espTimerGetTime => fun c l ↦ I c l ∨ c.state = .bound
  | .espRandom => fun c _ ↦ c.state = .selecting
  | _ => R

/-- What a turn, or a whole poll, ends in. -/
def Ended (I X : Client → DhcpLog → Prop) : Option Polled → Client → DhcpLog → Prop
  | none, c, l | some (.pending, none), c, l => I c l
  | some (.leased, some i), c, l => I c l ∧ c.state = .bound ∧ c.lease = i
  | some (.failed, none), c, l => I c l ∧ X c l
  | _, _, _ => False

section

variable {I I' X : Client → DhcpLog → Prop} {r : Option Polled} {w : Option NetInfo} {c : Client}
    {l : DhcpLog}

/-- The four ends there are. -/
theorem Ended.cases (h : Ended I X r c l) : I c l ∧ (r = none ∨ r = some (.pending, none) ∨
    (∃ i, r = some (.leased, some i) ∧ c.state = .bound ∧ c.lease = i) ∨ r = some
    (.failed, none) ∧ X c l) :=
  match r, h with
  | none, h => ⟨h, .inl rfl⟩
  | some (.pending, none), h => ⟨h, .inr (.inl rfl)⟩
  | some (.leased, some i), h => ⟨h.1, .inr (.inr (.inl ⟨i, rfl, h.2⟩))⟩
  | some (.failed, none), h => ⟨h.1, .inr (.inr (.inr ⟨rfl, h.2⟩))⟩
  | some (.pending, some _), h => h.elim
  | some (.leased, none), h => h.elim
  | some (.failed, some _), h => h.elim
  | some (.conflict, _), h => h.elim

theorem Ended.rest (h : Ended I X r c l) : I c l := h.cases.1

theorem Ended.imp (h : Ended I X r c l) (hI : ∀ c l, I c l → I' c l) : Ended I' X r c l := by
  obtain ⟨hc, rfl | rfl | ⟨i, rfl, hbound⟩ | ⟨rfl, hx⟩⟩ := h.cases
  · exact hI _ _ hc
  · exact hI _ _ hc
  · exact ⟨hI _ _ hc, hbound⟩
  · exact ⟨hI _ _ hc, hx⟩

theorem Ended.filled {st : Status} {i : NetInfo} (h : Ended I X (some (st, some i)) c l) :
    st = .leased := by
  obtain ⟨-, heq | heq | ⟨j, heq, -⟩ | ⟨heq, -⟩⟩ := h.cases
  · cases heq
  · cases heq
  · exact congrArg Prod.fst (Option.some_inj.mp heq)
  · cases heq

theorem Ended.leased (h : Ended I X (some (.leased, w)) c l) :
    ∃ i, w = some i ∧ I c l ∧ c.state = .bound ∧ c.lease = i := by
  obtain ⟨hc, heq | heq | ⟨i, heq, hbound⟩ | ⟨heq, -⟩⟩ := h.cases
  · cases heq
  · cases heq
  · exact ⟨i, congrArg Prod.snd (Option.some_inj.mp heq), hc, hbound⟩
  · cases heq

theorem Ended.failed (h : Ended I X (some (.failed, w)) c l) : X c l := by
  obtain ⟨-, heq | heq | ⟨i, heq, -⟩ | ⟨-, hx⟩⟩ := h.cases
  · cases heq
  · cases heq
  · cases heq
  · exact hx

end

section

variable {E : Type} {V : Env Client E DhcpOp.Ans} {R O I J : Client → DhcpLog → Prop}
  {S : List UInt8 → Client → DhcpLog → Prop} {A : NetInfo → Client → DhcpLog → Prop}
  {X : Client → DhcpLog → Prop} {c : Client} {l : DhcpLog}

/-- The programs of the client, with the log as the record. -/
abbrev Logged {α : Type} (V : Env Client E DhcpOp.Ans) (G : DhcpOp → Client → DhcpLog → Prop)
    (p : Engine α) (Q : α → Client → DhcpLog → Prop) : Client → DhcpLog → Prop :=
  Recorded V (fun o s a l ↦ (s, ⟨o, a⟩) :: l) G p Q

theorem dhcpEnterSelecting_logged {Q : Unit → Client → DhcpLog → Prop}
    (h : ∀ xid, Q () (c.selecting xid) ((c.reset, ⟨.espRandom, xid⟩) :: l)) :
    Logged V (Watched R I J S A) dhcpEnterSelecting Q c l := by
  unfold dhcpEnterSelecting
  exact .modify_bind (.perform_bind rfl fun xid ↦ .update (h xid))

theorem dhcpSend_logged {type : UInt8} {Q : Unit → Client → DhcpLog → Prop}
    (hS : S (build c type) c l)
    (h : ∀ a, Q () c ((c, ⟨.sendto c.fd (build c type) inaddrBroadcast serverPort, a⟩) :: l)) :
    Logged V (Watched R I J S A) (dhcpSend type) Q c l := by
  unfold dhcpSend
  exact .get_bind (.discard_perform hS h)

theorem dhcpTransmit_logged (hR : TurnRules I J S A X) (hI : I c l) (hs : c.state ≠ .bound)
    (hdue : c.nextTxUs ≤ lastReading l) (htries : c.tries < c.xmitTries.toNat) :
    Logged V (Watched R I J S A) (dhcpTransmit (lastReading l)) (fun _ ↦ J) c l := by
  unfold dhcpTransmit
  refine .modify_bind (.get_bind (.bind ?_))
  exact dhcpSend_logged (hR.message hI hs hdue htries) fun a ↦
    .update (hR.transmit a hI hs hdue htries)

theorem dhcpHandle_logged (hR : TurnRules I J S A X) {p : List UInt8} (hJ : J c l) :
    Logged V (Watched R I J S A) (dhcpHandle p) (Ended I X) c
    ((c, ⟨.recvfrom c.fd bufSize, some p⟩) :: l) := by
  unfold dhcpHandle dhcpParse
  refine .bind (.get_bind (.ite (fun hp ↦ ?_) fun hp ↦ ?_))
  · refine .modify_bind
      (.pure (.ite (fun h0 ↦ .pure ?_) fun _ ↦ .ite (fun hnak ↦ ?_) fun hnak ↦ ?_))
    · refine hR.ignore p hJ hp ?_ ?_ ?_
      · exact fun h ↦ absurd (h0.symm.trans h.2.2) (by decide)
      · exact fun h ↦ absurd (h0.symm.trans h.2.2) (by decide)
      · exact fun h ↦ absurd (h0.symm.trans h.2) (by decide)
    · exact .bind (dhcpEnterSelecting_logged fun xid ↦ .pure (hR.refuse p xid hJ ⟨hp, hnak⟩))
    · refine .get_bind (.ite (fun ho ↦ ?_) fun ho ↦ .ite (fun ha ↦ ?_) fun ha ↦ .pure ?_)
      · exact .modify_bind (.pure (hR.accept p hJ ⟨ho.1, hp, ho.2⟩))
      · refine .modify_bind (.perform_bind (hR.lease p hJ ⟨ha.1, hp, ha.2⟩) fun _ ↦ ?_)
        refine .modify_bind (.perform_bind (.inr rfl) fun t ↦ .modify_bind
          (.pure ⟨?_, rfl, rfl⟩))
        exact hR.install p t hJ ⟨ha.1, hp, ha.2⟩
      · exact hR.ignore p hJ hp (fun h ↦ ho ⟨h.1, h.2.2⟩) (fun h ↦ ha ⟨h.1, h.2.2⟩)
          fun h ↦ hnak h.2
  · exact .pure (.ite (fun _ ↦ .pure (hR.foreign p hJ hp)) fun h ↦ absurd rfl h)

/-- The part of a turn after the renewal. -/
theorem dhcpExchange_logged (hR : TurnRules I J S A X) (hI : I c l) (hs : c.state ≠ .bound) :
    Logged V (Watched R I J S A) (dhcpExchange (lastReading l)) (Ended I X) c l := by
  have hreceive : ∀ {c : Client} {l : DhcpLog}, J c l →
      Logged V (Watched R I J S A) dhcpReceive (Ended I X) c l := by
    intro c l hJ
    refine .get_bind (.perform_bind hJ fun a ↦ ?_)
    match a with
    | none => exact .pure (hR.silence none hJ rfl)
    | some [] => exact .pure (hR.silence (some []) hJ rfl)
    | some (b :: p) => exact dhcpHandle_logged hR hJ
  unfold dhcpExchange
  refine .get_bind (.ite (fun h ↦ ?_) fun h ↦ ?_)
  · exact .bind (dhcpEnterSelecting_logged fun xid ↦ .pure ⟨hR.select xid hI,
      hR.expire xid hI hs h.1 h.2⟩)
  · refine .seq (M := fun _ ↦ J) (.when (fun hdue ↦ ?_) fun hdue ↦ ?_) fun _ _ _ ↦ hreceive
    · exact dhcpTransmit_logged hR hI hs hdue (by simpa [hdue] using h)
    · exact hR.wait hI hs (by simpa using hdue)

theorem dhcpTurn_logged (hR : TurnRules I J S A X) (hI : I c l) :
    Logged V (Watched R I J S A) dhcpTurn (Ended I X) c l := by
  unfold dhcpTurn
  refine .perform_bind (.inl hI) fun now ↦ .get_bind (.ite (fun h ↦ ?_) fun h ↦ ?_)
  · exact .pure ⟨hR.clock now hI, h.1, rfl⟩
  · refine .seq (M := fun _ c l ↦ I c l ∧ c.state ≠ .bound ∧ lastReading l = now)
      (.when (fun hb ↦ ?_) fun hb ↦ ?_) ?_
    · exact dhcpEnterSelecting_logged fun xid ↦
        ⟨hR.select xid (hR.clock now hI), by simp [Client.selecting, Client.reset], rfl⟩
    · exact ⟨hR.clock now hI, hb, rfl⟩
    · rintro - c l ⟨hI, hs, rfl⟩
      exact dhcpExchange_logged hR hI hs

theorem dhcpTurns_logged (hR : TurnRules I J S A X) :
    ∀ (n : ℕ) {c : Client} {l : DhcpLog}, I c l → Logged V (Watched R I J S A) (dhcpTurns n)
    (fun r ↦ Ended I X (some r)) c l
  | 0, _, _, hI => .pure hI
  | n + 1, _, _, hI => by
    refine (dhcpTurn_logged hR hI).seq ?_
    rintro (_ | r) c l hr
    · exact dhcpTurns_logged hR n hr
    · exact .pure hr

theorem dhcpOpen_logged (hR : Rules R O I J S A X) (hO : O c l) :
    Logged V (Watched R I J S A) dhcpOpen (fun _ ↦ R) c l := by
  -- Until the socket is bound the client stays as it is.
  have hquiet : ∀ {o : DhcpOp} {l : DhcpLog} {Q : Unit → Client → DhcpLog → Prop},
      (∀ a, Opening ⟨o, a⟩) →
      (∀ l, R c l → Watched R I J S A o c l) → O c l → (∀ l, O c l → Q () c l) →
        Logged V (Watched R I J S A) (discard (ask o)) Q c l :=
    fun ho hw hO hQ ↦ .discard_perform (hw _ (hR.unopened hO)) fun a ↦
      hQ _ (hR.opening _ hO (ho a))
  unfold dhcpOpen
  refine .get_bind (.perform_bind (hR.unopened hO) fun fd ↦ ?_)
  have hO := hR.opening ⟨.socket, fd⟩ hO trivial
  refine .ite (fun _ ↦ .pure (hR.unopened hO)) fun hfd ↦ ?_
  refine .bind (hquiet (fun _ ↦ trivial) (fun _ ↦ id) hO fun l hO ↦ ?_)
  refine .bind (hquiet (fun _ ↦ trivial) (fun _ ↦ id) hO fun l hO ↦ ?_)
  refine .seq (M := fun _ c' l ↦ c = c' ∧ O c l) ?_ ?_
  · unfold sockSetRecvMode
    refine .ite (fun _ ↦ .when (fun _ ↦ ?_) fun _ ↦ ⟨rfl, hO⟩) fun _ ↦ ?_
    · exact hquiet (fun _ ↦ trivial) (fun _ ↦ id) hO fun _ hO ↦ ⟨rfl, hO⟩
    · exact hquiet (fun _ ↦ trivial) (fun _ ↦ id) hO fun _ hO ↦ ⟨rfl, hO⟩
  rintro - _ l ⟨rfl, hO⟩
  refine .seq (M := fun _ c' l ↦ c = c' ∧ O c l) ?_ ?_
  · exact .when (fun _ ↦ hquiet (fun _ ↦ trivial) (fun _ ↦ id) hO fun _ hO ↦ ⟨rfl, hO⟩)
      fun _ ↦ ⟨rfl, hO⟩
  rintro - _ l ⟨rfl, hO⟩
  refine .perform_bind (hR.unopened hO) fun bound ↦ .ite (fun hneg ↦ ?_) fun hneg ↦ ?_
  · have hO := hR.opening ⟨.bind fd inaddrAny clientPort, bound⟩ hO hneg
    exact .bind (hquiet (fun _ ↦ trivial) (fun _ ↦ id) hO fun l hO ↦ .pure (hR.unopened hO))
  · exact .modify_bind (.pure (hR.opened fd bound hO (not_lt.mp hfd) (not_lt.mp hneg)))

theorem wsmDhcpStart_logged (hR : Rules R O I J S A X) (hI : R c l) (p : Ptr) :
    Logged V (Watched R I J S A) (wsmDhcpStart p) (fun _ ↦ R) c l := by
  unfold wsmDhcpStart
  refine .ite (fun _ ↦ .pure hI) fun _ ↦ .get_bind (.ite (fun _ ↦ .pure hI) fun hfd ↦ ?_)
  refine .perform_bind hI fun a ↦ .modify_bind (.bind (dhcpEnterSelecting_logged fun xid ↦ ?_))
  have hO := hR.start a.1 a.2 xid hI (not_le.mp hfd)
  refine .modify_bind ((dhcpOpen_logged hR hO).seq fun opened c l hI ↦ ?_)
  exact .ite (fun _ ↦ .pure hI) fun _ ↦ .pure hI

theorem wsmDhcpPoll_logged (hR : Rules R O I J S A X) (hI : R c l) (p info : Ptr) :
    Logged V (Watched R I J S A) (wsmDhcpPoll p info)
    (fun r c l ↦ ∃ filled, Ended R X (some (r.1, filled)) c l ∧
      r.2 = if info = .null then none else filled) c l := by
  unfold wsmDhcpPoll
  have hidle : Ended R X (some (.pending, none)) c l := hI
  refine .ite (fun _ ↦ .pure ⟨none, hidle, (ite_self _).symm⟩) fun _ ↦ ?_
  refine .get_bind (.ite (fun _ ↦ .pure ⟨none, hidle, (ite_self _).symm⟩) fun hfd ↦ ?_)
  refine .bind
    (.get_bind ((dhcpTurns_logged hR.toTurnRules _ (hR.enter hI (not_lt.mp hfd))).imp ?_))
  rintro ⟨r, filled⟩ c l hr
  exact .pure ⟨filled, hr.imp fun _ _ ↦ hR.leave, rfl⟩

theorem wsmDhcpStop_logged (hR : Rules R O I J S A X) (hI : R c l) (p : Ptr) :
    Logged V (Watched R I J S A) (wsmDhcpStop p) (fun _ ↦ R) c l := by
  unfold wsmDhcpStop
  refine .ite (fun _ ↦ .pure hI) fun _ ↦ .get_bind (.ite (fun _ ↦ .pure hI) fun hfd ↦ ?_)
  exact .bind (.discard_perform hI fun a ↦ .update (hR.stop a hI (not_lt.mp hfd)))

/-! ## Runs -/

/-- The calls of the interface. -/
inductive Call
  | start (c : Ptr)
  | poll (c info : Ptr)
  | stop (c : Ptr)
  | isBound (c : Ptr)
  | getNetinfo (c out : Ptr)
  deriving DecidableEq

/-- The program of a call, without its result. -/
def Call.prog : Call → Engine Unit
  | .start c => discard (wsmDhcpStart c)
  | .poll c info => discard (wsmDhcpPoll c info)
  | .stop c => wsmDhcpStop c
  | .isBound c => discard (wsmDhcpIsBound c)
  | .getNetinfo c out => discard (wsmDhcpGetNetinfo c out)

/-- The points reached by sequences of calls on a client, from an empty log. -/
abbrev Run (V : Env Client E DhcpOp.Ans) (c₀ : Client) (e₀ : E) : Client → E × DhcpLog →
    Prop :=
  History (fun _ : Call ↦ V.observed) (fun _ _ _ ↦ True) Call.prog c₀ (e₀, [])

theorem Call.logged (hR : Rules R O I J S A X) (hI : R c l) (k : Call) :
    Logged V (Watched R I J S A) k.prog (fun _ ↦ R) c l := by
  cases k with
  | start p => exact .bind ((wsmDhcpStart_logged hR hI p).imp fun _ _ _ hI ↦ .pure hI)
  | poll p info =>
    refine .bind ((wsmDhcpPoll_logged hR hI p info).imp ?_)
    rintro r c l ⟨filled, hr, -⟩
    exact .pure hr.rest
  | stop p => exact wsmDhcpStop_logged hR hI p
  | isBound p => exact .bind (.get_bind (.pure (.pure hI)))
  | getNetinfo p out =>
    exact .bind (.ite (fun _ ↦ .pure (.pure hI)) fun _ ↦
      .get_bind (.ite (fun _ ↦ .pure (.pure hI)) fun _ ↦ .get_bind (.pure (.pure hI))))

/-- **The induction over a run.** -/
theorem Rules.run (hR : Rules R O I J S A X) {c₀ : Client} {e₀ : E} (h₀ : R c₀ [])
    {e : E × DhcpLog} (h : Run V c₀ e₀ c e) : R c e.2 := by
  refine History.invariant (I := fun c e ↦ R c e.2)
    (G := fun _ _ o c e ↦ Watched R I J S A o c e.2) h₀ ?_ ?_ h
  · intro _ c e e' hI hd
    rw [hd.2]
    exact hI
  · exact fun k c e hI _ ↦ Call.logged hR hI k e.1

/-- And what is sent or installed in the middle of a call satisfies its condition. -/
theorem Rules.watched (hR : Rules R O I J S A X) {c₀ : Client} {e₀ : E} (h₀ : R c₀ [])
    {k : Call} {c' : Client} {e' : E × DhcpLog} {o : DhcpOp}
    (h : During (fun _ : Call ↦ V.observed) (fun _ _ _ ↦ True) Call.prog c₀ (e₀, [])
      k c o c' e') :
    Watched R I J S A o c' e'.2 := by
  obtain ⟨e, hrun, -, hp⟩ := h
  exact (Call.logged hR (hR.run h₀ hrun) k).performs hp

end

/-! ## Runs against a script -/

/-- What the clock says next, and the datagrams still to come. -/
abbrev Script := ℤ × List (List UInt8)

/-- Surroundings that do nothing by themselves. -/
def scripted : (o : DhcpOp) → Script → o.Ans × Script
  | .espRandom, e => (7, e)
  | .espTimerGetTime, e => (e.1, e.1 + 1000, e.2)
  | .prepare, e => ((Vector.replicate 6 1, []), e)
  | .applyLease _, e => ((), e)
  | .socket, e => (3, e)
  | .setsockopt .., e | .fcntl _, e | .bind .., e | .close _, e | .sendto .., e => (0, e)
  | .recvfrom .., (t, []) => (none, t, [])
  | .recvfrom .., (t, p :: q) => (some p, t, q)

/-- A client with the defaults. -/
def defaultClient : Client :=
  { recvTimeoutMs := 0, stepPackets := defaultStepPackets, xmitTries :=
    defaultXmitTries, xmitIntervalMs := defaultXmitIntervalMs }

theorem defaultClient_created : Created defaultClient := ⟨some {}, true, none, .valid, rfl⟩

/-- Where a call leaves the client, its surroundings and the log, after `n` steps. -/
def afterCall (n : ℕ) (k : Call) (c : Client) (e : Script × DhcpLog) :
    Effect.Config Client (Script × DhcpLog) DhcpOp.Ans Unit :=
  runNoted scripted (fun o c a l ↦ (c, ⟨o, a⟩) :: l) n ⟨k.prog, c, e⟩

theorem Run.afterCall {c₀ c : Client} {e₀ : Script} {e : Script × DhcpLog}
    (h : Run (Env.script scripted) c₀ e₀ c e) {n : ℕ} {k : Call}
    (hn : (Dhcp.afterCall n k c e).prog.result? = some ()) :
    Run (Env.script scripted) c₀ e₀ (Dhcp.afterCall n k c e).store (Dhcp.afterCall n k c e).env :=
  History.call k h trivial (returns_runNoted (V := .script scripted) (fun _ _ _ ↦ ⟨rfl, rfl⟩) hn)

theorem Run.during {c₀ c : Client} {e₀ : Script} {e : Script × DhcpLog}
    (h : Run (Env.script scripted) c₀ e₀ c e) {n : ℕ} {k : Call} {o : DhcpOp}
    (hn : (Dhcp.afterCall n k c e).prog.asks? = some o) :
    During (fun _ : Call ↦ (Env.script scripted).observed) (fun _ _ _ ↦ True) Call.prog c₀
    (e₀, []) k c o
      (Dhcp.afterCall n k c e).store
      ((Dhcp.afterCall n k c e).env.1, (Dhcp.afterCall n k c e).env.2) :=
  ⟨e, h, trivial, performs_runNoted (V := .script scripted) (fun _ _ _ ↦ ⟨rfl, rfl⟩) hn⟩

/-- The client started, a moment after the system. -/
def started (q : List (List UInt8)) : Effect.Config Client (Script × DhcpLog) DhcpOp.Ans Unit :=
  afterCall 30 (.start .valid) defaultClient ((1, q), [])

theorem started_run (q : List (List UInt8)) :
    Run (Env.script scripted) defaultClient (1, q) (started q).store (started q).env :=
  Run.afterCall .start rfl

/-- What a server offers, acknowledges or refuses in the transaction of the script. -/
def fromServer (type : UInt8) (yiaddr : Ip4) (os : List Format.TaggedOption) : List UInt8 :=
  serverMessage 7 (Vector.replicate 6 1) yiaddr ((optMsgType, [type]) :: os)

end WsmDriver.Dhcp
