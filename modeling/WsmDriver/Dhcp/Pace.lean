import WsmDriver.Dhcp.Rules
import Mathlib.Tactic.Linarith

/-!
# The pace of the retransmissions

The client counts its tries and puts every one off by a multiple of an interval. Its count begins
anew with every transaction and with every offer it accepts; what it sends between two beginnings is
a phase. The log says what that was, and the last reading of the clock before a message says when.

## Representation

A phase is the list of its messages, the newest first, so that the count is the length of the list
and the deadline is a function of its head.
-/

namespace WsmDriver.Dhcp

open Effect

/-- A message that was sent: when, in which state, and what. -/
structure Sent where
  time : ℤ
  state : State
  buf : List UInt8
  deriving DecidableEq

/-- The count begins anew. -/
def Resets (x : Entry) : Prop := x.2.1 = .espRandom ∨ ∃ p ∈ heard x, Offers x.1 p

instance (x : Entry) : Decidable (Resets x) :=
  inferInstanceAs (Decidable (_ ∨ ∃ p ∈ heard x, Offers x.1 p))

/-- The messages of the current phase. -/
def phase : DhcpLog → List Sent
  | [] => []
  | x :: l => if Resets x then [] else
      ((said x).map fun buf ↦ ⟨lastReading l, x.1.state, buf⟩).toList ++ phase l

/-- The `k`-th message and the one after it are `k` intervals apart, at least. -/
def Spaced (interval : ℤ) : List Sent → Prop
  | [] | [_] => True
  | m' :: m :: older => m.time + (older.length + 1) * interval ≤ m'.time ∧
      Spaced interval (m :: older)

/-- What a phase may be. -/
structure Paced (tries : ℕ) (interval : ℤ) (ms : List Sent) : Prop where
  length_le : ms.length ≤ tries
  typed : ∀ m ∈ ms, (m.state = .selecting ∧ optionOf m.buf optMsgType = some [dhcpDiscover]) ∨
    (m.state = .requesting ∧ optionOf m.buf optMsgType = some [dhcpRequest])
  oneState : ∀ m ∈ ms, ∀ m' ∈ ms, m.state = m'.state
  spaced : Spaced interval ms

/-- A number that fits an `int64_t`. -/
def InInt64 (x : ℤ) : Prop := -2 ^ 63 ≤ x ∧ x < 2 ^ 63

/-- A clock reading from which the longest wait of the client can be counted: half of the longest
lease. -/
def InTime (t : ℤ) : Prop := -2 ^ 63 ≤ t ∧ t ≤ 2 ^ 63 - 1 - 2147483647 * 1000000

/-- What the client knows of the phase, and every phase so far. -/
structure Keeps (tries : ℕ) (interval : ℤ) (c : Client) (l : DhcpLog) : Prop where
  tries_eq : c.xmitTries.toNat = tries
  interval_eq : (c.xmitIntervalMs.toNat : ℤ) * 1000 = interval
  paced : ∀ l', l' <:+ l → Paced tries interval (phase l')
  count : c.tries = (phase l).length
  next : ∀ m ∈ (phase l).head?, c.nextTxUs = m.time + (phase l).length * interval
  fits : (∀ t ∈ readings l, InTime t) → InInt64 c.nextTxUs ∧ InInt64 c.renewAtUs

/-- What has been sent in the phase was sent in the state the client is in. -/
def Matches (c : Client) (l : DhcpLog) : Prop :=
  c.state ≠ .bound → ∀ m ∈ phase l, m.state = c.state

section

variable {tries : ℕ} {interval : ℤ} {c c' : Client} {l : DhcpLog} {x : Entry}

theorem phase_reset (h : Resets x) : phase (x :: l) = [] := if_pos h

theorem phase_quiet (h : ¬Resets x) (hs : said x = none) : phase (x :: l) = phase l := by
  rw [phase, if_neg h, hs]
  rfl

theorem Paced.nil : Paced tries interval [] := ⟨Nat.zero_le _, by simp, by simp, trivial⟩

theorem lastReading_inTime (h : ∀ t ∈ readings l, InTime t) : InTime (lastReading l) := by
  unfold lastReading
  match hl : readings l with
  | [] => exact ⟨by decide, by decide⟩
  | t :: _ => exact h t (hl ▸ List.mem_cons_self)

theorem inTime_tail (h : ∀ t ∈ readings (x :: l), InTime t) : ∀ t ∈ readings l, InTime t :=
  fun t ht ↦ h t (((List.sublist_cons_self x l).filterMap reading).subset ht)

/-- The waits are shorter than half of the longest lease. -/
theorem backoffUs_bounds (h : c.tries ≤ 255) : 0 ≤ c.backoffUs ∧ c.backoffUs ≤
    2147483647 * 1000000 := by
  have hi : c.xmitIntervalMs.toNat ≤ 4294967295 := Nat.le_of_lt_succ c.xmitIntervalMs.toNat_lt
  have hmul : c.xmitIntervalMs.toNat * 1000 * c.tries ≤ 4294967295 * 1000 * 255 :=
    Nat.mul_le_mul (Nat.mul_le_mul_right 1000 hi) h
  have hcast : c.backoffUs = ((c.xmitIntervalMs.toNat * 1000 * c.tries : ℕ) : ℤ) := by
    simp [Client.backoffUs]
  rw [hcast]
  omega

theorem t1Us_bounds (i : NetInfo) : 0 ≤ i.t1Us ∧ i.t1Us ≤ 2147483647 * 1000000 := by
  have hi : i.leaseS.toNat < 4294967296 := i.leaseS.toNat_lt
  have hle : (if i.leaseS ≠ 0 then i.leaseS / 2 else defaultRenewS).toNat ≤ 2147483647 := by
    split
    · rw [UInt32.toNat_div]
      simp
      omega
    · decide
  unfold NetInfo.t1Us
  omega

theorem InTime.add {t d : ℤ} (h : InTime t) (hd : 0 ≤ d ∧ d ≤ 2147483647 * 1000000) :
    InInt64 (t + d) := by
  obtain ⟨h₁, h₂⟩ := h
  constructor <;> omega

namespace Keeps

/-- An entry that neither sends nor resets. -/
theorem quiet (h : Keeps tries interval c l) (hx : ¬Resets x) (hs : said x = none)
    (hconf : c'.xmitTries = c.xmitTries) (hconf' : c'.xmitIntervalMs = c.xmitIntervalMs)
    (ht : c'.tries = c.tries) (hn : c'.nextTxUs = c.nextTxUs)
    (hr : (∀ t ∈ readings (x :: l), InTime t) → InInt64 c.renewAtUs → InInt64 c'.renewAtUs) :
    Keeps tries interval c' (x :: l) where
  tries_eq := hconf ▸ h.tries_eq
  interval_eq := hconf' ▸ h.interval_eq
  paced l' hl := by
    rcases List.suffix_cons_iff.mp hl with rfl | hl
    · rw [phase_quiet hx hs]
      exact h.paced l List.suffix_rfl
    · exact h.paced l' hl
  count := by rw [phase_quiet hx hs, ht, h.count]
  next := by
    rw [phase_quiet hx hs, hn]
    exact h.next
  fits hin := by
    rw [hn]
    exact ⟨(h.fits (inTime_tail hin)).1, hr hin (h.fits (inTime_tail hin)).2⟩

/-- An entry that resets. -/
theorem reset (h : Keeps tries interval c l) (hx : Resets x) (hconf : c'.xmitTries = c.xmitTries)
    (hconf' : c'.xmitIntervalMs = c.xmitIntervalMs) (ht : c'.tries = 0) (hn : c'.nextTxUs = 0)
    (hr : c'.renewAtUs = c.renewAtUs) : Keeps tries interval c' (x :: l) where
  tries_eq := hconf ▸ h.tries_eq
  interval_eq := hconf' ▸ h.interval_eq
  paced l' hl := by
    rcases List.suffix_cons_iff.mp hl with rfl | hl
    · rw [phase_reset hx]
      exact .nil
    · exact h.paced l' hl
  count := by rw [phase_reset hx, ht, List.length_nil]
  next := by rw [phase_reset hx]; simp
  fits hin := by
    rw [hn, hr]
    exact ⟨⟨by decide, by decide⟩, (h.fits (inTime_tail hin)).2⟩

/-- The message that is due continues the phase. -/
theorem paced_message (h : Keeps tries interval c l) (hm : Matches c l) (hs : c.state ≠ .bound)
    (hdue : c.nextTxUs ≤ lastReading l) (htries : c.tries < c.xmitTries.toNat) :
    Paced tries interval (⟨lastReading l, c.state, c.message⟩ :: phase l) := by
  have hp := h.paced l List.suffix_rfl
  have hlen : (phase l).length < tries := by rw [← h.count, ← h.tries_eq]; exact htries
  refine ⟨hlen, ?_, ?_, ?_⟩
  · rw [List.forall_mem_cons]
    refine ⟨?_, hp.typed⟩
    change (c.state = .selecting ∧ optionOf c.message optMsgType = _) ∨
      (c.state = .requesting ∧ optionOf c.message optMsgType = _)
    unfold Client.message
    cases hc : c.state with
    | selecting => exact .inl ⟨rfl, optionOf_build_msgType c dhcpDiscover⟩
    | requesting => exact .inr ⟨rfl, optionOf_build_msgType c dhcpRequest⟩
    | bound => exact absurd hc hs
  · have hone : ∀ m ∈ (⟨lastReading l, c.state, c.message⟩ :: phase l : List Sent), m.state =
        c.state := by
      rw [List.forall_mem_cons]
      exact ⟨rfl, hm hs⟩
    exact fun m hmem m' hmem' ↦ (hone m hmem).trans (hone m' hmem').symm
  · match hl : phase l with
    | [] => trivial
    | m :: older =>
      have hnext := h.next m (by simp [hl])
      have hspaced := hp.spaced
      rw [hl] at hnext hspaced
      refine ⟨?_, hspaced⟩
      change m.time + ((older.length : ℤ) + 1) * interval ≤ lastReading l
      rw [List.length_cons] at hnext
      push_cast at hnext
      linarith

/-- And so does the client once it is sent. -/
theorem transmit (h : Keeps tries interval c l) (hm : Matches c l) (hs : c.state ≠ .bound)
    (hdue : c.nextTxUs ≤ lastReading l) (htries : c.tries < c.xmitTries.toNat) (a : ℤ) :
    Keeps tries interval (c.sent (lastReading l))
      ((c.counted, ⟨.sendto c.fd c.message inaddrBroadcast serverPort, a⟩) :: l) := by
  have hx : ¬Resets (c.counted, ⟨.sendto c.fd c.message inaddrBroadcast serverPort, a⟩) := by
    simp [Resets, heard]
  have hphase : phase ((c.counted, ⟨.sendto c.fd c.message inaddrBroadcast serverPort, a⟩) :: l) =
      ⟨lastReading l, c.state, c.message⟩ :: phase l := if_neg hx
  have hinterval : c.counted.backoffUs = (c.tries + 1 : ℕ) * interval := by
    rw [← h.interval_eq, mul_comm]
    rfl
  refine ⟨h.tries_eq, h.interval_eq, fun l' hl ↦ ?_, ?_, ?_, fun hin ↦ ?_⟩
  · rcases List.suffix_cons_iff.mp hl with rfl | hl
    · rw [hphase]
      exact h.paced_message hm hs hdue htries
    · exact h.paced l' hl
  · rw [hphase, List.length_cons, ← h.count]
    rfl
  · rw [hphase, List.length_cons, ← h.count]
    rintro m ⟨⟩
    exact congrArg (lastReading l + ·) hinterval
  · have hbound : c.counted.tries ≤ 255 :=
      (Nat.succ_le_of_lt htries).trans (Nat.le_of_lt_succ c.xmitTries.toNat_lt)
    exact ⟨(lastReading_inTime (inTime_tail hin)).add (backoffUs_bounds hbound),
      (h.fits (inTime_tail hin)).2⟩

end Keeps

end

section

variable {c c' : Client} {l : DhcpLog} {x : Entry}

theorem Matches.quiet (h : Matches c l) (hx : ¬Resets x) (hs : said x = none)
    (hstate : c'.state = c.state) : Matches c' (x :: l) := by
  rw [Matches, phase_quiet hx hs, hstate]
  exact h

theorem Matches.reset (hx : Resets x) : Matches c' (x :: l) := by
  rw [Matches, phase_reset hx]
  simp

theorem not_resets_receive {a : Option (List UInt8)} (h : ∀ p ∈ a, ¬Offers c p) :
    ¬Resets (c, ⟨.recvfrom c.fd bufSize, a⟩) := by
  rintro (h' | ⟨p, hp, ho⟩)
  · cases h'
  · exact h p hp ho

theorem not_resets_of_opening (h : Opening x.2) : ¬Resets x ∧ said x = none := by
  obtain ⟨c, o, a⟩ := x
  cases o with
  | socket | setsockopt | fcntl | close | bind => exact ⟨by simp [Resets, heard], rfl⟩
  | _ => exact h.elim

end

/-- A phase that ran out of tries: it has just ended, all its messages were sent, and after the last
of them the whole wait has passed. -/
def RanOut (tries : ℕ) (interval : ℤ) (l : DhcpLog) : Prop :=
  ∃ x l₀ m older, l = x :: l₀ ∧ x.2.1 = .espRandom ∧ phase l₀ = m :: older ∧
    older.length + 1 = tries ∧
    m.time + tries * interval ≤ lastReading l₀

theorem pace_rules {tries : ℕ} (htries : 0 < tries) (interval : ℤ) :
    Rules (fun c l ↦ Keeps tries interval c l ∧ (0 ≤ c.fd → Matches c l))
    (fun c l ↦ Keeps tries interval c l ∧ Matches c l)
      (fun c l ↦ Keeps tries interval c l ∧ Matches c l) (fun c l ↦ Keeps tries interval c l ∧
        Matches c l)
      (fun buf c l ↦ Paced tries interval (⟨lastReading l, c.state, buf⟩ :: phase l))
      (fun _ _ _ ↦ True) (fun _ l ↦ RanOut tries interval l) where
  clock t h := ⟨h.1.quiet (by simp [Resets, heard]) rfl rfl rfl rfl rfl fun _ ↦ id,
    h.2.quiet (by simp [Resets, heard]) rfl rfl⟩
  select xid h := ⟨h.1.reset (.inl rfl) rfl rfl rfl rfl rfl, .reset (.inl rfl)⟩
  expire {c l} xid h hs hdue hout := by
    have hlen : (phase l).length = tries :=
      Nat.le_antisymm (h.1.paced l List.suffix_rfl).length_le
        (by rw [← h.1.count, ← h.1.tries_eq]; exact hout)
    match hl : phase l with
    | [] => rw [hl] at hlen; exact absurd hlen.symm htries.ne'
    | m :: older =>
      have hnext := h.1.next m (by simp [hl])
      rw [hlen] at hnext
      rw [hl] at hlen
      exact ⟨_, l, m, older, rfl, rfl, hl, hlen, hnext ▸ hdue⟩
  message h hs hdue ht := h.1.paced_message h.2 hs hdue ht
  transmit {c l} a h hs hdue ht := by
    refine ⟨h.1.transmit h.2 hs hdue ht a, fun _ ↦ ?_⟩
    rw [phase, if_neg (by simp [Resets, heard])]
    exact List.forall_mem_cons.mpr ⟨rfl, h.2 hs⟩
  wait h _ _ := h
  silence a h ha :=
    have hx := not_resets_receive (not_offers_of_silence ha)
    ⟨h.1.quiet hx rfl rfl rfl rfl rfl fun _ ↦ id, h.2.quiet hx rfl rfl⟩
  foreign {c l} p h hp :=
    have hx : ¬Resets (c, ⟨.recvfrom c.fd bufSize, some p⟩) :=
      not_resets_receive fun q hq ho ↦ hp (Option.some_inj.mp hq ▸ ho.2.1)
    ⟨h.1.quiet hx rfl rfl rfl rfl rfl fun _ ↦ id, h.2.quiet hx rfl rfl⟩
  ignore {c l} p h _ ho _ _ :=
    have hx : ¬Resets (c, ⟨.recvfrom c.fd bufSize, some p⟩) := not_resets_receive fun q hq ↦
      Option.some_inj.mp hq ▸ ho
    ⟨h.1.quiet hx rfl rfl rfl rfl rfl fun _ ↦ id, h.2.quiet hx rfl rfl⟩
  refuse {c l} p xid h hr := by
    have hx : ¬Resets (c, ⟨.recvfrom c.fd bufSize, some p⟩) :=
      not_resets_receive fun q hq ↦ Option.some_inj.mp hq ▸ hr.not_offers
    have hk : Keeps tries interval (c.parsed p) ((c, ⟨.recvfrom c.fd bufSize, some p⟩) :: l) :=
      h.1.quiet hx rfl rfl rfl rfl rfl fun _ ↦ id
    exact ⟨hk.reset (.inl rfl) rfl rfl rfl rfl rfl, .reset (.inl rfl)⟩
  accept {c l} p h ho :=
    have hx : Resets (c, ⟨.recvfrom c.fd bufSize, some p⟩) := .inr ⟨p, rfl, ho⟩
    ⟨h.1.reset hx rfl rfl rfl rfl rfl, .reset hx⟩
  lease _ _ _ := trivial
  install {c l} p t h ha := by
    have hx : ¬Resets (c, ⟨.recvfrom c.fd bufSize, some p⟩) :=
      not_resets_receive fun q hq ↦ Option.some_inj.mp hq ▸ ha.not_offers
    have hk : Keeps tries interval (c.installing p) ((c, ⟨.recvfrom c.fd bufSize, some p⟩) :: l) :=
      h.1.quiet hx rfl rfl rfl rfl rfl fun _ ↦ id
    have hk' : Keeps tries interval (c.installed p)
        ((c.installing p, ⟨.applyLease (parse p).info, ()⟩) ::
        (c, ⟨.recvfrom c.fd bufSize, some p⟩) :: l) :=
      hk.quiet (by simp [Resets, heard]) rfl rfl rfl rfl rfl fun _ ↦ id
    refine ⟨hk'.quiet (by simp [Resets, heard]) rfl rfl rfl rfl rfl fun hin _ ↦ ?_,
      fun hs ↦ absurd rfl hs⟩
    exact (hin t List.mem_cons_self).add (t1Us_bounds _)
  enter h hfd := ⟨h.1, h.2 hfd⟩
  leave h := ⟨h.1, fun _ ↦ h.2⟩
  start {c l} mac ifname xid h _ := by
    have hk : Keeps tries interval { c with mac := mac, ifname := ifname }
        ((c, ⟨.prepare, (mac, ifname)⟩) :: l) :=
      h.1.quiet (by simp [Resets, heard]) rfl rfl rfl rfl rfl fun _ ↦ id
    exact ⟨hk.reset (.inl rfl) rfl rfl rfl rfl rfl, .reset (.inl rfl)⟩
  opening {c l} x h hx :=
    have hx : ¬Resets (c, x) ∧ said (c, x) = none := not_resets_of_opening hx
    ⟨h.1.quiet hx.1 hx.2 rfl rfl rfl rfl fun _ ↦ id, h.2.quiet hx.1 hx.2 rfl⟩
  opened fd a h _ _ :=
    ⟨h.1.quiet (by simp [Resets, heard]) rfl rfl rfl rfl rfl fun _ ↦ id,
      fun _ ↦ h.2.quiet (by simp [Resets, heard]) rfl rfl⟩
  unopened h := ⟨h.1, fun _ ↦ h.2⟩
  stop {c l} a h _ :=
    ⟨h.1.quiet (by simp [Resets, heard]) rfl rfl rfl rfl rfl fun _ ↦ id,
      fun hfd ↦ absurd (show (0 : ℤ) ≤ -1 from hfd) (by decide)⟩

/-- The times of a client, and what they are computed from. -/
structure NoOverflow (c : Client) : Prop where
  next : InInt64 c.nextTxUs
  renew : InInt64 c.renewAtUs
  interval : InInt64 ((c.xmitIntervalMs.toNat : ℤ) * 1000)
  backoff : InInt64 c.backoffUs
  t1 : InInt64 c.lease.t1Us

theorem Keeps.noOverflow {tries : ℕ} {interval : ℤ} {c : Client} {l : DhcpLog}
    (h : Keeps tries interval c l) (hin : ∀ t ∈ readings l, InTime t) : NoOverflow c where
  next := (h.fits hin).1
  renew := (h.fits hin).2
  interval := by
    have := c.xmitIntervalMs.toNat_lt
    constructor <;> omega
  backoff := by
    have hle : c.tries ≤ 255 := by
      have := (h.paced l List.suffix_rfl).length_le
      have := c.xmitTries.toNat_lt
      rw [h.count]
      have := h.tries_eq
      omega
    have := backoffUs_bounds hle
    constructor <;> omega
  t1 := by
    have := t1Us_bounds c.lease
    constructor <;> omega

variable {E : Type} {V : Env Client E DhcpOp.Ans} {c₀ : Client} {e₀ : E}

theorem Created.keeps (h : Created c₀) :
    Keeps c₀.xmitTries.toNat ((c₀.xmitIntervalMs.toNat : ℤ) * 1000) c₀ [] ∧
    (0 ≤ c₀.fd → Matches c₀ []) ∧
      0 < c₀.xmitTries.toNat := by
  obtain ⟨ops, timeout, packets, tries, interval, -, htries, -, rfl⟩ := h.eq
  have hzero : InInt64 0 := ⟨by decide, by decide⟩
  refine ⟨⟨rfl, rfl, fun l hl ↦ ?_, rfl, by simp [phase], fun _ ↦ ⟨hzero, hzero⟩⟩,
    ?_, ?_⟩
  · rw [List.suffix_nil.mp hl]
    exact .nil
  · exact fun _ _ m hm ↦ by cases hm
  · exact Nat.pos_of_ne_zero fun h ↦ htries (UInt8.toNat_inj.mp h)

/-- **The discipline of the retransmissions.** Every phase of every run is as it may be, with every
message as it is about to be sent; no time computed on the way overflows as long as the clock leaves
room for the longest wait; and a poll fails only when a phase has run out of tries. -/
theorem retransmission (h₀ : Created c₀) :
    (∀ c e, Run V c₀ e₀ c e →
      (∀ l, l <:+ e.2 → Paced c₀.xmitTries.toNat ((c₀.xmitIntervalMs.toNat : ℤ) * 1000)
      (phase l)) ∧
      ((∀ t ∈ readings e.2, InTime t) → NoOverflow c)) ∧
    (∀ k c fd size c' e, During (fun _ : Call ↦ V.observed) (fun _ _ _ ↦ True) Call.prog c₀
      (e₀, []) k c (.recvfrom fd size) c' e →
      (∀ t ∈ readings e.2, InTime t) → NoOverflow c') ∧
    (∀ k c fd buf addr port c' e,
      During (fun _ : Call ↦ V.observed) (fun _ _ _ ↦ True) Call.prog c₀ (e₀, []) k c
      (.sendto fd buf addr port) c' e →
        Paced c₀.xmitTries.toNat ((c₀.xmitIntervalMs.toNat : ℤ) * 1000)
        (⟨lastReading e.2, c'.state, buf⟩ :: phase e.2)) ∧
    ∀ c e p info r c' e', Run V c₀ e₀ c e → Returns V.observed
    (wsmDhcpPoll p info) c e r c' e' → r.1 = .failed →
      RanOut c₀.xmitTries.toNat ((c₀.xmitIntervalMs.toNat : ℤ) * 1000) e'.2 := by
  obtain ⟨hk, hm, htries⟩ := h₀.keeps
  have hR := pace_rules htries ((c₀.xmitIntervalMs.toNat : ℤ) * 1000)
  refine ⟨fun c e h ↦ ?_, fun k c fd size c' e h ↦ ?_, fun k c fd buf addr port c' e h ↦ ?_,
    fun c e p info r c' e' h hr hf ↦ ?_⟩
  · have hkeeps := (hR.run ⟨hk, hm⟩ h).1
    exact ⟨hkeeps.paced, hkeeps.noOverflow⟩
  · exact (hR.watched ⟨hk, hm⟩ h).1.noOverflow
  · exact hR.watched ⟨hk, hm⟩ h
  · obtain ⟨filled, hended, -⟩ :=
      (wsmDhcpPoll_logged hR (hR.run ⟨hk, hm⟩ h) p info).returns hr
    rw [hf] at hended
    exact hended.failed

/-- A client started and polled once, where the clock says `t` and no server answers. -/
def polledAt (t : ℤ) : Effect.Config Client (Script × DhcpLog) DhcpOp.Ans Unit :=
  afterCall 40 (.poll .valid .valid) (afterCall 30 (.start .valid) defaultClient
    ((t, []), [])).store (afterCall 30 (.start .valid) defaultClient ((t, []), [])).env

theorem polledAt_run {t : ℤ} (h : (polledAt t).prog.result? = some ()) :
    Run (Env.script scripted) defaultClient (t, []) (polledAt t).store (polledAt t).env := by
  have hstart : Run (Env.script scripted) defaultClient (t, [])
      (afterCall 30 (.start .valid) defaultClient ((t, []), [])).store
      (afterCall 30 (.start .valid) defaultClient ((t, []), [])).env := Run.afterCall .start rfl
  rw [polledAt] at h ⊢
  exact hstart.afterCall h

theorem retransmission_discover : Paced 4 2000000 (phase (polledAt 1).env.2) ∧
    NoOverflow (polledAt 1).store := by
  have hin : ∀ t ∈ readings (polledAt 1).env.2, InTime t := by
    rw [show readings (polledAt 1).env.2 = [1] by decide]
    simp [InTime]
  obtain ⟨hpaced, hfits⟩ :=
    (retransmission defaultClient_created).1 _ _ (polledAt_run (t := 1) (by decide))
  exact ⟨hpaced _ List.suffix_rfl, hfits hin⟩

/-- Nothing in the code keeps a deadline from overflowing when the clock is about to. -/
theorem not_noOverflow : ¬∀ (c₀ : Client) (e₀ : Script) (c : Client) (e : Script × DhcpLog),
    Created c₀ →
    Run (Env.script scripted) c₀ e₀ c e → (∀ t ∈ readings e.2, InInt64 t) →
    (readings e.2).Pairwise (fun t t' ↦ t' ≤ t) →
      NoOverflow c := by
  intro hall
  have hreadings : readings (polledAt (2 ^ 63 - 1)).env.2 = [2 ^ 63 - 1] := by decide
  have hno :=
    hall _ _ _ _ defaultClient_created (polledAt_run (t := 2 ^ 63 - 1) (by decide))
    (by rw [hreadings]; simp [InInt64]) (by rw [hreadings]; simp)
  have hnext : (polledAt (2 ^ 63 - 1)).store.nextTxUs = 2 ^ 63 - 1 + 2000000 := by decide
  have hlt := hno.next.2
  rw [hnext] at hlt
  omega

end WsmDriver.Dhcp
