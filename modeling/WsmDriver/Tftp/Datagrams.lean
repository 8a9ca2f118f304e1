import WsmDriver.Effect.Trace
import WsmDriver.Tftp.Reading

/-!
# What a poll takes and stores

Any datagrams may arrive, of any length and contents and from anywhere, and all of them are written
over the start of the one receive buffer. Behind a datagram the bytes of earlier ones remain, some
of them with their order changed.

The header is read from the buffer whatever the length of the datagram. For one of less than four
bytes it is made up from both, and `msg_len - 4` wraps around.
-/

namespace WsmDriver.Tftp

open Effect Program
open W6300 (be16 word word_be16)

/-! ## Polls -/

/-- The surroundings that deliver anything `tftp_transport_recv` can return. -/
def anywhere : Env Globals Unit TftpOp.Ans where
  drift _ _ := False
  answer
    | .recv _ len, _, _, a, _ => ∀ r, a = some r → 0 < r.data.length ∧ r.data.length ≤ len
    | .openSocket _, _, _, _, _ | .send .., _, _, _, _ | .saveData .., _, _, _, _ => True

/-- A call of `save_data`. -/
structure Save where
  data : List UInt8
  dataLen : UInt32
  blockNumber : UInt16
  deriving DecidableEq, Repr

/-- The datagram that was received, with the client as it was then, and the calls of `save_data`. -/
structure Seen where
  taken : Option (Received × Globals) := none
  saves : List Save := []

/-- What is seen of an operation. -/
def Seen.note : (o : TftpOp) → Globals → o.Ans → Seen → Seen
  | .recv _ _, s, a, n => { n with taken := a.map (·, s) }
  | .saveData data dataLen blockNumber, _, _, n =>
    { n with saves := n.saves ++ [⟨data, dataLen, blockNumber⟩] }
  | .openSocket _, _, _, n | .send _ _ _ _, _, _, n => n

/-- A poll: what was seen, and the client after it. -/
structure Poll where
  seen : Seen
  after : Globals

/-- What is stored comes from the datagram just received, and one that is shorter than a header
changes nothing. -/
structure Poll.Faithful (p : Poll) : Prop where
  stored : ∀ x ∈ p.seen.saves, ∃ r s, p.seen.taken = some (r, s) ∧ 4 + x.dataLen.toNat =
    r.data.length ∧
    x.data.take x.dataLen.toNat = r.data.drop 4
  short : ∀ r s, p.seen.taken = some (r, s) → r.data.length < 4 →
    p.after.state = s.state ∧ p.after.blockNum = s.blockNum

/-- The runs of the client from the start of a transfer, with the polls in them: earlier transfers
have left it in any state, and its timer may tick between two polls. -/
inductive Run : List Poll → Globals → Prop
  | start {buf filename : List UInt8} {serverIp : UInt32} {s₀ s : Globals} {e : Unit × Seen}
      (h : Returns (anywhere.noted Seen.note) (tftpcInit buf >>=
        fun _ ↦ tftpcReadRequest serverIp filename) s₀ ((), {}) () s e) : Run [] s
  | poll {polls : List Poll} {s s' : Globals} {a : Progress} {e : Unit × Seen} (h : Run polls s)
      (hr : Returns (anywhere.noted Seen.note) tftpcRun s ((), {}) a s' e) :
        Run (polls ++ [⟨e.2, s'⟩]) s'
  | tick {polls : List Poll} {s s' : Globals} {e : Unit × Seen} (h : Run polls s)
      (hr : Returns (anywhere.noted Seen.note) tftpcTimeoutHandler s ((), {}) () s' e) :
        Run polls s'

/-! ## What the client acts upon -/

/-- The receive buffer with a datagram in it. -/
def buffered (s : Globals) (r : Received) : List UInt8 := r.data ++ s.rcvBuf.drop r.data.length

/-- The block `b` is the expected one. -/
def Expected (s : Globals) (b : UInt16) : Prop :=
  ((s.state = .rrq ∨ s.state = .oack) ∧ b = 1) ∨
    (s.state = .data ∧ b.toNat = s.blockNum.toNat + 1)

/-- The header in the receive buffer makes the client go on: it is that of the expected block, of an
`OACK` that answers the request, or of an error. -/
def Acts (s : Globals) (r : Received) : Prop :=
  r.fromIp = s.serverIp ∧
    ((word (buffered s r) = tftpData ∧ Expected s (word ((buffered s r).drop 2))) ∨
      (word (buffered s r) = tftpOack ∧ s.state = .rrq) ∨
      (word (buffered s r) = tftpError ∧ s.state ≠ .none))

/-- The client goes on because of a header that it did not receive. -/
def Misread (s : Globals) (r : Received) : Prop := r.data.length < 4 ∧ Acts s r

/-- No short datagram was misread. -/
def Poll.Sound (p : Poll) : Prop := ∀ r s, p.seen.taken = some (r, s) → ¬Misread s r

/-- The states of a client that reads. -/
structure Proper (s : Globals) : Prop where
  state : s.state ≠ .wrq ∧ s.state ≠ .ack
  idle : s.state = .none → s.blockNum = 0

variable {s s' : Globals} {r : Received} {n : Seen} {polls : List Poll} {b : UInt16}

theorem expected_first_iff (h : s.state = .rrq ∨ s.state = .oack) : Expected s b ↔ b = 1 := by
  have hne : s.state ≠ .data := by
    intro hd
    simp [hd] at h
  simp [Expected, h, hne]

theorem expected_next_iff (h : s.state = .data) : Expected s b ↔ b.toNat = s.blockNum.toNat +
    1 := by
  simp [Expected, h]

/-- A block is not expected outside of a transfer. -/
theorem not_expected (h : ¬(s.state = .rrq ∨ s.state = .oack)) (h' : s.state ≠ .data) :
    ¬Expected s b := by
  simp [Expected, h, h']

/-- With the opcode of a block in the buffer only the expected block makes the client go on. -/
theorem acts_data_iff (hip : r.fromIp = s.serverIp) (hop : word (buffered s r) = tftpData) :
    Acts s r ↔ Expected s (word ((buffered s r).drop 2)) := by
  have hoack : tftpData ≠ tftpOack := by decide
  have herror : tftpData ≠ tftpError := by decide
  simp [Acts, hip, hop, hoack, herror]

theorem acts_oack_iff (hip : r.fromIp = s.serverIp) (hop : word (buffered s r) = tftpOack) :
    Acts s r ↔ s.state = .rrq := by
  have hdata : tftpOack ≠ tftpData := by decide
  have herror : tftpOack ≠ tftpError := by decide
  simp [Acts, hip, hop, hdata, herror]

theorem acts_error_iff (hip : r.fromIp = s.serverIp) (hop : word (buffered s r) = tftpError) :
    Acts s r ↔ s.state ≠ .none := by
  have hdata : tftpError ≠ tftpData := by decide
  have hoack : tftpError ≠ tftpOack := by decide
  simp [Acts, hip, hop, hdata, hoack]

theorem Proper.congr (h : Proper s) (hstate : s'.state = s.state)
    (hblock : s'.blockNum = s.blockNum) : Proper s' :=
  ⟨hstate ▸ h.state, fun hs ↦ hblock.trans (h.idle (hstate.symm.trans hs))⟩

/-! ## The client's functions -/

/-- The condition on what a program of the client returns and what was seen until then. -/
abbrev Sees {α : Type} (p : Client α) (Q : α → Globals → Seen → Prop) (s : Globals)
    (n : Seen) : Prop :=
  Recorded anywhere Seen.note (fun _ _ _ ↦ True) p Q s n

theorem sendUdpPacket_sees (packet : List UInt8) (ip : UInt32) (port : UInt16) (s : Globals)
    (n : Seen) :
    Sees (discard (sendUdpPacket packet ip port)) (fun _ s' n' ↦ s' = s ∧ n' = n) s n := by
  intro ε
  unfold sendUdpPacket
  refine pre_get_bind.mpr fun e₁ he₁ ↦ ⟨trivial, ?_⟩
  rintro a e₂ ⟨-, h₂⟩ e₃ he₃
  exact ⟨rfl, he₃.unnoted.2.trans (h₂.trans he₁.unnoted.2)⟩

theorem sendTftpAck_sees (b : UInt16) (s : Globals) (n : Seen) :
    Sees (sendTftpAck b) (fun _ s' n' ↦ s' = s.regTimeout ∧ n' = n) s n := by
  unfold sendTftpAck
  refine .get_bind ((sendUdpPacket_sees _ _ _ s n).seq ?_)
  rintro - _ _ ⟨rfl, rfl⟩
  exact .update ⟨rfl, rfl⟩

theorem sendTftpRrq_sees (filename mode : List UInt8) (opt : List (List UInt8 × List UInt8))
    (s : Globals) (n : Seen) :
    Sees (sendTftpRrq filename mode opt) (fun _ s' n' ↦ s'.state = .rrq ∧ n' = n) s n := by
  unfold sendTftpRrq
  refine .get_bind ((sendUdpPacket_sees _ _ _ s n).seq ?_)
  rintro - _ _ ⟨rfl, rfl⟩
  exact .update ⟨regTimeout_state _, rfl⟩

theorem acceptBlock_sees (msgLen : UInt32) (b : UInt16) (s : Globals) (n : Seen) :
    Sees (acceptBlock msgLen b) (fun _ s' n' ↦ s'.state = .data ∧ s'.blockNum = b ∧
      n' = { n with saves := n.saves ++ [⟨s.rcvBuf.drop 4, msgLen - 4, b⟩] }) s n := by
  unfold acceptBlock
  refine .modify_bind (.get_bind (.perform_bind trivial fun _ ↦ .update ?_))
  exact ⟨cancelTimeout_state _, cancelTimeout_blockNum _, rfl⟩

/-- A block that is shorter than 512 bytes ends the transfer. -/
theorem answerBlock_sees (msgLen : UInt32) (b : UInt16) (s : Globals) (n : Seen) :
    Sees (answerBlock msgLen b)
    (fun _ s' n' ↦ n' = n ∧
    ((msgLen - 4 < tftpBlkSize ∧ s'.state = .none ∧ s'.blockNum = 0) ∨
      (¬msgLen - 4 < tftpBlkSize ∧ s'.state = s.state ∧ s'.blockNum = s.blockNum))) s n := by
  unfold answerBlock
  refine (sendTftpAck_sees b s n).seq ?_
  rintro - _ _ ⟨rfl, rfl⟩
  refine .when (fun hlt ↦ .update ⟨rfl, .inl ⟨hlt, rfl, rfl⟩⟩) fun hge ↦
    ⟨rfl, .inr ⟨hge, ?_⟩⟩
  exact ⟨regTimeout_state s, regTimeout_blockNum s⟩

/-! ## What a datagram does -/

/-- What the client does about a datagram: what it stores, and where it is then. -/
inductive Reaction (s : Globals) (r : Received) : List Save → State → UInt16 → Prop
  | ignored (h : ¬Acts s r) : Reaction s r [] s.state s.blockNum
  /-- A short block that is not the expected one. -/
  | ended (h : ¬Acts s r) (hlen : UInt32.ofNat r.data.length - 4 < tftpBlkSize) :
      Reaction s r [] .none 0
  /-- The expected block, which may be the last one. -/
  | stored {state : State} {blockNum : UInt16} {x : Save} (h : Acts s r)
      (hdata : x.data = (buffered s r).drop 4)
      (hlen : x.dataLen = UInt32.ofNat r.data.length - 4) (hs : state = .data ∨
        (state = .none ∧ blockNum = 0)) :
      Reaction s r [x] state blockNum
  | agreed (h : Acts s r) (hs : s.state = .rrq) : Reaction s r [] .oack s.blockNum
  | failed (h : Acts s r) (hs : s.state ≠ .none) : Reaction s r [] .none 0

theorem Reaction.unchanged {t : Globals} (h : ¬Acts s r) (hstate : t.state = s.state)
    (hblock : t.blockNum = s.blockNum) : Reaction s r [] t.state t.blockNum := by
  rw [hstate, hblock]
  exact .ignored h

/-- After a datagram the client has reacted to it. -/
def Reacted (s : Globals) (r : Received) (s' : Globals) (n : Seen) : Prop :=
  n.taken = some (r, s) ∧ Reaction s r n.saves s'.state s'.blockNum

/-- What is seen when a datagram has arrived. -/
def Seen.arrival (s : Globals) (r : Received) : Seen := { taken := some (r, s) }

theorem takeBlock_sees {t : Globals} {accept : Prop} [Decidable accept] (hstate : t.state = s.state)
    (hblock : t.blockNum = s.blockNum) (hdata : t.rcvBuf.drop 4 = (buffered s r).drop 4)
    (haccept : accept ↔ Acts s r) :
    Sees (when accept (acceptBlock (UInt32.ofNat r.data.length) b) >>= fun _ ↦
      answerBlock (UInt32.ofNat r.data.length) b) (fun _ ↦ Reacted s r) t (.arrival s r) := by
  refine .when_bind (fun ha ↦ ?_) fun ha ↦ ?_
  · -- The expected block is stored before its length is looked at.
    refine (acceptBlock_sees _ b t _).seq ?_
    rintro - s₁ _ ⟨hs₁, -, rfl⟩
    refine (answerBlock_sees _ b s₁ _).imp ?_
    rintro - s₂ _ ⟨rfl, hend | hend⟩
    · exact ⟨rfl, .stored (haccept.mp ha) hdata rfl (.inr hend.2)⟩
    · exact ⟨rfl, .stored (haccept.mp ha) hdata rfl (.inl (hend.2.1.trans hs₁))⟩
  · -- Any other block is acknowledged only, and ends the transfer if it is short.
    have hacts : ¬Acts s r := fun h ↦ ha (haccept.mpr h)
    refine (answerBlock_sees _ b t _).imp ?_
    rintro - s₂ _ ⟨rfl, ⟨hlt, hs₂, hb₂⟩ | ⟨-, hs₂, hb₂⟩⟩ <;> refine ⟨rfl, ?_⟩
    · rw [hs₂, hb₂]
      exact .ended hacts hlt
    · exact .unchanged hacts (hs₂.trans hstate) (hb₂.trans hblock)

section

variable {t : Globals} (hstate : t.state = s.state) (hblock : t.blockNum = s.blockNum)
    (hip : r.fromIp = s.serverIp)

include hstate hblock hip

theorem recvTftpData_sees (hop : word (buffered s r) = tftpData) (hbuf : t.rcvBuf = buffered s r) :
    Sees (recvTftpData (UInt32.ofNat r.data.length)) (fun _ ↦ Reacted s r) t (.arrival s r) := by
  have hdata : (swapAt (swapAt t.rcvBuf 0) 2).drop 4 = (buffered s r).drop 4 := by
    rw [drop_swapAt _ (by decide), drop_swapAt _ (by decide), hbuf]
  have hacts := acts_data_iff hip hop
  rw [← hbuf] at hacts
  unfold recvTftpData
  refine .get_bind (.modify_bind (.ite (fun hs ↦ ?_) fun hs ↦ .ite (fun hs' ↦ ?_) fun hs' ↦
    .pure ⟨rfl, ?_⟩))
  · rw [hstate] at hs
    exact takeBlock_sees hstate hblock hdata (hacts.trans (expected_first_iff hs)).symm
  · rw [hstate] at hs'
    have hexpected := expected_next_iff (b := word (t.rcvBuf.drop 2)) hs'
    rw [← hblock] at hexpected
    exact takeBlock_sees hstate hblock hdata (hacts.trans hexpected).symm
  · exact .unchanged (fun h ↦ not_expected (hstate ▸ hs) (hstate ▸ hs') (hacts.mp h)) hstate
      hblock

theorem recvTftpOack_sees (hop : word (buffered s r) = tftpOack) (hs : Proper s) :
    Sees recvTftpOack (fun _ ↦ Reacted s r) t (.arrival s r) := by
  have hacts := acts_oack_iff hip hop
  unfold recvTftpOack
  refine .get_bind (.ite (fun ht ↦ .modify_bind ?_) fun ht ↦ .ite (fun ht' ↦ ?_) fun ht' ↦
    .pure ?_)
  · have hrrq := hstate.symm.trans ht
    refine (sendTftpAck_sees 0 _ _).imp ?_
    rintro - _ _ ⟨rfl, rfl⟩
    refine ⟨rfl, ?_⟩
    rw [regTimeout_state, regTimeout_blockNum, cancelTimeout_state, cancelTimeout_blockNum, hblock]
    exact .agreed (hacts.mpr hrrq) hrrq
  · exact absurd (hstate.symm.trans ht') hs.state.1
  · exact ⟨rfl, .unchanged (fun h ↦ ht (hstate.trans (hacts.mp h))) hstate hblock⟩

end

theorem recvTftpError_sees {t : Globals} (hip : r.fromIp = s.serverIp)
    (hop : word (buffered s r) = tftpError) (hs : Proper s) :
    Sees recvTftpError (fun _ ↦ Reacted s r) t (.arrival s r) := by
  have hacts := acts_error_iff hip hop
  refine .update ⟨rfl, ?_⟩
  -- Outside of a transfer there is nothing that the error could end.
  by_cases hnone : s.state = .none
  · have hignored := Reaction.ignored fun h ↦ hacts.mp h hnone
    rwa [hnone, hs.idle hnone] at hignored
  · exact .failed (hacts.mpr hnone) hnone

/-- **One datagram**, read from the buffer that it is in. -/
theorem receiveProcess_sees (hs : Proper s) (r : Received) :
    Sees (receiveProcess (some r)) (fun _ ↦ Reacted s r) s (.arrival s r) := by
  unfold receiveProcess recvTftpPacket
  refine .modify_bind
    (.get_bind (.ite (fun hip ↦ .pure ⟨rfl, .ignored fun h ↦ hip h.1⟩) fun hip ↦
    .modify_bind ?_))
  have hip := not_not.mp hip
  -- Learning the server's port changes nothing of what the reaction depends on.
  obtain ⟨hstate, -, hblock, hbuf⟩ := learnPort_fields { s with rcvBuf := buffered s r } r.fromPort
  refine .ite (fun hop ↦ ?_) fun hdata ↦ .ite (fun hop ↦ ?_) fun hoack ↦
    .ite (fun hop ↦ ?_) fun herror ↦ .pure ⟨rfl, ?_⟩
  · exact recvTftpData_sees hstate hblock hip hop hbuf
  · exact recvTftpOack_sees hstate hblock hip hop hs
  · exact recvTftpError_sees hip hop hs
  · have hacts : ¬Acts s r := by
      rintro ⟨-, ⟨hop, -⟩ | ⟨hop, -⟩ | ⟨hop, -⟩⟩
      · exact hdata hop
      · exact hoack hop
      · exact herror hop
    exact .unchanged hacts hstate hblock

/-! ## Short datagrams and long ones -/

/-- The length that is passed on for a datagram without a header. -/
theorem le_wrapped : ∀ n < 4, 512 ≤ (UInt32.ofNat n - 4).toNat := by
  decide

section

variable {saves : List Save} {state : State} {blockNum : UInt16}
    (h : Reaction s r saves state blockNum)

include h

theorem Reaction.proper (hs : Proper s) : (state ≠ .wrq ∧ state ≠ .ack) ∧
    (state = .none → blockNum = 0) := by
  cases h with
  | ignored => exact ⟨hs.state, hs.idle⟩
  | ended => exact ⟨by simp, fun _ ↦ rfl⟩
  | stored _ _ _ h =>
    obtain rfl | ⟨rfl, rfl⟩ := h
    · exact ⟨by simp, nofun⟩
    · exact ⟨by simp, fun _ ↦ rfl⟩
  | agreed => exact ⟨by simp, nofun⟩
  | failed => exact ⟨by simp, fun _ ↦ rfl⟩

/-- Of a datagram with a header the data is stored, if anything. -/
theorem Reaction.of_header (h4 : 4 ≤ r.data.length) (hle : r.data.length ≤ maxMtuSize) :
    ∀ x ∈ saves, 4 + x.dataLen.toNat = r.data.length ∧ x.data.take x.dataLen.toNat =
    r.data.drop 4 := by
  cases h with
  | ignored | ended | agreed | failed => simp
  | stored _ hdata hlen =>
    obtain ⟨k, hk⟩ := Nat.exists_eq_add_of_le h4
    intro x hx
    obtain rfl := List.mem_singleton.mp hx
    have hnat : x.dataLen.toNat = k := by
      rw [hlen, hk]
      exact toNat_blockLen (by omega)
    rw [hnat, hdata, buffered, List.drop_append_of_le_length h4]
    refine ⟨hk.symm, List.take_left' ?_⟩
    rw [List.length_drop]
    omega

/-- What the client does not act upon changes nothing, unless it looks like a short block. -/
theorem Reaction.of_ignored (hlen : r.data.length < 4) (hacts : ¬Acts s r) :
    saves = [] ∧ state = s.state ∧ blockNum = s.blockNum := by
  cases h with
  | ignored => exact ⟨rfl, rfl, rfl⟩
  | ended _ hlt =>
    -- The length has wrapped around, so the block does not look short.
    exact absurd (le_wrapped _ hlen) (not_le.mpr hlt)
  | stored h | agreed h | failed h => exact absurd h hacts

/-- When it acts, it stores what it did not receive or is in another state. -/
theorem Reaction.of_acts (hlen : r.data.length < 4) (hacts : Acts s r) :
    (∃ x ∈ saves, 4 + x.dataLen.toNat ≠ r.data.length) ∨ state ≠ s.state := by
  cases h with
  | ignored h | ended h => exact absurd hacts h
  | @stored _ _ x _ _ hx =>
    refine .inl ⟨x, List.mem_singleton_self x, ?_⟩
    have := le_wrapped _ hlen
    rw [hx]
    omega
  | agreed _ hs => exact .inr (by simp [hs])
  | failed _ hs => exact .inr hs.symm

end

theorem Reacted.faithful (h : Reacted s r s' n) (hle : r.data.length ≤ maxMtuSize) :
    (Poll.mk n s').Faithful ↔ ¬Misread s r := by
  obtain ⟨htaken, hreact⟩ := h
  constructor
  · rintro ⟨hstored, hshort⟩ ⟨hlen, hacts⟩
    rcases hreact.of_acts hlen hacts with ⟨x, hx, hne⟩ | hne
    · obtain ⟨r', t, ht, heq, -⟩ := hstored x hx
      obtain ⟨rfl, -⟩ := Prod.mk.inj (Option.some.inj (ht.symm.trans htaken))
      exact hne heq
    · exact hne (hshort r s htaken hlen).1
  · intro hread
    -- A short datagram that is not misread is ignored, and from a longer one the data is stored.
    rcases Nat.lt_or_ge r.data.length 4 with hlen | h4
    · obtain ⟨hsaves, hstate, hblock⟩ := hreact.of_ignored hlen fun hacts ↦
        hread ⟨hlen, hacts⟩
      refine ⟨fun x hx ↦ ?_, fun r' t ht _ ↦ ?_⟩
      · rw [hsaves] at hx
        cases hx
      · obtain ⟨-, rfl⟩ := Prod.mk.inj (Option.some.inj (ht.symm.trans htaken))
        exact ⟨hstate, hblock⟩
    · refine ⟨fun x hx ↦ ⟨r, s, htaken, hreact.of_header h4 hle x hx⟩,
        fun r' t ht hlen ↦ ?_⟩
      obtain ⟨rfl, -⟩ := Prod.mk.inj (Option.some.inj (ht.symm.trans htaken))
      exact absurd hlen (not_lt.mpr h4)

/-! ## Polls and runs -/

theorem resendPacket_sees (hs : Proper s) (n : Seen) :
    Sees (resendPacket s) (fun _ s' n' ↦ Proper s' ∧ n' = n) s n := by
  unfold resendPacket
  refine .ite (fun _ ↦ ?_) fun _ ↦ .when (fun _ ↦ ?_) fun _ ↦ ⟨hs, rfl⟩
  · refine (sendTftpRrq_sees _ _ _ s n).imp ?_
    rintro - s' _ ⟨hrrq, rfl⟩
    exact ⟨⟨by simp [hrrq], fun h ↦ by simp [hrrq] at h⟩, rfl⟩
  · refine (sendTftpAck_sees _ s n).imp ?_
    rintro - _ _ ⟨rfl, rfl⟩
    exact ⟨hs.congr (regTimeout_state s) (regTimeout_blockNum s), rfl⟩

theorem timeoutProcess_sees (hs : Proper s) (n : Seen) :
    Sees timeoutProcess (fun _ s' n' ↦ Proper s' ∧ n' = n) s n := by
  unfold timeoutProcess
  refine .get_bind (.when (fun _ ↦ (resendPacket_sees hs n).seq ?_) fun _ ↦ ⟨hs, rfl⟩)
  rintro - s' _ ⟨hs', rfl⟩
  refine .modify_bind (.update ⟨?_, rfl⟩)
  split
  · exact ⟨by simp [Globals.init], fun _ ↦ rfl⟩
  · exact hs'.congr rfl rfl

/-- **One poll**: it is faithful if and only if it does not take the bytes of earlier datagrams for
a header that the client acts upon. -/
theorem tftpcRun_sees (hs : Proper s) : Sees tftpcRun (fun _ s' n ↦ Proper s' ∧
    ((Poll.mk n s').Faithful ↔ (Poll.mk n s').Sound)) s {} := by
  unfold tftpcRun
  refine (timeoutProcess_sees hs {}).seq ?_
  rintro - s₁ _ ⟨hs₁, rfl⟩
  refine .get_bind (.answer_bind trivial fun _ a _ ha ↦ ?_)
  cases a with
  | none => exact .get_bind (.pure ⟨hs₁, fun _ ↦ nofun, fun _ ↦ ⟨nofun, nofun⟩⟩)
  | some r =>
    refine (receiveProcess_sees hs₁ r).seq ?_
    rintro - s₂ n hreact
    obtain ⟨hstate, hidle⟩ := hreact.2.proper hs₁
    refine .get_bind (.pure ⟨⟨hstate, hidle⟩, (hreact.faithful (ha r rfl).2).trans ?_⟩)
    simp [Poll.Sound, hreact.1]

theorem start_sees (buf filename : List UInt8) (serverIp : UInt32) (s : Globals) (n : Seen) :
    Sees (tftpcInit buf >>= fun _ ↦ tftpcReadRequest serverIp filename)
    (fun _ s' _ ↦ s'.state = .rrq) s n := by
  have hinit : Sees (tftpcInit buf) (fun _ _ _ ↦ True) s n :=
    .modify_bind (.perform_bind trivial fun _ ↦ .update trivial)
  refine hinit.seq fun _ s' n' _ ↦ .modify_bind ?_
  exact (sendTftpRrq_sees _ _ _ _ _).imp fun _ _ _ h ↦ h.1

/-- The client reads at every point of a run. -/
theorem Run.proper (h : Run polls s) : Proper s := by
  induction h with
  | start h =>
    have hrrq := (start_sees _ _ _ _ _).returns h
    exact ⟨by simp [hrrq], fun h ↦ by simp [hrrq] at h⟩
  | poll _ hr ih => exact ((tftpcRun_sees ih).returns hr).1
  | @tick _ s _ _ _ hr ih =>
    have htick : Sees tftpcTimeoutHandler (fun _ s' _ ↦ s'.state = s.state ∧ s'.blockNum =
        s.blockNum) s {} := by
      refine .update ?_
      split <;> exact ⟨rfl, rfl⟩
    obtain ⟨hstate, hblock⟩ := htick.returns hr
    exact ih.congr hstate hblock

/-- **In a run of any length, with any datagrams of one byte or more, the faithful polls are those
that do not misread a short datagram.** -/
theorem Run.faithful_iff (h : Run polls s) : ∀ p ∈ polls, p.Faithful ↔ p.Sound := by
  induction h with
  | start => simp
  | @poll polls _ _ _ _ h hr ih =>
    intro p hp
    rcases List.mem_append.mp hp with hp | hp
    · exact ih p hp
    · obtain rfl := List.mem_singleton.mp hp
      exact ((tftpcRun_sees h.proper).returns hr).2
  | tick _ _ ih => exact ih

/-! ## A block that was not received -/

/-- Answers that deliver one datagram. -/
def delivers (r : Received) : (o : TftpOp) → Unit → o.Ans × Unit
  | .openSocket _, _ => ((0 : ℤ), ())
  | .send _ packet _ _, _ => ((packet.length : ℤ), ())
  | .recv _ len, _ => (if 0 < r.data.length ∧ r.data.length ≤ len then some r else none, ())
  | .saveData _ _ _, _ => ((), ())

theorem delivers_answers (r : Received) (o : TftpOp) (s : Globals) (e : Unit) :
    anywhere.answer o s e (delivers r o e).1 (delivers r o e).2 := by
  cases o with
  | recv fd len =>
    intro r' hr'
    simp only [delivers] at hr'
    split at hr'
    · obtain rfl := Option.some.inj hr'
      assumption
    · cases hr'
  | openSocket | send | saveData => trivial

/-- The client after `tftpc_init` and `tftpc_read_request`, with nothing in its buffer. -/
def begun : Config Globals (Unit × Seen) TftpOp.Ans Unit :=
  runNoted (delivers ⟨[], 0, 0⟩) Seen.note 40
    ⟨tftpcInit (List.replicate maxMtuSize 0) >>= fun _ ↦ tftpcReadRequest 0xc0a80001 [0x61], {},
      (), {}⟩

/-- A poll that finds the datagram. -/
def polled (s : Globals) (r : Received) : Config Globals (Unit × Seen) TftpOp.Ans Progress :=
  runNoted (delivers r) Seen.note 40 ⟨tftpcRun, s, (), {}⟩

def Poll.of (s : Globals) (r : Received) : Poll := ⟨(polled s r).env.2, (polled s r).store⟩

theorem Run.polled (h : Run polls s) {r : Received} (hr : (polled s r).prog.result?.isSome) :
    Run (polls ++ [.of s r]) (Tftp.polled s r).store := by
  obtain ⟨a, ha⟩ := Option.isSome_iff_exists.mp hr
  have hret : Returns (anywhere.noted Seen.note) tftpcRun s ((), {}) a (Tftp.polled s r).store
      (Tftp.polled s r).env :=
    returns_runNoted (delivers_answers r) ha
  rw [Poll.of]
  exact h.poll hret

/-- A header of another host, and half a header of the server. -/
def strayHeader : Received := ⟨[0, 3, 0, 1], 0xc0a80009, 40000⟩

def halfHeader : Received := ⟨[0, 3], 0xc0a80001, 50000⟩

def firstPoll : Poll := .of begun.store strayHeader

def secondPoll : Poll := .of (polled begun.store strayHeader).store halfHeader

theorem run_halfHeader : Run ([] ++ [firstPoll] ++ [secondPoll])
    (polled (polled begun.store strayHeader).store halfHeader).store := by
  have hstart : Run [] begun.store :=
    .start (returns_runNoted (V := anywhere) (delivers_answers _) (n := 40) (by decide))
  exact (hstart.polled (by decide)).polled (by decide)

theorem mem_halfHeader : secondPoll ∈ [] ++ [firstPoll] ++ [secondPoll] :=
  List.mem_append_right _ (List.mem_singleton_self _)

theorem faithful_iff_halfHeader : secondPoll.Faithful ↔ secondPoll.Sound := by
  have hpolls := Run.faithful_iff run_halfHeader
  exact hpolls secondPoll mem_halfHeader

/-- The second poll stores four gigabytes. -/
theorem not_faithful : ¬∀ polls s, Run polls s → ∀ p ∈ polls, p.Faithful := by
  intro h
  have hfaithful := h _ _ run_halfHeader secondPoll mem_halfHeader
  have hsaves : ∃ x ∈ secondPoll.seen.saves, x.dataLen = 0xfffffffe := by decide +kernel
  obtain ⟨x, hx, hlen⟩ := hsaves
  obtain ⟨r, s, htaken, heq, -⟩ := hfaithful.stored x hx
  have hle : r.data.length = 2 := by
    have htwo : secondPoll.seen.taken.map (fun t ↦ t.1.data.length) = some 2 := by decide +kernel
    rw [htaken] at htwo
    exact Option.some.inj htwo
  rw [hlen, hle] at heq
  exact absurd heq (by decide)

end WsmDriver.Tftp
