import Mathlib.Data.List.TakeDrop
import WsmDriver.Effect.Execution
import WsmDriver.Tftp.Reading

/-!
# Transfers without a loss

Whatever the file, a network that loses nothing and a client whose timer does not tick bring the
transfer to its end: block by block, the server sends, the client is polled, takes the datagram and
acknowledges it. So every server has a transfer that is reported as a success.
-/

namespace WsmDriver.Tftp

open Effect Program
open W6300 (be16 word word_be16)

variable {srv : Server} {s s' : Globals} {e e' : Net} {n : ℕ}

/-! ## The client's functions, answered well -/

/-- The client's timer is at its start, and it knows where the server is. -/
structure Calm (srv : Server) (s : Globals) : Prop where
  ip : s.serverIp = srv.ip
  timeCnt : s.timeCnt = 0
  timeout : s.timeout = 5

theorem Calm.regTimeout (h : Calm srv s) : Calm srv s.regTimeout := by
  unfold Globals.regTimeout
  split
  · exact ⟨h.ip, rfl, h.timeout⟩
  · exact h

theorem Calm.cancelTimeout (h : Calm srv s) : Calm srv s.cancelTimeout := by
  unfold Globals.cancelTimeout
  split
  · exact ⟨h.ip, rfl, h.timeout⟩
  · exact h

theorem regTimeout_serverPort (s : Globals) : s.regTimeout.serverPort = s.serverPort := by
  unfold Globals.regTimeout
  split <;> rfl

theorem cancelTimeout_serverPort (s : Globals) : s.cancelTimeout.serverPort = s.serverPort := by
  unfold Globals.cancelTimeout
  split <;> rfl

theorem returns_sendUdpPacket (srv : Server) (s : Globals) (e : Net) (packet : List UInt8)
    (ip : UInt32) (port : UInt16) :
    Returns (net srv) (discard (sendUdpPacket packet ip port)) s e () s
      (e.hear srv packet ip port) := by
  have hans : (net srv).answer (.send s.socket packet ip port) s e 0 (e.hear srv packet ip port) :=
    .inr rfl
  exact .get_bind (.perform_bind hans (.pure _ _ _))

theorem returns_sendTftpAck {b : UInt16} (hip : s.serverIp = srv.ip)
    (hport : s.serverPort = srv.port) :
    Returns (net srv) (sendTftpAck b) s e () s.regTimeout { e with acks := b :: e.acks } := by
  have hhear : e.hear srv (ackPacket b) s.serverIp s.serverPort =
      { e with acks := b :: e.acks } := by
    have hop : word (ackPacket b) = tftpAck := word_be16 tftpAck
    have hnum : word ((ackPacket b).drop 2) = b := word_be16 b
    have hne : ¬tftpAck = tftpRrq := by decide
    rw [Net.hear, hop, hnum, if_neg fun h ↦ hne h.2.2, if_pos ⟨hip, hport, rfl⟩]
  refine .get_bind (.seq (returns_sendUdpPacket _ _ _ _ _ _) ?_)
  rw [hhear]
  exact .modify _ _ _

/-- After the block `n` the client goes on or is done. -/
structure Taken (srv : Server) (n : ℕ) (e : Net) (s' : Globals) (e' : Net) : Prop where
  sent : e'.sent = e.sent
  goesOn : n < srv.blockCount → Calm srv s' ∧ s'.serverPort = srv.port ∧ s'.state = .data ∧
    UInt16.ofNat n ∈ e'.acks
  done : n = srv.blockCount → s'.progress = .success

theorem returns_answerBlock (hs : Calm srv s) (hport : s.serverPort = srv.port)
    (hstate : s.state = .data) (hn : n ≠ 0) (hle : n ≤ srv.blockCount) :
    ∃ s' e', Returns (net srv)
      (answerBlock (UInt32.ofNat (srv.dataPacket n).length) (UInt16.ofNat n)) s e () s' e' ∧
      Taken srv n e s' e' := by
  unfold answerBlock
  have hack := returns_sendTftpAck (e := e) (b := UInt16.ofNat n) hs.ip hport
  -- Every block but the last is full, and only a short one ends the transfer.
  rcases Nat.lt_or_eq_of_le hle with hlt | heq
  · have hfull : ¬UInt32.ofNat (srv.dataPacket n).length - 4 < tftpBlkSize :=
      fun h ↦ hlt.ne ((short_iff hn hle).mp h)
    refine ⟨s.regTimeout, { e with acks := UInt16.ofNat n :: e.acks }, .seq hack ?_, rfl,
      fun _ ↦ ?_, fun h ↦ absurd h hlt.ne⟩
    · rw [when, if_neg hfull]
      exact .pure _ _ _
    · exact ⟨hs.regTimeout, (regTimeout_serverPort s).trans hport,
        (regTimeout_state s).trans hstate, List.mem_cons_self⟩
  · have hshort := (short_iff hn hle).mpr heq
    refine ⟨{ s.regTimeout.init with progress := .success },
      { e with acks := UInt16.ofNat n :: e.acks },
      .seq hack ?_, rfl, fun h ↦ absurd heq h.ne, fun _ ↦ rfl⟩
    rw [when, if_pos hshort]
    exact .modify _ _ _

theorem returns_acceptBlock (srv : Server) (s : Globals) (e : Net) (msgLen : UInt32) (b : UInt16) :
    ∃ e', Returns (net srv) (acceptBlock msgLen b) s e ()
    ({ s with state := .data, blockNum := b } : Globals).cancelTimeout e' ∧ e'.sent = e.sent := by
  have hans : (net srv).answer (.saveData (s.rcvBuf.drop 4) (msgLen - 4) b)
    { s with state := .data, blockNum := b } e
    () { e with saved := e.saved ++ (s.rcvBuf.drop 4).take (msgLen - 4).toNat } := rfl
  exact ⟨_, .modify_bind (.get_bind (.perform_bind hans (.modify _ _ _))), rfl⟩

/-- A block is taken: whether it is the expected one matters only before the first. -/
theorem returns_takeBlock {accept : Prop} [Decidable accept] (hs : Calm srv s)
    (hport : s.serverPort = srv.port) (hstate : accept ∨ s.state = .data) (hn : n ≠ 0)
    (hle : n ≤ srv.blockCount) :
    ∃ s' e', Returns (net srv) (do
      when accept (acceptBlock (UInt32.ofNat (srv.dataPacket n).length) (UInt16.ofNat n))
      answerBlock (UInt32.ofNat (srv.dataPacket n).length) (UInt16.ofNat n)) s e () s' e' ∧
      Taken srv n e s' e' := by
  by_cases ha : accept
  · rw [when, if_pos ha]
    obtain ⟨e₁, haccept, hsent⟩ := returns_acceptBlock srv s e
      (UInt32.ofNat (srv.dataPacket n).length) (UInt16.ofNat n)
    have hs₁ : Calm srv { s with state := .data, blockNum := UInt16.ofNat n } :=
      ⟨hs.ip, hs.timeCnt, hs.timeout⟩
    obtain ⟨s', e', hanswer, htaken⟩ := returns_answerBlock (e := e₁) hs₁.cancelTimeout
      ((cancelTimeout_serverPort _).trans hport) (cancelTimeout_state _) hn hle
    exact ⟨s', e', .seq haccept hanswer, htaken.sent.trans hsent, htaken.goesOn, htaken.done⟩
  · rw [when, if_neg ha]
    exact returns_answerBlock hs hport (hstate.resolve_left ha) hn hle

/-! ## A poll that finds the next block -/

/-- The client waits for the block after the `n`-th one. -/
structure Awaits (srv : Server) (n : ℕ) (s : Globals) : Prop where
  calm : Calm srv s
  first : n = 0 → s.state = .rrq
  later : n ≠ 0 → s.state = .data ∧ s.serverPort = srv.port

theorem returns_recvTftpData {rest : List UInt8} (hs : Awaits srv n s)
    (hport : s.serverPort = srv.port) (hle : n + 1 ≤ srv.blockCount)
    (hbuf : s.rcvBuf = srv.dataPacket (n + 1) ++ rest) :
    ∃ s' e', Returns (net srv)
      (recvTftpData (UInt32.ofNat (srv.dataPacket (n + 1)).length)) s e () s' e' ∧ Taken srv
      (n + 1) e s' e' := by
  have hcalm : Calm srv { s with rcvBuf := swapAt (swapAt s.rcvBuf 0) 2 } :=
    ⟨hs.calm.ip, hs.calm.timeCnt, hs.calm.timeout⟩
  -- The first block is awaited in the states RRQ and OACK, where its number has to be 1.
  by_cases hn : n = 0
  · have hone : UInt16.ofNat (n + 1) = 1 := by rw [hn]; rfl
    obtain ⟨s', e', hret, htaken⟩ :=
      returns_takeBlock (e := e) hcalm hport (.inl hone) n.succ_ne_zero hle
    refine ⟨s', e', .get_bind (.modify_bind ?_), htaken⟩
    rw [blockNum_dataPacket hbuf, if_pos (.inl (hs.first hn))]
    exact hret
  · obtain ⟨hstate, -⟩ := hs.later hn
    have hdata : (UInt16.ofNat (n + 1)).toNat = s.blockNum.toNat + 1 ∨ s.state = .data :=
      .inr hstate
    obtain ⟨s', e', hret, htaken⟩ :=
      returns_takeBlock (e := e) hcalm hport hdata n.succ_ne_zero hle
    refine ⟨s', e', .get_bind (.modify_bind ?_), htaken⟩
    have hne : ¬(s.state = .rrq ∨ s.state = .oack) := by simp [hstate]
    rw [blockNum_dataPacket hbuf, if_neg hne, if_pos hstate]
    exact hret

/-- The datagram comes from the server's port, which the client learns or knows. -/
theorem Awaits.learnPort (hs : Awaits srv n s) :
    Awaits srv n (s.learnPort srv.port) ∧ (s.learnPort srv.port).serverPort = srv.port := by
  have hstate := (learnPort_fields s srv.port).1
  unfold Globals.learnPort at hstate ⊢
  split
  next h => exact ⟨⟨⟨hs.calm.ip, hs.calm.timeCnt, hs.calm.timeout⟩, hs.first,
    fun hn ↦ ⟨(hs.later hn).1, rfl⟩⟩, rfl⟩
  next h => exact ⟨hs, (hs.later fun hn ↦ h (.inr (hs.first hn))).2⟩

theorem returns_timeoutProcess (hs : Calm srv s) : Returns (net srv) timeoutProcess s e () s e := by
  have htime : ¬(s.resendFlag = true ∧ s.timeout ≤ s.timeCnt) := by
    rw [hs.timeCnt, hs.timeout]
    exact fun h ↦ absurd h.2 (by decide)
  refine .get_bind ?_
  rw [when, if_neg htime]
  exact .pure _ _ _

theorem returns_receiveProcess (hs : Awaits srv n s) (hle : n + 1 ≤ srv.blockCount) :
    ∃ s' e', Returns (net srv)
    (receiveProcess (some ⟨srv.dataPacket (n + 1), srv.ip, srv.port⟩)) s e () s' e' ∧ Taken srv
    (n + 1) e s' e' := by
  have hbuffered : Awaits srv n { s with
      rcvBuf := srv.dataPacket (n + 1) ++ s.rcvBuf.drop (srv.dataPacket (n + 1)).length } :=
    ⟨⟨hs.calm.ip, hs.calm.timeCnt, hs.calm.timeout⟩, hs.first, hs.later⟩
  obtain ⟨hawaits, hport⟩ := hbuffered.learnPort
  obtain ⟨s', e', hret, htaken⟩ := returns_recvTftpData (e := e) hawaits hport hle
    (learnPort_fields { s with
      rcvBuf := srv.dataPacket (n + 1) ++ s.rcvBuf.drop (srv.dataPacket (n + 1)).length }
        srv.port).2.2.2
  refine ⟨s', e', .modify_bind (.get_bind ?_), htaken⟩
  rw [if_neg (fun h ↦ h hs.calm.ip.symm)]
  refine .modify_bind ?_
  rw [if_pos (word_dataPacket rfl)]
  exact hret

theorem returns_tftpcRun (hs : Awaits srv n s) (hsent : e.sent = n + 1)
    (hle : n + 1 ≤ srv.blockCount) :
    ∃ s' e', Returns (net srv) tftpcRun s e s'.progress s' e' ∧ Taken srv (n + 1) e s' e' := by
  have hans : (net srv).answer (.recv s.socket maxMtuSize) s e
      (some ⟨srv.dataPacket (n + 1), srv.ip, srv.port⟩) e := by
    refine ⟨rfl, ?_⟩
    rintro _ ⟨⟩
    refine ⟨.inl ⟨n + 1, n.succ_ne_zero, hsent.ge, rfl⟩, ?_, rfl, rfl⟩
    have hlen := srv.length_block_le (n + 1)
    rw [length_dataPacket, maxMtuSize]
    omega
  obtain ⟨s', e', hret, htaken⟩ := returns_receiveProcess (e := e) hs hle
  exact ⟨s', e', .seq (returns_timeoutProcess hs.calm) (.get_bind (.perform_bind hans (.seq hret
    (.get_bind (.pure _ _ _))))), htaken⟩

/-! ## The whole transfer -/

/-- A point of a transfer at which the server can send the block after the `n`-th one. -/
structure Ready (srv : Server) (n : ℕ) (s : Globals) (e : Net) : Prop where
  transfer : Transfer srv s e
  awaits : Awaits srv n s
  sent : e.sent = n
  asked : n = 0 → e.requested = true ∧ e.oacked = false
  acked : n ≠ 0 → UInt16.ofNat n ∈ e.acks

theorem Transfer.drift (h : Transfer srv s e) (hm : e.Moves srv e') : Transfer srv s e' := by
  obtain ⟨buf, filename, s₀, s₁, e₁, hbegin, hruns⟩ := h
  exact ⟨buf, filename, s₀, s₁, e₁, hbegin, hruns.drift .run hm⟩

theorem Transfer.run {r : Progress} (h : Transfer srv s e)
    (hr : Returns (net srv) tftpcRun s e r s' e') : Transfer srv s' e' := by
  obtain ⟨buf, filename, s₀, s₁, e₁, hbegin, hruns⟩ := h
  exact ⟨buf, filename, s₀, s₁, e₁, hbegin, hruns.call .run trivial (.seq hr (.pure _ _ _))⟩

theorem Ready.moves (h : Ready srv n s e) (hn : n < srv.blockCount) :
    e.Moves srv { e with sent := n + 1 } := by
  by_cases hzero : n = 0
  · subst hzero
    exact .first (h.asked rfl).1 (h.asked rfl).2 h.sent
  · have hmove : e.Moves srv { e with sent := e.sent + 1 } :=
      .next (h.sent.symm ▸ h.acked hzero) (.inl (h.sent.symm ▸ hzero)) (h.sent.symm ▸ hn)
    rwa [h.sent] at hmove

/-- The server sends a block, and the client takes it. -/
theorem Ready.block (h : Ready srv n s e) (hn : n < srv.blockCount) :
    ∃ s' e', Transfer srv s { e with sent := n + 1 } ∧
    Returns (net srv) tftpcRun s { e with sent := n + 1 } s'.progress s' e' ∧
    Taken srv (n + 1) { e with sent := n + 1 } s' e' := by
  obtain ⟨s', e', hret, htaken⟩ := returns_tftpcRun (e := { e with sent := n + 1 }) h.awaits rfl hn
  exact ⟨s', e', h.transfer.drift (h.moves hn), hret, htaken⟩

theorem ready_zero (srv : Server) : ∃ s e, Ready srv 0 s e := by
  set s₁ : Globals := { ({} : Globals).init with serverIp := srv.ip, socket := 0 } with hs₁
  have hopen : (net srv).answer (.openSocket tftpTempPort) ({} : Globals).init {} (0 : ℤ) {} := rfl
  have hhear : ({} : Net).hear srv (rrqPacket [] transBinary [defaultTftpOpt]) srv.ip
      tftpServerPort = { requested := true } := if_pos ⟨rfl, rfl, word_be16 tftpRrq⟩
  have hsend := returns_sendUdpPacket srv s₁ {} (rrqPacket [] transBinary [defaultTftpOpt]) srv.ip
    tftpServerPort
  rw [hhear] at hsend
  have hbegin : Returns (net srv) (beginRead srv [] []) {} {} ()
      ({ s₁ with state := .rrq, filename := [] } : Globals).regTimeout { requested := true } :=
    .seq (.modify_bind (.perform_bind hopen (.modify _ _ _)))
      (.modify_bind (.get_bind (.seq hsend (.modify _ _ _))))
  refine ⟨_, _, ⟨[], [], {}, _, _, hbegin, .start⟩,
    ⟨⟨rfl, rfl, rfl⟩, fun _ ↦ rfl, fun h ↦ absurd rfl h⟩, rfl,
    fun _ ↦ ⟨rfl, rfl⟩, fun h ↦ absurd rfl h⟩

/-- Before every block there is a point at which the server can send it. -/
theorem exists_ready (srv : Server) : ∀ n < srv.blockCount, ∃ s e, Ready srv n s e := by
  intro n
  induction n with
  | zero => exact fun _ ↦ ready_zero srv
  | succ n ih =>
    intro hn
    obtain ⟨s, e, h⟩ := ih (Nat.lt_of_succ_lt hn)
    obtain ⟨s', e', htransfer, hret, htaken⟩ := h.block (Nat.lt_of_succ_lt hn)
    obtain ⟨hcalm, hport, hstate, hacked⟩ := htaken.goesOn hn
    exact ⟨s', e', htransfer.run hret, ⟨hcalm, fun h ↦ absurd h n.succ_ne_zero,
      fun _ ↦ ⟨hstate, hport⟩⟩,
      htaken.sent, fun h ↦ absurd h n.succ_ne_zero, fun _ ↦ hacked⟩

/-- **Every file can be transferred with success.** -/
theorem transfer_succeeds (srv : Server) : ∃ s e s' e', Transfer srv s e ∧
    Returns (net srv) tftpcRun s e .success s' e' := by
  have hpos : srv.blockCount ≠ 0 := Nat.succ_ne_zero _
  obtain ⟨s, e, h⟩ := exists_ready srv (srv.blockCount - 1) (Nat.sub_one_lt hpos)
  obtain ⟨s', e', htransfer, hret, htaken⟩ := h.block (Nat.sub_one_lt hpos)
  rw [htaken.done (Nat.succ_pred_eq_of_ne_zero hpos)] at hret
  exact ⟨s, _, s', e', htransfer, hret⟩

/-! ## What is stored -/

/-- **A successful read has stored the whole file exactly when the file has no more than 65535 full
blocks.** -/
theorem success_stores_file_iff (srv : Server) : (∀ s e s' e', Transfer srv s e →
    Returns (net srv) tftpcRun s e .success s' e' → e'.saved = srv.file) ↔ srv.file.length ≤
    512 * lastNumber := by
  constructor
  · intro h
    obtain ⟨s, e, s', e', htransfer, hret⟩ := transfer_succeeds srv
    have hwhole := h s e s' e' htransfer hret
    rw [htransfer.saved hret] at hwhole
    exact (List.take_eq_self_iff _).mp hwhole
  · intro h s e s' e' htransfer hret
    rw [htransfer.saved hret, List.take_of_length_le h]

/-- A file of one byte more is cut short. -/
theorem success_without_last_byte : ∃ srv : Server, srv.file = List.replicate 33553921 0 ∧
    ∃ s e s' e',
    Transfer srv s e ∧ Returns (net srv) tftpcRun s e .success s' e' ∧ e'.saved ≠ srv.file := by
  refine ⟨⟨List.replicate 33553921 0, 0, 50000, []⟩, rfl, ?_⟩
  obtain ⟨s, e, s', e', htransfer, hret⟩ :=
    transfer_succeeds ⟨List.replicate 33553921 0, 0, 50000, []⟩
  refine ⟨s, e, s', e', htransfer, hret, fun hwhole ↦ ?_⟩
  rw [htransfer.saved hret] at hwhole
  have hlen := congrArg List.length hwhole
  rw [List.length_take, List.length_replicate] at hlen
  exact absurd hlen (by decide)

end WsmDriver.Tftp
