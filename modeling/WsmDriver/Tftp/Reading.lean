import WsmDriver.Effect.History
import WsmDriver.Tftp.Server

/-!
# Reading a file

The client's block counter, the acknowledgements on the network and the server's position move in
step: the server is at most one block ahead, and no acknowledgement of a later block than the
client's is on the network. So a block that arrives is the next one or an old one, and the last
block ends the transfer when everything before it has been stored.

This ends with block 65535. The number after it is 0, which the client never takes for the next one;
it goes on acknowledging what it no longer stores, up to the last block, and reports success.
-/

namespace WsmDriver.Tftp

open Effect Program
open W6300 (be16 word word_be16)

/-- The number of the last block that the client stores. -/
def lastNumber : ℕ := 65535

variable {srv : Server} {s s' : Globals} {e e' : Net} {n : ℕ}

/-! ## The invariant -/

/-- Where a transfer is. -/
inductive Phase (srv : Server) (s : Globals) (e : Net) : Prop
  /-- Nothing has arrived but an `OACK`. -/
  | waiting (hstate : s.state = .rrq ∨ s.state = .oack) (hprogress : s.progress = .progress)
    (hblock : s.blockNum = 0) (hsaved : e.saved = []) (hsent : e.sent ≤ 1) (hacks : ∀ a ∈ e.acks, a = 0)
  /-- Some blocks are stored, and the last one has not arrived. -/
  | reading (hstate : s.state = .data) (hprogress : s.progress = .progress)
    (hpos : s.blockNum.toNat ≠ 0)
    (hlt : s.blockNum.toNat < srv.blockCount) (hsaved : e.saved =
      srv.file.take (512 * s.blockNum.toNat))
    (hstep : s.blockNum.toNat < lastNumber →
      e.sent ≤ s.blockNum.toNat + 1 ∧ ∀ a ∈ e.acks, a.toNat ≤ s.blockNum.toNat)
  /-- The transfer is over. -/
  | finished (hstate : s.state = .none)
    (hdone : s.progress = .success → e.saved = srv.file.take (512 * lastNumber))

/-- The invariant of a transfer. -/
structure Inv (srv : Server) (s : Globals) (e : Net) : Prop where
  sent_le : e.sent ≤ srv.blockCount
  phase : Phase srv s e

/-- The acknowledgement of the block `b` is no later than the client. -/
def Ackable (s : Globals) (b : UInt16) : Prop :=
  (s.state = .rrq ∨ s.state = .oack → b = 0) ∧
    (s.state = .data → s.blockNum.toNat < lastNumber → b.toNat ≤ s.blockNum.toNat)

/-- What the phase depends on. -/
theorem Phase.congr (h : Phase srv s e) (hstate : s'.state = s.state)
    (hprogress : s'.progress = s.progress) (hblock : s'.blockNum = s.blockNum) :
    Phase srv s' e := by
  cases h with
  | waiting h₁ h₂ h₃ h₄ h₅ h₆ =>
    exact .waiting (hstate ▸ h₁) (hprogress.trans h₂) (hblock.trans h₃) h₄ h₅ h₆
  | reading h₁ h₂ h₃ h₄ h₅ h₆ =>
    refine .reading (hstate.trans h₁) (hprogress.trans h₂) ?_ ?_ ?_ ?_ <;> rw [hblock] <;>
      assumption
  | finished h₁ h₂ => exact .finished (hstate.trans h₁) fun hs ↦ h₂ (hprogress.symm.trans hs)

theorem Phase.of_net (h : Phase srv s e) (hsaved : e'.saved = e.saved) (hsent : e'.sent = e.sent)
    (hacks : e'.acks = e.acks) : Phase srv s e' := by
  cases h with
  | waiting h₁ h₂ h₃ h₄ h₅ h₆ =>
    exact .waiting h₁ h₂ h₃ (hsaved.trans h₄) (hsent ▸ h₅) (hacks ▸ h₆)
  | reading h₁ h₂ h₃ h₄ h₅ h₆ =>
    exact .reading h₁ h₂ h₃ h₄ (hsaved.trans h₅) (hsent ▸ hacks ▸ h₆)
  | finished h₁ h₂ => exact .finished h₁ fun hs ↦ hsaved.trans (h₂ hs)

/-- Before the first block the client is at none. -/
theorem Phase.blockNum_eq_zero (h : Phase srv s e) (hs : s.state = .rrq ∨ s.state = .oack) :
    s.blockNum = 0 := by
  cases h with
  | waiting _ _ h₃ => exact h₃
  | reading h₁ => obtain hs | hs := hs <;> cases h₁.symm.trans hs
  | finished h₁ => obtain hs | hs := hs <;> cases h₁.symm.trans hs

theorem Inv.congr (h : Inv srv s e) (hstate : s'.state = s.state)
    (hprogress : s'.progress = s.progress) (hblock : s'.blockNum = s.blockNum) : Inv srv s' e :=
  ⟨h.sent_le, h.phase.congr hstate hprogress hblock⟩

/-- A number below the modulus is itself. -/
theorem toNat_ofNat_of_le (h : n ≤ lastNumber) : (UInt16.ofNat n).toNat = n :=
  UInt16.toNat_ofNat_of_lt' (Nat.lt_of_le_of_lt h (by decide))

theorem Inv.moves (h : Inv srv s e) (hm : e.Moves srv e') : Inv srv s e' := by
  obtain ⟨hle, hphase⟩ := h
  cases hm with
  | first hr ho hs =>
    refine ⟨Nat.succ_le_succ (Nat.zero_le _), ?_⟩
    cases hphase with
    | waiting h₁ h₂ h₃ h₄ _ h₆ => exact .waiting h₁ h₂ h₃ h₄ (Nat.le_refl _) h₆
    | reading h₁ h₂ h₃ h₄ h₅ h₆ =>
      exact .reading h₁ h₂ h₃ h₄ h₅ fun hlast ↦
        ⟨Nat.succ_le_succ (Nat.zero_le _), (h₆ hlast).2⟩
    | finished h₁ h₂ => exact .finished h₁ h₂
  | oack hr hs => exact ⟨hle, hphase.of_net rfl rfl rfl⟩
  | next ha hs hb =>
    refine ⟨hb, ?_⟩
    cases hphase with
    | waiting h₁ h₂ h₃ h₄ h₅ h₆ =>
      -- What the client has acknowledged is no block, so the server has sent none.
      have hzero : e.sent = 0 := by
        have hnum := congrArg UInt16.toNat (h₆ _ ha)
        rw [toNat_ofNat_of_le (Nat.le_trans h₅ (by decide))] at hnum
        exact hnum
      exact .waiting h₁ h₂ h₃ h₄ (by rw [hzero]) h₆
    | reading h₁ h₂ h₃ h₄ h₅ h₆ =>
      refine .reading h₁ h₂ h₃ h₄ h₅ fun hlast ↦ ⟨?_, (h₆ hlast).2⟩
      obtain ⟨hsent, hacks⟩ := h₆ hlast
      have hack := hacks _ ha
      rw [toNat_ofNat_of_le (Nat.le_trans hsent hlast)] at hack
      exact Nat.succ_le_succ hack
    | finished h₁ h₂ => exact .finished h₁ h₂

theorem Inv.drifts (h : Inv srv s e) (hd : (net srv).Drifts e e') : Inv srv s e' :=
  hd.induct (P := Inv srv s) (fun _ _ hm h ↦ h.moves hm) h

theorem Inv.ack {b : UInt16} (h : Inv srv s e) (hb : Ackable s b) :
    Inv srv s { e with acks := b :: e.acks } := by
  obtain ⟨hle, hphase⟩ := h
  refine ⟨hle, ?_⟩
  cases hphase with
  | waiting h₁ h₂ h₃ h₄ h₅ h₆ =>
    refine .waiting h₁ h₂ h₃ h₄ h₅ fun a ha ↦ ?_
    rcases List.mem_cons.mp ha with rfl | ha
    · exact hb.1 h₁
    · exact h₆ a ha
  | reading h₁ h₂ h₃ h₄ h₅ h₆ =>
    refine .reading h₁ h₂ h₃ h₄ h₅ fun hlast ↦ ⟨(h₆ hlast).1, fun a ha ↦ ?_⟩
    rcases List.mem_cons.mp ha with rfl | ha
    · exact hb.2 h₁ hlast
    · exact (h₆ hlast).2 a ha
  | finished h₁ h₂ => exact .finished h₁ h₂

theorem Inv.request (h : Inv srv s e) : Inv srv s { e with requested := true } :=
  ⟨h.sent_le, h.phase.of_net rfl rfl rfl⟩

/-! ## What the client does -/

section

variable {J : Net → Prop}

/-- A packet is sent: it reaches the network or not. -/
theorem sendUdpPacket_keeps {packet : List UInt8} {ip : UInt32} {port : UInt16}
    (hd : ∀ e e', J e → (net srv).Drifts e e' → J e')
    (hh : ∀ e, J e → J (e.hear srv packet ip port)) (h : J e) :
    wlp (net srv) (fun _ _ _ ↦ True) (discard (sendUdpPacket packet ip port))
      (fun _ s' e' ↦ s' = s ∧ J e') s e := by
  unfold sendUdpPacket
  refine pre_get_bind.mpr fun e₁ he₁ ↦ ⟨trivial, ?_⟩
  rintro a e₂ (rfl | rfl) e₃ he₃
  · exact ⟨rfl, hd _ _ (hd _ _ h he₁) he₃⟩
  · exact ⟨rfl, hd _ _ (hh _ (hd _ _ h he₁)) he₃⟩

end

@[simp] theorem regTimeout_state (s : Globals) : s.regTimeout.state = s.state := by
  unfold Globals.regTimeout
  split <;> rfl

@[simp] theorem regTimeout_progress (s : Globals) : s.regTimeout.progress = s.progress := by
  unfold Globals.regTimeout
  split <;> rfl

@[simp] theorem regTimeout_blockNum (s : Globals) : s.regTimeout.blockNum = s.blockNum := by
  unfold Globals.regTimeout
  split <;> rfl

@[simp] theorem cancelTimeout_state (s : Globals) : s.cancelTimeout.state = s.state := by
  unfold Globals.cancelTimeout
  split <;> rfl

@[simp] theorem cancelTimeout_progress (s : Globals) : s.cancelTimeout.progress = s.progress := by
  unfold Globals.cancelTimeout
  split <;> rfl

@[simp] theorem cancelTimeout_blockNum (s : Globals) : s.cancelTimeout.blockNum = s.blockNum := by
  unfold Globals.cancelTimeout
  split <;> rfl

theorem sendTftpAck_inv {b : UInt16} (h : Inv srv s e) (hb : Ackable s b) :
    wlp (net srv) (fun _ _ _ ↦ True) (sendTftpAck b)
    (fun _ s' e' ↦ s' = s.regTimeout ∧ Inv srv s' e') s e := by
  unfold sendTftpAck
  refine pre_get_bind.mpr
    (pre.seq (sendUdpPacket_keeps (J := Inv srv s) (fun _ _ ↦ Inv.drifts) ?_ h) ?_)
  · intro e h
    obtain heq | heq := hear_ackPacket srv e b s.serverIp s.serverPort <;> rw [heq]
    · exact h
    · exact h.ack hb
  · rintro - _ e₁ ⟨rfl, h₁⟩ e₂ he₂
    exact ⟨rfl, (h₁.drifts he₂).congr (regTimeout_state _) (regTimeout_progress _)
      (regTimeout_blockNum _)⟩

theorem sendTftpRrq_inv {filename mode : List UInt8} {opt : List (List UInt8 × List UInt8)}
    (h : Inv srv { s with state := .rrq, filename := filename } e) :
    wlp (net srv) (fun _ _ _ ↦ True) (sendTftpRrq filename mode opt) (fun _ s' e' ↦ Inv srv s' e')
      s e := by
  unfold sendTftpRrq
  refine pre_get_bind.mpr (pre.seq (sendUdpPacket_keeps
    (J := Inv srv { s with state := .rrq, filename := filename }) (fun _ _ ↦ Inv.drifts) ?_ h) ?_)
  · intro e h
    obtain heq | heq := hear_rrqPacket srv e filename mode opt s.serverIp tftpServerPort <;>
      rw [heq]
    · exact h
    · exact h.request
  · rintro - _ e₁ ⟨rfl, h₁⟩ e₂ he₂
    exact (h₁.drifts he₂).congr (regTimeout_state _) (regTimeout_progress _)
      (regTimeout_blockNum _)

/-- A block that is not the last is acknowledged. -/
theorem answerBlock_full {msgLen : UInt32} {b : UInt16} (h : Inv srv s e) (hb : Ackable s b)
    (hlen : ¬msgLen - 4 < tftpBlkSize) :
    wlp (net srv) (fun _ _ _ ↦ True) (answerBlock msgLen b) (fun _ s' e' ↦ Inv srv s' e') s e := by
  unfold answerBlock
  refine (sendTftpAck_inv h hb).seq ?_
  rintro - _ e₁ ⟨rfl, h₁⟩
  refine pre_when (fun hlt ↦ absurd hlt hlen) fun _ e₂ he₂ ↦ h₁.drifts he₂

/-- The last block is acknowledged, and ends the transfer. -/
theorem answerBlock_short {msgLen : UInt32} {b : UInt16} (hle : e.sent ≤ srv.blockCount)
    (hsaved : e.saved = srv.file.take (512 * lastNumber)) (hlen : msgLen - 4 < tftpBlkSize) :
    wlp (net srv) (fun _ _ _ ↦ True) (answerBlock msgLen b) (fun _ s' e' ↦ Inv srv s' e') s e := by
  -- While the acknowledgement is sent the client may as well be done.
  have hover : Inv srv { s.init with progress := .success } e :=
    ⟨hle, .finished rfl fun _ ↦ hsaved⟩
  unfold answerBlock sendTftpAck
  refine pre_bind (pre_get_bind.mpr (pre.seq (sendUdpPacket_keeps
    (J := Inv srv { s.init with progress := .success }) (fun _ _ ↦ Inv.drifts) ?_ hover) ?_))
  · intro e h
    obtain heq | heq := hear_ackPacket srv e b s.serverIp s.serverPort <;> rw [heq]
    · exact h
    · exact h.ack ⟨fun hs ↦ by simp [Globals.init] at hs, fun hs ↦ by
        simp [Globals.init] at hs⟩
  · rintro - _ e₁ ⟨rfl, h₁⟩ e₂ he₂
    refine pre_when (fun _ e₃ he₃ ↦ ?_) fun hge ↦ absurd hlen hge
    exact ((h₁.drifts he₂).drifts he₃).congr rfl rfl rfl

/-! ## Blocks -/

/-- The block `n` is the client's, and `stored` is what the application has. -/
structure Ahead (srv : Server) (n : ℕ) (stored : List UInt8) (e : Net) : Prop where
  sent_le : e.sent ≤ srv.blockCount
  step : n < lastNumber → e.sent ≤ n + 1 ∧ ∀ a ∈ e.acks, a.toNat ≤ n
  saved : e.saved = stored

theorem Ahead.moves {stored : List UInt8} (h : Ahead srv n stored e) (hm : e.Moves srv e') :
    Ahead srv n stored e' := by
  cases hm with
  | first hr ho hs =>
    exact ⟨Nat.succ_le_succ (Nat.zero_le _), fun hn ↦ ⟨Nat.succ_le_succ (Nat.zero_le _),
      (h.step hn).2⟩, h.saved⟩
  | oack hr hs => exact ⟨h.sent_le, h.step, h.saved⟩
  | next ha hs hb =>
    refine ⟨hb, fun hn ↦ ⟨?_, (h.step hn).2⟩, h.saved⟩
    have hack := (h.step hn).2 _ ha
    rw [toNat_ofNat_of_le (Nat.le_trans (h.step hn).1 hn)] at hack
    exact Nat.succ_le_succ hack

theorem Ahead.drifts {stored : List UInt8} (h : Ahead srv n stored e) (hd : (net srv).Drifts e e') :
    Ahead srv n stored e' := hd.induct (P := Ahead srv n stored) (fun _ _ hm h ↦ h.moves hm) h

/-- The expected block is stored. -/
theorem acceptBlock_ahead {msgLen : UInt32} {b : UInt16}
    (h : Ahead srv (n + 1) (srv.file.take (512 * n)) e)
    (hdata : (s.rcvBuf.drop 4).take (msgLen - 4).toNat = srv.block (n + 1)) :
    wlp (net srv) (fun _ _ _ ↦ True) (acceptBlock msgLen b)
    (fun _ s' e' ↦ s'.state = .data ∧ s'.blockNum = b ∧
      s'.progress = s.progress ∧ Ahead srv (n + 1) (srv.file.take (512 * (n + 1))) e') s e := by
  unfold acceptBlock
  refine pre_modify_bind.mpr (pre_get_bind.mpr fun e₁ he₁ ↦ ⟨trivial, ?_⟩)
  rintro - e₂ rfl e₃ he₃
  obtain ⟨hle, hstep, hsaved⟩ := h.drifts he₁
  have hstored : Ahead srv (n + 1) (srv.file.take (512 * (n + 1)))
      { e₁ with saved := e₁.saved ++ (s.rcvBuf.drop 4).take (msgLen - 4).toNat } :=
    ⟨hle, hstep, by rw [hsaved, hdata, Server.take_append_block]⟩
  exact ⟨cancelTimeout_state _, cancelTimeout_blockNum _, cancelTimeout_progress _,
    hstored.drifts he₃⟩

theorem Ahead.inv_full {b : UInt16} (h : Ahead srv n (srv.file.take (512 * n)) e) (hn : n ≠ 0)
    (hlt : n < srv.blockCount) (hb : b.toNat = n) (hstate : s.state = .data)
    (hblock : s.blockNum = b) (hprogress : s.progress = .progress) : Inv srv s e := by
  refine ⟨h.sent_le, .reading hstate hprogress ?_ ?_ ?_ ?_⟩ <;> rw [hblock, hb]
  · exact hn
  · exact hlt
  · exact h.saved
  · exact h.step

theorem toNat_blockLen {len : ℕ} (h : len ≤ maxMtuSize) : (UInt32.ofNat (4 + len) - 4).toNat =
    len := by
  have hlen : (UInt32.ofNat (4 + len)).toNat = 4 + len := UInt32.toNat_ofNat_of_lt' (by
    rw [maxMtuSize] at h
    change _ < 2 ^ 32
    omega)
  have h4 : (4 : UInt32) ≤ UInt32.ofNat (4 + len) := by
    rw [UInt32.le_iff_toNat_le, hlen]
    exact Nat.le_add_right 4 len
  rw [UInt32.toNat_sub_of_le _ _ h4, hlen]
  exact Nat.add_sub_cancel_left 4 len

theorem length_dataPacket (srv : Server) (n : ℕ) : (srv.dataPacket n).length =
    4 + (srv.block n).length := by
  simp only [Server.dataPacket, be16, List.length_append, List.length_cons, List.length_nil]

/-- Only the last block is short. -/
theorem short_iff (hn : n ≠ 0) (hle : n ≤ srv.blockCount) :
    UInt32.ofNat (srv.dataPacket n).length - 4 < tftpBlkSize ↔ n = srv.blockCount := by
  rw [UInt32.lt_iff_toNat_lt, length_dataPacket,
    toNat_blockLen ((srv.length_block_le n).trans (by decide))]
  constructor
  · intro hlt
    by_contra hne
    have hfull := Server.length_block_of_lt hn (Nat.lt_of_le_of_ne hle hne)
    rw [hfull] at hlt
    exact absurd hlt (by decide)
  · exact fun h ↦ Server.length_block_of_eq h

/-- The client is in the middle of a transfer. -/
def Active (s : Globals) : Prop := s.state = .rrq ∨ s.state = .oack ∨ s.state = .data

/-- A block that arrives in the middle of a transfer is the expected one, or an old one, or the
client is at its last number. -/
theorem Inv.arrival (h : Inv srv s e) (hs : Active s) (hn : n ≠ 0) (hsent : n ≤ e.sent) :
    s.progress = .progress ∧ ((n = s.blockNum.toNat + 1 ∧ n ≤ lastNumber ∧
        Ahead srv n (srv.file.take (512 * s.blockNum.toNat)) e) ∨
      (n ≤ s.blockNum.toNat ∧ s.blockNum.toNat < lastNumber ∧ s.state = .data ∧
        n < srv.blockCount) ∨
      (s.state = .data ∧ s.blockNum.toNat = lastNumber ∧ e.saved =
        srv.file.take (512 * lastNumber))) := by
  obtain ⟨hle, hphase⟩ := h
  cases hphase with
  | waiting h₁ h₂ h₃ h₄ h₅ h₆ =>
    refine ⟨h₂, .inl ?_⟩
    have hone : n = 1 := Nat.le_antisymm (Nat.le_trans hsent h₅) (Nat.pos_of_ne_zero hn)
    rw [h₃]
    refine ⟨hone, by rw [hone]; decide, hle, fun _ ↦ ⟨by omega, fun a ha ↦ ?_⟩, h₄⟩
    rw [h₆ a ha]
    exact Nat.zero_le _
  | reading h₁ h₂ h₃ h₄ h₅ h₆ =>
    refine ⟨h₂, ?_⟩
    by_cases hlast : s.blockNum.toNat < lastNumber
    · obtain ⟨hstep, hacks⟩ := h₆ hlast
      rcases Nat.lt_or_eq_of_le (Nat.le_trans hsent hstep) with hlt | rfl
      · have hold := Nat.le_of_lt_succ hlt
        exact .inr (.inl ⟨hold, hlast, h₁, Nat.lt_of_le_of_lt hold h₄⟩)
      · refine .inl ⟨rfl, hlast, hle, fun _ ↦ ⟨Nat.le_trans hstep (Nat.le_succ _),
          fun a ha ↦ ?_⟩, h₅⟩
        exact Nat.le_trans (hacks a ha) (Nat.le_succ _)
    · have heq : s.blockNum.toNat = lastNumber :=
        Nat.le_antisymm (Nat.le_of_lt_succ s.blockNum.toNat_lt) (Nat.le_of_not_lt hlast)
      exact .inr (.inr ⟨h₁, heq, heq ▸ h₅⟩)
  | finished h₁ h₂ =>
    obtain hs | hs | hs := hs <;> cases h₁.symm.trans hs

/-- What is done with a block, whatever of the two states the client is in. -/
theorem takeBlock_inv {accept : Prop} [Decidable accept] (h : Inv srv s e) (hs : Active s)
    (hn : n ≠ 0) (hsent : n ≤ e.sent)
    (haccept : accept ↔ (UInt16.ofNat n).toNat = s.blockNum.toNat + 1)
    (hdata : (s.rcvBuf.drop 4).take (srv.block n).length = srv.block n) :
    wlp (net srv) (fun _ _ _ ↦ True) (do
      when accept (acceptBlock (UInt32.ofNat (srv.dataPacket n).length) (UInt16.ofNat n))
      answerBlock (UInt32.ofNat (srv.dataPacket n).length) (UInt16.ofNat n))
      (fun _ s' e' ↦ Inv srv s' e') s e := by
  have hcount : n ≤ srv.blockCount := Nat.le_trans hsent h.sent_le
  obtain ⟨hprogress, ⟨hnext, hlast, hahead⟩ | ⟨hold, hlast, hstate, hlt⟩ | ⟨hstate, hlast,
      hsaved⟩⟩ :=
    h.arrival hs hn hsent
  · -- The expected block: it is stored,
    have hnum := toNat_ofNat_of_le hlast
    refine pre_when_bind (fun _ ↦ ?_) fun hno ↦ absurd (haccept.mpr (hnum.trans hnext)) hno
    rw [hnext] at hahead hdata
    have hlen : (UInt32.ofNat (srv.dataPacket n).length - 4).toNat =
        (srv.block (s.blockNum.toNat + 1)).length := by
      rw [length_dataPacket, toNat_blockLen ((srv.length_block_le n).trans (by decide)), hnext]
    refine (acceptBlock_ahead hahead (by rw [hlen, hdata])).seq ?_
    rintro - s₁ e₁ ⟨hstate₁, hblock₁, hprogress₁, hahead₁⟩
    rw [← hnext] at hahead₁
    rcases Nat.lt_or_eq_of_le hcount with hlt | heq
    · have hinv := hahead₁.inv_full hn hlt hnum hstate₁ hblock₁ (hprogress₁.trans hprogress)
      refine answerBlock_full hinv ⟨fun hw ↦ ?_, fun _ _ ↦ by rw [hblock₁]⟩ fun hshort ↦
        hlt.ne ((short_iff hn hcount).mp hshort)
      rw [hstate₁] at hw
      simp at hw
    · -- and if it is the last one, everything is.
      have hwhole : e₁.saved = srv.file.take (512 * lastNumber) := by
        rw [hahead₁.saved, Server.take_of_blockCount_le heq.ge, Server.take_of_blockCount_le
          (heq ▸ hlast)]
      exact answerBlock_short hahead₁.sent_le hwhole ((short_iff hn hcount).mpr heq)
  · -- An old block is acknowledged again.
    have hnum := toNat_ofNat_of_le (Nat.le_trans hold hlast.le)
    refine pre_when_bind (fun hyes ↦ ?_) fun _ ↦ ?_
    · have := hnum.symm.trans (haccept.mp hyes)
      omega
    · refine answerBlock_full h ⟨fun hw ↦ ?_, fun _ _ ↦ hnum.trans_le hold⟩ fun hshort ↦
        hlt.ne ((short_iff hn hcount).mp hshort)
      rw [hstate] at hw
      simp at hw
  · -- After its last number the client takes no block for the next one.
    refine pre_when_bind (fun hyes ↦ ?_) fun _ ↦ ?_
    · have hlt := (UInt16.ofNat n).toNat_lt
      rw [haccept.mp hyes, hlast] at hlt
      exact absurd hlt (by decide)
    · rcases Nat.lt_or_eq_of_le hcount with hlt | heq
      · refine answerBlock_full h ⟨fun hw ↦ ?_, fun _ hl ↦ absurd hlast hl.ne⟩ fun hshort ↦
          hlt.ne ((short_iff hn hcount).mp hshort)
        rw [hstate] at hw
        simp at hw
      · exact answerBlock_short h.sent_le hsaved ((short_iff hn hcount).mpr heq)

theorem recvTftpData_inv {rest : List UInt8} (h : Inv srv s e) (hn : n ≠ 0) (hsent : n ≤ e.sent)
    (hbuf : s.rcvBuf = srv.dataPacket n ++ rest) :
    wlp (net srv) (fun _ _ _ ↦ True) (recvTftpData (UInt32.ofNat (srv.dataPacket n).length))
      (fun _ s' e' ↦ Inv srv s' e') s e := by
  have hinv : Inv srv { s with rcvBuf := swapAt (swapAt s.rcvBuf 0) 2 } e := h.congr rfl rfl rfl
  have hdata := payload_dataPacket hbuf
  unfold recvTftpData
  refine pre_get_bind.mpr (pre_modify_bind.mpr ?_)
  rw [blockNum_dataPacket hbuf]
  refine pre_ite (fun hs ↦ ?_) fun _ ↦ pre_ite (fun hs ↦ ?_) fun _ e' he' ↦ hinv.drifts he'
  · have hzero := h.phase.blockNum_eq_zero hs
    refine takeBlock_inv hinv (hs.imp_right .inl) hn hsent ?_ hdata
    change _ ↔ _ = s.blockNum.toNat + 1
    rw [hzero, ← UInt16.toNat_inj]
    rfl
  · exact takeBlock_inv hinv (.inr (.inr hs)) hn hsent .rfl hdata

theorem recvTftpOack_inv (h : Inv srv s e) :
    wlp (net srv) (fun _ _ _ ↦ True) recvTftpOack (fun _ s' e' ↦ Inv srv s' e') s e := by
  unfold recvTftpOack
  refine pre_get_bind.mpr (pre_ite (fun hs ↦ pre_modify_bind.mpr ?_) fun _ ↦
    pre_ite (fun hs ↦ ?_) fun _ e' he' ↦ h.drifts he')
  · cases h.phase with
    | waiting h₁ h₂ h₃ h₄ h₅ h₆ =>
      have hoack : Inv srv ({ s with state := .oack } : Globals).cancelTimeout e :=
        ⟨h.sent_le, .waiting (.inr (cancelTimeout_state _)) ((cancelTimeout_progress _).trans h₂)
          ((cancelTimeout_blockNum _).trans h₃) h₄ h₅ h₆⟩
      refine (sendTftpAck_inv hoack ⟨fun _ ↦ rfl, fun _ _ ↦ Nat.zero_le _⟩).imp ?_
      exact fun _ _ _ h ↦ h.2
    | reading h₁ => cases h₁.symm.trans hs
    | finished h₁ => cases h₁.symm.trans hs
  · cases h.phase with
    | waiting h₁ => obtain h₁ | h₁ := h₁ <;> cases h₁.symm.trans hs
    | reading h₁ => cases h₁.symm.trans hs
    | finished h₁ => cases h₁.symm.trans hs

theorem learnPort_fields (s : Globals) (port : UInt16) : (s.learnPort port).state = s.state ∧
    (s.learnPort port).progress = s.progress ∧ (s.learnPort port).blockNum = s.blockNum ∧
    (s.learnPort port).rcvBuf = s.rcvBuf := by
  unfold Globals.learnPort
  split <;> exact ⟨rfl, rfl, rfl, rfl⟩

/-- A datagram of the server. -/
theorem receiveProcess_inv {r : Option Received} (h : Inv srv s e)
    (hr : ∀ x, r = some x → e.Holds srv x.data) :
    wlp (net srv) (fun _ _ _ ↦ True) (receiveProcess r) (fun _ s' e' ↦ Inv srv s' e') s e := by
  cases r with
  | none => exact fun e' he' ↦ h.drifts he'
  | some r =>
    unfold receiveProcess recvTftpPacket
    have hbuf : Inv srv { s with rcvBuf := r.data ++ s.rcvBuf.drop r.data.length } e :=
      h.congr rfl rfl rfl
    refine pre_modify_bind.mpr
      (pre_get_bind.mpr (pre_ite (fun _ e' he' ↦ hbuf.drifts he') fun _ ↦ ?_))
    have hport :=
      (learnPort_fields { s with rcvBuf := r.data ++ s.rcvBuf.drop r.data.length } r.fromPort)
    obtain ⟨hstate, hprogress, hblock, hrcv⟩ := hport
    have h₁ := hbuf.congr hstate hprogress hblock
    refine pre_modify_bind.mpr ?_
    obtain ⟨n, hn, hsent, hdata⟩ | ⟨-, hdata⟩ := hr r rfl
    · rw [hdata] at hrcv h₁ ⊢
      rw [if_pos (word_dataPacket rfl)]
      exact recvTftpData_inv h₁ hn hsent hrcv
    · have hop : word (r.data ++ s.rcvBuf.drop r.data.length) = tftpOack := by
        rw [hdata]
        exact word_be16 tftpOack
      rw [hop, if_neg (by decide), if_pos rfl]
      exact recvTftpOack_inv h₁

theorem resendPacket_inv (h : Inv srv s e) :
    wlp (net srv) (fun _ _ _ ↦ True) (resendPacket s) (fun _ s' e' ↦ Inv srv s' e') s e := by
  unfold resendPacket
  refine pre_ite (fun hs ↦ sendTftpRrq_inv (h.congr hs.symm rfl rfl)) fun _ ↦ ?_
  refine pre_when (fun hs ↦ ?_) fun _ e' he' ↦ h.drifts he'
  -- What the client is at may be acknowledged.
  have hb : Ackable s s.blockNum := ⟨h.phase.blockNum_eq_zero, fun _ _ ↦ Nat.le_refl _⟩
  exact (sendTftpAck_inv h hb).imp fun _ _ _ h ↦ h.2

theorem timeoutProcess_inv (h : Inv srv s e) :
    wlp (net srv) (fun _ _ _ ↦ True) timeoutProcess (fun _ s' e' ↦ Inv srv s' e') s e := by
  unfold timeoutProcess
  refine pre_get_bind.mpr (pre_when (fun _ ↦ ?_) fun _ e' he' ↦ h.drifts he')
  refine (resendPacket_inv h).seq fun _ s₁ e₁ h₁ ↦
    pre_modify_bind.mpr (pre_modify.mpr fun e₂ he₂ ↦ ?_)
  have h₂ := h₁.drifts he₂
  split
  · exact ⟨h₂.sent_le, .finished rfl fun hp ↦ Progress.noConfusion hp⟩
  · exact h₂.congr rfl rfl rfl

/-- **One call.** -/
theorem tftpcRun_inv (h : Inv srv s e) :
    wlp (net srv) (fun _ _ _ ↦ True) tftpcRun (fun r s' e' ↦ Inv srv s' e' ∧ r = s'.progress)
      s e := by
  unfold tftpcRun
  refine (timeoutProcess_inv h).seq fun _ s₁ e₁ h₁ ↦ pre_get_bind.mpr fun e₂ he₂ ↦
    ⟨trivial, ?_⟩
  rintro r e₃ ⟨rfl, hr⟩
  refine (receiveProcess_inv (h₁.drifts he₂) fun x hx ↦ (hr x hx).1).seq
    fun _ s₂ e₄ h₄ ↦ ?_
  exact pre_get_bind.mpr fun e₅ he₅ ↦ ⟨h₄.drifts he₅, rfl⟩

theorem tftpcTimeoutHandler_inv (h : Inv srv s e) :
    wlp (net srv) (fun _ _ _ ↦ True) tftpcTimeoutHandler (fun _ s' e' ↦ Inv srv s' e') s e := by
  refine pre_modify.mpr fun e' he' ↦ ?_
  split
  · exact (h.drifts he').congr rfl rfl rfl
  · exact h.drifts he'

/-! ## Transfers -/

/-- A transfer is begun. -/
def beginRead (srv : Server) (buf filename : List UInt8) : Client Unit := do
  tftpcInit buf
  tftpcReadRequest srv.ip filename

theorem beginRead_inv (srv : Server) (buf filename : List UInt8) (s : Globals) :
    wlp (net srv) (fun _ _ _ ↦ True) (beginRead srv buf filename) (fun _ s' e' ↦ Inv srv s' e') s
    {} := by
  have hnone : ∀ {e'}, (net srv).Drifts {} e' → e' = {} := by
    intro e' he'
    refine he'.induct (P := fun e' ↦ e' = {}) ?_ rfl
    rintro e₁ e₂ hm rfl
    cases hm with
    | first hr => cases hr
    | oack hr => cases hr
    | next ha => cases ha
  unfold beginRead tftpcInit
  refine pre.seq (M := fun _ s' e' ↦ s'.state = .none ∧ s'.progress = .progress ∧ s'.blockNum =
    0 ∧ e' = {}) ?_ ?_
  · refine pre_modify_bind.mpr fun e₁ he₁ ↦ ⟨trivial, ?_⟩
    rintro socket e₂ rfl e₃ he₃
    obtain rfl := hnone he₁
    exact ⟨rfl, rfl, rfl, hnone he₃⟩
  · rintro - s₁ _ ⟨-, -, hblock, rfl⟩
    unfold tftpcReadRequest
    refine pre_modify_bind.mpr (sendTftpRrq_inv ⟨Nat.zero_le _, ?_⟩)
    exact .waiting (.inl rfl) rfl hblock rfl (Nat.zero_le _) (by simp)

/-- What happens to the client during a transfer. -/
inductive TftpCall
  | run
  | tick

def TftpCall.prog : TftpCall → Client Unit
  | .run => discard tftpcRun
  | .tick => tftpcTimeoutHandler

/-- The points of the transfers from a server: the client starts in whatever state earlier transfers
have left, and then it is polled and its timer ticks. -/
def Transfer (srv : Server) (s : Globals) (e : Net) : Prop :=
  ∃ (buf filename : List UInt8) (s₀ s₁ : Globals) (e₁ : Net),
    Returns (net srv) (beginRead srv buf filename) s₀ {} () s₁ e₁ ∧
    History (fun _ ↦ net srv) (fun _ _ _ ↦ True) TftpCall.prog s₁ e₁ s e

theorem Transfer.inv (h : Transfer srv s e) : Inv srv s e := by
  obtain ⟨buf, filename, s₀, s₁, e₁, hbegin, hruns⟩ := h
  have h₁ : Inv srv s₁ e₁ := (beginRead_inv srv buf filename s₀).returns hbegin
  refine hruns.invariant (I := Inv srv) (G := fun _ _ _ _ _ ↦ True) h₁
    (fun _ _ _ _ h hm ↦ h.moves hm) ?_
  intro c s e h _
  cases c with
  | run => exact (tftpcRun_inv h).seq fun _ _ _ h e' he' ↦ h.1.drifts he'
  | tick => exact tftpcTimeoutHandler_inv h

/-- What a transfer that ends well has stored. -/
theorem Transfer.saved (h : Transfer srv s e) (hr : Returns (net srv) tftpcRun s e .success s' e') :
    e'.saved = srv.file.take (512 * lastNumber) := by
  obtain ⟨⟨-, hphase⟩, hprogress⟩ := (tftpcRun_inv h.inv).returns hr
  cases hphase with
  | waiting _ h₂ => cases hprogress.trans h₂
  | reading _ h₂ => cases hprogress.trans h₂
  | finished _ h₂ => exact h₂ hprogress.symm

end WsmDriver.Tftp
