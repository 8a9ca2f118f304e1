import WsmDriver.W6300.Access
import WsmDriver.Effect.Execution

/-!
# Progress past a bad header

The receive path over a ring with any content whatever. Nothing arrives, so that what is in the ring
is there to stay, and a command may be taken at any time or not at all. Whether a turn gets past the
bytes at the read pointer is a matter of the two header bytes alone: a header that announces less
than itself is looked at twice and left where it is.

A turn moves the read pointer by what the header announces. So the turns go through all that waits,
and look at no place twice, if the announced lengths lead from the read pointer to the write
pointer.
-/

namespace WsmDriver.W6300

open Effect Failing

/-- Nothing arrives. -/
def RxWorld.Silent (W : RxWorld) : Prop := ∀ e e', ¬W.arrives e e'

/-- And a command may be pending for as long as it likes. -/
def RxWorld.still : RxWorld := ⟨fun _ _ ↦ False, fun _ ↦ True⟩

namespace RxChip

/-- The length announced at `p`. -/
def announcedAt (e : RxChip) (p : UInt16) : UInt16 :=
  headerTotal (window (e.fetch p rxHeaderSize.toNat) 2)

/-- The length announced at the read pointer. -/
def announced (e : RxChip) : UInt16 := e.announcedAt e.rd

/-- The place that a packet at `p` ends. -/
def next (e : RxChip) (p : UInt16) : UInt16 := p + e.announcedAt p

/-- A turn that ends, with the read pointer somewhere else and told to the chip. -/
def GetsPast (W : RxWorld) (e : RxChip) (s : Emac) : Prop :=
  Halts (rxChip W) emacW6300TaskTurn s e ∧ ∀ r s' e',
    Returns (rxChip W) emacW6300TaskTurn s e r s' e' → e'.rd ≠ e.rd ∧ e'.commits = e.commits + 1

theorem announcedAt_eq {e e' : RxChip} (h : e'.ring = e.ring) (p : UInt16) :
    e'.announcedAt p = e.announcedAt p := by
  simp only [announcedAt, fetch, h]

/-- A frame behind a header that counts at least itself ends somewhere else. -/
theorem next_ne {e : RxChip} {p : UInt16} (h : rxHeaderSize ≤ e.announcedAt p) : e.next p ≠ p := by
  intro heq
  have hzero : e.announcedAt p = 0 := by
    have hsub := congrArg (· - p) heq
    rwa [next, UInt16.add_comm, UInt16.add_sub_cancel, UInt16.sub_self] at hsub
  rw [hzero] at h
  exact absurd h (by decide)

/-- Where the payload behind a header ends. -/
theorem add_payload {e : RxChip} {p : UInt16} :
    p + (e.announcedAt p - rxHeaderSize + rxHeaderSize) = e.next p := by
  rw [UInt16.sub_add_cancel, next]

end RxChip

variable {W : RxWorld} {P : Emac → RxChip → Prop} {s : Emac} {e₀ e e' : RxChip}
  {B D : UInt16 → Prop} {p q : UInt16} {c n : ℕ}

/-! ## A ring that stays -/

theorem silent_calm (hW : W.Silent) : (rxChip W).Calm := by
  let busy (e : RxChip) : ℕ := if e.cr = 0 then 0 else 1
  refine Subrelation.wf (r := fun e' e ↦ busy e' < busy e) ?_ (measure busy).wf
  rintro e' e (ha | ⟨hcr, rfl⟩)
  · exact absurd ha (hW _ _)
  · simp only [busy, if_neg hcr, if_pos (show e.execute.cr = 0 from rfl)]
    decide

theorem silent_apart (hW : W.Silent) : W.Apart := ⟨fun ha ↦ absurd ha (hW _ _)⟩

theorem rxChip_responsive : (rxChip W).Responsive :=
  (rxChip_reply true fun e ↦ (.refl _ _ : (rxChip W).Drifts e (id e))).responsive

/-- Only a pending command can be taken. -/
theorem silent_drifts (hW : W.Silent) (hd : (rxChip W).Drifts e e') :
    e' = e ∨ (e.cr ≠ 0 ∧ e' = e.execute) := by
  refine hd.induct (P := fun e' ↦ e' = e ∨ (e.cr ≠ 0 ∧ e' = e.execute)) ?_ (.inl rfl)
  rintro e₁ e₂ (ha | ⟨hcr, rfl⟩) (rfl | ⟨-, rfl⟩)
  · exact absurd ha (hW _ _)
  · exact absurd ha (hW _ _)
  · exact .inr ⟨hcr, rfl⟩
  · exact absurd rfl hcr

/-- The ring of `e₀`, read up to `p` after `c` commands, of which the last one taken was one of
`B`. -/
structure RxChip.Reads (e₀ : RxChip) (B : UInt16 → Prop) (p : UInt16) (c : ℕ) (e : RxChip) :
    Prop where
  ring : e.ring = e₀.ring
  wr : e.wr = e₀.wr
  rd : e.rd = p
  commits : e.commits = c
  base : B e.base
  pending : e.cr ≠ 0 → B p

namespace RxChip.Reads

theorem drifts (h : e₀.Reads B p c e) (hW : W.Silent) (hd : (rxChip W).Drifts e e') :
    e₀.Reads B p c e' := by
  obtain rfl | ⟨hcr, rfl⟩ := silent_drifts hW hd
  · exact h
  · refine ⟨h.ring, h.wr, h.rd, h.commits, ?_, fun hne ↦ absurd rfl hne⟩
    have hrd : B e.rd := h.rd ▸ h.pending hcr
    dsimp only [RxChip.execute]
    split
    · exact hrd
    · exact h.base

theorem rsr (h : e₀.Reads B p c e) : e.rsr = e₀.wr - e.base := by
  rw [RxChip.rsr, h.wr]

theorem announcedAt (h : e₀.Reads B p c e) : e.announcedAt p = e₀.announcedAt p :=
  RxChip.announcedAt_eq h.ring p

theorem mono (h : e₀.Reads B p c e) (hB : ∀ b, B b → D b) : e₀.Reads D p c e :=
  ⟨h.ring, h.wr, h.rd, h.commits, hB _ h.base, fun hcr ↦ hB _ (h.pending hcr)⟩

end RxChip.Reads

/-! ## Sizes and headers -/

/-- The size read is the distance to a place in `B`. -/
theorem rxReceivedSize_reads (hW : W.Silent) (h : e₀.Reads B p c e) :
    wp (rxChip W) (Idle P) w6300RxReceivedSize
      (fun x s' e' ↦ s' = s ∧ e₀.Reads B p c e' ∧ ∃ b, B b ∧ x = e₀.wr - b) s e := by
  unfold w6300RxReceivedSize w6300GetRxReceivedSize
  refine preE.run_bind (M := fun x s' e' ↦ s' = s ∧ e₀.Reads B p c e' ∧ ∃ b, B b ∧ x =
    e₀.wr - b) (F := fun _ _ _ ↦ False) ?_ ?_ fun _ _ _ h ↦ h.elim
  -- The variant is the command that may still be taken: only that can make two reads disagree.
  · refine preE_forever
      (fun n s' e' ↦ s' = s ∧ e₀.Reads B p c e' ∧ n = if e'.cr = 0 then 0 else 1) (n := _)
      ⟨rfl, h, rfl⟩ ?_
    rintro n s e ⟨rfl, h, rfl⟩
    unfold w6300AgreedSize
    refine readRsr_bind fun e₁ he₁ ↦ readRsr_bind fun e₂ he₂ ↦
      preE_pure.mpr fun e₃ he₃ ↦ ?_
    have h₁ := h.drifts hW he₁
    by_cases hne : e₁.rsr ≠ e₂.rsr
    · rw [if_pos hne]
      refine ⟨_, ?_, rfl, h.drifts hW ((he₁.trans he₂).trans he₃), rfl⟩
      have hcr : e.cr ≠ 0 := by
        intro hcr
        obtain rfl | ⟨hcr', -⟩ := silent_drifts hW (he₁.trans he₂)
        · obtain rfl | ⟨hcr', -⟩ := silent_drifts hW he₁
          · exact hne rfl
          · exact hcr' hcr
        · exact hcr' hcr
      have hcr₃ : e₃.cr = 0 := by
        obtain rfl | ⟨hcr₁, rfl⟩ := silent_drifts hW he₂
        · exact absurd rfl hne
        · exact (silent_apart hW).drifts_cr he₃ rfl
      rw [if_neg hcr, if_pos hcr₃]
      exact Nat.zero_lt_one
    · rw [if_neg hne]
      refine fun e₄ he₄ ↦ ⟨rfl, h₁.drifts hW ((he₂.trans he₃).trans he₄), e₁.base,
        h₁.base, h₁.rsr⟩
  · rintro x _ e' ⟨rfl, h, hx⟩ e'' he''
    exact ⟨rfl, h.drifts hW he'', hx⟩

theorem nextFrame_reads (hW : W.Silent) (h : e₀.Reads B p c e) :
    Runs W P (· < ·) w6300NextFrame
      (fun r s' e' ↦ s' = s ∧ e₀.Reads B p c e' ∧ rxHeaderSize ≤ e₀.announcedAt p ∧
        r = (p, e₀.announcedAt p - rxHeaderSize))
      (fun _ s' e' ↦ s' = s ∧ e₀.Reads B p c e' ∧ ¬rxHeaderSize ≤ e₀.announcedAt p)
        s e := by
  unfold w6300NextFrame w6300ReadFrameHeader
  refine readRd_bind fun e₁ he₁ ↦ ?_
  have h₁ := h.drifts hW he₁
  rw [bind_assoc]
  refine readMem_bind fun e₂ head he₂ hhead ↦ ?_
  have h₂ := h₁.drifts hW he₂
  have hannounced : headerTotal head = e₀.announcedAt p := by
    rw [← h₂.announcedAt, RxChip.announcedAt]
    congr 1
    apply Vector.toList_inj.mp
    rw [hhead, h₁.rd]
    exact (window_toList (by simp [RxChip.fetch])).symm
  rw [hannounced, h₁.rd, bind_assoc]
  refine preE_ensure_bind (fun hok ↦ ?_) fun hno e₃ he₃ ↦ ⟨rfl, h₂.drifts hW he₃, hno⟩
  exact fun e₃ he₃ ↦ ⟨rfl, h₂.drifts hW he₃, hok, rfl⟩

/-! ## Committing -/

/-- What a commit comes to: the command is taken, and the flag tells what the size has left; or it
is not taken in time. -/
inductive Committed (W : RxWorld) (e₀ : RxChip) (B D : UInt16 → Prop) (p : UInt16) (c : ℕ)
    (s : Emac) (e : RxChip) : Prop
  | taken {b : UInt16} (h : e₀.Reads D (e₀.next p) (c + 1) e) (hcr : e.cr = 0)
      (hbase : e.base = e₀.next p) (hb : B b)
      (hremain : s.packetsRemain = decide (0 < e₀.wr - b - e₀.announcedAt p)) :
        Committed W e₀ B D p c s e
  | late (h : e₀.Reads D (e₀.next p) (c + 1) e) (hbusy : W.busy 9)
      (hremain : s.packetsRemain = false) : Committed W e₀ B D p c s e

namespace Committed

theorem reads (h : Committed W e₀ B D p c s e) : e₀.Reads D (e₀.next p) (c + 1) e := by
  cases h with
  | taken h => exact h
  | late h => exact h

theorem drifts (h : Committed W e₀ B D p c s e) (hW : W.Silent) (hd : (rxChip W).Drifts e e') :
    Committed W e₀ B D p c s e' := by
  cases h with
  | taken h hcr hbase hb hremain =>
    obtain rfl | ⟨hcr', -⟩ := silent_drifts hW hd
    · exact .taken h hcr hbase hb hremain
    · exact absurd hcr hcr'
  | late h hbusy hremain => exact .late (h.drifts hW hd) hbusy hremain

/-- What the stack was given does not matter. -/
theorem input (h : Committed W e₀ B D p c s e) (inputs : List (List UInt8)) :
    Committed W e₀ B D p c s { e with inputs } := by
  cases h with
  | taken h hcr hbase hb hremain =>
    exact .taken ⟨h.ring, h.wr, h.rd, h.commits, h.base, h.pending⟩ hcr hbase hb hremain
  | late h hbusy hremain =>
    exact .late ⟨h.ring, h.wr, h.rd, h.commits, h.base, h.pending⟩ hbusy hremain

end Committed

theorem commitFrame_reads {rxLen remain : UInt16} (hW : W.Silent) (h : e₀.Reads B p c e)
    (hB : ∀ b, B b → D b) (hq : D (e₀.next p)) {b : UInt16} (hb : B b)
    (hx : remain = e₀.wr - b) (hlen : rxLen + rxHeaderSize = e₀.announcedAt p)
    (hs : s.packetsRemain = false) :
    Runs W P (· < ·) (w6300CommitFrame (e₀.next p) rxLen remain)
      (fun _ ↦ Committed W e₀ B D p c) (fun _ ↦ Committed W e₀ B D p c) s e := by
  let J (e : RxChip) : Prop := e₀.Reads D (e₀.next p) (c + 1) e ∧
    (e.cr = 0 → e.base = e₀.next p) ∧ (e.cr ≠ 0 → e.cr = scrRecv)
  have hJ : Awaited W J := by
    refine ⟨?_, fun ⟨h, hbase, hcr⟩ ↦
      ⟨⟨h.ring, h.wr, h.rd, h.commits, h.base, h.pending⟩, hbase, hcr⟩⟩
    rintro e e' ⟨h, hbase, hcr⟩ hd
    refine ⟨h.drifts hW (.single hd), ?_⟩
    obtain ha | ⟨hne, rfl⟩ := hd
    · exact absurd ha (hW _ _)
    · refine ⟨fun _ ↦ ?_, fun hne' ↦ absurd rfl hne'⟩
      dsimp only [RxChip.execute]
      rw [if_pos (hcr hne), h.rd]
  unfold w6300CommitFrame w6300SendCommand
  refine writeRd_bind fun e₁ he₁ ↦ ?_
  have h₁ := h.drifts hW he₁
  have hmoved : e₀.Reads D (e₀.next p) c { e₁ with rd := e₀.next p } :=
    ⟨h₁.ring, h₁.wr, rfl, h₁.commits, hB _ h₁.base, fun _ ↦ hq⟩
  rw [bind_assoc]
  refine writeCr_bind fun e₂ he₂ ↦ ?_
  have h₂ := hmoved.drifts hW he₂
  have hcommand : J (e₂.command scrRecv) :=
    ⟨⟨h₂.ring, h₂.wr, h₂.rd, congrArg (· + 1) h₂.commits, h₂.base, fun _ ↦ hq⟩,
      fun hzero ↦ absurd hzero (by decide : scrRecv ≠ 0), fun _ ↦ rfl⟩
  have hwait := awaitCommand_taken (P := P) (R := (· < ·)) (s := s) (silent_apart hW) hJ (100 / 10)
    (show (e₂.command scrRecv).polls + 100 / 10 = 10 from rfl) (fun h ↦ absurd h (by decide))
      hcommand
  refine (hwait.imp (fun _ _ _ h ↦ h) ?_).seq ?_
  · rintro _ _ e₃ ⟨rfl, ⟨h₃, -⟩, hbusy⟩
    exact .late h₃ hbusy hs
  · rintro - _ e₃ ⟨rfl, ⟨h₃, hbase, -⟩, hcr⟩ e₄ he₄
    refine Committed.drifts (.taken h₃ hcr (hbase hcr) hb ?_) hW he₄
    dsimp only
    rw [hlen, hx]

/-! ## A turn -/

/-- What a turn comes to: past the header if it counts at least itself, and where it began
otherwise. -/
def Passed (W : RxWorld) (e₀ : RxChip) (B D : UInt16 → Prop) (p : UInt16) (c : ℕ) (s : Emac)
    (e : RxChip) : Prop :=
  (rxHeaderSize ≤ e₀.announcedAt p ∧ Committed W e₀ B D p c s e) ∨
    (¬rxHeaderSize ≤ e₀.announcedAt p ∧ e₀.Reads B p c e)

theorem Passed.drifts (h : Passed W e₀ B D p c s e) (hW : W.Silent) (hd : (rxChip W).Drifts e e') :
    Passed W e₀ B D p c s e' :=
  h.imp (fun h ↦ ⟨h.1, h.2.drifts hW hd⟩) fun h ↦ ⟨h.1, h.2.drifts hW hd⟩

theorem flushRecvFrame_reads (hW : W.Silent) (h : e₀.Reads B p c e)
    (hpos : ∀ b, B b → e₀.wr - b ≠ 0) (hB : ∀ b, B b → D b)
    (hq : rxHeaderSize ≤ e₀.announcedAt p → D (e₀.next p)) :
    wp (rxChip W) (Idle P) (discard emacW6300FlushRecvFrame.run)
      (fun _ ↦ Passed W e₀ B D p c) s e := by
  have hflush : Runs W P (· < ·) emacW6300FlushRecvFrame (fun _ ↦ Passed W e₀ B D p c)
      (fun _ ↦ Passed W e₀ B D p c) s e := by
    unfold emacW6300FlushRecvFrame
    refine preE_modify_bind.mpr (preE_lift_bind ((rxReceivedSize_reads hW h).imp ?_))
    rintro remain _ e₁ ⟨rfl, h₁, b, hb, hx⟩
    rw [if_neg (hx ▸ hpos b hb)]
    refine ((nextFrame_reads hW h₁).imp (fun _ _ _ h ↦ h) ?_).seq ?_
    · rintro _ _ e₂ ⟨-, h₂, hno⟩
      exact .inr ⟨hno, h₂⟩
    · rintro _ _ e₂ ⟨rfl, h₂, hok, rfl⟩
      dsimp only
      rw [RxChip.add_payload]
      exact (commitFrame_reads hW h₂ hB (hq hok) hb hx (UInt16.sub_add_cancel _ _) rfl).imp
        (fun _ _ _ h ↦ .inl ⟨hok, h⟩) fun _ _ _ h ↦ .inl ⟨hok, h⟩
  refine pre_discard ((pre.settle hflush).imp ?_)
  rintro (err | _) s' e' hr e'' he''
  · exact hr e'' he''
  · exact hr e'' he''

theorem deliver_reads {copyLen frameLen : UInt32} {remain : UInt16} (hW : W.Silent)
    (h : e₀.Reads B p c e) (hB : ∀ b, B b → D b) (hq : D (e₀.next p)) {b : UInt16} (hb : B b)
    (hx : remain = e₀.wr - b) :
    wp (rxChip W) (Idle P) (emacW6300Deliver
        ⟨p.toUInt32, copyLen, (e₀.announcedAt p - rxHeaderSize).toUInt32, remain.toUInt32⟩
          frameLen)
      (fun _ ↦ Committed W e₀ B D p c) s e := by
  have hfree : ∀ {s : Emac} {e : RxChip}, Committed W e₀ B D p c s e →
      wp (rxChip W) (Idle P) (ask .free) (fun _ ↦ Committed W e₀ B D p c) s e := by
    intro s e h e₁ he₁
    refine ⟨fun b hb ↦ MacOp.noConfusion hb, ?_⟩
    rintro - e₂ rfl e₃ he₃
    exact h.drifts hW (he₁.trans he₃)
  unfold emacW6300Deliver
  refine preE.run_bind (M := fun _ ↦ Committed W e₀ B D p c)
    (F := fun _ ↦ Committed W e₀ B D p c) ?_ ?_ fun _ _ _ h ↦ hfree h
  · unfold emacW6300Receive
    refine preE_modify_bind.mpr ?_
    rw [if_pos rfl]
    simp only [UInt16.toUInt16_toUInt32]
    unfold w6300TakeFrame
    refine readMem_bind fun e₁ payload he₁ _ ↦ ?_
    have hend : p + rxHeaderSize + (e₀.announcedAt p - rxHeaderSize) = e₀.next p := by
      rw [UInt16.add_assoc, UInt16.add_comm rxHeaderSize, RxChip.add_payload]
    rw [hend]
    refine (commitFrame_reads hW (h.drifts hW he₁) hB hq hb hx (UInt16.sub_add_cancel _ _)
      rfl).seq ?_
    rintro - s e₂ h₂ e₃ he₃
    exact h₂.drifts hW he₃
  · rintro ⟨bufLen, frame⟩ s e h
    refine pre_ite (fun _ ↦ hfree h) fun _ ↦ pre_ite (fun _ ↦ hfree h) fun _ e₁ he₁ ↦ ?_
    refine ⟨fun b hb ↦ MacOp.noConfusion hb, ?_⟩
    rintro - e₂ rfl e₃ he₃
    exact ((h.drifts hW he₁).input _).drifts hW he₃

/-- A turn gets past a header that counts at least itself, and leaves any other as it is. -/
theorem taskTurn_reads (hW : W.Silent) (h : e₀.Reads B p c e)
    (hpos : ∀ b, B b → e₀.wr - b ≠ 0) (hB : ∀ b, B b → D b)
    (hq : rxHeaderSize ≤ e₀.announcedAt p → D (e₀.next p)) :
    wp (rxChip W) (Idle P) emacW6300TaskTurn (fun r s' e' ↦
      r = (if s'.packetsRemain = true then none else some ()) ∧ Passed W e₀ B D p c s' e')
        s e := by
  unfold emacW6300TaskTurn emacW6300AllocRecvBuf
  refine pre.seq (M := fun r _ e' ↦ e₀.Reads B p c e' ∧ ((∃ err n, r = (.error err, n)) ∨
    rxHeaderSize ≤ e₀.announcedAt p ∧ ∃ copyLen remain n b, B b ∧ remain = e₀.wr - b ∧
      r = (.ok (some ⟨p.toUInt32, copyLen, (e₀.announcedAt p - rxHeaderSize).toUInt32,
        remain.toUInt32⟩), n))) ?_ ?_
  · refine (rxReceivedSize_reads hW h).seq ?_
    rintro remain _ e₁ ⟨rfl, h₁, b, hb, hx⟩
    rw [if_neg (hx ▸ hpos b hb)]
    refine preE.run_bind (nextFrame_reads hW h₁) ?_ ?_
    · rintro _ _ e₂ ⟨rfl, h₂, hok, rfl⟩
      refine pre_ite (fun _ e₃ he₃ ↦ ⟨h₂.drifts hW he₃, .inl ⟨_, _, rfl⟩⟩)
        fun _ ↦ ?_
      refine pre_perform_bind.mpr fun e₃ he₃ ↦ ⟨idle_malloc, ?_⟩
      rintro granted _ rfl
      have h₃ := h₂.drifts hW he₃
      have hmalloc : e₀.Reads B p c { e₃ with mallocs := e₃.mallocs ++ [granted] } :=
        ⟨h₃.ring, h₃.wr, h₃.rd, h₃.commits, h₃.base, h₃.pending⟩
      refine pre_ite (fun _ e₄ he₄ ↦ ?_) fun _ e₄ he₄ ↦ ?_
      · exact ⟨hmalloc.drifts hW he₄, .inr ⟨hok, _, _, _, b, hb, hx, rfl⟩⟩
      · exact ⟨hmalloc.drifts hW he₄, .inl ⟨_, _, rfl⟩⟩
    · rintro err _ e₂ ⟨rfl, h₂, -⟩ e₃ he₃
      exact ⟨h₂.drifts hW he₃, .inl ⟨_, _, rfl⟩⟩
  · intro r s e₁ hfound
    refine pre.seq (M := fun _ ↦ Passed W e₀ B D p c) ?_ fun _ s e₂ h₂ ↦
      pre_get_bind.mpr fun e₃ he₃ ↦ ⟨rfl, h₂.drifts hW he₃⟩
    obtain ⟨h₁, ⟨err, n, rfl⟩ | ⟨hok, copyLen, remain, n, b, hb, hx, rfl⟩⟩ := hfound
    · exact flushRecvFrame_reads hW h₁ hpos hB hq
    · exact (deliver_reads hW h₁ hB (hq hok) hb hx).imp fun _ _ _ h ↦ .inl ⟨hok, h⟩

/-- A turn over a ring with bytes in it gets past the bytes at the read pointer exactly if they
announce at least the header they are. -/
theorem turn_getsPast_iff (hW : W.Silent) (hcr : e.cr = 0) (hrsr : e.rsr ≠ 0) :
    e.GetsPast W s ↔ rxHeaderSize ≤ e.announced := by
  have hreads : e.Reads (fun b ↦ e.wr - b ≠ 0) e.rd e.commits e :=
    ⟨rfl, rfl, rfl, rfl, hrsr, fun hne ↦ absurd hcr hne⟩
  have hturn := taskTurn_reads (P := fun _ _ ↦ True) (D := fun _ ↦ True) (s := s) hW hreads
    (fun _ hb ↦ hb) (fun _ _ ↦ trivial) fun _ ↦ trivial
  constructor
  · intro h
    obtain ⟨r, s', e', hr, -, hok | hno⟩ := wp_returns rxChip_responsive hturn
    · exact hok.1
    · exact absurd hno.2.rd (h.2 r s' e' hr).1
  · intro hok
    refine ⟨wp_halts (silent_calm hW) hturn, fun r s' e' hr ↦ ?_⟩
    obtain ⟨-, hpast | hno⟩ := hturn.returns hr
    · have hreads' := hpast.2.reads
      exact ⟨hreads'.rd ▸ RxChip.next_ne hok, hreads'.commits⟩
    · exact absurd hok hno.1

/-! ## What waits -/

/-- From `p` to the write pointer the announced lengths lead over `n` packets. -/
inductive RxChip.Packets (e : RxChip) : ℕ → UInt16 → Prop
  | nil : Packets e 0 e.wr
  | cons {n : ℕ} {p : UInt16} (hmin : rxHeaderSize ≤ e.announcedAt p)
      (hmax : e.announcedAt p ≤ e.wr - p) (h : Packets e n (e.next p)) : Packets e (n + 1) p

/-- Two places at different distances to the write pointer, neither of them as far as once
around. -/
theorem mod_ne {wr p q : UInt16} (hq : 0 < (wr - q).toNat) (hless : (wr - q).toNat < (wr - p).toNat)
    (hsize : (wr - p).toNat ≤ sock0BufSize) : p.toNat % sock0BufSize ≠ q.toNat % sock0BufSize := by
  have hp := p.toNat_lt
  have hq' := q.toNat_lt
  have hwr := wr.toNat_lt
  rw [UInt16.toNat_sub] at hq hless hsize
  rw [UInt16.toNat_sub] at hless
  simp only [sock0BufSize] at hsize ⊢
  omega

namespace RxChip.Packets

theorem drop (h : e.Packets n p) : ∀ {k : ℕ}, k ≤ n → e.Packets (n - k) (e.next^[k] p) := by
  induction h with
  | nil =>
    intro k hk
    obtain rfl := Nat.le_zero.mp hk
    exact .nil
  | cons hmin hmax h ih =>
    intro k hk
    cases k with
    | zero => exact .cons hmin hmax h
    | succ k =>
      rw [Function.iterate_succ_apply, Nat.add_sub_add_right]
      exact ih (Nat.le_of_succ_le_succ hk)

theorem iterate_eq (h : e.Packets n p) : e.next^[n] p = e.wr := by
  have hdrop := h.drop le_rfl
  rw [Nat.sub_self] at hdrop
  generalize e.next^[n] p = q at hdrop ⊢
  cases hdrop with
  | nil => rfl

/-- A packet takes its bytes from those that wait. -/
theorem less (h : e.Packets (n + 1) p) : (e.wr - e.next p).toNat < (e.wr - p).toNat := by
  cases h with
  | cons hmin hmax h =>
    rw [UInt16.le_iff_toNat_le] at hmin hmax
    have hsub : e.wr - e.next p = e.wr - p - e.announcedAt p := by
      rw [next, UInt16.sub_eq_add_neg, UInt16.sub_eq_add_neg, UInt16.sub_eq_add_neg, UInt16.neg_add,
        UInt16.sub_eq_add_neg, UInt16.add_assoc]
    have htwo : rxHeaderSize.toNat = 2 := rfl
    rw [hsub, UInt16.toNat_sub_of_le _ _ (UInt16.le_iff_toNat_le.mpr hmax)]
    omega

theorem less_of_lt (h : e.Packets n p) {i j : ℕ} (hij : i < j) (hj : j ≤ n) :
    (e.wr - e.next^[j] p).toNat < (e.wr - e.next^[i] p).toNat := by
  induction j, hij using Nat.le_induction with
  | base =>
    have hdrop := h.drop (Nat.le_of_succ_le hj)
    rw [show n - i = n - (i + 1) + 1 by omega] at hdrop
    rw [Function.iterate_succ_apply']
    exact hdrop.less
  | succ j hij ih =>
    have hdrop := h.drop (Nat.le_of_succ_le hj)
    rw [show n - j = n - (j + 1) + 1 by omega] at hdrop
    rw [Function.iterate_succ_apply']
    exact hdrop.less.trans (ih (Nat.le_of_succ_le hj))

theorem pos (h : e.Packets n p) {k : ℕ} (hk : k < n) : e.wr - e.next^[k] p ≠ 0 := by
  intro hzero
  have hless := h.less_of_lt hk le_rfl
  rw [hzero] at hless
  exact absurd hless (Nat.not_lt_zero _)

theorem hmin (h : e.Packets n p) {k : ℕ} (hk : k < n) :
    rxHeaderSize ≤ e.announcedAt (e.next^[k] p) := by
  have hdrop := h.drop hk.le
  rw [show n - k = n - k - 1 + 1 by omega] at hdrop
  cases hdrop with
  | cons hmin _ _ => exact hmin

/-- In a ring no two of them begin at the same place. -/
theorem places_ne (h : e.Packets n p) (hsize : (e.wr - p).toNat ≤ sock0BufSize) {i j : ℕ}
    (hij : i < j) (hj : j < n) :
    (e.next^[i] p).toNat % sock0BufSize ≠ (e.next^[j] p).toNat % sock0BufSize := by
  have hfirst : (e.wr - e.next^[i] p).toNat ≤ (e.wr - p).toNat := by
    cases i with
    | zero => exact le_rfl
    | succ i => exact (h.less_of_lt (Nat.succ_pos i) (hij.trans hj).le).le
  have hlast : (e.wr - e.next^[j] p).toNat ≠ 0 := fun hzero ↦ h.pos hj (UInt16.toNat_inj.mp hzero)
  exact mod_ne (Nat.pos_of_ne_zero hlast) (h.less_of_lt hij hj.le) (hfirst.trans hsize)

end RxChip.Packets

/-- A header that announces more than waits leaves a size that no ring has. -/
theorem overrun (h : (e.wr - p).toNat < (e.announcedAt p).toNat) :
    sock0BufSize < (e.wr - e.next p).toNat := by
  have hlen : (e.announcedAt p).toNat < 2048 := by
    rw [RxChip.announcedAt, headerTotal_toNat]
    have hlow := ((window (e.fetch p rxHeaderSize.toNat) 2).get 1).toNat_lt
    omega
  have hp := p.toNat_lt
  have hwr := e.wr.toNat_lt
  rw [UInt16.toNat_sub] at h ⊢
  rw [RxChip.next, UInt16.toNat_add]
  simp only [sock0BufSize]
  omega

/-! ## Turn after turn -/

/-- So many turns of the loop, one after the other. -/
inductive Turns (W : RxWorld) : ℕ → RxChip → RxChip → Prop
  | zero (e : RxChip) : Turns W 0 e e
  | succ {k : ℕ} {e e₁ e₂ : RxChip} {s s' : Emac} {r : Option Unit} (h : Turns W k e e₁)
      (hr : Returns (rxChip W) emacW6300TaskTurn s e₁ r s' e₂) : Turns W (k + 1) e e₂

/-- The places up to the one after `k` packets. -/
def UpTo (e : RxChip) (k : ℕ) (b : UInt16) : Prop := ∃ j ≤ k, b = e.next^[j] e.rd

theorem Turns.reads (hW : W.Silent) (h : e.Packets n e.rd) (hbase : e.base = e.rd) {k : ℕ}
    (hk : Turns W k e e') (hn : k ≤ n) :
    e.Reads (UpTo e k) (e.next^[k] e.rd) (e.commits + k) e' := by
  induction hk with
  | zero e => exact ⟨rfl, rfl, rfl, rfl, ⟨0, le_rfl, hbase⟩, fun _ ↦ ⟨0, le_rfl, rfl⟩⟩
  | @succ k e e₁ e₂ s s' r hk hr ih =>
    have hturn := taskTurn_reads (P := fun _ _ ↦ True) (D := UpTo e (k + 1)) (s := s) hW
      (ih h hbase (Nat.le_of_succ_le hn)) ?_ ?_ ?_
    · obtain ⟨-, hpast | hno⟩ := hturn.returns hr
      · rw [Function.iterate_succ_apply']
        exact hpast.2.reads
      · exact absurd (h.hmin hn) hno.1
    · rintro b ⟨j, hj, rfl⟩
      exact h.pos (hj.trans_lt hn)
    · rintro b ⟨j, hj, rfl⟩
      exact ⟨j, Nat.le_succ_of_le hj, rfl⟩
    · exact fun _ ↦ ⟨k + 1, le_rfl, (Function.iterate_succ_apply' _ _ _).symm⟩

/-- Whatever has been taken, the next turn gets past the next header. -/
theorem Turns.getsPast (hW : W.Silent) (h : e.Packets n e.rd) (hbase : e.base = e.rd) {k : ℕ}
    (hk : Turns W k e e') (hn : k < n) (s : Emac) : e'.GetsPast W s := by
  have hreads := hk.reads hW h hbase hn.le
  have hturn := taskTurn_reads (P := fun _ _ ↦ True) (D := fun _ ↦ True) (s := s) hW hreads ?_
    (fun _ _ ↦ trivial) fun _ ↦ trivial
  · refine ⟨wp_halts (silent_calm hW) hturn, fun r s' e'' hr ↦ ?_⟩
    obtain ⟨-, hpast | hno⟩ := hturn.returns hr
    · have hreads' := hpast.2.reads
      rw [hreads.rd, hreads.commits]
      exact ⟨hreads'.rd ▸ RxChip.next_ne hpast.1, hreads'.commits⟩
    · exact absurd (h.hmin hn) hno.1
  · rintro b ⟨j, hj, rfl⟩
    exact h.pos (hj.trans_lt hn)

/-- The loop goes on until all is read, unless a command is not taken in time. -/
theorem loop_reads (hW : W.Silent) (h : e.Packets n e.rd) (hbase : e.base = e.rd) (hn : 0 < n) :
    wp (rxChip W) (Idle fun _ _ ↦ True) (.forever emacW6300TaskTurn)
      (fun _ _ e' ↦ e'.rd = e.wr ∨ W.busy 9) s e := by
  refine ⟨fun m s' e' ↦ ∃ k < n, m = n - k ∧
    e.Reads (· = e.next^[k] e.rd) (e.next^[k] e.rd) (e.commits + k) e', ⟨n, 0, hn, rfl, ?_⟩, ?_⟩
  · exact ⟨rfl, rfl, rfl, rfl, hbase, fun _ ↦ rfl⟩
  · rintro m s' e' ⟨k, hk, rfl, hreads⟩
    refine (taskTurn_reads (D := fun _ ↦ True) hW hreads ?_ (fun _ _ ↦ trivial) fun _ ↦
      trivial).imp ?_
    · rintro b rfl
      exact h.pos hk
    rintro _ s' e₁ ⟨rfl, ⟨-, hpast⟩ | hno⟩
    · have hiterate : e.next (e.next^[k] e.rd) = e.next^[k + 1] e.rd :=
        (Function.iterate_succ_apply' _ _ _).symm
      cases hpast with
      | late _ hbusy hremain =>
        rw [hremain]
        exact fun _ _ ↦ .inr hbusy
      | @taken b h₁ hcr hbase₁ hb hremain =>
        obtain rfl := hb
        rw [hiterate] at h₁ hbase₁
        have hleft : e.wr - e.next^[k] e.rd - e.announcedAt (e.next^[k] e.rd) =
            e.wr - e.next^[k + 1] e.rd := by
          rw [← hiterate, RxChip.next, UInt16.sub_eq_add_neg, UInt16.sub_eq_add_neg,
            UInt16.sub_eq_add_neg, UInt16.neg_add, UInt16.sub_eq_add_neg, UInt16.add_assoc]
        rw [hleft] at hremain
        by_cases hlast : k + 1 = n
        · rw [hremain, hlast, h.iterate_eq, UInt16.sub_self]
          refine fun e₂ he₂ ↦ .inl ?_
          rw [(h₁.drifts hW he₂).rd, hlast, h.iterate_eq]
        · have hlt : k + 1 < n := lt_of_le_of_ne hk hlast
          have hpos : 0 < e.wr - e.next^[k + 1] e.rd := by
            rw [UInt16.lt_iff_toNat_lt]
            exact Nat.pos_of_ne_zero fun hzero ↦ h.pos hlt (UInt16.toNat_inj.mp hzero)
          rw [hremain, decide_eq_true hpos]
          refine ⟨n - (k + 1), by omega, k + 1, hlt, rfl, ?_⟩
          exact ⟨h₁.ring, h₁.wr, h₁.rd, h₁.commits, hbase₁, fun hne ↦ absurd hcr hne⟩
    · exact absurd (h.hmin hk) hno.1

/-- **Progress.** If the announced lengths lead from the read pointer to the write pointer, then
each turn gets past the header it finds and is at the next one, no place in the ring is looked at
twice, and the loop ends with everything read, unless the chip does not take a command in time. -/
theorem ring_read_through (hW : W.Silent) (h : e.Packets n e.rd) (hbase : e.base = e.rd)
    (hsize : e.rsr.toNat ≤ sock0BufSize) (hrsr : e.rsr ≠ 0) :
    (∀ k e', Turns W k e e' → k ≤ n → e'.rd = e.next^[k] e.rd ∧ e'.commits =
      e.commits + k ∧
        (k < n → ∀ s, e'.GetsPast W s)) ∧
      (∀ i j, i < j → j < n →
        (e.next^[i] e.rd).toNat % sock0BufSize ≠ (e.next^[j] e.rd).toNat % sock0BufSize) ∧
      Halts (rxChip W) (.forever emacW6300TaskTurn) s e ∧
      ∀ u s' e', Returns (rxChip W) (.forever emacW6300TaskTurn) s e u s' e' →
        e'.rd = e.wr ∨ W.busy 9 := by
  have hrsr' : e.rsr = e.wr - e.rd := by rw [RxChip.rsr, hbase]
  have hn : 0 < n := by
    refine Nat.pos_of_ne_zero ?_
    rintro rfl
    have hzero := h.iterate_eq
    rw [Function.iterate_zero_apply] at hzero
    exact hrsr (by rw [hrsr', hzero, UInt16.sub_self])
  have hloop := loop_reads (s := s) hW h hbase hn
  refine ⟨fun k e' hk hle ↦ ?_, fun i j hij hj ↦ ?_, wp_halts (silent_calm hW) hloop,
    fun u s' e' hr ↦ hloop.returns hr⟩
  · have hreads := hk.reads hW h hbase hle
    exact ⟨hreads.rd, hreads.commits, fun hlt s ↦ hk.getsPast hW h hbase hlt s⟩
  · rw [hrsr'] at hsize
    exact h.places_ne hsize hij hj

/-- A ring that holds two packets of 64 bytes. -/
def twoPackets : RxChip :=
  { RxChip.opened 0 with wr := 128, ring := fun k ↦ if k % 64 = 1 then 64 else 0 }

theorem ring_read_through_two :
    Halts (rxChip ⟨fun _ _ ↦ False, (· < 9)⟩) (.forever emacW6300TaskTurn) {} twoPackets :=
  have hpackets : twoPackets.Packets 2 0 :=
    .cons (by decide) (by decide) (.cons (by decide) (by decide) .nil)
  (ring_read_through (fun _ _ ↦ id) hpackets rfl (by decide) (by decide)).2.2.1

/-- A ring full of zeroes is looked at forever. -/
theorem not_getsPast_zero : ∃ e : RxChip, e = { RxChip.opened 0 with wr := 64 } ∧ e.cr = 0 ∧
    e.rsr ≠ 0 ∧
    ¬e.GetsPast .still {} := by
  refine ⟨_, rfl, rfl, by decide, fun h ↦ ?_⟩
  exact absurd ((turn_getsPast_iff (fun _ _ ↦ id) rfl (by decide)).mp h) (by decide)

end WsmDriver.W6300
