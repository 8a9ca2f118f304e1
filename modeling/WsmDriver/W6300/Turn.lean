import WsmDriver.W6300.Stream

/-!
# One turn of the receive loop

A turn begun in `Ready` either finds nothing waiting or deals with exactly the first frame that
waits, and ends in `Ready` again. One lemma for each function of the driver on the way, all of them
totally correct.
-/

namespace WsmDriver.W6300

open Effect Failing

variable {W : RxWorld} {maxLen : ℕ} {P : Emac → RxChip → Prop} {v : Tally} {p : UInt16}
  {f : RxFrame} {seen : List RxFrame} {s : Emac} {e : RxChip}

/-- The payload length as the driver stores it. -/
def RxFrame.rxLen (f : RxFrame) : UInt16 := UInt16.ofNat f.payload.length

namespace RxFrame

theorem rxLen_toNat (f : RxFrame) : f.rxLen.toNat = f.payload.length := by
  have h := f.length_lt
  exact toNat_ofNat_of_le (by omega)

theorem rxLen_add (f : RxFrame) : f.rxLen + rxHeaderSize = UInt16.ofNat f.total := by
  rw [rxLen, total, UInt16.ofNat_add]
  rfl

/-- What the header says, less the header. -/
theorem headerTotal_sub (f : RxFrame) {head : Vector UInt8 2} (h : head.toList = f.header) :
    rxHeaderSize ≤ headerTotal head ∧ headerTotal head - rxHeaderSize = f.rxLen := by
  have htotal : headerTotal head = UInt16.ofNat f.total := by
    apply UInt16.toNat_inj.mp
    rw [f.headerTotal_eq h]
    have hlt := f.total_lt
    exact (toNat_ofNat_of_le (by omega)).symm
  have hle := f.le_total
  constructor
  · rw [UInt16.le_iff_toNat_le, f.headerTotal_eq h]
    exact le_trans (by decide) hle
  · rw [htotal, ← f.rxLen_add, UInt16.add_sub_cancel]

end RxFrame

/-! ## Sizes and headers -/

/-- The driver learns how many bytes wait. -/
theorem rxReceivedSize_ready (hW : W.Streams maxLen) (h : Ready maxLen v p seen e) :
    wp (rxChip W) (Idle P) w6300RxReceivedSize (fun x s' e' ↦ s' = s ∧ ∃ fs,
      Ready maxLen v p fs e' ∧ x.toNat = (stream fs).length ∧ seen <+: fs) s e := by
  unfold w6300RxReceivedSize w6300GetRxReceivedSize
  refine preE.run_bind (M := fun x s' e' ↦ s' = s ∧ ∃ fs, Ready maxLen v p fs e' ∧
    x.toNat = (stream fs).length ∧ seen <+: fs) (F := fun _ _ _ ↦ False) ?_ ?_ (fun _ _ _ h ↦
      h.elim)
  -- The variant is the room in the ring: two reads disagree only if a frame arrived between them.
  · refine preE_forever (fun n s' e' ↦ s' = s ∧ Ready maxLen v p seen e' ∧ n =
      16385 - e'.rsr.toNat) (n := _) ⟨rfl, h, rfl⟩ ?_
    rintro n s e ⟨rfl, h, rfl⟩
    unfold w6300AgreedSize
    refine readRsr_bind fun e₁ he₁ ↦ readRsr_bind fun e₂ he₂ ↦
      preE_pure.mpr fun e₃ he₃ ↦ ?_
    have h₁ := h.drifts hW he₁
    by_cases hne : e₁.rsr ≠ e₂.rsr
    · rw [if_pos hne]
      have h₃ := h₁.drifts hW (he₂.trans he₃)
      have hle₁ := hW.drifts_rsr h.cr he₁
      have hle₂ := hW.drifts_rsr h₁.cr he₂
      have hle₃ := hW.drifts_rsr (h₁.drifts hW he₂).cr he₃
      have hne' : e₁.rsr.toNat ≠ e₂.rsr.toNat := fun heq ↦ hne (UInt16.toNat_inj.mp heq)
      obtain ⟨late, hpend, -⟩ := h₃.waits.late
      have hroom : e₃.rsr.toNat ≤ 16384 := hpend.rsr_le
      exact ⟨_, by omega, rfl, h₃, rfl⟩
    · rw [if_neg hne]
      obtain ⟨fs, hfs, hlen, hle, -⟩ := h₁.sample
      exact fun e₄ he₄ ↦
        ⟨rfl, fs, hfs.drifts hW ((he₂.trans he₃).trans he₄), hlen, hle⟩
  · rintro x _ e' ⟨rfl, fs, hfs, hx⟩ e'' he''
    exact ⟨rfl, fs, hfs.drifts hW he'', hx⟩

/-- Where a frame waits, its header is found. -/
theorem nextFrame_ready (hW : W.Streams maxLen) (h : Ready maxLen v p (f :: seen) e) :
    Runs W P (· < ·) w6300NextFrame (fun r s' e' ↦ s' = s ∧ r = (p, f.rxLen) ∧
      Ready maxLen v p (f :: seen) e') (fun _ _ _ ↦ False) s e := by
  unfold w6300NextFrame w6300ReadFrameHeader
  refine readRd_bind fun e₁ he₁ ↦ ?_
  have h₁ := h.drifts hW he₁
  rw [bind_assoc]
  refine readMem_bind fun e₂ head he₂ hhead ↦ ?_
  have h₂ := h₁.drifts hW he₂
  -- The two bytes at the read pointer are the header of the frame.
  obtain ⟨late, hpend, -⟩ := h₂.waits.late
  have hle := f.le_total
  have hfetch := hpend.fetch_eq (i := 0) (n := 2) (by simp; omega)
  have hlist : head.toList = f.header := by
    have hrd : e₁.rd = p + UInt16.ofNat 0 := h₁.rd.trans (UInt16.add_zero p).symm
    rw [hhead, hrd, hfetch]
    simp [RxFrame.bytes, RxFrame.header]
  obtain ⟨hok, hlen⟩ := f.headerTotal_sub hlist
  rw [bind_assoc]
  refine preE_ensure_bind (fun _ ↦ ?_) (fun hno ↦ absurd hok hno)
  rw [pure_bind, hlen, h₁.rd]
  exact fun e₃ he₃ ↦ ⟨rfl, rfl, h₂.drifts hW he₃⟩

/-- The end of a frame: it is given back to the chip. -/
theorem commitFrame_ready (hW : W.Streams maxLen) (h : Ready maxLen v p (f :: seen) e)
    (remain : UInt16) :
    Runs W P (· < ·) (w6300CommitFrame (p + UInt16.ofNat f.total) f.rxLen remain)
      (fun _ s' e' ↦
        s' = { s with packetsRemain := decide (0 < remain - UInt16.ofNat f.total) } ∧
        Ready maxLen { v with frames := v.frames ++ [f] } (p + UInt16.ofNat f.total) seen e')
      (fun _ _ _ ↦ False) s e := by
  unfold w6300CommitFrame w6300SendCommand
  refine writeRd_bind fun e₁ he₁ ↦ ?_
  have hmoved := (h.drifts hW he₁).move
  rw [bind_assoc]
  refine writeCr_bind fun e₂ he₂ ↦ ?_
  have hcommit := (hmoved.drifts hW he₂).command
  refine (awaitCommand_prompt hW.prompt (Committing.awaited hW) (by decide) rfl hcommit).seq ?_
  rintro - _ e₃ ⟨rfl, hdone, hcr⟩
  rw [f.rxLen_add]
  exact fun e₄ he₄ ↦ ⟨rfl, (hdone.done hcr).drifts hW he₄⟩

/-! ## Allocating -/

/-- What the driver allocates for a frame: the frame, or as much of it as fits the largest
packet. -/
def RxFrame.copyLen (f : RxFrame) : UInt32 :=
  if UInt32.ofNat ethMaxPacketSize < f.rxLen.toUInt32 then UInt32.ofNat ethMaxPacketSize
  else f.rxLen.toUInt32

theorem RxFrame.copyLen_toNat (f : RxFrame) :
    f.copyLen.toNat = min ethMaxPacketSize f.payload.length := by
  have hlen : f.rxLen.toUInt32.toNat = f.payload.length := by
    rw [UInt16.toNat_toUInt32, f.rxLen_toNat]
  have hmax : (UInt32.ofNat ethMaxPacketSize).toNat = 1522 := by decide
  unfold copyLen
  split
  · rename_i hlt
    rw [UInt32.lt_iff_toNat_lt, hmax, hlen] at hlt
    rw [hmax]
    exact (Nat.min_eq_left hlt.le).symm
  · rename_i hge
    rw [UInt32.lt_iff_toNat_lt, hmax, hlen] at hge
    rw [hlen]
    exact (Nat.min_eq_right (Nat.le_of_not_lt hge)).symm

/-- The result of the allocation: nothing waits, or there is a buffer for the first frame, or there
is no memory for it. -/
inductive Allocated (maxLen : ℕ) (v : Tally) (p : UInt16) (e : RxChip) :
    Except EspErr (Option AutoBufInfo) × UInt32 → Prop
  | none (h : Ready maxLen v p [] e) : Allocated maxLen v p e (.ok none, 0)
  | some {f : RxFrame} {seen : List RxFrame} {remain : UInt16}
      (hremain : remain.toNat = (stream (f :: seen)).length)
      (h : Ready maxLen { v with mallocs := v.mallocs ++ [true] } p (f :: seen) e) :
      Allocated maxLen v p e
        (.ok (some ⟨p.toUInt32, f.copyLen, f.rxLen.toUInt32, remain.toUInt32⟩), f.rxLen.toUInt32)
  | noMem {f : RxFrame} {seen : List RxFrame}
      (h : Ready maxLen { v with mallocs := v.mallocs ++ [false] } p (f :: seen) e) :
      Allocated maxLen v p e (.error .noMem, f.rxLen.toUInt32)

theorem allocRecvBuf_ready (hW : W.Streams maxLen) (h : Ready maxLen v p seen e) :
    wp (rxChip W) (Idle P) (emacW6300AllocRecvBuf (UInt32.ofNat ethMaxPacketSize))
      (fun r s' e' ↦ s' = s ∧ Allocated maxLen v p e' r ∧ (seen ≠ [] → r ≠ (.ok none, 0)))
        s e := by
  unfold emacW6300AllocRecvBuf
  refine (rxReceivedSize_ready hW h).seq ?_
  rintro remain _ e₁ ⟨rfl, fs, h₁, hremain, hle⟩
  cases fs with
  | nil =>
    have hzero : remain = 0 := UInt16.toNat_inj.mp hremain
    rw [if_pos hzero]
    refine fun e₂ he₂ ↦
      ⟨rfl, .none (h₁.drifts hW he₂), fun hne ↦ absurd (List.prefix_nil.mp hle) hne⟩
  | cons f fs =>
    have hpos : remain ≠ 0 := by
      rintro rfl
      exact absurd (stream_length_eq_zero.mp hremain.symm) (by simp)
    rw [if_neg hpos]
    refine preE.run_bind (nextFrame_ready hW h₁) ?_ (fun _ _ _ h ↦ h.elim)
    rintro _ _ e₂ ⟨rfl, rfl, h₂⟩
    have hcopy := f.copyLen_toNat
    have hmin := f.min_le
    change pre _ _ _ (if f.copyLen.toNat < _ then _ else _) _ _ _
    rw [if_neg (by simp only [ethMaxPacketSize, ethMinPacketSize, ethCrcLen] at *; omega)]
    refine pre_perform_bind.mpr fun e₃ he₃ ↦ ⟨idle_malloc, ?_⟩
    rintro granted _ rfl
    have h₃ := h₂.drifts hW he₃
    have hm : Ready maxLen { v with mallocs := v.mallocs ++ [granted] } p (f :: fs)
        { e₃ with mallocs := e₃.mallocs ++ [granted] } :=
          ⟨h₃.waits.malloc granted, h₃.rd, h₃.base, h₃.cr⟩
    cases granted with
    | true => exact fun e₄ he₄ ↦ ⟨rfl, .some hremain (hm.drifts hW he₄), fun _ ↦ by simp⟩
    | false => exact fun e₄ he₄ ↦ ⟨rfl, .noMem (hm.drifts hW he₄), fun _ ↦ by simp⟩

/-! ## Receiving and dropping -/

/-- What the stack is given of a frame: all of it, unless there was no memory or it is larger than
the largest packet. -/
def RxFrame.handed (f : RxFrame) (granted : Bool) : List (List UInt8) :=
  if granted = true ∧ f.payload.length ≤ ethMaxPacketSize then [f.payload] else []

/-- The tally with one more frame dealt with. -/
def Tally.serve (v : Tally) (f : RxFrame) (granted : Bool) : Tally where
  frames := v.frames ++ [f]
  mallocs := v.mallocs ++ [granted]
  inputs := v.inputs ++ f.handed granted

/-- The end of a turn that dealt with the frame `f`: the loop goes on if frames were seen behind
it. -/
structure Served (maxLen : ℕ) (v : Tally) (f : RxFrame) (granted : Bool) (s : Emac) (e : RxChip) :
    Prop where
  short : f.payload.length ≤ maxLen
  ready : ∃ p seen, Ready maxLen (v.serve f granted) p seen e ∧
    (s.packetsRemain = false → seen = [])

/-- The bytes that remain behind the first frame. -/
theorem remain_sub {remain : UInt16} (hremain : remain.toNat = (stream (f :: seen)).length)
    (h : decide (0 < remain - UInt16.ofNat f.total) = false) : seen = [] := by
  have hlt := f.total_lt
  have htotal : (UInt16.ofNat f.total).toNat = f.total := toNat_ofNat_of_le (by omega)
  have hcons : (stream (f :: seen)).length = f.total + (stream seen).length := by simp
  have hzero : ¬0 < remain - UInt16.ofNat f.total := of_decide_eq_false h
  rw [UInt16.lt_iff_toNat_lt, UInt16.toNat_sub_of_le _ _ (UInt16.le_iff_toNat_le.mpr (by omega)),
    htotal, UInt16.toNat_zero] at hzero
  exact stream_length_eq_zero.mp (by omega)

theorem receive_ready (hW : W.Streams maxLen) {remain : UInt16}
    (hremain : remain.toNat = (stream (f :: seen)).length) (h : Ready maxLen v p (f :: seen) e) :
    Runs W P (· < ·)
      (emacW6300Receive ⟨p.toUInt32, f.copyLen, f.rxLen.toUInt32, remain.toUInt32⟩ rxBufSizeAuto)
      (fun r s' e' ↦ r = (f.copyLen, f.payload.take f.copyLen.toNat) ∧ ∃ q seen',
        Ready maxLen { v with frames := v.frames ++ [f] } q seen' e' ∧
        (s'.packetsRemain = false → seen' = []))
      (fun _ _ _ ↦ False) s e := by
  have hcopy := f.copyLen_toNat
  have hle := f.le_total
  have hlt := f.total_lt
  simp only [ethMaxPacketSize] at hcopy
  have h16 : f.copyLen.toUInt16.toNat = f.copyLen.toNat := by
    rw [UInt32.toNat_toUInt16]
    omega
  unfold emacW6300Receive
  refine preE_modify_bind.mpr ?_
  rw [if_pos rfl]
  simp only [UInt16.toUInt16_toUInt32]
  unfold w6300TakeFrame
  refine readMem_bind fun e₁ payload he₁ hpayload ↦ ?_
  have h₁ := h.drifts hW he₁
  have hoffset : p + rxHeaderSize + f.rxLen = p + UInt16.ofNat f.total := by
    rw [UInt16.add_assoc, UInt16.add_comm rxHeaderSize, f.rxLen_add]
  rw [hoffset]
  refine (commitFrame_ready hW h₁ remain).seq ?_
  rintro - _ e₂ ⟨rfl, h₂⟩
  -- What was read is the start of the payload.
  obtain ⟨late, hpend, -⟩ := h₁.waits.late
  have hbytes : payload.toList = f.payload.take f.copyLen.toNat := by
    have hfetch := hpend.fetch_eq (i := 2) (n := f.copyLen.toNat) (by
      simp [RxFrame.total]
      omega)
    rw [hpayload, h16, show p + rxHeaderSize = p + UInt16.ofNat 2 from rfl, hfetch]
    have hdrop : (stream (f :: seen ++ late)).drop 2 = f.payload ++ stream (seen ++ late) := by
      simp [RxFrame.bytes, RxFrame.header]
    rw [hdrop, List.take_append_of_le_length (by omega)]
  have h32 : f.copyLen.toUInt16.toUInt32 = f.copyLen := by
    apply UInt32.toNat_inj.mp
    rw [UInt16.toNat_toUInt32, h16]
  exact fun e₃ he₃ ↦ ⟨by rw [hbytes, h32], _, _, h₂.drifts hW he₃, remain_sub hremain⟩

theorem flushRecvFrame_ready (hW : W.Streams maxLen) (h : Ready maxLen v p (f :: seen) e) :
    Runs W P (· < ·) emacW6300FlushRecvFrame
      (fun _ s' e' ↦ ∃ q seen', Ready maxLen { v with frames := v.frames ++ [f] } q seen' e' ∧
        (s'.packetsRemain = false → seen' = [])) (fun _ _ _ ↦ False) s e := by
  unfold emacW6300FlushRecvFrame
  refine preE_modify_bind.mpr ?_
  refine preE_lift_bind ((rxReceivedSize_ready hW h).imp ?_)
  rintro remain _ e₁ ⟨rfl, fs, h₁, hremain, rest, rfl⟩
  rw [List.cons_append] at h₁ hremain
  have hpos : remain ≠ 0 := by
    rintro rfl
    exact absurd (stream_length_eq_zero.mp hremain.symm) (by simp)
  rw [if_neg hpos]
  refine (nextFrame_ready hW h₁).seq ?_
  rintro _ _ e₂ ⟨rfl, rfl, h₂⟩
  dsimp only
  rw [f.rxLen_add]
  refine (commitFrame_ready hW h₂ remain).imp ?_ (fun _ _ _ h ↦ h)
  rintro - _ e₃ ⟨rfl, h₃⟩
  exact ⟨_, _, h₃, remain_sub hremain⟩

/-! ## The turn -/

theorem Ready.free (h : Ready maxLen v p seen e) (hW : W.Streams maxLen)
    {Q : Unit → Emac → RxChip → Prop} (hQ : ∀ e', Ready maxLen v p seen e' → Q () s e') :
    wp (rxChip W) (Idle P) (ask .free) Q s e := by
  intro e₁ he₁
  refine ⟨nofun, ?_⟩
  rintro - _ rfl e₂ he₂
  exact hQ e₂ ((h.drifts hW he₁).drifts hW he₂)

theorem Ready.stackInput (h : Ready maxLen v p seen e) (hW : W.Streams maxLen) {frame : List UInt8}
    {Q : Unit → Emac → RxChip → Prop}
    (hQ : ∀ e', Ready maxLen { v with inputs := v.inputs ++ [frame] } p seen e' → Q () s e') :
    wp (rxChip W) (Idle P) (ask (.stackInput frame)) Q s e := by
  intro e₁ he₁
  refine ⟨nofun, ?_⟩
  have h₁ := h.drifts hW he₁
  rintro - _ rfl e₂ he₂
  have h₂ : Ready maxLen { v with inputs := v.inputs ++ [frame] } p seen
      { e₁ with inputs := e₁.inputs ++ [frame] } :=
        ⟨h₁.waits.input frame, h₁.rd, h₁.base, h₁.cr⟩
  exact hQ e₂ (h₂.drifts hW he₂)

theorem deliver_ready (hW : W.Streams maxLen) {remain : UInt16}
    (hremain : remain.toNat = (stream (f :: seen)).length)
    (h : Ready maxLen { v with mallocs := v.mallocs ++ [true] } p (f :: seen) e) :
    wp (rxChip W) (Idle P)
      (emacW6300Deliver ⟨p.toUInt32, f.copyLen, f.rxLen.toUInt32, remain.toUInt32⟩
        f.rxLen.toUInt32)
      (fun _ s' e' ↦ Served maxLen v f true s' e') s e := by
  have hcopy := f.copyLen_toNat
  have hmin := f.min_le
  simp only [ethMaxPacketSize, ethMinPacketSize, ethCrcLen] at hcopy hmin
  have hlen : f.rxLen.toUInt32.toNat = f.payload.length := by
    rw [UInt16.toNat_toUInt32, f.rxLen_toNat]
  obtain ⟨late, -, hplaced, -⟩ := h.waits.late
  have hshort : f.payload.length ≤ maxLen := h.waits.short f (by simp [hplaced])
  unfold emacW6300Deliver
  refine preE.run_bind (receive_ready hW hremain h) ?_ (fun _ _ _ h ↦ h.elim)
  rintro _ s' e₁ ⟨rfl, q, seen', h₁, hseen⟩
  dsimp only
  rw [if_neg fun hzero ↦ by rw [hzero] at hcopy; simp at hcopy; omega]
  by_cases hlarge : f.payload.length ≤ 1522
  · have hall : f.copyLen.toNat = f.payload.length := hcopy.trans (Nat.min_eq_right hlarge)
    rw [if_neg (by rw [UInt32.lt_iff_toNat_lt]; omega), hall, List.take_length]
    have hserve : v.serve f true = ⟨v.frames ++ [f], v.mallocs ++ [true], v.inputs ++
        [f.payload]⟩ := by
      rw [Tally.serve, RxFrame.handed, if_pos ⟨rfl, hlarge⟩]
    exact h₁.stackInput hW fun e₂ h₂ ↦ ⟨hshort, q, seen', hserve ▸ h₂, hseen⟩
  · have hcut : f.copyLen.toNat = 1522 := hcopy.trans (Nat.min_eq_left (by omega))
    rw [if_pos (by rw [UInt32.lt_iff_toNat_lt]; omega)]
    have hserve : v.serve f true = ⟨v.frames ++ [f], v.mallocs ++ [true], v.inputs⟩ := by
      rw [Tally.serve, RxFrame.handed, if_neg (fun hc ↦ hlarge hc.2), List.append_nil]
    exact h₁.free hW fun e₂ h₂ ↦ ⟨hshort, q, seen', hserve ▸ h₂, hseen⟩

/-- What a turn does: nothing waits, or it has dealt with one frame. -/
inductive Turned (maxLen : ℕ) (v : Tally) (p : UInt16) (s : Emac) (s' : Emac) (e : RxChip) : Prop
  | idle (hs : s' = s) (h : Ready maxLen v p [] e)
  | served (f : RxFrame) (granted : Bool) (h : Served maxLen v f granted s' e)

theorem dispatch_ready (hW : W.Streams maxLen) {r : Except EspErr (Option AutoBufInfo) × UInt32}
    (h : Allocated maxLen v p e r) :
    wp (rxChip W) (Idle P) (emacW6300Dispatch r)
      (fun _ s' e' ↦ Turned maxLen v p s s' e' ∧ (r ≠ (.ok none, 0) → ∃ f granted,
        Served maxLen v f granted s' e')) s e := by
  cases h with
  | none h => exact fun e₁ he₁ ↦ ⟨.idle rfl (h.drifts hW he₁), fun hne ↦ absurd rfl hne⟩
  | some hremain h =>
    exact (deliver_ready hW hremain h).imp fun _ _ _ hserved ↦
      ⟨.served _ _ hserved, fun _ ↦ ⟨_, _, hserved⟩⟩
  | @noMem f seen h =>
    obtain ⟨late, -, hplaced, -⟩ := h.waits.late
    have hshort : f.payload.length ≤ maxLen := h.waits.short f (by simp [hplaced])
    have hserve : v.serve f false = ⟨v.frames ++ [f], v.mallocs ++ [false], v.inputs⟩ := by
      rw [Tally.serve, RxFrame.handed, if_neg (fun hc ↦ Bool.false_ne_true hc.1), List.append_nil]
    refine pre_discard ((pre.settle (flushRecvFrame_ready hW h)).imp ?_)
    rintro (err | _) s' e₁ hr e₂ he₂
    · exact (hr e₂ he₂).elim
    · obtain ⟨q, seen', h₂, hseen⟩ := hr e₂ he₂
      have hserved : Served maxLen v f false s' e₂ := ⟨hshort, q, seen', hserve ▸ h₂, hseen⟩
      exact ⟨.served _ _ hserved, fun _ ↦ ⟨_, _, hserved⟩⟩

/-- A turn deals with the first frame that waits, and with no other. -/
theorem taskTurn_ready (hW : W.Streams maxLen) (h : Ready maxLen v p seen e) :
    wp (rxChip W) (Idle P) emacW6300TaskTurn
      (fun r s' e' ↦ Turned maxLen v p s s' e' ∧ r = (if s'.packetsRemain = true then none else
        some ()) ∧
        (seen ≠ [] → ∃ f granted, Served maxLen v f granted s' e')) s e := by
  unfold emacW6300TaskTurn
  refine (allocRecvBuf_ready hW h).seq ?_
  rintro r _ e₁ ⟨rfl, halloc, hsome⟩
  refine (pre.settle (dispatch_ready hW halloc)).seq ?_
  rintro - s' e₂ hr
  refine pre_get_bind.mpr fun e₃ he₃ ↦ ?_
  obtain ⟨hturned, hserved⟩ := hr e₃ he₃
  exact ⟨hturned, rfl, fun hne ↦ hserved (hsome hne)⟩

end WsmDriver.W6300
