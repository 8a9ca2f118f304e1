import WsmDriver.W6300.Turn
import WsmDriver.Effect.History

/-!
# Reception

The whole receive path, from a socket 0 that has just been opened: a ring with nothing in it, and
the read pointer at any address. The stack is given the frames for which there was memory, in the
order in which they arrived, and when the task waits for a notification no frame waits without an
interrupt.
-/

namespace WsmDriver.W6300

open Effect

/-- Nothing has arrived yet, and nothing was asked for. -/
structure RxChip.Fresh (e : RxChip) : Prop where
  wr : e.wr = e.rd
  base : e.base = e.rd
  cr : e.cr = 0
  placed : e.placed = []
  mallocs : e.mallocs = []
  inputs : e.inputs = []

variable {W : RxWorld} {maxLen : ℕ} {v : Tally} {p : UInt16} {seen : List RxFrame} {s s' : Emac}
  {e e' : RxChip}

theorem RxChip.Fresh.ready (h : e.Fresh) : Ready maxLen ⟨[], [], []⟩ e.rd [] e where
  waits := by
    have hrsr : e.rsr = 0 := by rw [RxChip.rsr, h.wr, h.base, UInt16.sub_self]
    have hwr : e.wr = e.rd + UInt16.ofNat (stream []).length :=
      h.wr.trans (UInt16.add_zero e.rd).symm
    refine ⟨⟨[], ⟨hwr, by simp, by simp [hrsr], by simp⟩, by simp [h.placed], by simp⟩, ?_,
      h.mallocs, h.inputs⟩
    simp [h.placed]
  rd := rfl
  base := h.base
  cr := h.cr

/-! ## The task -/

/-- Acknowledging the interrupt: every frame that waits has been seen. -/
theorem Ready.acknowledge (h : Ready maxLen v p seen e) :
    ∃ fs, Ready maxLen v p fs { e with recv := false } := by
  obtain ⟨⟨late, hpend, hplaced, -⟩, hshort, hmallocs, hinputs⟩ := h.waits
  refine ⟨seen ++ late, ⟨⟨[], ?_, ?_, by simp⟩, hshort, hmallocs, hinputs⟩, h.rd,
    h.base, h.cr⟩
  · rw [List.append_nil]
    exact ⟨hpend.wr_eq, hpend.le_rsr, hpend.rsr_le, hpend.bytes⟩
  · rwa [List.append_nil]

section

variable {I : Tally → Prop}

/-- What every served frame keeps. -/
def Tally.Kept (maxLen : ℕ) (I : Tally → Prop) : Prop :=
  ∀ (v : Tally) (f : RxFrame) (granted : Bool), f.payload.length ≤ maxLen → I v →
    I (v.serve f granted)

/-- The condition at the head of the task's loop: whatever waits there has set the interrupt. -/
def Resting (maxLen : ℕ) (I : Tally → Prop) (e : RxChip) : Prop :=
  ∃ v p, I v ∧ Ready maxLen v p [] e

theorem Resting.drifts (h : Resting maxLen I e) (hW : W.Streams maxLen)
    (hd : (rxChip W).Drifts e e') : Resting maxLen I e' := by
  obtain ⟨v, p, hv, h⟩ := h
  exact ⟨v, p, hv, h.drifts hW hd⟩

theorem taskTurn_kept (hW : W.Streams maxLen) (hI : Tally.Kept maxLen I) (hv : I v)
    (h : Ready maxLen v p seen e) :
    wp (rxChip W) (Idle fun _ ↦ Resting maxLen I) emacW6300TaskTurn (fun r _ e' ↦ match r with
      | none => ∃ v p seen, I v ∧ Ready maxLen v p seen e'
      | some _ => Resting maxLen I e') s e := by
  refine (taskTurn_ready hW h).imp ?_
  rintro _ s' e' ⟨hturned, rfl, -⟩
  cases hturned with
  | idle hs h =>
    split
    · exact ⟨v, p, [], hv, h⟩
    · exact ⟨v, p, hv, h⟩
  | served f granted h =>
    obtain ⟨hshort, q, seen', h, hseen⟩ := h
    have hv' := hI v f granted hshort hv
    -- The loop goes on if the size register still said something, and rests if all of it was
    -- served.
    cases hremain : s'.packetsRemain with
    | true => exact ⟨_, q, seen', hv', h⟩
    | false =>
      rw [hseen hremain] at h
      exact ⟨_, q, hv', h⟩

theorem serve_resting (hW : W.Streams maxLen) (hI : Tally.Kept maxLen I) (h : Resting maxLen I e) :
    wlp (rxChip W) (Idle fun _ ↦ Resting maxLen I) emacW6300Serve
    (fun _ _ ↦ Resting maxLen I) s e := by
  unfold emacW6300Serve emacW6300ReadStatus w6300Read
  refine (pre_perform_bind.mpr fun e₁ he₁ ↦ ⟨nofun, ?_⟩ : wlp _ _ _ (fun _ s' e' ↦
    Resting maxLen I e') s e).seq ?_
  · rintro _ _ ⟨⟨b, rfl, -⟩, rfl⟩ e₂ he₂
    exact (h.drifts hW he₁).drifts hW he₂
  · intro _ s e h
    refine pre_get_bind.mpr ?_
    split
    · unfold w6300ClearSockIntr w6300WriteU8 w6300Write
      refine pre.seq (M := fun _ _ e' ↦ ∃ v p seen, I v ∧ Ready maxLen v p seen e')
        (pre_discard ?_) ?_
      · intro e₁ he₁
        refine ⟨nofun, ?_⟩
        rintro _ _ ⟨-, rfl⟩ e₂ he₂ e₃ he₃
        obtain ⟨v, p, hv, h₁⟩ := h.drifts hW he₁
        -- The interrupt is cleared before the first look, so a frame after it raises another one.
        obtain ⟨fs, hfs⟩ := h₁.acknowledge
        rw [if_pos (by decide)] at he₂
        exact ⟨v, p, fs, hv, (hfs.drifts hW he₂).drifts hW he₃⟩
      · intro _ s e h
        refine wlp_forever (fun _ e ↦ ∃ v p seen, I v ∧ Ready maxLen v p seen e) h ?_
        rintro s e ⟨v, p, seen, hv, h⟩
        refine (wp.wlp (taskTurn_kept hW hI hv h)).imp ?_
        rintro (_ | _) s' e' hr
        · exact hr
        · exact fun e'' he'' ↦ hr.drifts hW he''
    · exact fun e₁ he₁ ↦ h.drifts hW he₁

theorem task_resting (hW : W.Streams maxLen) (hI : Tally.Kept maxLen I) (h : Resting maxLen I e) :
    wlp (rxChip W) (Idle fun _ ↦ Resting maxLen I) emacW6300Task (fun _ _ _ ↦ False) s e := by
  refine wlp_forever (fun _ ↦ Resting maxLen I) h fun s e h ↦ ?_
  unfold emacW6300TaskBody emacW6300Wait
  have hwait : wlp (rxChip W) (Idle fun _ ↦ Resting maxLen I) emacW6300Wait
      (fun _ _ ↦ Resting maxLen I) s e := by
    refine pre_get_bind.mpr (pre_ite (fun _ ↦ ?_) fun _ ↦ ?_)
    · refine pre_perform_bind.mpr fun e₁ he₁ ↦ ⟨fun _ _ ↦ h.drifts hW he₁, ?_⟩
      rintro notified _ rfl
      have h₁ := h.drifts hW he₁
      refine pre_ite (fun _ ↦ ?_) (fun _ e₂ he₂ ↦ h₁.drifts hW he₂)
      refine pre_perform_bind.mpr fun e₂ he₂ ↦ ⟨nofun, ?_⟩
      rintro level _ rfl e₃ he₃
      exact (h₁.drifts hW he₂).drifts hW he₃
    · refine pre.seq (M := fun _ _ ↦ Resting maxLen I) (pre_discard ?_) fun _ s e h e₁ he₁ ↦
        h.drifts hW he₁
      refine fun e₁ he₁ ↦ ⟨fun _ _ ↦ h.drifts hW he₁, ?_⟩
      rintro notified _ rfl e₂ he₂ e₃ he₃
      exact ((h.drifts hW he₁).drifts hW he₂).drifts hW he₃
  refine hwait.seq fun awake s e h ↦ pre_ite (fun _ ↦ ?_) fun _ e₁ he₁ ↦ h.drifts hW he₁
  exact (serve_resting hW hI h).seq fun _ s e h e₁ he₁ ↦ h.drifts hW he₁

end

/-! ## What the stack is given -/

/-- The payloads of the frames for which there was memory. -/
def grantedPayloads (fs : List RxFrame) (mallocs : List Bool) : List (List UInt8) :=
  ((fs.zip mallocs).filter (·.2)).map (·.1.payload)

theorem grantedPayloads_snoc {fs : List RxFrame} {mallocs : List Bool} {f : RxFrame}
    {granted : Bool} (hlen : mallocs.length = fs.length) :
    grantedPayloads (fs ++ [f]) (mallocs ++ [granted]) =
      grantedPayloads fs mallocs ++ if granted = true then [f.payload] else [] := by
  rw [grantedPayloads, List.zip_append hlen.symm, List.filter_append, List.map_append,
    ← grantedPayloads]
  cases granted <;> rfl

/-- Frames that were not asked for yet do not count. -/
theorem grantedPayloads_append {fs rest : List RxFrame} {mallocs : List Bool}
    (hlen : mallocs.length = fs.length) :
    grantedPayloads (fs ++ rest) mallocs = grantedPayloads fs mallocs := by
  have hzip : (fs ++ rest).zip mallocs = fs.zip mallocs := by
    have h : (fs ++ rest).zip (mallocs ++ []) = fs.zip mallocs ++ rest.zip [] :=
      List.zip_append hlen.symm
    rwa [List.append_nil, List.zip_nil_right, List.append_nil] at h
  rw [grantedPayloads, grantedPayloads, hzip]

/-- The stack has been given the frames for which there was memory, each once, and the read pointer
is at the header of the first frame not yet dealt with. -/
structure RxChip.Delivered (e : RxChip) : Prop where
  inputs : e.inputs = grantedPayloads e.placed e.mallocs
  next : Pending e e.rd (e.placed.drop e.mallocs.length)

/-- One request for memory for each frame, and its payload if the request was granted. -/
structure Tally.Exact (v : Tally) : Prop where
  length_mallocs : v.mallocs.length = v.frames.length
  inputs : v.inputs = grantedPayloads v.frames v.mallocs

theorem Tally.Exact.kept : Tally.Kept ethMaxPacketSize Tally.Exact := by
  rintro v f granted hshort ⟨hlen, hinputs⟩
  constructor
  · simp [Tally.serve, hlen]
  · have hhanded : f.handed granted = if granted = true then [f.payload] else [] := by
      simp [RxFrame.handed, hshort]
    simp only [Tally.serve]
    rw [grantedPayloads_snoc hlen, hinputs, hhanded]

theorem Ready.delivered (h : Ready maxLen v p seen e) (hv : v.Exact) : e.Delivered := by
  obtain ⟨⟨late, hpend, hplaced, -⟩, -, hmallocs, hinputs⟩ := h.waits
  constructor
  · rw [hinputs, hmallocs, hplaced, grantedPayloads_append hv.length_mallocs]
    exact hv.inputs
  · rw [h.rd, hplaced, hmallocs, hv.length_mallocs, List.drop_left]
    exact hpend

/-- Turns of the receive loop, one after the other. -/
abbrev TurnHistory (W : RxWorld) : Emac → RxChip → Emac → RxChip → Prop :=
  History (fun _ : Unit ↦ rxChip W) (fun _ _ _ ↦ True) fun _ ↦ discard emacW6300TaskTurn

theorem turnHistory_ready (hW : W.Streams ethMaxPacketSize) (hfresh : e.Fresh)
    (h : TurnHistory W s e s' e') : ∃ v p seen, v.Exact ∧ Ready ethMaxPacketSize v p seen e' := by
  refine h.invariant (I := fun _ e ↦ ∃ v p seen, v.Exact ∧ Ready ethMaxPacketSize v p seen e)
    (G := fun _ _ ↦ Idle fun _ ↦ Resting ethMaxPacketSize Tally.Exact) ?_ ?_ ?_
  · exact ⟨_, _, _, ⟨rfl, rfl⟩, hfresh.ready⟩
  · rintro - - e₁ e₂ ⟨v, p, seen, hv, h⟩ hd
    exact ⟨v, p, seen, hv, h.drifts hW (.single hd)⟩
  · rintro - s e ⟨v, p, seen, hv, h⟩ -
    refine pre_discard ((wp.wlp (taskTurn_kept hW Tally.Exact.kept hv h)).imp ?_)
    rintro (_ | _) s₁ e₁ hr e₂ he₂
    · obtain ⟨v, p, seen, hv, h⟩ := hr
      exact ⟨v, p, seen, hv, h.drifts hW he₂⟩
    · obtain ⟨v, p, hv, h⟩ := hr.drifts hW he₂
      exact ⟨v, p, [], hv, h⟩

/-- **Reception delivers the stream.** After any number of turns, and whenever the task waits, the
stack has been given exactly the payloads of the frames for which there was memory; a turn ends, and
if a frame waits it deals with one. -/
theorem stream_delivered (hW : W.Streams ethMaxPacketSize) (hfresh : e.Fresh) :
    (∀ s' e', TurnHistory W s e s' e' → e'.Delivered ∧
      Halts (rxChip W) emacW6300TaskTurn s' e' ∧
      ∀ r s'' e'', Returns (rxChip W) emacW6300TaskTurn s' e' r s'' e'' →
        e'.mallocs.length < e'.placed.length → e''.mallocs.length = e'.mallocs.length + 1) ∧
    ∀ b s' e', Performs (rxChip W) emacW6300Task s e (.ulTaskNotifyTake b) s' e' →
    e'.Delivered := by
  constructor
  · intro s' e' h
    obtain ⟨v, p, seen, hv, h⟩ := turnHistory_ready hW hfresh h
    obtain ⟨fs, hfs, -, -, hplaced⟩ := h.sample
    have hturn := taskTurn_ready (P := fun _ _ ↦ True) (s := s') hW hfs
    refine ⟨h.delivered hv, wp_halts hW.calm hturn, fun r s'' e'' hr hlt ↦ ?_⟩
    obtain ⟨-, -, hserved⟩ := hturn.returns hr
    have hmallocs := hfs.waits.mallocs
    rw [hplaced, hmallocs, List.length_append, hv.length_mallocs] at hlt
    obtain ⟨f, granted, -, q, seen', h', -⟩ := hserved (List.ne_nil_of_length_pos (by omega))
    rw [h'.waits.mallocs, hmallocs]
    simp [Tally.serve]
  · intro b s' e' h
    obtain ⟨v, p, hv, h⟩ :=
      (task_resting hW Tally.Exact.kept ⟨_, _, ⟨rfl, rfl⟩, hfresh.ready⟩).performs h b rfl
    exact h.delivered hv

/-- A chip that only does what it has to. -/
def RxWorld.frames (maxLen : ℕ) : RxWorld where
  arrives e e' := ∃ f : RxFrame,
    f.payload.length ≤ maxLen ∧ e.rsr.toNat + f.total ≤ sock0BufSize ∧ e' = e.place f
  busy n := n < 9

theorem RxWorld.frames_streams (maxLen : ℕ) : (RxWorld.frames maxLen).Streams maxLen := ⟨id, id⟩

theorem RxChip.fresh_opened (rd : UInt16) : (RxChip.opened rd).Fresh :=
  ⟨rfl, rfl, rfl, rfl, rfl, rfl⟩

/-- The smallest frame there is. -/
def shortFrame : RxFrame := ⟨5, List.replicate 60 7, by decide, by decide⟩

/-- It arrives if there is room. -/
def RxChip.greet (e : RxChip) : RxChip :=
  if e.rsr.toNat + shortFrame.total ≤ sock0BufSize then e.place shortFrame else e

theorem drifts_greet {maxLen : ℕ} (hlen : 60 ≤ maxLen) (e : RxChip) :
    (rxChip (.frames maxLen)).Drifts e e.greet := by
  unfold RxChip.greet
  split
  · exact .single (.inl ⟨shortFrame, hlen, ‹_›, rfl⟩)
  · exact .refl _ _

theorem performs_second_wait (maxLen : ℕ) (hlen : 60 ≤ maxLen) :
    ∃ s' e', Performs (rxChip (.frames maxLen)) emacW6300Task {} (.opened 0xFFF0)
      (.ulTaskNotifyTake false) s' e' ∧ e'.placed = [shortFrame] ∧ e'.mallocs = [true] := by
  have hrun := performs_runWith (n := 27) (o := .ulTaskNotifyTake false) (p := emacW6300Task)
    (s := {})
    (rxChip_reply (W := .frames maxLen) true (drifts_greet hlen)) (e := .opened 0xFFF0) trivial
    (by decide)
  obtain ⟨k, hk⟩ := hrun
  exact ⟨_, _, ⟨k, hk.of_eager⟩, by decide, by decide⟩

/-- A frame whose bytes wrap around the end of the address space. -/
theorem stream_delivered_wrapping :
    ∃ s' e', Performs (rxChip (.frames ethMaxPacketSize)) emacW6300Task {}
    (.opened 0xFFF0) (.ulTaskNotifyTake false) s' e' ∧ e'.inputs = [shortFrame.payload] := by
  obtain ⟨s', e', hp, hplaced, hmallocs⟩ := performs_second_wait ethMaxPacketSize (by decide)
  have hdelivered :=
    (stream_delivered (RxWorld.frames_streams _) (RxChip.fresh_opened 0xFFF0)).2 _ _ _ hp
  refine ⟨s', e', hp, ?_⟩
  rw [hdelivered.inputs, hplaced, hmallocs]
  rfl

/-! ## Nothing is stranded -/

/-- **No stranded frame.** When the task waits for a notification, no frame waits, or the interrupt
is set. -/
theorem no_stranded_frame (hW : W.Streams maxLen) (hfresh : e.Fresh) {bounded : Bool}
    (h : Performs (rxChip W) emacW6300Task s e (.ulTaskNotifyTake bounded) s' e') :
    e'.rsr = 0 ∨ e'.recv = true := by
  have hkept : Tally.Kept maxLen fun _ ↦ True := fun _ _ _ _ _ ↦ trivial
  obtain ⟨v, p, -, hready⟩ :=
    (task_resting hW hkept ⟨_, _, trivial, hfresh.ready⟩).performs h bounded rfl
  obtain ⟨late, hpend, hplaced, hlate⟩ := hready.waits.late
  rw [List.nil_append] at hpend
  cases late with
  | nil =>
    have hwr : e'.wr = p + 0 := hpend.wr_eq
    left
    rw [RxChip.rsr, hwr, hready.base, UInt16.add_zero, UInt16.sub_self]
  | cons f fs => exact .inr (hlate (List.cons_ne_nil f fs))

theorem no_stranded_frame_second_wait : ∃ s' e', Performs (rxChip (.frames 2045)) emacW6300Task {}
    (.opened 0xFFF0) (.ulTaskNotifyTake false) s' e' ∧ (e'.rsr = 0 ∨ e'.recv = true) := by
  obtain ⟨s', e', hp, -⟩ := performs_second_wait 2045 (by decide)
  exact ⟨s', e', hp, no_stranded_frame (RxWorld.frames_streams _) (RxChip.fresh_opened 0xFFF0) hp⟩

end WsmDriver.W6300
