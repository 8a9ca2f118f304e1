import WsmDriver.W6300.Access

/-!
# The stream of received frames

A chip that puts whole frames into the ring, each behind the ones before it and whenever there is
room. Frames may arrive between any two accesses of the driver. What the driver has dealt with so
far is a `Tally`, and `Waits` says where the rest of the stream is: the frames the driver has
accounted for wait from some address on, and behind them wait the frames that arrived since, which
left `Sn_IR.RECV` set.

A turn of the receive loop goes through three phases. In `Ready` the chip and the driver agree about
the read pointer, in `Moved` the driver has moved it behind a frame, and in `Committing` the chip
may or may not have taken the `RECV` command yet. Each of them survives arrivals.
-/

namespace WsmDriver.W6300

open Effect Failing

/-- The chip puts whole frames of at most `maxLen` bytes into the ring while there is room, and
takes a command before the driver stops waiting for it. -/
structure RxWorld.Streams (W : RxWorld) (maxLen : ℕ) : Prop where
  busy : ∀ {n}, W.busy n → n < 9
  arrives : ∀ {e e'}, W.arrives e e' → ∃ f : RxFrame,
    f.payload.length ≤ maxLen ∧ e.rsr.toNat + f.total ≤ sock0BufSize ∧ e' = e.place f

/-- What has been dealt with: the frames taken out of the ring, what `malloc` answered, and what the
stack was given. -/
structure Tally where
  frames : List RxFrame
  mallocs : List Bool
  inputs : List (List UInt8)

/-- The frames `seen` wait from `p` on, and behind them the frames that arrived since. -/
structure Waits (maxLen : ℕ) (v : Tally) (p : UInt16) (seen : List RxFrame) (e : RxChip) :
    Prop where
  late : ∃ late, Pending e p (seen ++ late) ∧ e.placed = v.frames ++ (seen ++ late) ∧
    (late ≠ [] → e.recv = true)
  short : ∀ f ∈ e.placed, f.payload.length ≤ maxLen
  mallocs : e.mallocs = v.mallocs
  inputs : e.inputs = v.inputs

variable {W : RxWorld} {maxLen : ℕ} {P : Emac → RxChip → Prop} {v : Tally} {p : UInt16}
  {f : RxFrame} {seen : List RxFrame} {s : Emac} {e e' : RxChip}

namespace RxWorld.Streams

theorem prompt (hW : W.Streams maxLen) : W.Prompt where
  busy := hW.busy
  arrives ha := by
    obtain ⟨f, -, -, rfl⟩ := hW.arrives ha
    exact ⟨rfl, rfl⟩

/-- Room is used up by arrivals and given back by commands, so only finitely much happens by
itself. -/
theorem calm (hW : W.Streams maxLen) : (rxChip W).Calm := by
  let room (e : RxChip) : ℕ := (if e.cr = 0 then 0 else 16385) + (16384 - e.rsr.toNat)
  refine Subrelation.wf (r := fun e' e ↦ room e' < room e) ?_ (measure room).wf
  rintro e' e (ha | ⟨hcr, rfl⟩)
  · obtain ⟨f, -, hroom, rfl⟩ := hW.arrives ha
    have hrsr := e.rsr_place hroom
    have hle := f.le_total
    have hcr : (e.place f).cr = e.cr := rfl
    simp only [sock0BufSize] at hroom
    simp only [room, hcr, hrsr]
    omega
  · simp only [room, if_neg hcr]
    rw [if_pos (show e.execute.cr = 0 from rfl)]
    omega

/-- While no command is pending, only arrivals happen. -/
theorem drifts_induct (hW : W.Streams maxLen) {P : RxChip → Prop} (hcr : e.cr = 0)
    (hP : ∀ (e : RxChip) (f : RxFrame), f.payload.length ≤ maxLen →
      e.rsr.toNat + f.total ≤ sock0BufSize → P e → P (e.place f))
    (hd : (rxChip W).Drifts e e') (h : P e) : P e' := by
  refine (hd.induct (P := fun e ↦ e.cr = 0 ∧ P e) ?_ ⟨hcr, h⟩).2
  rintro e₁ e₂ (ha | ⟨hne, -⟩) ⟨hcr₁, h₁⟩
  · obtain ⟨f, hlen, hroom, rfl⟩ := hW.arrives ha
    exact ⟨hcr₁, hP e₁ f hlen hroom h₁⟩
  · exact absurd hcr₁ hne

theorem drifts_pointers (hW : W.Streams maxLen) (hcr : e.cr = 0) (hd : (rxChip W).Drifts e e') :
    e'.rd = e.rd ∧ e'.base = e.base ∧ e'.cr = 0 :=
  hW.drifts_induct (P := fun e' ↦ e'.rd = e.rd ∧ e'.base = e.base ∧ e'.cr = 0) hcr
    (fun _ _ _ _ h ↦ h) hd ⟨rfl, rfl, hcr⟩

theorem drifts_rsr (hW : W.Streams maxLen) (hcr : e.cr = 0) (hd : (rxChip W).Drifts e e') :
    e.rsr.toNat ≤ e'.rsr.toNat := by
  refine hW.drifts_induct (P := fun e' ↦ e.rsr.toNat ≤ e'.rsr.toNat) hcr ?_ hd le_rfl
  intro e₁ f _ hroom h
  rw [e₁.rsr_place hroom]
  omega

end RxWorld.Streams

/-! ## Phases of a turn -/

namespace Waits

theorem place (h : Waits maxLen v p seen e) (hlen : f.payload.length ≤ maxLen)
    (hroom : e.rsr.toNat + f.total ≤ sock0BufSize) : Waits maxLen v p seen (e.place f) := by
  obtain ⟨late, hpend, hplaced, -⟩ := h.late
  refine ⟨⟨late ++ [f], ?_, ?_, fun _ ↦ rfl⟩, ?_, h.mallocs, h.inputs⟩
  · rw [← List.append_assoc]
    exact hpend.place hroom
  · simp [RxChip.place, hplaced]
  · intro g hg
    obtain hg | rfl := List.mem_append.mp hg |>.imp_right List.mem_singleton.mp
    · exact h.short g hg
    · exact hlen

theorem drifts (h : Waits maxLen v p seen e) (hW : W.Streams maxLen) (hcr : e.cr = 0)
    (hd : (rxChip W).Drifts e e') : Waits maxLen v p seen e' :=
  hW.drifts_induct hcr (fun _ _ hlen hroom h ↦ h.place hlen hroom) hd h

/-- Nothing of this depends on the registers that only the driver writes. -/
theorem write (h : Waits maxLen v p seen e) {rd : UInt16} {cr : UInt8} {polls commits : ℕ} :
    Waits maxLen v p seen { e with rd := rd, cr := cr, polls := polls, commits := commits } := by
  obtain ⟨⟨late, hpend, hlate⟩, hshort, hmallocs, hinputs⟩ := h
  exact ⟨⟨late, ⟨hpend.wr_eq, hpend.le_rsr, hpend.rsr_le, hpend.bytes⟩, hlate⟩, hshort,
    hmallocs, hinputs⟩

/-- All that waits has been seen. -/
theorem sample (h : Waits maxLen v p seen e) :
    ∃ fs, Waits maxLen v p fs e ∧ Pending e p fs ∧ seen <+: fs ∧ e.placed = v.frames ++
    fs := by
  obtain ⟨⟨late, hpend, hplaced, -⟩, hshort, hmallocs, hinputs⟩ := h
  refine ⟨seen ++ late, ⟨⟨[], ?_, ?_, by simp⟩, hshort, hmallocs, hinputs⟩, hpend,
    ⟨late, rfl⟩, hplaced⟩
  · rwa [List.append_nil]
  · rwa [List.append_nil]

/-- The first frame is taken. -/
theorem take (h : Waits maxLen v p (f :: seen) e) :
    Waits maxLen { v with frames := v.frames ++ [f] } (p + UInt16.ofNat f.total) seen e := by
  obtain ⟨⟨late, hpend, hplaced, hlate⟩, hshort, hmallocs, hinputs⟩ := h
  refine ⟨⟨late, hpend.behind, ?_, hlate⟩, hshort, hmallocs, hinputs⟩
  simpa using hplaced

theorem malloc (h : Waits maxLen v p seen e) (granted : Bool) :
    Waits maxLen { v with mallocs := v.mallocs ++ [granted] } p seen
      { e with mallocs := e.mallocs ++ [granted] } := by
  obtain ⟨⟨late, hpend, hlate⟩, hshort, hmallocs, hinputs⟩ := h
  refine ⟨⟨late, ⟨hpend.wr_eq, hpend.le_rsr, hpend.rsr_le, hpend.bytes⟩, hlate⟩, hshort, ?_,
    hinputs⟩
  exact congrArg (· ++ [granted]) hmallocs

theorem input (h : Waits maxLen v p seen e) (frame : List UInt8) :
    Waits maxLen { v with inputs := v.inputs ++ [frame] } p seen
      { e with inputs := e.inputs ++ [frame] } := by
  obtain ⟨⟨late, hpend, hlate⟩, hshort, hmallocs, hinputs⟩ := h
  refine ⟨⟨late, ⟨hpend.wr_eq, hpend.le_rsr, hpend.rsr_le, hpend.bytes⟩, hlate⟩, hshort,
    hmallocs, ?_⟩
  exact congrArg (· ++ [frame]) hinputs

/-- The `RECV` command makes the read pointer the chip's. -/
theorem execute (h : Waits maxLen v p seen e) (hrd : e.rd = p) (hcr : e.cr = scrRecv) :
    Waits maxLen v p seen e.execute := by
  obtain ⟨⟨late, hpend, hlate⟩, hshort, hmallocs, hinputs⟩ := h
  have hlen := hpend.length_le
  have hrsr : e.execute.rsr = UInt16.ofNat (stream (seen ++ late)).length := by
    simp only [RxChip.rsr, RxChip.execute, if_pos hcr, hpend.wr_eq, hrd]
    rw [UInt16.add_comm, UInt16.add_sub_cancel]
  have hnat : e.execute.rsr.toNat = (stream (seen ++ late)).length := by
    rw [hrsr]
    exact toNat_ofNat_of_le hlen
  refine ⟨⟨late, ⟨hpend.wr_eq, hnat.ge, ?_, hpend.bytes⟩, hlate⟩, hshort, hmallocs,
    hinputs⟩
  rw [hnat]
  exact hlen

end Waits

/-- The read pointer is at the first frame that waits, for the chip as for the driver. -/
structure Ready (maxLen : ℕ) (v : Tally) (p : UInt16) (seen : List RxFrame) (e : RxChip) :
    Prop where
  waits : Waits maxLen v p seen e
  rd : e.rd = p
  base : e.base = p
  cr : e.cr = 0

/-- The read pointer was moved. -/
structure Moved (maxLen : ℕ) (v : Tally) (p : UInt16) (seen : List RxFrame) (e : RxChip) :
    Prop where
  waits : Waits maxLen v p seen e
  rd : e.rd = p
  cr : e.cr = 0

/-- The chip was told, and may have noticed. -/
structure Committing (maxLen : ℕ) (v : Tally) (p : UInt16) (seen : List RxFrame) (e : RxChip) :
    Prop where
  waits : Waits maxLen v p seen e
  rd : e.rd = p
  cr : e.cr = scrRecv ∨ e.cr = 0 ∧ e.base = p

namespace Ready

theorem drifts (h : Ready maxLen v p seen e) (hW : W.Streams maxLen) (hd : (rxChip W).Drifts e e') :
    Ready maxLen v p seen e' := by
  obtain ⟨hrd, hbase, hcr⟩ := hW.drifts_pointers h.cr hd
  exact ⟨h.waits.drifts hW h.cr hd, hrd.trans h.rd, hbase.trans h.base, hcr⟩

/-- `Sn_RX_RSR` counts the bytes of the frames that wait. -/
theorem sample (h : Ready maxLen v p seen e) :
    ∃ fs, Ready maxLen v p fs e ∧ e.rsr.toNat = (stream fs).length ∧ seen <+: fs ∧
      e.placed = v.frames ++ fs := by
  obtain ⟨fs, hwaits, hpend, hle, hplaced⟩ := h.waits.sample
  refine ⟨fs, ⟨hwaits, h.rd, h.base, h.cr⟩, ?_, hle, hplaced⟩
  have hrsr : e.rsr = UInt16.ofNat (stream fs).length := by
    rw [RxChip.rsr, hpend.wr_eq, h.base, UInt16.add_comm, UInt16.add_sub_cancel]
  rw [hrsr]
  exact toNat_ofNat_of_le hpend.length_le

theorem move (h : Ready maxLen v p (f :: seen) e) :
    Moved maxLen { v with frames := v.frames ++ [f] } (p + UInt16.ofNat f.total) seen
      { e with rd := p + UInt16.ofNat f.total } :=
  ⟨h.waits.take.write, rfl, h.cr⟩

end Ready

theorem Moved.drifts (h : Moved maxLen v p seen e) (hW : W.Streams maxLen)
    (hd : (rxChip W).Drifts e e') : Moved maxLen v p seen e' := by
  obtain ⟨hrd, -, hcr⟩ := hW.drifts_pointers h.cr hd
  exact ⟨h.waits.drifts hW h.cr hd, hrd.trans h.rd, hcr⟩

theorem Moved.command (h : Moved maxLen v p seen e) :
    Committing maxLen v p seen (e.command scrRecv) :=
  ⟨h.waits.write, h.rd, .inl rfl⟩

theorem Committing.awaited (hW : W.Streams maxLen) : Awaited W (Committing maxLen v p seen) where
  drift := by
    rintro e e' ⟨hwaits, hrd, hcr⟩ (ha | ⟨hne, rfl⟩)
    · obtain ⟨f, hlen, hroom, rfl⟩ := hW.arrives ha
      exact ⟨hwaits.place hlen hroom, hrd, hcr⟩
    · obtain hcr | ⟨hcr, -⟩ := hcr
      · have hbase : e.execute.base = p := (if_pos hcr).trans hrd
        exact ⟨hwaits.execute hrd hcr, hrd, .inr ⟨rfl, hbase⟩⟩
      · exact absurd hcr hne
  polls h := ⟨h.waits.write, h.rd, h.cr⟩

theorem Committing.done (h : Committing maxLen v p seen e) (hcr : e.cr = 0) :
    Ready maxLen v p seen e := by
  refine ⟨h.waits, h.rd, ?_, hcr⟩
  obtain hrecv | ⟨-, hbase⟩ := h.cr
  · exact absurd (hcr.symm.trans hrecv) (by decide)
  · exact hbase

end WsmDriver.W6300
