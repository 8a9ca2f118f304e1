import WsmDriver.W6300.Bytes
import WsmDriver.W6300.Mac
import Mathlib.Data.Nat.Bitwise

/-!
# The receiving side of the chip

Socket 0 in MACRAW mode as the driver meets it: a ring of 16 KB, a write pointer that the chip
moves, a read pointer that the driver moves and that takes effect with the `RECV` command.
`Sn_RX_RSR` is the distance between the write pointer and the read pointer of the last `RECV`. A
frame arrives as a whole, between any two accesses of the driver: it is written behind the frames
that wait, and `Sn_IR.RECV` is set. There is no room for a frame that would reach the bytes not yet
given back.

Every access succeeds. A command stays in `Sn_CR` until the chip takes it, at a moment of its
choice. What the allocator answered and what the stack was given is recorded beside the chip.
-/

namespace WsmDriver.W6300

open Effect

/-! ## Headers -/

/-- The length in a header is that of its low three and its eight bits. -/
theorem headerTotal_toNat (head : Vector UInt8 2) :
    (headerTotal head).toNat = (head.get 0).toNat % 8 * 256 + (head.get 1).toNat := by
  have hmask : (head.get 0 &&& rxHeaderLenMask).toNat = (head.get 0).toNat % 8 := by
    rw [UInt8.toNat_and]
    exact Nat.and_two_pow_sub_one_eq_mod (head.get 0).toNat 3
  rw [headerTotal, join16_toNat, hmask]

/-! ## Frames -/

/-- A frame as the chip puts it into the ring: the flags of its header and its payload. -/
structure RxFrame where
  flags : Fin 32
  payload : List UInt8
  /-- Runts are dropped by the chip. -/
  min_le : ethMinPacketSize - ethCrcLen ≤ payload.length
  /-- The length fits the header. -/
  length_lt : payload.length + 2 < 2048
  deriving DecidableEq

namespace RxFrame

/-- The length the header announces. -/
def total (f : RxFrame) : ℕ := f.payload.length + 2

/-- The PACKET-INFO header: five flag bits and eleven bits of length. -/
def header (f : RxFrame) : List UInt8 :=
  [UInt8.ofNat (f.flags * 8 + f.total / 256), UInt8.ofNat (f.total % 256)]

/-- What the frame puts into the ring. -/
def bytes (f : RxFrame) : List UInt8 := f.header ++ f.payload

@[simp] theorem length_bytes (f : RxFrame) : f.bytes.length = f.total := by
  simp only [bytes, header, total, List.length_append, List.length_cons, List.length_nil]
  omega

theorem total_lt (f : RxFrame) : f.total < 2048 := f.length_lt

theorem le_total (f : RxFrame) : 62 ≤ f.total := by
  have h := f.min_le
  simp only [ethMinPacketSize, ethCrcLen] at h
  rw [total]
  omega

/-- The driver reads the length back, whatever the flags. -/
theorem headerTotal_eq (f : RxFrame) {head : Vector UInt8 2} (h : head.toList = f.header) :
    (headerTotal head).toNat = f.total := by
  have hlt := f.total_lt
  have hflags := f.flags.isLt
  have h₀ : head.get 0 = UInt8.ofNat (f.flags * 8 + f.total / 256) :=
    get_of_toList h 0 (by simp [header])
  have h₁ : head.get 1 = UInt8.ofNat (f.total % 256) := get_of_toList h 1 (by simp [header])
  rw [headerTotal_toNat, h₀, h₁, UInt8.toNat_ofNat', UInt8.toNat_ofNat']
  omega

end RxFrame

/-- What the frames put into the ring, one behind the other. -/
def stream (fs : List RxFrame) : List UInt8 := fs.flatMap RxFrame.bytes

@[simp] theorem stream_nil : stream [] = [] := rfl

@[simp] theorem stream_cons (f : RxFrame) (fs : List RxFrame) : stream (f :: fs) = f.bytes ++
    stream fs :=
  rfl

@[simp] theorem stream_append (fs gs : List RxFrame) : stream (fs ++ gs) = stream fs ++
    stream gs := by
  simp [stream]

/-- Frames have bytes. -/
theorem stream_length_eq_zero {fs : List RxFrame} : (stream fs).length = 0 ↔ fs = [] := by
  cases fs with
  | nil => simp
  | cons f fs =>
    have h := f.le_total
    simp
    omega

/-! ## The chip -/

/-- The receiving side of socket 0, and what has happened around it. -/
structure RxChip where
  ring : ℕ → UInt8
  /-- `Sn_RX_WR`. -/
  wr : UInt16
  /-- `Sn_RX_RD`. -/
  rd : UInt16
  /-- `Sn_RX_RD` as the last `RECV` found it. -/
  base : UInt16
  /-- `Sn_IR.RECV`. -/
  recv : Bool
  /-- `Sn_CR`, and how often the driver has found it busy. -/
  cr : UInt8
  polls : ℕ
  /-- How many `RECV` commands were issued. -/
  commits : ℕ
  /-- Every frame that ever arrived, in order. -/
  placed : List RxFrame
  /-- Every answer of `malloc` and every frame passed to `stack_input`, in order. -/
  mallocs : List Bool
  inputs : List (List UInt8)

namespace RxChip

/-- Socket 0 just opened, with the pointers where they were left. -/
def opened (rd : UInt16) : RxChip :=
  ⟨fun _ ↦ 0, rd, rd, rd, false, 0, 0, 0, [], [], []⟩

/-- `Sn_RX_RSR`. -/
def rsr (e : RxChip) : UInt16 := e.wr - e.base

/-- The `n` bytes from `a` on; the chip wraps the address. -/
def fetch (e : RxChip) (a : UInt16) (n : ℕ) : List UInt8 :=
  (List.range n).map fun i ↦ e.ring ((a.toNat + i) % sock0BufSize)

/-- A frame arrives. -/
def place (e : RxChip) (f : RxFrame) : RxChip :=
  { e with
    ring := fun k ↦
      f.bytes.getD ((k + (sock0BufSize - e.wr.toNat % sock0BufSize)) % sock0BufSize) (e.ring k)
    wr := e.wr + UInt16.ofNat f.total
    recv := true
    placed := e.placed ++ [f] }

/-- The chip takes the command in `Sn_CR`. -/
def execute (e : RxChip) : RxChip :=
  { e with cr := 0, base := if e.cr = scrRecv then e.rd else e.base }

/-- A command is written. -/
def command (e : RxChip) (c : UInt8) : RxChip :=
  { e with cr := c, polls := 0, commits := if c = scrRecv then e.commits + 1 else e.commits }

end RxChip

/-- What arrives, and how often the driver may find a command pending. -/
structure RxWorld where
  arrives : RxChip → RxChip → Prop
  busy : ℕ → Prop

/-- How the chip answers. -/
def RxChip.Answers (W : RxWorld) (e : RxChip) : (o : MacOp) → o.Ans → RxChip → Prop
  | .read .sockRxRsr len, a, e' => a = .ok (window (be16 e.rsr) len) ∧ e' = e
  | .read .sockRxRd len, a, e' => a = .ok (window (be16 e.rd) len) ∧ e' = e
  | .read (.memSockRx offset) len, a, e' => a = .ok (window (e.fetch offset len) len) ∧ e' = e
  | .read .sockIr len, a, e' =>
    (∃ b, a = .ok (window [b] len) ∧ (b &&& sirRecv ≠ 0 ↔ e.recv = true)) ∧ e' = e
  | .read .sockCr len, a, e' =>
    a = .ok (window [e.cr] len) ∧ (e.cr ≠ 0 → W.busy e.polls) ∧ e' =
      { e with polls := e.polls + 1 }
  | .read _ _, a, e' => (∃ v, a = .ok v) ∧ e' = e
  | .write .sockRxRd data, a, e' => a = .ok () ∧ e' = { e with rd := word data }
  | .write .sockCr data, a, e' => a = .ok () ∧ e' = e.command (data.headD 0)
  | .write .sockIrclr data, a, e' => a = .ok () ∧
      e' = if data.headD 0 &&& sirRecv ≠ 0 then { e with recv := false } else e
  | .write _ _, a, e' => a = .ok () ∧ e' = e
  | .malloc _, granted, e' => e' = { e with mallocs := e.mallocs ++ [granted] }
  | .free, _, e' => e' = e
  | .stackInput frame, _, e' => e' = { e with inputs := e.inputs ++ [frame] }
  | .vTaskDelay _, _, e' => e' = e
  | .espTimerGetTime, _, e' => e' = e
  | .ulTaskNotifyTake _, _, e' => e' = e
  | .gpioGetLevel _, _, e' => e' = e

/-- The chip in the world `W`. -/
def rxChip (W : RxWorld) : Env Emac RxChip MacOp.Ans where
  drift e e' := W.arrives e e' ∨ (e.cr ≠ 0 ∧ e' = e.execute)
  answer o _ e a e' := e.Answers W o a e'

/-- One way to answer. Every request for memory is granted or none is, a command has been taken by
the time it is looked at, and frames arrive while the task waits for a notification. -/
def RxChip.reply (granted : Bool) (arrive : RxChip → RxChip) : (o : MacOp) → RxChip →
    o.Ans × RxChip
  | .read .sockRxRsr len, e => (.ok (window (be16 e.rsr) len), e)
  | .read .sockRxRd len, e => (.ok (window (be16 e.rd) len), e)
  | .read (.memSockRx offset) len, e => (.ok (window (e.fetch offset len) len), e)
  | .read .sockIr len, e => (.ok (window [if e.recv = true then sirRecv else 0] len), e)
  | .read .sockCr len, e =>
    (.ok (window [0] len), { if e.cr = 0 then e else e.execute with polls := e.polls + 1 })
  | .read .sockIrclr len, e | .read .sockTxFsr len, e | .read .sockTxWr len, e
  | .read (.memSockTx _) len, e | .read .physr len, e => (.ok (window [] len), e)
  | .write .sockRxRd data, e => (.ok (), { e with rd := word data })
  | .write .sockCr data, e => (.ok (), e.command (data.headD 0))
  | .write .sockIrclr data, e =>
    (.ok (), if data.headD 0 &&& sirRecv ≠ 0 then { e with recv := false } else e)
  | .write .sockIr _, e | .write .sockTxFsr _, e | .write .sockTxWr _, e | .write .sockRxRsr _, e
  | .write (.memSockTx _) _, e | .write (.memSockRx _) _, e | .write .physr _, e => (.ok (), e)
  | .malloc _, e => (granted, { e with mallocs := e.mallocs ++ [granted] })
  | .free, e => ((), e)
  | .stackInput frame, e => ((), { e with inputs := e.inputs ++ [frame] })
  | .vTaskDelay _, e => ((), e)
  | .espTimerGetTime, e => (0, e)
  | .ulTaskNotifyTake _, e => (1, arrive e)
  | .gpioGetLevel _, e => (0, e)

theorem rxChip_reply {W : RxWorld} (granted : Bool) {arrive : RxChip → RxChip}
    (ha : ∀ e, (rxChip W).Drifts e (arrive e)) :
    (rxChip W).eager.Follows (fun _ ↦ True) (RxChip.reply granted arrive) := by
  refine .always fun o s e ↦ ?_
  cases o with
  | read r len =>
    cases r with
    | sockIr =>
      refine ⟨e, .refl _ _, ⟨_, rfl, ?_⟩, rfl⟩
      cases e.recv <;> decide
    | sockCr =>
      by_cases hcr : e.cr = 0
      · refine ⟨e, .refl _ _, ?_, fun hne ↦ absurd hcr hne, ?_⟩
        · rw [hcr]
          rfl
        · simp only [RxChip.reply, if_pos hcr]
      · refine ⟨e.execute, Relation.ReflTransGen.single (.inr ⟨hcr, rfl⟩), rfl,
          fun hne ↦ absurd rfl hne, ?_⟩
        simp only [RxChip.reply, if_neg hcr]
        rfl
    | sockRxRsr => exact ⟨e, .refl _ _, rfl, rfl⟩
    | sockRxRd => exact ⟨e, .refl _ _, rfl, rfl⟩
    | memSockRx offset => exact ⟨e, .refl _ _, rfl, rfl⟩
    | sockIrclr => exact ⟨e, .refl _ _, ⟨_, rfl⟩, rfl⟩
    | sockTxFsr => exact ⟨e, .refl _ _, ⟨_, rfl⟩, rfl⟩
    | sockTxWr => exact ⟨e, .refl _ _, ⟨_, rfl⟩, rfl⟩
    | memSockTx offset => exact ⟨e, .refl _ _, ⟨_, rfl⟩, rfl⟩
    | physr => exact ⟨e, .refl _ _, ⟨_, rfl⟩, rfl⟩
  | write r data =>
    cases r with
    | _ => exact ⟨e, .refl _ _, rfl, rfl⟩
  | ulTaskNotifyTake bounded => exact ⟨arrive e, ha e, rfl⟩
  | malloc size => exact ⟨e, .refl _ _, rfl⟩
  | free => exact ⟨e, .refl _ _, rfl⟩
  | stackInput frame => exact ⟨e, .refl _ _, rfl⟩
  | vTaskDelay ms => exact ⟨e, .refl _ _, rfl⟩
  | espTimerGetTime => exact ⟨e, .refl _ _, rfl⟩
  | gpioGetLevel num => exact ⟨e, .refl _ _, rfl⟩

theorem toNat_ofNat_of_le {n : ℕ} (h : n ≤ 16384) : (UInt16.ofNat n).toNat = n :=
  UInt16.toNat_ofNat_of_lt' (by rw [UInt16.size]; omega)

/-- A frame that finds room adds what it puts into the ring. -/
theorem RxChip.rsr_place (e : RxChip) {f : RxFrame} (hroom : e.rsr.toNat + f.total ≤ sock0BufSize) :
    (e.place f).rsr.toNat = e.rsr.toNat + f.total := by
  simp only [sock0BufSize] at hroom
  have hf : (UInt16.ofNat f.total).toNat = f.total := toNat_ofNat_of_le (by omega)
  have heq : (e.place f).rsr = e.rsr + UInt16.ofNat f.total := by
    simp only [RxChip.rsr, RxChip.place, UInt16.sub_eq_add_neg, UInt16.add_assoc,
      UInt16.add_comm (UInt16.ofNat f.total)]
  rw [heq, UInt16.toNat_add, hf]
  omega

/-! ## The frames in the ring -/

/-- The frames `fs` wait in the ring from `p` on, and nothing waits behind them. -/
structure Pending (e : RxChip) (p : UInt16) (fs : List RxFrame) : Prop where
  wr_eq : e.wr = p + UInt16.ofNat (stream fs).length
  le_rsr : (stream fs).length ≤ e.rsr.toNat
  rsr_le : e.rsr.toNat ≤ sock0BufSize
  bytes : ∀ i (hi : i < (stream fs).length),
    e.ring ((p.toNat + i) % sock0BufSize) = (stream fs)[i]

namespace Pending

variable {e : RxChip} {p : UInt16} {f : RxFrame} {fs : List RxFrame}

theorem length_le (h : Pending e p fs) : (stream fs).length ≤ 16384 := by
  have h₁ := h.le_rsr
  have h₂ := h.rsr_le
  simp only [sock0BufSize] at h₂
  omega

/-- The bytes of the frames are what the chip reads out. -/
theorem fetch_eq (h : Pending e p fs) {i n : ℕ} (hn : i + n ≤ (stream fs).length) :
    e.fetch (p + UInt16.ofNat i) n = ((stream fs).drop i).take n := by
  have hlen := h.length_le
  apply List.ext_getElem
  · simp only [RxChip.fetch, List.length_map, List.length_range, List.length_take, List.length_drop]
    omega
  · intro j hj₁ hj₂
    have hj : j < n := by simpa [RxChip.fetch] using hj₁
    have haddr : ((p + UInt16.ofNat i).toNat + j) % sock0BufSize =
        (p.toNat + (i + j)) % sock0BufSize := by
      have hi : (UInt16.ofNat i).toNat = i := toNat_ofNat_of_le (by omega)
      rw [UInt16.toNat_add, hi]
      simp only [sock0BufSize]
      omega
    simp only [RxChip.fetch, List.getElem_map, List.getElem_range, List.getElem_take,
      List.getElem_drop]
    rw [haddr]
    exact h.bytes (i + j) (by omega)

/-- The first frame is given back. -/
theorem behind (h : Pending e p (f :: fs)) : Pending e (p + UInt16.ofNat f.total) fs := by
  have hlen := h.length_le
  have hle := h.le_rsr
  have hcons : (stream (f :: fs)).length = f.total + (stream fs).length := by simp
  have hf : (UInt16.ofNat f.total).toNat = f.total := toNat_ofNat_of_le (by omega)
  refine ⟨?_, by omega, h.rsr_le, fun i hi ↦ ?_⟩
  · rw [h.wr_eq, hcons, UInt16.ofNat_add, UInt16.add_assoc]
  · have hbyte := h.bytes (f.total + i) (by omega)
    have haddr : ((p + UInt16.ofNat f.total).toNat + i) % sock0BufSize =
        (p.toNat + (f.total + i)) % sock0BufSize := by
      rw [UInt16.toNat_add, hf]
      simp only [sock0BufSize]
      omega
    rw [haddr, hbyte]
    simp only [stream_cons]
    rw [List.getElem_append_right (by simp)]
    simp

/-- A frame arrives behind those that wait. -/
theorem place (h : Pending e p fs) (hroom : e.rsr.toNat + f.total ≤ sock0BufSize) :
    Pending (e.place f) p (fs ++ [f]) := by
  have hle := h.le_rsr
  have hroom' := hroom
  simp only [sock0BufSize] at hroom'
  have hlen : (stream (fs ++ [f])).length = (stream fs).length + f.total := by simp
  have hf : (UInt16.ofNat f.total).toNat = f.total := toNat_ofNat_of_le (by omega)
  have hl : (UInt16.ofNat (stream fs).length).toNat = (stream fs).length :=
    toNat_ofNat_of_le (by omega)
  have hrsr := e.rsr_place hroom
  have hwr : e.wr.toNat = (p.toNat + (stream fs).length) % 65536 := by
    rw [h.wr_eq, UInt16.toNat_add, hl]
  refine ⟨?_, by omega, by omega, fun i hi ↦ ?_⟩
  · rw [hlen, UInt16.ofNat_add, ← UInt16.add_assoc, ← h.wr_eq]
    rfl
  -- The offset of the byte from the write pointer, in the ring.
  have hoff : ((p.toNat + i) % sock0BufSize + (sock0BufSize - e.wr.toNat % sock0BufSize)) %
      sock0BufSize =
      if i < (stream fs).length then sock0BufSize + i - (stream fs).length else
        i - (stream fs).length := by
    rw [hwr]
    simp only [sock0BufSize]
    split <;> omega
  have hring : (e.place f).ring ((p.toNat + i) % sock0BufSize) = f.bytes.getD
      (if i < (stream fs).length then sock0BufSize + i - (stream fs).length else
        i - (stream fs).length)
      (e.ring ((p.toNat + i) % sock0BufSize)) := by
    rw [← hoff]
    rfl
  have hstream : stream (fs ++ [f]) = stream fs ++ f.bytes := by simp
  rw [hring]
  simp only [hstream]
  split
  · rename_i hold
    rw [List.getElem_append_left hold, ← h.bytes i hold]
    refine List.getD_eq_default _ _ ?_
    rw [f.length_bytes]
    simp only [sock0BufSize]
    omega
  · rename_i hnew
    rw [List.getElem_append_right (by omega)]
    exact List.getD_eq_getElem _ _ _

end Pending

end WsmDriver.W6300
