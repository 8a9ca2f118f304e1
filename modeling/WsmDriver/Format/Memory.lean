import Mathlib.Data.List.GetD
import Mathlib.Tactic.Common

/-!
# Accesses to a block of memory

A block of memory is the list of its bytes. An access outside of the block is `none`, so a program
of the `Option` monad that returns a value has stayed inside the block on the way.

What a reader finds at an offset is stated by what is left of the block from there on:
`p.drop off = v ++ q` puts `v` at `off`, with `q` behind it.
-/

namespace Format

/-- The byte at `off`. -/
def readByte (p : List UInt8) (off : ℕ) : Option UInt8 := p[off]?

/-- The `n` bytes from `off` on. -/
def readBytes (n : ℕ) (p : List UInt8) (off : ℕ) : Option (List UInt8) :=
  if off + n ≤ p.length then some ((p.drop off).take n) else none

/-- The block with `v` stored from `off` on. -/
def writeBytes (p : List UInt8) (off : ℕ) (v : List UInt8) : Option (List UInt8) :=
  if off + v.length ≤ p.length then some (p.take off ++ (v ++ p.drop (off + v.length))) else none

variable {p q v : List UInt8} {off n : ℕ} {b : UInt8}

/-! ## Reading -/

theorem lt_of_drop_cons (h : p.drop off = b :: q) : off < p.length := by
  by_contra hle
  rw [List.drop_eq_nil_of_le (Nat.le_of_not_lt hle)] at h
  cases h

theorem length_of_drop (h : p.drop off = v ++ q) (hoff : off ≤ p.length) :
    off + v.length + q.length = p.length := by
  have hlen := congrArg List.length h
  rw [List.length_drop, List.length_append] at hlen
  omega

theorem readByte_of_drop (h : p.drop off = b :: q) : readByte p off = some b := by
  rw [readByte, ← List.head?_drop, h, List.head?_cons]

theorem readByte_of_lt (h : off < p.length) : readByte p off = some (p.getD off 0) := by
  rw [readByte, List.getD_eq_getElem _ _ h, List.getElem?_eq_getElem h]

theorem readBytes_of_drop (h : p.drop off = v ++ q) (hoff : off ≤ p.length) (hn : v.length = n) :
    readBytes n p off = some v := by
  have hlen := length_of_drop h hoff
  rw [readBytes, if_pos (by omega), h, List.take_left' hn]

theorem readBytes_of_le (h : off + n ≤ p.length) : readBytes n p off = some ((p.drop off).take n) :=
  if_pos h

theorem drop_succ_of_drop (h : p.drop off = b :: q) : p.drop (off + 1) = q := by
  rw [← List.drop_drop, h, List.drop_one, List.tail_cons]

theorem drop_add_of_drop (h : p.drop off = v ++ q) (hn : v.length = n) : p.drop (off + n) = q := by
  rw [← List.drop_drop, h, List.drop_left' hn]

/-- What is read stays where it is when the block grows. -/
theorem readByte_append (h : readByte p off = some b) (q : List UInt8) : readByte (p ++ q) off =
    some b := by
  obtain ⟨hlt, -⟩ := List.getElem?_eq_some_iff.mp h
  rw [readByte, List.getElem?_append_left hlt]
  exact h

theorem readBytes_append (h : readBytes n p off = some v) (q : List UInt8) :
    readBytes n (p ++ q) off = some v := by
  unfold readBytes at h ⊢
  split at h
  next hle =>
    rw [if_pos (by rw [List.length_append]; omega), List.drop_append_of_le_length (by omega),
      List.take_append_of_le_length (by rw [List.length_drop]; omega)]
    exact h
  next => cases h

/-! ## Writing -/

theorem writeBytes_append {a w : List UInt8} (ha : a.length = off) (hw : w.length = v.length)
    (q : List UInt8) : writeBytes (a ++ (w ++ q)) off v = some (a ++ (v ++ q)) := by
  have hle : off + v.length ≤ (a ++ (w ++ q)).length := by
    simp only [List.length_append]
    omega
  rw [writeBytes, if_pos hle, List.take_left' ha, drop_add_of_drop (List.drop_left' ha) hw]

/-- Written behind what is there already, into the rest of a part of the block. -/
theorem writeBytes_extend {a w : List UInt8} (ha : a.length = off) (hw : v.length ≤ w.length)
    (q : List UInt8) :
    writeBytes (a ++ (w ++ q)) off v = some ((a ++ v) ++ (w.drop v.length ++ q)) := by
  conv_lhs => rw [← List.take_append_drop v.length w, List.append_assoc]
  rw [writeBytes_append ha (List.length_take_of_le hw), List.append_assoc]

end Format
