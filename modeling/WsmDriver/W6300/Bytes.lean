import Mathlib.Data.Nat.Bitwise
import Mathlib.Tactic.Common

/-!
# Registers as bytes

A 16-bit register is two bytes on the bus, the more significant one first. The driver reads into a
buffer of a fixed length and writes a list of bytes.
-/

namespace WsmDriver.W6300

theorem join16_toNat (a b : UInt8) :
    ((a.toUInt16 <<< 8) ||| b.toUInt16).toNat = a.toNat * 256 + b.toNat := by
  have ha := a.toNat_lt
  have hb := b.toNat_lt
  have hshift : (a.toUInt16 <<< 8).toNat = a.toNat <<< 8 := by
    rw [UInt16.toNat_shiftLeft, UInt8.toNat_toUInt16]
    exact Nat.mod_eq_of_lt (by rw [Nat.shiftLeft_eq]; change _ * 2 ^ 8 < _; omega)
  rw [UInt16.toNat_or, hshift, UInt8.toNat_toUInt16, ← Nat.shiftLeft_add_eq_or_of_lt hb,
    Nat.shiftLeft_eq]

theorem get_of_toList {n : ℕ} {v : Vector UInt8 n} {l : List UInt8} (h : v.toList = l) (i : Fin n)
    (hl : i.val < l.length) : v.get i = l.get ⟨i.val, hl⟩ := by
  subst h
  exact (Vector.getElem_toList hl).symm

/-- The bytes of a 16-bit register. -/
def be16 (x : UInt16) : List UInt8 := [(x >>> 8).toUInt8, x.toUInt8]

/-- The 16-bit register a list of bytes stands for. -/
def word (data : List UInt8) : UInt16 :=
  ((data.getD 0 0).toUInt16 <<< 8) ||| (data.getD 1 0).toUInt16

@[simp] theorem word_be16 (x : UInt16) : word (be16 x) = x := by
  have hx := x.toNat_lt
  have hhi : (x >>> 8).toUInt8.toNat = x.toNat / 256 := by
    rw [UInt16.toNat_toUInt8, UInt16.toNat_shiftRight]
    change (x.toNat >>> 8) % 256 = _
    rw [Nat.shiftRight_eq_div_pow]
    omega
  have hlo : x.toUInt8.toNat = x.toNat % 256 := UInt16.toNat_toUInt8 x
  apply UInt16.toNat_inj.mp
  simp only [word, be16, List.getD_cons_zero, List.getD_cons_succ]
  rw [join16_toNat, hhi, hlo]
  omega

theorem be16_word (a b : UInt8) : be16 (word [a, b]) = [a, b] := by
  have ha := a.toNat_lt
  have hb := b.toNat_lt
  have hx : (word [a, b]).toNat = a.toNat * 256 + b.toNat := join16_toNat a b
  generalize word [a, b] = x at hx
  have hhi : (x >>> 8).toUInt8 = a := by
    apply UInt8.toNat_inj.mp
    rw [UInt16.toNat_toUInt8, UInt16.toNat_shiftRight]
    change (x.toNat >>> 8) % 256 = _
    rw [Nat.shiftRight_eq_div_pow]
    omega
  have hlo : x.toUInt8 = b := by
    apply UInt8.toNat_inj.mp
    rw [UInt16.toNat_toUInt8]
    change x.toNat % 256 = _
    omega
  rw [be16, hhi, hlo]

theorem join16_be16 {buf : Vector UInt8 2} {x : UInt16} (h : buf.toList = be16 x) :
    (((buf.get 0).toUInt16 <<< 8) ||| (buf.get 1).toUInt16) = x := by
  have h₀ : buf.get 0 = (x >>> 8).toUInt8 := get_of_toList h 0 (by simp [be16])
  have h₁ : buf.get 1 = x.toUInt8 := get_of_toList h 1 (by simp [be16])
  rw [h₀, h₁]
  exact word_be16 x

/-- The first `len` bytes of a register. -/
def window (data : List UInt8) (len : ℕ) : Vector UInt8 len := Vector.ofFn fun i ↦ data.getD i 0

theorem window_toList {data : List UInt8} {len : ℕ} (h : data.length = len) :
    (window data len).toList = data := by
  apply List.ext_getElem
  · rw [Vector.length_toList, h]
  · intro i hi hi'
    simp only [window, Vector.getElem_toList, Vector.getElem_ofFn]
    exact List.getD_eq_getElem data 0 hi'

end WsmDriver.W6300
