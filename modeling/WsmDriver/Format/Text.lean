import Mathlib.Data.List.DropRight
import Mathlib.Data.List.Infix
import Mathlib.Data.List.TakeWhile
import Mathlib.Tactic.Common

/-!
# Texts in memory

A text is the list of its bytes, and in memory a zero follows it. `cstr` is the text that starts
with a block, and `strstr` looks for the first occurrence of one text in another, as the functions
of the C library do. A text that is padded to a length is read with its padding removed.
-/

namespace Format

/-- The bytes of a text of the source. -/
def text (s : String) : List UInt8 := s.toByteArray.data.toList

/-- The text at the start of a block. -/
def cstr (p : List UInt8) : List UInt8 := p.takeWhile (· ≠ 0)

/-- Where the first text has the second one first. -/
def strstr : List UInt8 → List UInt8 → Option ℕ
  | [], sub => if sub.isPrefixOf [] then some 0 else none
  | b :: s, sub => if sub.isPrefixOf (b :: s) then some 0 else (strstr s sub).map (· + 1)

variable {s sub p q : List UInt8} {i : ℕ}

/-! ## Texts and blocks -/

theorem zero_notMem_cstr (p : List UInt8) : 0 ∉ cstr p := fun h ↦ by
  simpa using List.mem_takeWhile_imp h

/-- A text ends where its zero is, whatever follows. -/
theorem cstr_append_zero (h : 0 ∉ p) (q : List UInt8) : cstr (p ++ 0 :: q) = p := by
  rw [cstr, List.takeWhile_append_of_pos fun b hb ↦ by simpa using ne_of_mem_of_not_mem hb h]
  simp

theorem cstr_append_of_mem (h : 0 ∈ p) (q : List UInt8) : cstr (p ++ q) = cstr p := by
  obtain ⟨r, r', rfl, hr⟩ := List.eq_append_cons_of_mem h
  rw [List.append_assoc, List.cons_append, cstr_append_zero hr, cstr_append_zero hr]

/-! ## Occurrences -/

theorem strstr_isSome_iff : (strstr s sub).isSome ↔ sub <:+: s := by
  induction s with
  | nil =>
    rw [strstr, List.infix_nil]
    cases sub <;> simp
  | cons b s ih =>
    rw [strstr, List.infix_cons_iff, ← ih, ← List.isPrefixOf_iff_prefix]
    split
    · rename_i h
      simp [h]
    · rename_i h
      simp [h]

/-- An occurrence lies inside. -/
theorem strstr_le : ∀ {s : List UInt8} {i : ℕ}, strstr s sub = some i → i + sub.length ≤
    s.length
  | [], i, h => by
    rw [strstr] at h
    split at h
    · rename_i hp
      obtain rfl := Option.some.inj h
      rw [List.isPrefixOf_iff_prefix, List.prefix_nil] at hp
      simp [hp]
    · cases h
  | b :: s, i, h => by
    rw [strstr] at h
    split at h
    · rename_i hp
      obtain rfl := Option.some.inj h
      simpa using (List.isPrefixOf_iff_prefix.mp hp).length_le
    · obtain ⟨j, hj, rfl⟩ := Option.map_eq_some_iff.mp h
      have := strstr_le hj
      simp only [List.length_cons]
      omega

/-! ## Padding -/

section

variable {α : Type*} [DecidableEq α] {x : α} {s t : List α}

/-- Padding does not change what is left without it. -/
theorem rdropWhile_append_replicate (x : α) (s : List α) (n : ℕ) :
    (s ++ List.replicate n x).rdropWhile (· = x) = s.rdropWhile (· = x) := by
  induction n with
  | zero => simp
  | succ n ih =>
    rw [List.replicate_succ', ← List.append_assoc, List.rdropWhile_concat_pos _ _ _ (by simp), ih]

theorem eq_rdropWhile_append (x : α) (s : List α) :
    s = s.rdropWhile (· = x) ++ List.replicate (s.length - (s.rdropWhile (· = x)).length) x := by
  have hs := List.rdropWhile_append_rtakeWhile (p := (· = x)) (l := s)
  have hr : s.rtakeWhile (· = x) = List.replicate (s.rtakeWhile (· = x)).length x := by
    rw [List.eq_replicate_iff]
    exact ⟨rfl, fun b hb ↦ by simpa using List.mem_rtakeWhile_imp hb⟩
  have hlen := congrArg List.length hs
  rw [List.length_append] at hlen
  rw [show s.length - (s.rdropWhile (· = x)).length = (s.rtakeWhile (· = x)).length by omega, ← hr]
  exact hs.symm

/-- Without its padding a text is the one that it pads. -/
theorem rdropWhile_eq_iff (ht : ∀ h : t ≠ [], t.getLast h ≠ x) :
    s.rdropWhile (· = x) = t ↔ s = t ++ List.replicate (s.length - t.length) x := by
  constructor
  · rintro rfl
    exact eq_rdropWhile_append x s
  · intro h
    rw [h, rdropWhile_append_replicate, List.rdropWhile_eq_self_iff]
    exact fun hl ↦ by simpa using ht hl

end

end Format
