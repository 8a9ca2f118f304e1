import WsmDriver.Format.Memory

/-!
# Arrays of bytes

A `Block n` is the bytes of an array of the size `n`. It stays of that size: a store that would go
beyond it is `none`.
-/

namespace Format

/-- The bytes of an array. -/
abbrev Block (n : ℕ) := { p : List UInt8 // p.length = n }

namespace Block

variable {n i k : ℕ} {v : List UInt8}

def zeros (n : ℕ) : Block n := ⟨.replicate n 0, List.length_replicate ..⟩

/-- The `len` bytes from `off` on. -/
def read (b : Block n) (off len : ℕ) : Option (List UInt8) := readBytes len b.1 off

/-- The array with `v` stored from `off` on. -/
def write (b : Block n) (off : ℕ) (v : List UInt8) : Option (Block n) :=
  if h : off + v.length ≤ n then some ⟨b.1.take off ++ (v ++ b.1.drop (off + v.length)), by
    rw [List.length_append, List.length_append, List.length_take, List.length_drop, b.2]
    omega⟩
  else none

/-- The array with as much of `v` at its start as it has room for. -/
def fill (b : Block n) (v : List UInt8) : Block n := ⟨v.take n ++ b.1.drop v.length, by
  rw [List.length_append, List.length_take, List.length_drop, b.2]
  omega⟩

/-- A part of the array. -/
def part (b : Block n) (off len : ℕ) (h : off + len ≤ n) : Block len :=
  ⟨(b.1.drop off).take len, by
  rw [List.length_take, List.length_drop, b.2]
  omega⟩

theorem read_of_le {b : Block n} (h : i + k ≤ n) : b.read i k = some ((b.1.drop i).take k) :=
  readBytes_of_le (b.2.symm ▸ h)

theorem write_of_le {b : Block n} (h : i + v.length ≤ n) :
    ∃ b' : Block n, b.write i v = some b' ∧ b'.1 = b.1.take i ++ (v ++ b.1.drop (i + v.length)) :=
  ⟨_, dif_pos h, rfl⟩

/-- What is behind the store stays. -/
theorem write_zero_of_le {b : Block n} (h : v.length ≤ n) :
    ∃ b' : Block n, b.write 0 v = some b' ∧ b'.1 = v ++ b.1.drop v.length := by
  obtain ⟨b', hb', h'⟩ := write_of_le (b := b) (i := 0) (v := v) (by omega)
  exact ⟨b', hb', by rw [h', List.take_zero, List.nil_append, Nat.zero_add]⟩

end Block

end Format
