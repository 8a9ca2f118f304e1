import WsmDriver.Pppoe.Md5
import Mathlib.Tactic.Ring

/-!
# The digest of a message

The digest by its definition, with the message padded at once, and that `md5.c` comes to the same
for any pieces.
-/

namespace WsmDriver.Pppoe

open Format (Block readBytes readBytes_of_le feed feed_of_lt feed_of_le feed_append
      feed_append_of_length length_feed)

/-! ## The definition -/

/-- The length of a message in bits, modulo 2⁶⁴, the low byte first. -/
def lengthBytes (m : List UInt8) : List UInt8 :=
  (List.range 8).map fun i ↦ UInt8.ofNat (8 * m.length / 256 ^ i)

/-- A one bit, and zeros up to 56 modulo 64. -/
def pad (m : List UInt8) : List UInt8 := 0x80 :: List.replicate ((119 - m.length % 64) % 64) 0

/-- What the blocks of a message make of the words. -/
abbrev taken (m : List UInt8) : Words × List UInt8 := feed 64 md5Transform md5Init m

def md5 (m : List UInt8) : List UInt8 :=
  let w := (taken (m ++ pad m ++ lengthBytes m)).1
  md5Encode [w.a, w.b, w.c, w.d]

/-- The padding and the length make the last block a whole one. -/
theorem taken_padded (m : List UInt8) : (taken (m ++ pad m ++ lengthBytes m)).2 = [] := by
  rw [← List.length_eq_zero_iff, taken, length_feed (by decide), List.length_append,
    List.length_append, pad,
    List.length_cons, List.length_replicate, lengthBytes, List.length_map, List.length_range]
  omega

example : md5 [97, 98, 99] =
    [0x90, 0x01, 0x50, 0x98, 0x3c, 0xd2, 0x4f, 0xb0,
      0xd6, 0x96, 0x3f, 0x7d, 0x28, 0xe1, 0x7f, 0x72] := by
  decide +kernel

/-- The words of the blocks are taken in the order of the four rounds: `i`, `5i + 1`, `3i + 5` and
`7i`, modulo 16. -/
theorem rounds_order :
    round1.map (·.1) = (List.range 16).map (fun i ↦ i) ∧
    round2.map (·.1) = (List.range 16).map (fun i ↦ (5 * i + 1) % 16) ∧
    round3.map (·.1) = (List.range 16).map (fun i ↦ (3 * i + 5) % 16) ∧
    round4.map (·.1) = (List.range 16).map (fun i ↦ (7 * i) % 16) := by
  decide

/-! ## Counting -/

variable {context : Md5Ctx} {m input : List UInt8}

theorem toNat_index (c : UInt32) : ((c >>> 3) &&& 0x3F).toNat = c.toNat / 8 % 64 := by
  rw [UInt32.toNat_and, UInt32.toNat_shiftRight]
  change c.toNat >>> 3 &&& (2 ^ 6 - 1) = _
  rw [Nat.and_two_pow_sub_one_eq_mod, Nat.shiftRight_eq_div_pow]

theorem toNat_shiftLeft_three (n : UInt32) : (n <<< 3).toNat = n.toNat * 8 % 2 ^ 32 := by
  rw [UInt32.toNat_shiftLeft]
  change n.toNat <<< 3 % _ = _
  rw [Nat.shiftLeft_eq]

theorem toNat_shiftRight_29 (n : UInt32) : (n >>> 29).toNat = n.toNat / 2 ^ 29 := by
  rw [UInt32.toNat_shiftRight]
  change n.toNat >>> 29 = _
  rw [Nat.shiftRight_eq_div_pow]

/-- The two words of the count, with the carry. -/
theorem count_add {c₀ c₁ n : UInt32} {t : ℕ}
    (h : c₀.toNat + 2 ^ 32 * c₁.toNat = 8 * t % 2 ^ 64) :
    (c₀ + n <<< 3).toNat + 2 ^ 32 * ((if c₀ + n <<< 3 < n <<< 3 then c₁ + 1 else c₁) +
      n >>> 29).toNat = 8 * (t + n.toNat) % 2 ^ 64 := by
  have h₀ := c₀.toNat_lt
  have h₁ := c₁.toNat_lt
  have hn := n.toNat_lt
  split
  · rename_i hcarry
    rw [UInt32.lt_iff_toNat_lt, UInt32.toNat_add, toNat_shiftLeft_three] at hcarry
    simp only [UInt32.toNat_add, toNat_shiftLeft_three, toNat_shiftRight_29, UInt32.toNat_one]
    omega
  · rename_i hcarry
    rw [UInt32.lt_iff_toNat_lt, UInt32.toNat_add, toNat_shiftLeft_three] at hcarry
    simp only [UInt32.toNat_add, toNat_shiftLeft_three, toNat_shiftRight_29]
    omega

/-! ## The invariant -/

/-- The context has been fed the message. -/
structure Fed (context : Md5Ctx) (m : List UInt8) : Prop where
  state : context.state = (taken m).1
  rest : context.buffer.1.take (m.length % 64) = (taken m).2
  count : context.count0.toNat + 2 ^ 32 * context.count1.toNat = 8 * m.length % 2 ^ 64

theorem Fed.index (h : Fed context m) : ((context.count0 >>> 3) &&& 0x3F).toNat =
    m.length % 64 := by
  have := h.count
  have := context.count0.toNat_lt
  rw [toNat_index]
  omega

theorem fed_start (buffer : Block 64) : Fed (md5Start buffer) [] := ⟨rfl, List.take_zero, rfl⟩

theorem toNat_inputLen (h : input.length + 64 ≤ 2 ^ 32) : (UInt32.ofNat input.length).toNat =
    input.length := by
  rw [UInt32.toNat_ofNat']
  exact Nat.mod_eq_of_lt (by omega)

/-- The loop takes in the blocks that there are from `i` on. -/
theorem transformLoop_eq (hlen : input.length + 64 ≤ 2 ^ 32) (fuel : ℕ) :
    ∀ {s : Words} {i : UInt32}, i.toNat ≤ input.length → (input.length - i.toNat) / 64 < fuel →
    ∃ i' : UInt32, transformLoop fuel s input (.ofNat input.length) i =
        some ((feed 64 md5Transform s (input.drop i.toNat)).1, i') ∧
      i'.toNat ≤ input.length ∧ input.drop i'.toNat =
      (feed 64 md5Transform s (input.drop i.toNat)).2 := by
  have hn := toNat_inputLen hlen
  induction fuel with
  | zero => intro _ _ _ h; exact absurd h (Nat.not_lt_zero _)
  | succ fuel ih =>
    intro state i hi hfuel
    have h63 : (i + 63).toNat = i.toNat + 63 := by
      simp only [UInt32.toNat_add, UInt32.reduceToNat]
      omega
    have hmore : i + 63 < .ofNat input.length ↔ i.toNat + 63 < input.length := by
      rw [UInt32.lt_iff_toNat_lt, h63, hn]
    rw [transformLoop]
    by_cases h : i.toNat + 63 < input.length
    · have h64 : (i + 64).toNat = i.toNat + 64 := by
        simp only [UInt32.toNat_add, UInt32.reduceToNat]
        omega
      have hlength : 64 ≤ (input.drop i.toNat).length := by
        rw [List.length_drop]
        omega
      have hfeed := feed_of_le (f := md5Transform) state (by decide) hlength
      rw [List.drop_drop, ← h64] at hfeed
      have hblock : readBytes 64 input i.toNat = some ((input.drop i.toNat).take 64) :=
        readBytes_of_le (by omega)
      rw [if_pos (hmore.mpr h), hfeed, hblock]
      exact ih (by omega) (by omega)
    · rw [if_neg (hmore.not.mpr h), feed_of_lt (by rw [List.length_drop]; omega)]
      exact ⟨i, rfl, hi, rfl⟩

/-- A piece that does not fill the block goes behind the rest. -/
theorem Fed.buffered (h : Fed context m) {k : ℕ} (hk : m.length % 64 = k) (input : List UInt8)
    (hlt : k + input.length < 64) :
    (taken (m ++ input)).1 = context.state ∧ ∃ buffer, context.buffer.write k input =
    some buffer ∧
      buffer.1.take ((m ++ input).length % 64) = (taken (m ++ input)).2 := by
  have hrest : context.buffer.1.take k = (taken m).2 := hk ▸ h.rest
  have hlen : (taken m).2.length = k := hk ▸ length_feed (by decide) _ _
  have hmod : (m ++ input).length % 64 = k + input.length := by
    rw [List.length_append]
    omega
  have htaken : taken (m ++ input) = (context.state, (taken m).2 ++ input) := by
    rw [taken, feed_append (by decide), feed_of_lt (by rw [List.length_append, hlen]; exact hlt),
      h.state]
  obtain ⟨buffer, hbuffer, h'⟩ := Block.write_of_le (b := context.buffer) hlt.le
  rw [htaken, hmod]
  refine ⟨rfl, buffer, hbuffer, ?_⟩
  rw [h', hrest, ← List.append_assoc, List.take_left' (by rw [List.length_append, hlen])]

/-- A piece that does fills it with its first bytes, and the others are taken in from there. -/
theorem Fed.filled (h : Fed context m) {k : ℕ} (hk : m.length % 64 = k) (input : List UInt8)
    (hle : 64 ≤ k + input.length) :
    ∃ buffer, context.buffer.write k (input.take (64 - k)) = some buffer ∧
      taken (m ++ input) =
        feed 64 md5Transform (md5Transform context.state buffer.1) (input.drop (64 - k)) := by
  have hlt : k < 64 := hk ▸ Nat.mod_lt _ (by decide)
  have hrest : context.buffer.1.take k = (taken m).2 := hk ▸ h.rest
  have hlen : (taken m).2.length = k := hk ▸ length_feed (by decide) _ _
  have hpiece : (input.take (64 - k)).length = 64 - k := by
    rw [List.length_take]
    omega
  obtain ⟨buffer, hbuffer, h'⟩ :=
    Block.write_of_le (b := context.buffer) (i := k) (v := input.take (64 - k)) (by omega)
  have hcopy : buffer.1 = (taken m).2 ++ input.take (64 - k) := by
    rw [h', hrest, hpiece, List.drop_of_length_le (by rw [context.buffer.2]; omega),
      List.append_nil]
  refine ⟨buffer, hbuffer, ?_⟩
  rw [taken, feed_append (by decide), hcopy, ← h.state, ← feed_append_of_length (by decide)
    (by rw [List.length_append, hlen, hpiece]; omega), List.append_assoc, List.take_append_drop]

/-- **A piece more.** -/
theorem Fed.update (h : Fed context m) (input : List UInt8) (hlen : input.length + 64 ≤ 2 ^ 32) :
    ∃ context', md5Update context input = some context' ∧ Fed context' (m ++ input) := by
  have hindex := h.index
  have hn := toNat_inputLen hlen
  generalize hk : m.length % 64 = k at hindex
  have hlt : k < 64 := hk ▸ Nat.mod_lt _ (by decide)
  have hpart : ((64 : UInt32) - ((context.count0 >>> 3) &&& 0x3F)).toNat = 64 - k := by
    rw [UInt32.toNat_sub_of_le _ _ (UInt32.le_iff_toNat_le.mpr (by rw [hindex]; exact hlt.le)),
      hindex]
    rfl
  have hcount := count_add (n := .ofNat input.length) h.count
  rw [hn, ← List.length_append] at hcount
  simp only [md5Update, UInt32.le_iff_toNat_le, hpart, hn, hindex]
  by_cases hle : 64 - k ≤ input.length
  · rw [if_pos hle]
    obtain ⟨block, hblock, hfilled⟩ := h.filled hk input (by omega)
    obtain ⟨i, hloop, hi, hrest⟩ :=
      transformLoop_eq hlen (input.length / 64 + 1) (s := md5Transform context.state block.1)
      (i := (64 : UInt32) - ((context.count0 >>> 3) &&& 0x3F)) (by rw [hpart]; exact hle) (by omega)
    rw [hpart, ← hfilled] at hloop hrest
    have hleft : (taken (m ++ input)).2.length = (m ++ input).length % 64 :=
      length_feed (by decide) _ _
    have hpiece : readBytes (64 - k) input 0 = some (input.take (64 - k)) :=
      readBytes_of_le (by omega)
    have hcopied : readBytes (UInt32.ofNat input.length - i).toNat input i.toNat =
        some (taken (m ++ input)).2 := by
      rw [UInt32.toNat_sub_of_le _ _ (UInt32.le_iff_toNat_le.mpr (by rw [hn]; exact hi)), hn,
        readBytes_of_le (by omega), hrest, List.take_of_length_le]
      rw [← hrest, List.length_drop]
    obtain ⟨buffer, hbuffer, h'⟩ :=
      Block.write_zero_of_le (b := block) (v := (taken (m ++ input)).2) (by rw [hleft]; omega)
    simp only [hpiece, hblock, hloop, hcopied, hbuffer, Option.bind_eq_bind, Option.bind_some]
    refine ⟨_, rfl, rfl, ?_, hcount⟩
    rw [h', ← hleft, List.take_left' rfl]
  · rw [if_neg hle]
    obtain ⟨hstate, buffer, hbuffer, hrest⟩ := h.buffered hk input (by omega)
    have hpiece : readBytes input.length input 0 = some input := by
      rw [readBytes_of_le (by omega), List.drop_zero, List.take_length]
    simp only [hpiece, hbuffer, Option.bind_eq_bind, Option.bind_some]
    exact ⟨_, rfl, hstate.symm, hrest, hcount⟩

/-! ## The end of the message -/

theorem read_padding (m : List UInt8) {padLen : ℕ}
    (h : padLen = if m.length % 64 < 56 then 56 - m.length % 64 else 120 - m.length % 64) :
    readBytes padLen padding 0 = some (pad m) := by
  have hk := Nat.mod_lt m.length (show 64 > 0 by decide)
  generalize hm : m.length % 64 = k at h hk
  obtain ⟨n, rfl⟩ : ∃ n, padLen = n + 1 := ⟨padLen - 1, by split at h <;> omega⟩
  have hn : min n 63 = (119 - m.length % 64) % 64 := by split at h <;> omega
  have hle : 0 + (n + 1) ≤ padding.length := by
    rw [padding, List.length_cons, List.length_replicate]
    split at h <;> omega
  rw [readBytes_of_le hle, padding, pad, List.drop_zero, List.take_succ_cons,
    List.take_replicate, hn]

/-- The words of the count are the last eight bytes. -/
theorem encode_count {c₀ c₁ : UInt32}
    (h : c₀.toNat + 2 ^ 32 * c₁.toNat = 8 * m.length % 2 ^ 64) :
    md5Encode [c₀, c₁] = lengthBytes m := by
  have h₀ := c₀.toNat_lt
  have h₁ := c₁.toNat_lt
  have hbyte (c : UInt32) (n : ℕ) (hc : c.toNat % 256 = n % 256) : c.toUInt8 = .ofNat n := by
    rw [← UInt8.toNat_inj, UInt32.toNat_toUInt8, UInt8.toNat_ofNat']
    exact hc
  have hshift (c : UInt32) : (c >>> 8).toNat = c.toNat / 256 ∧ (c >>> 16).toNat = c.toNat / 65536 ∧
      (c >>> 24).toNat = c.toNat / 16777216 := by
    simp only [UInt32.toNat_shiftRight, UInt32.reduceToNat, Nat.reduceMod,
      Nat.shiftRight_eq_div_pow, Nat.reducePow, and_self]
  obtain ⟨h₀₈, h₀₁₆, h₀₂₄⟩ := hshift c₀
  obtain ⟨h₁₈, h₁₁₆, h₁₂₄⟩ := hshift c₁
  change [_, _, _, _, _, _, _, _] = [_, _, _, _, _, _, _, _]
  rw [hbyte c₀ (8 * m.length / 256 ^ 0) (by omega), hbyte (c₀ >>> 8) (8 * m.length / 256 ^ 1)
    (by omega),
    hbyte (c₀ >>> 16) (8 * m.length / 256 ^ 2) (by omega),
    hbyte (c₀ >>> 24) (8 * m.length / 256 ^ 3) (by omega),
    hbyte c₁ (8 * m.length / 256 ^ 4) (by omega), hbyte (c₁ >>> 8) (8 * m.length / 256 ^ 5)
      (by omega),
    hbyte (c₁ >>> 16) (8 * m.length / 256 ^ 6) (by omega),
      hbyte (c₁ >>> 24) (8 * m.length / 256 ^ 7) (by omega)]

theorem Fed.final (h : Fed context m) :
    md5Final context = some (md5 m, ⟨⟨0, 0, 0, 0⟩, 0, 0, Block.zeros 64⟩) := by
  have hindex := h.index
  have hbits := encode_count h.count
  generalize hi : (context.count0 >>> 3) &&& 0x3F = index at hindex
  have hpad : readBytes (if index < 56 then 56 - index else 120 - index).toNat padding 0 =
      some (pad m) := by
    have hlt := Nat.mod_lt m.length (show 64 > 0 by decide)
    apply read_padding
    simp only [UInt32.lt_iff_toNat_lt, hindex, UInt32.reduceToNat]
    split
    · rw [UInt32.toNat_sub_of_le _ _
        (UInt32.le_iff_toNat_le.mpr (by rw [hindex]; exact Nat.le_of_lt ‹_›)), hindex]
      rfl
    · rw [UInt32.toNat_sub_of_le _ _
        (UInt32.le_iff_toNat_le.mpr (by rw [hindex]; change _ ≤ 120; omega)), hindex]
      rfl
  have hlen : (pad m).length + 64 ≤ 2 ^ 32 := by
    rw [pad, List.length_cons, List.length_replicate]
    omega
  obtain ⟨padded, hpadded, hfed⟩ := h.update _ hlen
  obtain ⟨ended, hended, hfed⟩ :=
    hfed.update (lengthBytes m) (by rw [lengthBytes, List.length_map]; decide)
  rw [md5Final, hi]
  simp only [hpad, hbits, hpadded, hended, Option.bind_eq_bind, Option.bind_some]
  rw [hfed.state]
  rfl

theorem Fed.pieces {pieces : List (List UInt8)}
    (hlen : ∀ piece ∈ pieces, piece.length + 64 ≤ 2 ^ 32) :
    ∀ {context : Md5Ctx} {m : List UInt8}, Fed context m →
      ∃ context', pieces.foldlM md5Update context = some context' ∧ Fed context'
      (m ++ pieces.flatten) := by
  induction pieces with
  | nil => exact fun h ↦ ⟨_, rfl, by rwa [List.flatten_nil, List.append_nil]⟩
  | cons piece pieces ih =>
    intro context m h
    obtain ⟨context', hupdate, h'⟩ := h.update piece (hlen piece List.mem_cons_self)
    obtain ⟨last, hlast, hfed⟩ := ih (fun piece hp ↦ hlen piece (List.mem_cons_of_mem _ hp)) h'
    rw [List.append_assoc] at hfed
    exact ⟨last, by rw [List.foldlM_cons, hupdate]; exact hlast, hfed⟩

/-- **The digest is of the whole of the message**, however it is cut into pieces and whatever the
buffer held. There is one, so nothing outside the pieces and the buffer has been touched. -/
theorem digest_eq_md5 {buffer : Block 64} {pieces : List (List UInt8)}
    (hlen : ∀ piece ∈ pieces, piece.length + 64 ≤ 2 ^ 32) :
    digest buffer pieces = some (md5 pieces.flatten) := by
  obtain ⟨context, hcontext, h⟩ := (fed_start buffer).pieces hlen
  rw [List.nil_append] at h
  rw [digest, hcontext, Option.bind_eq_bind, Option.bind_some, h.final]
  rfl

/-- Two pieces of `abc`. -/
theorem digest_eq_md5_abc : digest (.zeros 64) [[97], [98, 99]] = some (md5 [97, 98, 99]) :=
  digest_eq_md5 (by decide)

end WsmDriver.Pppoe
