import Mathlib.Data.List.TakeDrop
import Mathlib.Order.Nat
import Mathlib.Tactic.Common

/-!
# Taking in a stream by blocks

A function that takes in blocks of `n` is fed a list of any length: it takes in the whole blocks
there are, and what is left waits for more. What comes of it depends on the stream, and not on the
pieces in which that arrives.
-/

namespace Format

variable {α σ : Type} {n : ℕ} {f : σ → List α → σ}

/-- Take in `k` blocks. -/
def feedBlocks (n : ℕ) (f : σ → List α → σ) : ℕ → σ → List α → σ × List α
  | 0, s, xs => (s, xs)
  | k + 1, s, xs => feedBlocks n f k (f s (xs.take n)) (xs.drop n)

/-- Take in the blocks there are, and say what is left. -/
def feed (n : ℕ) (f : σ → List α → σ) (s : σ) (xs : List α) : σ × List α :=
  feedBlocks n f (xs.length / n) s xs

theorem feed_of_lt {s : σ} {xs : List α} (h : xs.length < n) : feed n f s xs = (s, xs) := by
  rw [feed, Nat.div_eq_of_lt h, feedBlocks]

theorem feed_append_of_length {s : σ} {block xs : List α} (hn : 0 < n) (h : block.length = n) :
    feed n f s (block ++ xs) = feed n f (f s block) xs := by
  have hdiv : (block ++ xs).length / n = xs.length / n + 1 := by
    rw [List.length_append, h, Nat.add_comm, Nat.add_div_right _ hn]
  rw [feed, hdiv, feedBlocks, List.take_left' h, List.drop_left' h, feed]

theorem feed_of_le (s : σ) {xs : List α} (hn : 0 < n) (h : n ≤ xs.length) :
    feed n f s xs = feed n f (f s (xs.take n)) (xs.drop n) := by
  conv_lhs => rw [← List.take_append_drop n xs]
  exact feed_append_of_length hn (by rw [List.length_take, min_eq_left h])

/-- What is left is less than a block. -/
theorem length_feed (hn : 0 < n) (s : σ) (xs : List α) : (feed n f s xs).2.length =
    xs.length % n := by
  by_cases h : xs.length < n
  · rw [feed_of_lt h, Nat.mod_eq_of_lt h]
  · rw [feed_of_le _ hn (not_lt.mp h), length_feed hn, List.length_drop,
      ← Nat.mod_eq_sub_mod (not_lt.mp h)]
termination_by xs.length
decreasing_by rw [List.length_drop]; omega

/-- More of the stream goes behind what is left. -/
theorem feed_append (hn : 0 < n) (s : σ) (xs ys : List α) :
    feed n f s (xs ++ ys) = feed n f (feed n f s xs).1 ((feed n f s xs).2 ++ ys) := by
  by_cases h : xs.length < n
  · rw [feed_of_lt h]
  · have hblock : (xs.take n).length = n := by rw [List.length_take, min_eq_left (not_lt.mp h)]
    conv_lhs => rw [← List.take_append_drop n xs, List.append_assoc,
      feed_append_of_length hn hblock]
    rw [feed_of_le _ hn (not_lt.mp h), feed_append hn]
termination_by xs.length
decreasing_by rw [List.length_drop]; omega

end Format
