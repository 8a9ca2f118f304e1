import Mathlib.Tactic.Common

/-!
# Recursive mutexes

A mutex that its holder may take again, and has to give as often as it was taken. What matters to
the holder is only the *depth*, how often it has taken the mutex and not given it; a mutex is
determined by the depths, of which at most one is not 0.
-/

namespace Effect

/-- A recursive mutex: free, or held, `more` times more than once. -/
inductive RecMutex (ι : Type)
  | free
  | held (t : ι) (more : ℕ)
  deriving DecidableEq

namespace RecMutex

variable {ι : Type} [DecidableEq ι] {m m' : RecMutex ι} {t u : ι}

/-- How often `u` has taken the mutex and not given it. -/
def depth : RecMutex ι → ι → ℕ
  | free, _ => 0
  | held t more, u => if u = t then more + 1 else 0

/-- `t` takes the mutex, if no other holds it. -/
def take : RecMutex ι → ι → Option (RecMutex ι)
  | free, t => some (held t 0)
  | held u more, t => if t = u then some (held u (more + 1)) else none

/-- `t` gives the mutex once. Giving a mutex that one does not hold has no effect. -/
def give : RecMutex ι → ι → RecMutex ι
  | free, _ => free
  | held u 0, t => if t = u then free else held u 0
  | held u (more + 1), t => if t = u then held u more else held u (more + 1)

@[simp] theorem depth_free : (free : RecMutex ι).depth t = 0 := rfl

/-- At most one holds it. -/
theorem depth_unique (ht : 0 < m.depth t) (hu : 0 < m.depth u) : t = u := by
  cases m with
  | free => exact absurd ht (Nat.lt_irrefl 0)
  | held v more =>
    have of_depth : ∀ {w : ι}, 0 < (held v more).depth w → w = v := by
      intro w hw
      by_contra hne
      rw [depth, if_neg hne] at hw
      exact Nat.lt_irrefl 0 hw
    exact (of_depth ht).trans (of_depth hu).symm

theorem depth_take (h : m.take t = some m') (u : ι) : m'.depth u = if u = t then m.depth u + 1 else
    m.depth u := by
  cases m with
  | free =>
    obtain rfl := Option.some_inj.mp h
    rfl
  | held v more =>
    rw [take] at h
    split at h
    · rename_i htv
      obtain rfl := Option.some_inj.mp h
      rw [htv, depth, depth]
      split <;> rfl
    · cases h

/-- Who takes it is the only one to hold it. -/
theorem depth_of_take (h : m.take t = some m') (hne : u ≠ t) : m.depth u = 0 := by
  by_contra hu
  have hu' : 0 < m'.depth u := by
    rw [depth_take h, if_neg hne]
    exact Nat.pos_of_ne_zero hu
  have ht' : 0 < m'.depth t := by
    rw [depth_take h, if_pos rfl]
    exact Nat.succ_pos _
  exact hne (depth_unique hu' ht')

theorem depth_give (m : RecMutex ι) (t u : ι) :
    (m.give t).depth u = if u = t then m.depth u - 1 else m.depth u := by
  cases m with
  | free => simp [give]
  | held v more =>
    cases more with
    | zero =>
      rw [give]
      split
      · rename_i htv
        rw [htv, depth_free, depth]
        split <;> rfl
      · rename_i htv
        split
        · rename_i hut
          rw [hut, depth, if_neg htv]
        · rfl
    | succ more =>
      rw [give]
      split
      · rename_i htv
        rw [htv, depth, depth]
        split <;> rfl
      · rename_i htv
        split
        · rename_i hut
          rw [hut, depth, if_neg htv]
        · rfl

/-- Taking it and giving it again changes nothing. -/
theorem depth_give_take (h : m.take t = some m') (u : ι) : (m'.give t).depth u = m.depth u := by
  rw [depth_give, depth_take h]
  split <;> rfl

end RecMutex

end Effect
