import Mathlib.Data.List.Basic
import Mathlib.Tactic.Common

/-!
# Tagged options

A string of options is a sequence of tagged values: a code byte, a length byte, and that many bytes
of value. Two codes stand alone, without a length: the pad, which is skipped, and the stop, after
which nothing is read. A string that ends in the middle of an option is read up to there.

Reading is a recursion with fuel, so that it evaluates. An option takes at least one byte, so the
length of the string is fuel enough (`decode_enough`).
-/

namespace Format

/-- A code and its value. -/
abbrev TaggedOption := UInt8 × List UInt8

/-- The bytes of an option. -/
def TaggedOption.encode (o : TaggedOption) : List UInt8 := o.1 :: UInt8.ofNat o.2.length :: o.2

variable (pad stop : UInt8)

/-- The options of a string, in at most `n` turns. -/
def decode : ℕ → List UInt8 → List TaggedOption
  | 0, _ => []
  | _ + 1, [] => []
  | n + 1, code :: p =>
    if code = pad then decode n p
    else if code = stop then []
    else match p with
      | [] => []
      | l :: p => if p.length < l.toNat then [] else (code, p.take l.toNat) ::
          decode n (p.drop l.toNat)

/-- The options of a string. -/
def options (p : List UInt8) : List TaggedOption := decode pad stop p.length p

/-- An option that can be told from the pad and the stop, and whose length fits its byte. -/
structure TaggedOption.WellFormed (o : TaggedOption) : Prop where
  ne_pad : o.1 ≠ pad
  ne_stop : o.1 ≠ stop
  length_lt : o.2.length < 256

variable {pad stop}

theorem decode_pad (n : ℕ) (p : List UInt8) : decode pad stop (n + 1) (pad :: p) =
    decode pad stop n p := if_pos rfl

theorem decode_stop (h : stop ≠ pad) (n : ℕ) (p : List UInt8) :
    decode pad stop (n + 1) (stop :: p) = [] :=
  (if_neg h).trans (if_pos rfl)

theorem decode_singleton {code : UInt8} (hpad : code ≠ pad) (n : ℕ) :
    decode pad stop (n + 1) [code] = [] :=
  (if_neg hpad).trans (ite_self [])

/-- One option. -/
theorem decode_cons {code : UInt8} (hpad : code ≠ pad) (hstop : code ≠ stop) (n : ℕ) (l : UInt8)
    (p : List UInt8) : decode pad stop (n + 1) (code :: l :: p) =
      if p.length < l.toNat then []
      else (code, p.take l.toNat) :: decode pad stop n (p.drop l.toNat) :=
  (if_neg hpad).trans (if_neg hstop)

/-- Fuel beyond the length of the string changes nothing. -/
theorem decode_enough : ∀ {n : ℕ} {p : List UInt8}, p.length ≤ n → decode pad stop n p =
    options pad stop p := by
  have h : ∀ {n m : ℕ} {p : List UInt8}, p.length ≤ n → p.length ≤ m →
      decode pad stop n p = decode pad stop m p := by
    intro n
    induction n with
    | zero =>
      intro m p hn _
      obtain rfl := List.eq_nil_of_length_eq_zero (Nat.le_zero.mp hn)
      cases m <;> rfl
    | succ n ih =>
      intro m p hn hm
      cases p with
      | nil => cases m <;> rfl
      | cons code p =>
        cases m with
        | zero => exact absurd hm (by simp)
        | succ m =>
          rw [List.length_cons] at hn hm
          by_cases hpad : code = pad
          · subst hpad
            rw [decode_pad, decode_pad]
            exact ih (Nat.le_of_succ_le_succ hn) (Nat.le_of_succ_le_succ hm)
          by_cases hstop : code = stop
          · subst hstop
            rw [decode_stop hpad, decode_stop hpad]
          cases p with
          | nil => rw [decode_singleton hpad, decode_singleton hpad]
          | cons l p =>
            rw [List.length_cons] at hn hm
            have hd : (p.drop l.toNat).length ≤ p.length := by simp
            rw [decode_cons hpad hstop, decode_cons hpad hstop,
              ih (m := m) (p := p.drop l.toNat) (by omega) (by omega)]
  intro n p hn
  exact h hn (Nat.le_refl _)

@[simp] theorem options_nil : options pad stop [] = [] := rfl

theorem options_stop (h : stop ≠ pad) (p : List UInt8) : options pad stop (stop :: p) = [] :=
  decode_stop h _ _

/-- What is written first is read first. -/
theorem options_encode_append {o : TaggedOption} (ho : o.WellFormed pad stop) (p : List UInt8) :
    options pad stop (o.encode ++ p) = o :: options pad stop p := by
  obtain ⟨code, v⟩ := o
  have hl : (UInt8.ofNat v.length).toNat = v.length := by
    rw [UInt8.toNat_ofNat']
    exact Nat.mod_eq_of_lt ho.length_lt
  change decode pad stop ((v ++ p).length + 2) (code :: UInt8.ofNat v.length :: (v ++ p)) = _
  rw [decode_cons ho.ne_pad ho.ne_stop, hl, if_neg (by simp), List.take_left' rfl,
    List.drop_left' rfl]
  exact congrArg _ (decode_enough (by simp; omega))

/-- **The round trip.** Options that were written are read back, up to the stop. -/
theorem options_encode (h : stop ≠ pad) {os : List TaggedOption}
    (hos : ∀ o ∈ os, o.WellFormed pad stop) (p : List UInt8) :
    options pad stop (os.flatMap TaggedOption.encode ++ stop :: p) = os := by
  induction os with
  | nil => exact options_stop h p
  | cons o os ih =>
    rw [List.forall_mem_cons] at hos
    rw [List.flatMap_cons, List.append_assoc, options_encode_append hos.1, ih hos.2]

/-! ## One option at a time -/

theorem options_pad (p : List UInt8) : options pad stop (pad :: p) = options pad stop p :=
  decode_pad _ p

/-- An option that is cut off is not read. -/
theorem options_cut {code l : UInt8} {p : List UInt8} (hpad : code ≠ pad) (h : p.length < l.toNat) :
    options pad stop (code :: l :: p) = [] := by
  by_cases hstop : code = stop
  · rw [hstop, options_stop (hstop ▸ hpad)]
  · rw [options, List.length_cons, List.length_cons, decode_cons hpad hstop, if_pos h]

theorem options_singleton {code : UInt8} (hpad : code ≠ pad) : options pad stop [code] = [] :=
  decode_singleton hpad 0

theorem options_cons {code l : UInt8} {p : List UInt8} (hpad : code ≠ pad) (hstop : code ≠ stop)
    (h : l.toNat ≤ p.length) :
    options pad stop (code :: l :: p) = (code, p.take l.toNat) :: options pad stop
    (p.drop l.toNat) := by
  have hd : (p.drop l.toNat).length ≤ (l :: p).length := by
    rw [List.length_drop, List.length_cons]
    omega
  rw [options, List.length_cons, decode_cons hpad hstop, if_neg (Nat.not_lt.mpr h), decode_enough hd]

/-! ## Strings with pads -/

/-- What an option string is made of. -/
inductive Item
  | pad
  | option (o : TaggedOption)

variable (pad) in
/-- The bytes of an item. -/
def Item.encode : Item → List UInt8
  | .pad => [pad]
  | .option o => o.encode

/-- The option of an item. -/
def Item.option? : Item → Option TaggedOption
  | .pad => none
  | .option o => some o

variable (pad stop) in
/-- How the items of a string may end. -/
inductive Ending : List UInt8 → Prop
  /-- At the end of the string. -/
  | nothing : Ending []
  /-- With the stop; whatever is behind it is not looked at. -/
  | stop (p : List UInt8) : Ending (stop :: p)
  /-- In an option that is cut off behind its code, -/
  | code {code : UInt8} (hpad : code ≠ pad) (hstop : code ≠ stop) : Ending [code]
  /-- or later. -/
  | cut {code l : UInt8} {v : List UInt8} (hpad : code ≠ pad) (hstop : code ≠ stop)
      (hcut : v.length < l.toNat) :
    Ending (code :: l :: v)

theorem Ending.options_eq {p : List UInt8} (h : stop ≠ pad) (hp : Ending pad stop p) :
    options pad stop p = [] := by
  cases hp with
  | nothing => rfl
  | stop p => exact options_stop h p
  | code hpad => exact options_singleton hpad
  | cut hpad _ hcut => exact options_cut hpad hcut

/-- **The options of a string** are those of its items, whatever ends it. -/
theorem options_items (h : stop ≠ pad) {items : List Item}
    (hwf : ∀ o, .option o ∈ items → o.WellFormed pad stop) {p : List UInt8}
    (hp : Ending pad stop p) :
    options pad stop (items.flatMap (Item.encode pad) ++ p) = items.filterMap Item.option? := by
  induction items with
  | nil => exact hp.options_eq h
  | cons item items ih =>
    have ih := ih fun o ho ↦ hwf o (List.mem_cons_of_mem _ ho)
    rw [List.flatMap_cons, List.append_assoc]
    cases item with
    | pad => exact (options_pad _).trans ih
    | option o => exact (options_encode_append (hwf o List.mem_cons_self) _).trans (congrArg _ ih)

/-! ## The last one -/

/-- The value of the last option with the code `code` and at least `n` bytes. -/
def lastOption (os : List TaggedOption) (code : UInt8) (n : ℕ) : Option (List UInt8) :=
  ((os.filter fun o ↦ decide (o.1 = code ∧ n ≤ o.2.length)).getLast?).map Prod.snd

@[simp] theorem lastOption_nil (code : UInt8) (n : ℕ) : lastOption [] code n = none := rfl

theorem lastOption_concat (os : List TaggedOption) (o : TaggedOption) (code : UInt8) (n : ℕ) :
    lastOption (os ++ [o]) code n = if o.1 = code ∧ n ≤ o.2.length then some o.2 else
    lastOption os code n := by
  unfold lastOption
  rw [List.filter_append, List.filter_singleton]
  split
  next h => rw [decide_eq_true h, cond_true, List.getLast?_concat, Option.map_some]
  next h => rw [decide_eq_false h, cond_false, List.append_nil]

end Format
