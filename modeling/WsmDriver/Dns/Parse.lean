import WsmDriver.Dhcp.Message
import WsmDriver.Format.Memory
import WsmDriver.W6300.Bytes

/-!
# Reading a DNS answer

`dns_skip_name` and `dns_parse`, index by index, every access checked against the length that was
received. Where the source returns `-1` for an offset, the inner option is `none`; the outer one is
`none` for an access outside of the message, or where a loop takes more turns than it was given.

Offsets are an `int` in the source. A message is at most as long as the buffer it is received in.
-/

namespace WsmDriver.Dns

open Format

open W6300 (word)

/-- `DNS_TYPE_A`, `DNS_CLASS_IN` and `DNS_HEADER_LEN`. -/
def dnsTypeA : UInt16 := 1

def dnsClassIn : UInt16 := 1

def dnsHeaderLen : ℕ := 12

/-- Two bytes as a number, the more significant one first. -/
def readWord (p : List UInt8) (off : ℕ) : Option UInt16 := (readBytes 2 p off).map word

/-- The loop of `dns_skip_name`. -/
def skipLabels (p : List UInt8) : ℕ → ℕ → Option (Option ℕ)
  | 0, _ => none
  | n + 1, off =>
    if off < p.length then do
      let l ← readByte p off
      if l = 0 then some (some (off + 1))
      else if l &&& 0xC0 = 0xC0 then some (if off + 2 ≤ p.length then some (off + 2) else none)
      else skipLabels p n (off + 1 + l.toNat)
    else some none

/-- `dns_skip_name`. -/
def dnsSkipName (p : List UInt8) (off : ℕ) : Option (Option ℕ) := skipLabels p (p.length + 1) off

/-- The loop over the questions, with `q` of them to go. -/
def skipQuestions (p : List UInt8) : ℕ → ℕ → Option (Option ℕ)
  | 0, off => some (some off)
  | q + 1, off => do
    match ← dnsSkipName p off with
    | none => some none
    | some off => if p.length < off + 4 then some none else skipQuestions p q (off + 4)

/-- The loop over the answers, with `a` of them to go: the address it copies, or `none` where
`false` is returned. -/
def findAddress (p : List UInt8) : ℕ → ℕ → Option (Option Dhcp.Ip4)
  | 0, _ => some none
  | a + 1, off => do
    match ← dnsSkipName p off with
    | none => some none
    | some off =>
      if p.length < off + 10 then some none
      else do
        let type ← readWord p off
        let cls ← readWord p (off + 2)
        let rdlen ← readWord p (off + 8)
        if p.length < off + 10 + rdlen.toNat then some none
        else if type = dnsTypeA ∧ cls = dnsClassIn ∧ rdlen = 4 then do
          let rdata ← readBytes 4 p (off + 10)
          some (some (Dhcp.bytesAt 4 rdata 0))
        else findAddress p a (off + 10 + rdlen.toNat)

/-- What `dns_parse` finds: the address it copies to `out_ip`, or `none` where it returns
`false`. -/
def dnsAddress (p : List UInt8) (id : UInt16) : Option (Option Dhcp.Ip4) := do
  if p.length < dnsHeaderLen then return none
  let replyId ← readWord p 0
  if replyId ≠ id then return none
  let flags ← readByte p 2
  if flags &&& 0x80 = 0 then return none
  let rcode ← readByte p 3
  if rcode &&& 0x0F ≠ 0 then return none
  let qdcount ← readWord p 4
  let ancount ← readWord p 6
  match ← skipQuestions p qdcount.toNat dnsHeaderLen with
  | none => return none
  | some off => findAddress p ancount.toNat off

/-- `dns_parse`: its result, and what is then in `out_ip`. -/
def dnsParse (p : List UInt8) (id : UInt16) (outIp : Dhcp.Ip4) : Option (Bool × Dhcp.Ip4) :=
  (dnsAddress p id).map fun address ↦ (address.isSome, address.getD outIp)

variable {p q : List UInt8} {off n : ℕ}

/-! ## Inside the message -/

theorem readWord_of_le (h : off + 2 ≤ p.length) : ∃ x, readWord p off = some x :=
  ⟨_, by rw [readWord, readBytes_of_le h, Option.map_some]⟩

theorem skipLabels_isSome : ∀ {n off : ℕ}, n ≠ 0 → p.length < off + n → ∃ r,
    skipLabels p n off = some r := by
  intro n
  induction n with
  | zero => exact fun h ↦ absurd rfl h
  | succ n ih =>
    intro off _ h
    rw [skipLabels]
    split
    next hlt =>
      rw [readByte_of_lt hlt, Option.bind_eq_bind, Option.bind_some]
      split
      · exact ⟨_, rfl⟩
      · split
        · exact ⟨_, rfl⟩
        · exact ih (by omega) (by omega)
    next => exact ⟨_, rfl⟩

/-- `dns_skip_name` ends, and stays inside the message. -/
theorem dnsSkipName_isSome (p : List UInt8) (off : ℕ) : ∃ r, dnsSkipName p off = some r :=
  skipLabels_isSome p.length.succ_ne_zero (Nat.lt_of_lt_of_le p.length.lt_succ_self
    (Nat.le_add_left _ _))

theorem skipQuestions_isSome (p : List UInt8) : ∀ q off, ∃ r, skipQuestions p q off = some r := by
  intro q
  induction q with
  | zero => exact fun off ↦ ⟨_, rfl⟩
  | succ q ih =>
    intro off
    obtain ⟨r, hr⟩ := dnsSkipName_isSome p off
    rw [skipQuestions, hr, Option.bind_eq_bind, Option.bind_some]
    cases r with
    | none => exact ⟨_, rfl⟩
    | some off =>
      dsimp only
      split
      · exact ⟨_, rfl⟩
      · exact ih _

theorem findAddress_isSome (p : List UInt8) : ∀ a off, ∃ r, findAddress p a off = some r := by
  intro a
  induction a with
  | zero => exact fun off ↦ ⟨_, rfl⟩
  | succ a ih =>
    intro off
    obtain ⟨r, hr⟩ := dnsSkipName_isSome p off
    rw [findAddress, hr, Option.bind_eq_bind, Option.bind_some]
    cases r with
    | none => exact ⟨_, rfl⟩
    | some off =>
      dsimp only
      split
      next => exact ⟨_, rfl⟩
      next hlen =>
        -- The fixed part of the record is inside, and so are its fields.
        obtain ⟨type, htype⟩ := readWord_of_le (p := p) (show off + 2 ≤ p.length by omega)
        obtain ⟨cls, hcls⟩ := readWord_of_le (p := p) (show off + 2 + 2 ≤ p.length by omega)
        obtain ⟨rdlen, hrdlen⟩ := readWord_of_le (p := p) (show off + 8 + 2 ≤ p.length by omega)
        rw [htype, hcls, hrdlen]
        simp only [Option.bind_eq_bind, Option.bind_some]
        split
        next => exact ⟨_, rfl⟩
        next hrdata =>
          split
          next h =>
            rw [h.2.2] at hrdata
            rw [readBytes_of_le (by change ¬_ < off + 10 + 4 at hrdata; omega)]
            exact ⟨_, rfl⟩
          next => exact ih _

theorem dnsAddress_isSome (p : List UInt8) (id : UInt16) : ∃ address, dnsAddress p id =
    some address := by
  unfold dnsAddress
  split
  next => exact ⟨_, rfl⟩
  next hlen =>
    have hin : ∀ {n : ℕ}, n ≤ dnsHeaderLen → n ≤ p.length :=
      fun h ↦ Nat.le_trans h (Nat.le_of_not_lt hlen)
    obtain ⟨replyId, hid⟩ := readWord_of_le (p := p) (hin (show 0 + 2 ≤ dnsHeaderLen by decide))
    obtain ⟨qdcount, hqd⟩ := readWord_of_le (p := p) (hin (show 4 + 2 ≤ dnsHeaderLen by decide))
    obtain ⟨ancount, han⟩ := readWord_of_le (p := p) (hin (show 6 + 2 ≤ dnsHeaderLen by decide))
    rw [hid, readByte_of_lt (hin (show 3 ≤ dnsHeaderLen by decide)),
      readByte_of_lt (hin (show 4 ≤ dnsHeaderLen by decide)), hqd, han]
    simp only [Option.bind_eq_bind, Option.bind_some]
    split
    · exact ⟨_, rfl⟩
    split
    · exact ⟨_, rfl⟩
    split
    · exact ⟨_, rfl⟩
    obtain ⟨r, hr⟩ := skipQuestions_isSome p qdcount.toNat dnsHeaderLen
    rw [hr, Option.bind_some]
    cases r with
    | none => exact ⟨_, rfl⟩
    | some off => exact findAddress_isSome p ancount.toNat off

/-- **`dns_parse` ends, and stays inside the message.** -/
theorem dnsParse_isSome (p : List UInt8) (id : UInt16) (outIp : Dhcp.Ip4) :
    ∃ r, dnsParse p id outIp = some r := by
  obtain ⟨address, h⟩ := dnsAddress_isSome p id
  exact ⟨_, by rw [dnsParse, h, Option.map_some]⟩

/-! ## A message that goes on

What the parser finds in a part of a message it finds in the whole.
-/

variable {r : ℕ} {x : UInt16}

theorem readWord_append (h : readWord p off = some x) (q : List UInt8) : readWord (p ++ q) off =
    some x := by
  obtain ⟨v, hv, rfl⟩ := Option.map_eq_some_iff.mp h
  rw [readWord, readBytes_append hv, Option.map_some]

theorem skipLabels_append (q : List UInt8) : ∀ {n m off : ℕ}, n ≤ m → skipLabels p n off =
    some (some r) →
    skipLabels (p ++ q) m off = some (some r) := by
  intro n
  induction n with
  | zero => exact fun _ h ↦ nomatch h
  | succ n ih =>
    intro m off hm h
    obtain ⟨m, rfl⟩ : ∃ m', m = m' + 1 := ⟨m - 1, by omega⟩
    rw [skipLabels] at h ⊢
    split at h
    next hlt =>
      have hlt' : off < (p ++ q).length := by rw [List.length_append]; omega
      obtain ⟨l, hl, h⟩ := Option.bind_eq_some_iff.mp h
      rw [if_pos hlt', readByte_append hl, Option.bind_eq_bind, Option.bind_some]
      split at h
      next hzero => rw [if_pos hzero]; exact h
      next hzero =>
        rw [if_neg hzero]
        split at h
        next hptr =>
          rw [if_pos hptr]
          split at h
          next hle => rw [if_pos (by rw [List.length_append]; omega)]; exact h
          next => cases h
        next hptr =>
          rw [if_neg hptr]
          exact ih (Nat.le_of_succ_le_succ hm) h
    next => cases h

theorem dnsSkipName_append (q : List UInt8) (h : dnsSkipName p off = some (some r)) :
    dnsSkipName (p ++ q) off = some (some r) :=
  skipLabels_append q (by rw [List.length_append]; omega) h

theorem skipQuestions_append (q : List UInt8) : ∀ {k off : ℕ}, skipQuestions p k off =
    some (some r) →
    skipQuestions (p ++ q) k off = some (some r) := by
  intro k
  induction k with
  | zero => exact id
  | succ k ih =>
    intro off h
    obtain ⟨name, hname, h⟩ := Option.bind_eq_some_iff.mp h
    cases name with
    | none => cases h
    | some off =>
      rw [skipQuestions, dnsSkipName_append q hname, Option.bind_eq_bind, Option.bind_some]
      dsimp only at h ⊢
      split at h
      next => cases h
      next hle =>
        rw [if_neg (by rw [List.length_append]; omega)]
        exact ih h

theorem findAddress_append {ip : Dhcp.Ip4} (q : List UInt8) : ∀ {a off : ℕ}, findAddress p a off =
    some (some ip) →
    findAddress (p ++ q) a off = some (some ip) := by
  intro a
  induction a with
  | zero => exact fun h ↦ nomatch h
  | succ a ih =>
    intro off h
    obtain ⟨name, hname, h⟩ := Option.bind_eq_some_iff.mp h
    cases name with
    | none => cases h
    | some off =>
      rw [findAddress, dnsSkipName_append q hname, Option.bind_eq_bind, Option.bind_some]
      dsimp only at h ⊢
      split at h
      next => cases h
      next hle =>
        obtain ⟨type, htype, h⟩ := Option.bind_eq_some_iff.mp h
        obtain ⟨cls, hcls, h⟩ := Option.bind_eq_some_iff.mp h
        obtain ⟨rdlen, hrdlen, h⟩ := Option.bind_eq_some_iff.mp h
        rw [if_neg (by rw [List.length_append]; omega), readWord_append htype, readWord_append hcls,
          readWord_append hrdlen]
        simp only [Option.bind_eq_bind, Option.bind_some]
        split at h
        next => cases h
        next hrdata =>
          rw [if_neg (by rw [List.length_append]; omega)]
          split at h
          next haddr =>
            obtain ⟨rdata, hread, h⟩ := Option.bind_eq_some_iff.mp h
            rw [if_pos haddr, readBytes_append hread, Option.bind_some]
            exact h
          next haddr =>
            rw [if_neg haddr]
            exact ih h

theorem dnsAddress_append {id : UInt16} {ip : Dhcp.Ip4} (q : List UInt8)
    (h : dnsAddress p id = some (some ip)) : dnsAddress (p ++ q) id = some (some ip) := by
  unfold dnsAddress at h ⊢
  simp only [Option.bind_eq_bind] at h ⊢
  split at h
  next => cases h
  next hlen =>
    obtain ⟨replyId, hid, h⟩ := Option.bind_eq_some_iff.mp h
    rw [if_neg (by rw [List.length_append]; omega), readWord_append hid, Option.bind_some]
    split at h
    next => cases h
    next hmatch =>
      obtain ⟨flags, hflags, h⟩ := Option.bind_eq_some_iff.mp h
      rw [if_neg hmatch, readByte_append hflags, Option.bind_some]
      split at h
      next => cases h
      next hresponse =>
        obtain ⟨rcode, hrcode, h⟩ := Option.bind_eq_some_iff.mp h
        rw [if_neg hresponse, readByte_append hrcode, Option.bind_some]
        split at h
        next => cases h
        next herror =>
          obtain ⟨qdcount, hqd, h⟩ := Option.bind_eq_some_iff.mp h
          obtain ⟨ancount, han, h⟩ := Option.bind_eq_some_iff.mp h
          obtain ⟨answers, hskip, h⟩ := Option.bind_eq_some_iff.mp h
          rw [if_neg herror, readWord_append hqd, Option.bind_some, readWord_append han,
            Option.bind_some]
          cases answers with
          | none => cases h
          | some off =>
            rw [skipQuestions_append q hskip, Option.bind_some]
            exact findAddress_append q h

end WsmDriver.Dns
