import Mathlib.Data.List.Induction
import WsmDriver.Dhcp.Client
import WsmDriver.Effect.Logic
import WsmDriver.Format.Memory

/-!
# Decoding a reply

`dhcp_parse` as it goes through the bytes of a datagram, index by index, every access checked
against the length that was received. The walk is the fold over the options of the message that the
client's program uses (`parse`), and what it makes of them is what the last option of each kind
says.

The loop has fuel, and running out of it is `none` like an access outside of the datagram: a value
is the proof that neither happened.
-/

namespace WsmDriver.Dhcp

open Effect Program Format

namespace Raw

/-- What `dhcp_parse` returns, with what is then in `*out` and in the client. -/
structure Parsed where
  type : UInt8
  out : NetInfo
  client : Client
  deriving DecidableEq

/-- Look at the first `n` bytes of a value, if it has as many. -/
def Parsed.store (r : Parsed) (p : List UInt8) (l : UInt8) (i n : ℕ) (f : List UInt8 → Parsed) :
    Option Parsed :=
  if n ≤ l.toNat then (readBytes n p i).map f else some r

/-- The `switch` of `dhcp_parse`, for an option whose value has `l` bytes and begins at `i`. -/
def Parsed.option (r : Parsed) (p : List UInt8) (code l : UInt8) (i : ℕ) : Option Parsed :=
  if code = optMsgType then r.store p l i 1 fun v ↦ { r with type := v.getD 0 0 }
  else if code = optSubnet then r.store p l i 4 fun v ↦ { r with out.sn := bytesAt 4 v 0 }
  else if code = optRouter then r.store p l i 4 fun v ↦ { r with out.gw := bytesAt 4 v 0 }
  else if code = optDns then r.store p l i 4 fun v ↦ { r with out.dns := bytesAt 4 v 0 }
  else if code = optLeaseTime then r.store p l i 4 fun v ↦ { r with out.leaseS := be32 v }
  else if code = optServerId then r.store p l i 4 fun v ↦
    { r with client.serverId := bytesAt 4 v 0 }
  else some r

/-- The loop of `dhcp_parse`, from the index `i` on. -/
def parseLoop (p : List UInt8) : ℕ → ℕ → Parsed → Option Parsed
  | 0, _, _ => none
  | n + 1, i, r =>
    if i < p.length then do
      let code ← readByte p i
      if code = optPad then parseLoop p n (i + 1) r
      else if code = optEnd ∨ p.length ≤ i + 1 then some r
      else do
        let l ← readByte p (i + 1)
        if p.length < i + 2 + l.toNat then some r
        else do
          let r ← r.option p code l (i + 2)
          parseLoop p n (i + 2 + l.toNat) r
    else some r

/-- `dhcp_parse`. -/
def dhcpParse (c : Client) (p : List UInt8) (out : NetInfo) : Option Parsed := do
  if p.length < fixedLen then return ⟨0, out, c⟩
  let op ← readByte p 0
  if op ≠ opReply then return ⟨0, out, c⟩
  let xid ← readBytes 4 p offXid
  if be32 xid ≠ c.xid then return ⟨0, out, c⟩
  let chaddr ← readBytes 6 p offChaddr
  if chaddr ≠ c.mac.toList then return ⟨0, out, c⟩
  let cookie ← readBytes 4 p 236
  if cookie ≠ magicCookie then return ⟨0, out, c⟩
  let yiaddr ← readBytes 4 p offYiaddr
  parseLoop p (p.length + 1) fixedLen ⟨0, { ip := bytesAt 4 yiaddr 0 }, c⟩

variable {c : Client} {p q v : List UInt8} {i : ℕ} {code l : UInt8} {r : Reply}

/-! ## The walk -/

/-- The parser's state as the fold sees it. -/
def Parsed.of (c : Client) (r : Reply) : Parsed :=
  ⟨r.type, r.info, { c with serverId := r.serverId.getD c.serverId }⟩

theorem getD_take {m : ℕ} (v : List UInt8) (h : i < m) : (v.take m).getD i 0 = v.getD i 0 := by
  rw [List.getD_eq_getElem?_getD, List.getD_eq_getElem?_getD, List.getElem?_take_of_lt h]

theorem bytesAt_take {n m off : ℕ} (v : List UInt8) (h : off + n ≤ m) :
    bytesAt n (v.take m) off = bytesAt n v off :=
  Vector.ext fun i hi ↦ by
    simp only [bytesAt, Vector.getElem_ofFn]
    exact getD_take v (by omega)

theorem bytesAt_drop (n off : ℕ) (p : List UInt8) : bytesAt n (p.drop off) 0 = bytesAt n p off :=
  Vector.ext fun i hi ↦ by
    simp only [bytesAt, Vector.getElem_ofFn, List.getD_eq_getElem?_getD, List.getElem?_drop,
      Nat.zero_add]

theorem be32_take (v : List UInt8) : be32 (v.take 4) = be32 v := by
  unfold be32
  rw [getD_take v (by decide), getD_take v (by decide), getD_take v (by decide),
    getD_take v (by decide)]

theorem Parsed.store_of_drop {s : Parsed} {n : ℕ} {f : List UInt8 → Parsed} (h : p.drop i = v ++ q)
    (hi : i ≤ p.length) (hl : v.length = l.toNat) :
    s.store p l i n f = some (if n ≤ v.length then f (v.take n) else s) := by
  rw [store, hl]
  split
  next hn =>
    have hsplit : p.drop i = v.take n ++ (v.drop n ++ q) := by
      rw [h, ← List.append_assoc, List.take_append_drop]
    rw [readBytes_of_drop hsplit hi (List.length_take_of_le (hl ▸ hn)), Option.map_some]
  next => rfl

theorem Parsed.option_of_drop (h : p.drop i = v ++ q) (hi : i ≤ p.length)
    (hl : v.length = l.toNat) :
    (Parsed.of c r).option p code l i = some (Parsed.of c (r.option code v)) := by
  have h4 : ∀ v : List UInt8, bytesAt 4 (v.take 4) 0 = bytesAt 4 v 0 :=
    fun v ↦ bytesAt_take v (by decide)
  have h1 : ∀ v : List UInt8, (v.take 1).getD 0 0 = v.getD 0 0 := fun v ↦ getD_take v (by decide)
  simp only [Parsed.option, Reply.option, store_of_drop h hi hl, h4, h1, be32_take]
  split_ifs <;> rfl

/-- **The walk is the fold over the options**, and it stays inside the datagram. -/
theorem parseLoop_eq_foldl : ∀ {n i : ℕ} {r : Reply}, i ≤ p.length → p.length - i < n →
    parseLoop p n i (.of c r) =
      some (.of c ((options optPad optEnd (p.drop i)).foldl (fun r o ↦ r.option o.1 o.2) r)) := by
  intro n
  induction n with
  | zero => exact fun _ h ↦ absurd h (Nat.not_lt_zero _)
  | succ n ih =>
    intro i r hi hn
    rw [parseLoop]
    cases hdrop : p.drop i with
    | nil =>
      rw [if_neg (Nat.not_lt.mpr (List.drop_eq_nil_iff.mp hdrop))]
      rfl
    | cons code q =>
      have hlt := lt_of_drop_cons hdrop
      have hq := drop_succ_of_drop hdrop
      rw [if_pos hlt, readByte_of_drop hdrop, Option.bind_eq_bind, Option.bind_some]
      by_cases hpad : code = optPad
      · rw [if_pos hpad, hpad, options_pad, ih (Nat.succ_le_of_lt hlt) (by omega), hq]
      rw [if_neg hpad]
      by_cases hend : code = optEnd
      · rw [if_pos (.inl hend), hend, options_stop (by decide)]
        rfl
      cases hq' : q with
      | nil =>
        rw [hq'] at hq
        rw [if_pos (.inr (List.drop_eq_nil_iff.mp hq)), options_singleton hpad]
        rfl
      | cons l q =>
        rw [hq'] at hq
        have hlt' := lt_of_drop_cons hq
        have hlen := length_of_drop (v := [l]) hq (Nat.le_of_lt hlt')
        have hrest := drop_succ_of_drop hq
        rw [List.length_singleton] at hlen
        rw [if_neg (by rintro (h | h); exacts [hend h, absurd h (Nat.not_le.mpr hlt')]),
          readByte_of_drop hq, Option.bind_some]
        by_cases hcut : q.length < l.toNat
        · rw [if_pos (by omega), options_cut hpad hcut]
          rfl
        · have hle := Nat.le_of_not_lt hcut
          have hsplit : p.drop (i + 2) = q.take l.toNat ++ q.drop l.toNat := by
            rw [List.take_append_drop]
            exact hrest
          have hv : (q.take l.toNat).length = l.toNat := List.length_take_of_le hle
          rw [if_neg (by omega), Parsed.option_of_drop hsplit (by omega) hv, Option.bind_eq_bind,
            Option.bind_some,
            ih (by omega) (by omega), drop_add_of_drop hsplit hv, options_cons hpad hend hle,
              List.foldl_cons]

/-! ## The head -/

theorem take_drop_eq_bytesAt {n off : ℕ} (h : off + n ≤ p.length) :
    (p.drop off).take n = (bytesAt n p off).toList := by
  refine List.ext_getElem ?_ fun i hi hi' ↦ ?_
  · simp only [List.length_take, List.length_drop, Vector.length_toList]
    omega
  rw [List.length_take, List.length_drop] at hi
  simp only [bytesAt, List.getElem_take, List.getElem_drop, Vector.getElem_toList,
    Vector.getElem_ofFn]
  exact (List.getD_eq_getElem _ _ (by omega)).symm

/-- `dhcp_parse` ends, and stays inside the datagram. -/
theorem dhcpParse_eq (c : Client) (p : List UInt8) (out : NetInfo) : dhcpParse c p out =
    some (if IsReply c.xid c.mac p then .of c (parse p) else ⟨0, out, c⟩) := by
  unfold dhcpParse
  by_cases hlen : p.length < fixedLen
  · rw [if_pos hlen, if_neg fun h ↦ absurd h.1 (Nat.not_le.mpr hlen)]
    rfl
  have hle := Nat.le_of_not_lt hlen
  have hin : ∀ {n : ℕ}, n ≤ fixedLen → n ≤ p.length := fun h ↦ Nat.le_trans h hle
  have hsome : ∀ {β : Type} {a : β} {f : β → Option Parsed}, (some a >>= f) = f a := rfl
  rw [if_neg hlen, readByte_of_lt (hin (by decide)), readBytes_of_le (hin (by decide)),
    readBytes_of_le (hin (by decide)), readBytes_of_le (hin (by decide)),
      readBytes_of_le (hin (by decide))]
  simp only [hsome, be32_take]
  rw [take_drop_eq_bytesAt (hin (by decide)), take_drop_eq_bytesAt (hin (by decide))]
  by_cases hop : p.getD 0 0 = opReply
  swap
  · rw [if_pos hop, if_neg fun h ↦ hop h.2.1]
    rfl
  by_cases hxid : be32 (p.drop offXid) = c.xid
  swap
  · rw [if_neg (not_not.mpr hop), if_pos hxid, if_neg fun h ↦ hxid h.2.2.1]
    rfl
  by_cases hmac : bytesAt 6 p offChaddr = c.mac
  swap
  · rw [if_neg (not_not.mpr hop), if_neg (not_not.mpr hxid),
      if_pos fun h ↦ hmac (Vector.toList_inj.mp h), if_neg fun h ↦ hmac h.2.2.2.1]
    rfl
  by_cases hcookie : (bytesAt 4 p 236).toList = magicCookie
  swap
  · rw [if_neg (not_not.mpr hop), if_neg (not_not.mpr hxid), if_neg (not_not.mpr (congrArg _ hmac)),
      if_pos hcookie, if_neg fun h ↦ hcookie h.2.2.2.2]
    rfl
  rw [if_neg (not_not.mpr hop), if_neg (not_not.mpr hxid), if_neg (not_not.mpr (congrArg _ hmac)),
    if_neg (not_not.mpr hcookie), if_pos ⟨hle, hop, hxid, hmac, hcookie⟩, parse_eq_foldl,
    bytesAt_take _ (by decide), bytesAt_drop]
  exact parseLoop_eq_foldl (c := c) (r := { info.ip := bytesAt 4 p offYiaddr }) hle
    (Nat.lt_succ_of_le (Nat.sub_le _ _))

/-- The program of the client takes what `dhcp_parse` makes of the datagram. -/
theorem dhcpParse_refines {E : Type} {V : Env Client E DhcpOp.Ans}
    {G : DhcpOp → Client → E → Prop} {e : E} :
    wlp V G (Dhcp.dhcpParse p) (fun a c' _ ↦ dhcpParse c p {} = some ⟨a.1, a.2, c'⟩) c e := by
  unfold Dhcp.dhcpParse
  refine pre_get_bind.mpr (pre_ite (fun h ↦ pre_modify_bind.mpr fun _ _ ↦ ?_) fun h _ _ ↦ ?_)
  · rw [dhcpParse_eq, if_pos h]
    rfl
  · rw [dhcpParse_eq, if_neg h]

/-! ## What the options say -/

/-- What a reply from `ip` with the options `os` says: what the last option of each kind does that
is long enough. -/
def said (ip : Ip4) (os : List TaggedOption) : Reply where
  type := ((lastOption os optMsgType 1).map fun v ↦ v.getD 0 0).getD 0
  info :=
    { ip := ip
      sn := ((lastOption os optSubnet 4).map fun v ↦ bytesAt 4 v 0).getD inaddrAny
      gw := ((lastOption os optRouter 4).map fun v ↦ bytesAt 4 v 0).getD inaddrAny
      dns := ((lastOption os optDns 4).map fun v ↦ bytesAt 4 v 0).getD inaddrAny
      leaseS := ((lastOption os optLeaseTime 4).map be32).getD 0 }
  serverId := (lastOption os optServerId 4).map fun v ↦ bytesAt 4 v 0

/-- One more option changes what it is about, and nothing else. -/
theorem said_concat (ip : Ip4) (os : List TaggedOption) (o : TaggedOption) :
    said ip (os ++ [o]) = (said ip os).option o.1 o.2 := by
  unfold Reply.option
  split_ifs <;> simp +decide only [said, lastOption_concat, *, if_true, if_false, and_true,
    and_false, false_and, Option.map_some, Option.getD_some]

theorem foldl_option (ip : Ip4) (os : List TaggedOption) :
    os.foldl (fun r o ↦ r.option o.1 o.2) { info.ip := ip } = said ip os := by
  induction os using List.reverseRecOn with
  | nil => rfl
  | append_singleton os o ih => rw [List.foldl_concat, ih, said_concat]

/-- **What a reply says.** `dhcp_parse` ends without looking outside of the datagram, whatever that
is. A datagram that is no reply to the client changes nothing. A reply says what its options say: of
each kind the last one, as long as it is long enough; an option that is cut off at the end is none
of them. -/
theorem dhcpParse_says (c : Client) (p : List UInt8) (out : NetInfo) :
    (∃ r, dhcpParse c p out = some r) ∧
    (¬IsReply c.xid c.mac p → dhcpParse c p out = some ⟨0, out, c⟩) ∧
    ∀ (items : List Item) (tail : List UInt8),
    (∀ o, .option o ∈ items → o.WellFormed optPad optEnd) →
      Ending optPad optEnd tail → p.drop fixedLen = items.flatMap (Item.encode optPad) ++ tail →
      IsReply c.xid c.mac p →
      dhcpParse c p out = some
      (.of c (said (bytesAt 4 p offYiaddr) (items.filterMap Item.option?))) := by
  refine ⟨⟨_, dhcpParse_eq c p out⟩, fun h ↦ ?_, fun items tail hwf htail hp h ↦ ?_⟩
  · rw [dhcpParse_eq, if_neg h]
  · rw [dhcpParse_eq, if_pos h, parse_eq_foldl, foldl_option, optionsOf, hp,
      options_items (by decide) hwf htail]

end Raw

end WsmDriver.Dhcp
