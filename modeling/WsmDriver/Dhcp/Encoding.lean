import WsmDriver.Dhcp.Decoding

/-!
# Encoding a request

`dhcp_build` as it writes into the message buffer, byte after byte behind the fixed part, every
access checked against the size of the buffer. What it leaves there is the message of the client's
program (`build`), which its own decoder reads back.
-/

namespace WsmDriver.Dhcp

open Format

/-- `DHCP_OFF_FLAGS`. -/
def offFlags : ℕ := 10

namespace Raw

/-- The fixed part of `dhcp_build`. -/
def dhcpBuildFixed (c : Client) (p : List UInt8) : Option (List UInt8) := do
  let p ← writeBytes p 0 (List.replicate fixedLen 0)
  let p ← writeBytes p 0 [opRequest, htypeEther, hlenEther, 0]
  let p ← writeBytes p offXid (bytesOf32 c.xid)
  let p ← writeBytes p offFlags [(flagBroadcast >>> 8).toUInt8, flagBroadcast.toUInt8]
  let p ← writeBytes p offChaddr c.mac.toList
  writeBytes p 236 magicCookie

/-- `p[n++] = b` for every byte `b` of `v`. -/
def put (v : List UInt8) (s : ℕ × List UInt8) : Option (ℕ × List UInt8) :=
  (writeBytes s.2 s.1 v).map fun p ↦ (s.1 + v.length, p)

/-- The options that a request has and a discovery has not. -/
def putRequested (c : Client) (type : UInt8) (s : ℕ × List UInt8) : Option (ℕ × List UInt8) :=
  if type = dhcpRequest then do
    let s ← put ([optRequestedIp, 4] ++ c.offered.toList) s
    put ([optServerId, 4] ++ c.serverId.toList) s
  else some s

/-- `while (n < DHCP_MIN_LEN)`, with as many turns to go. -/
def padLoop : ℕ → ℕ × List UInt8 → Option (ℕ × List UInt8)
  | 0, s => some s
  | k + 1, s => do
    let s ← put [optPad] s
    padLoop k s

/-- `dhcp_build`: the length of the message, and the buffer. -/
def dhcpBuild (c : Client) (type : UInt8) (p : List UInt8) : Option (ℕ × List UInt8) := do
  let p ← dhcpBuildFixed c p
  let s ← put [optMsgType, 1, type] (fixedLen, p)
  let s ← put ([optClientId, 7, htypeEther] ++ c.mac.toList) s
  let s ← putRequested c type s
  let s ← put [optParamReq, 4, optSubnet, optRouter, optDns, optLeaseTime] s
  let s ← put [optEnd] s
  padLoop (minLen - s.1) s

variable {c : Client} {type : UInt8} {p v w : List UInt8}

/-! ## What is written -/

/-- The message so far, in front of what the buffer held. -/
def soFar (w p : List UInt8) : ℕ × List UInt8 := (w.length, w ++ p.drop w.length)

theorem put_soFar (v : List UInt8) (h : (w ++ v).length ≤ p.length) :
    put v (soFar w p) = some (soFar (w ++ v) p) := by
  rw [List.length_append] at h
  have hold : ((p.drop w.length).take v.length).length = v.length := by
    rw [List.length_take, List.length_drop]
    omega
  have hwrite := writeBytes_append (v := v) (a := w) rfl hold (p.drop (w.length + v.length))
  rw [← List.drop_drop, List.take_append_drop] at hwrite
  rw [put, soFar, hwrite, Option.map_some, soFar, List.length_append, List.append_assoc,
    List.drop_drop]

theorem padLoop_soFar : ∀ {k : ℕ} {w : List UInt8}, w.length + k ≤ p.length →
    padLoop k (soFar w p) = some (soFar (w ++ List.replicate k optPad) p) := by
  intro k
  induction k with
  | zero => intro w _; rw [List.replicate_zero, List.append_nil]; rfl
  | succ k ih =>
    intro w h
    have hlen : (w ++ [optPad]).length = w.length + 1 := List.length_append
    rw [padLoop, put_soFar [optPad] (by omega), Option.bind_eq_bind, Option.bind_some,
      ih (by omega), List.append_assoc, List.singleton_append, ← List.replicate_succ]

/-- Bytes stored among zeros, `j` of them further on. -/
theorem write_zeros {a v q : List UInt8} {off k : ℕ} (j m : ℕ) (hoff : a.length + j = off)
    (hk : j + v.length + m = k) : writeBytes (a ++ (List.replicate k 0 ++ q)) off v =
      some ((a ++ (List.replicate j 0 ++ v)) ++ (List.replicate m 0 ++ q)) := by
  have hsplit : a ++ (List.replicate k 0 ++ q) =
      (a ++ List.replicate j 0) ++ (List.replicate v.length 0 ++ (List.replicate m 0 ++ q)) := by
    rw [← hk, List.replicate_add, List.replicate_add]
    simp only [List.append_assoc]
  rw [hsplit, writeBytes_append (by rw [List.length_append, List.length_replicate, hoff])
    List.length_replicate]
  simp only [List.append_assoc]

theorem dhcpBuildFixed_eq (c : Client) (h : fixedLen ≤ p.length) :
    dhcpBuildFixed c p = some (buildHeader c ++ p.drop fixedLen) := by
  have hold : (p.take fixedLen).length = (List.replicate fixedLen (0 : UInt8)).length := by
    rw [List.length_take_of_le h, List.length_replicate]
  have hclear : writeBytes p 0 (List.replicate fixedLen 0) =
      some ([] ++ (List.replicate fixedLen 0 ++ p.drop fixedLen)) := by
    rw [← writeBytes_append (a := []) rfl hold (p.drop fixedLen), List.nil_append,
      List.take_append_drop]
    rfl
  have hmac : c.mac.toList.length = 6 := Vector.length_toList
  have hsome : ∀ {a : List UInt8} {f : List UInt8 → Option (List UInt8)}, (some a >>= f) =
    f a := rfl
  -- Each field is stored among the zeros that are left.
  rw [dhcpBuildFixed, hclear, hsome, write_zeros 0 236 (by rfl) (by rfl), hsome,
    write_zeros 0 232 (by rfl) (by rfl),
    hsome, write_zeros 2 228 (by rfl) (by rfl), hsome, write_zeros 16 206 (by rfl) (by rw [hmac]),
    hsome, write_zeros 202 0 (by simp [hmac, bytesOf32]) (by rfl)]
  simp only [List.replicate_zero, List.nil_append, List.append_assoc, buildHeader]
  rfl

theorem length_buildUnpadded (c : Client) (type : UInt8) :
    (buildUnpadded c type).length = if type = dhcpRequest then 271 else 259 := by
  rw [buildUnpadded, List.length_append, buildHeader_length]
  unfold buildOptions
  split <;> simp [TaggedOption.encode, fixedLen]

theorem putRequested_soFar (c : Client) (type : UInt8) (h : w.length + 12 ≤ p.length) :
    putRequested c type (soFar w p) = some (soFar (w ++ (if type = dhcpRequest then
      [(optRequestedIp, c.offered.toList), (optServerId, c.serverId.toList)]
    else []).flatMap TaggedOption.encode) p) := by
  unfold putRequested
  split
  · have hoffered : (w ++ ([optRequestedIp, 4] ++ c.offered.toList)).length = w.length + 6 :=
      by simp
    have hserver : (w ++ ([optRequestedIp, 4] ++ c.offered.toList) ++
        ([optServerId, 4] ++ c.serverId.toList)).length = w.length + 12 := by
      simp
    rw [put_soFar _ (by omega), Option.bind_eq_bind, Option.bind_some, put_soFar _ (by omega)]
    simp [TaggedOption.encode]
  · rw [List.flatMap_nil, List.append_nil]

/-- **`dhcp_build` writes the message**, and nothing behind it. -/
theorem dhcpBuild_eq (c : Client) (type : UInt8) (h : minLen ≤ p.length) :
    dhcpBuild c type p = some (minLen, build c type ++ p.drop minLen) := by
  have hhead := buildHeader_length c
  have hsize : minLen = fixedLen + 60 := rfl
  have hfixed : (fixedLen, buildHeader c ++ p.drop fixedLen) = soFar (buildHeader c) p := by
    rw [soFar, hhead]
  have hsome : ∀ {α : Type} {a : α} {f : α → Option (ℕ × List UInt8)}, (some a >>= f) =
    f a := rfl
  have hrequested :
        ((if type = dhcpRequest then
        [(optRequestedIp, c.offered.toList), (optServerId, c.serverId.toList)]
      else []).flatMap TaggedOption.encode).length ≤ 12 := by
    split <;> simp [TaggedOption.encode]
  have hdone : ∀ w : List UInt8, w = buildUnpadded c type →
      padLoop (minLen - (soFar w p).1) (soFar w p) =
        some (minLen, build c type ++ p.drop minLen) := by
    rintro _ rfl
    have hlen : (buildUnpadded c type).length ≤ minLen := by
      rw [length_buildUnpadded]
      split <;> decide
    have hall : (build c type).length = minLen := by
      rw [build, List.length_append, List.length_replicate]
      omega
    -- The options end before byte 300, and zeros fill the message up to there.
    change padLoop (minLen - (buildUnpadded c type).length) _ = _
    rw [padLoop_soFar (by omega), ← build, soFar, hall]
  rw [dhcpBuild, dhcpBuildFixed_eq c (by omega), hsome, hfixed, put_soFar _ (by simp; omega), hsome,
    put_soFar _ (by simp; omega), hsome, putRequested_soFar c type (by simp; omega), hsome,
    put_soFar _ (by simp [-List.length_flatMap]; omega), hsome,
    put_soFar _ (by simp [-List.length_flatMap]; omega), hsome]
  refine hdone _ ?_
  simp [buildUnpadded, buildOptions, TaggedOption.encode]

/-! ## The message as a reply -/

/-- What stands around the hardware address. -/
theorem build_split (c : Client) (type : UInt8) : ∃ head options : List UInt8, head.length =
    offChaddr ∧
    build c type = head ++
    (c.mac.toList ++ (List.replicate 202 (0 : UInt8) ++ (magicCookie ++ options))) := by
  refine ⟨[opRequest, htypeEther, hlenEther, 0] ++ bytesOf32 c.xid ++
    ([0, 0, (flagBroadcast >>> 8).toUInt8, flagBroadcast.toUInt8] : List UInt8) ++
      List.replicate 16 (0 : UInt8),
    (buildOptions c type).flatMap TaggedOption.encode ++ [optEnd] ++
      List.replicate (minLen - (buildUnpadded c type).length) optPad, rfl, ?_⟩
  simp only [build, buildUnpadded, buildHeader, List.append_assoc]

theorem bytesAt_set {n off : ℕ} (hoff : 0 < off) (p : List UInt8) (b : UInt8) :
    bytesAt n (p.set 0 b) off = bytesAt n p off := by
  rw [← bytesAt_drop, List.drop_set_of_lt hoff, bytesAt_drop]

/-- With the first byte of a reply the message is one, to the client that sent it and to no
other. -/
theorem isReply_build {xid : UInt32} {mac : Mac} (c : Client) (type : UInt8) :
    IsReply xid mac ((build c type).set 0 opReply) ↔ xid = c.xid ∧ mac = c.mac := by
  obtain ⟨head, options, hhead, hsplit⟩ := build_split c type
  have hlen : fixedLen ≤ (build c type).length := by
    simp only [build, buildUnpadded, List.length_append, buildHeader_length]
    omega
  have hop : ((build c type).set 0 opReply).getD 0 0 = opReply := by
    have hpos : 0 < ((build c type).set 0 opReply).length := by
      rw [List.length_set]
      exact Nat.lt_of_lt_of_le (by decide) hlen
    rw [List.getD_eq_getElem _ _ hpos, List.getElem_set_self]
  have hchaddr : bytesAt 6 (build c type) offChaddr = c.mac := by
    rw [hsplit]
    exact Vector.toList_inj.mp (bytesAt_append hhead Vector.length_toList)
  have hcookie : (bytesAt 4 (build c type) 236).toList = magicCookie := by
    rw [hsplit, ← List.append_assoc, ← List.append_assoc]
    refine bytesAt_append ?_ rfl
    rw [List.length_append, List.length_append, hhead, Vector.length_toList, List.length_replicate]
    rfl
  -- The message is one of a client already; only the operation code is overwritten.
  unfold IsReply
  rw [List.length_set, hop, List.drop_set_of_lt (by decide), be32_build, bytesAt_set (by decide),
    hchaddr, bytesAt_set (by decide), hcookie]
  exact ⟨fun h ↦ ⟨h.2.2.1.symm, h.2.2.2.1.symm⟩,
    fun h ↦ ⟨hlen, rfl, h.1.symm, h.2.symm, rfl⟩⟩

theorem said_buildOptions (c : Client) (type : UInt8) (ip : Ip4) :
    (said ip (buildOptions c type)).type = type ∧
    (said ip (buildOptions c type)).serverId = if type = dhcpRequest then some c.serverId else
    none := by
  have hid : bytesAt 4 c.serverId.toList 0 = c.serverId := by
    have hbytes := bytesAt_append (p := []) (q := []) rfl (show c.serverId.toList.length = 4 from
      Vector.length_toList)
    rw [List.nil_append, List.append_nil] at hbytes
    exact Vector.toList_inj.mp hbytes
  unfold said lastOption buildOptions
  split <;> simp +decide [hid]

/-- **The encoder and the decoder agree.** The message takes the least length there is; its options,
read as the decoder reads them, are those of its type, and nothing but padding follows; sent back as
a reply it is accepted by the clients with its `xid` and hardware address, which learn the type and
the server from it, and by no other. -/
theorem dhcpBuild_readable (c : Client) (type : UInt8) (buf : Vector UInt8 bufSize) :
    ∃ (msg : List UInt8) (k : ℕ),
    dhcpBuild c type buf.toList = some (300, msg ++ buf.toList.drop 300) ∧ msg.length = 300 ∧
    msg.drop fixedLen = (buildOptions c type).flatMap TaggedOption.encode ++ optEnd ::
    List.replicate k optPad ∧
    optionsOf msg = [(53, [type]), (61, 1 :: c.mac.toList)] ++
      (if type = dhcpRequest then [(50, c.offered.toList), (54, c.serverId.toList)] else []) ++
      [(55, [1, 3, 6, 51])] ∧
    (∀ (c' : Client) (out : NetInfo), c'.xid = c.xid → c'.mac = c.mac → ∃ out',
      dhcpParse c' (msg.set 0 opReply) out =
        some ⟨type, out', if type = dhcpRequest then { c' with serverId := c.serverId } else
          c'⟩) ∧
    ∀ (c' : Client) (out : NetInfo), c'.xid ≠ c.xid ∨ c'.mac ≠ c.mac →
      dhcpParse c' (msg.set 0 opReply) out = some ⟨0, out, c'⟩ := by
  have hbuf : minLen ≤ buf.toList.length := by
    rw [Vector.length_toList]
    decide
  have hunpadded : (buildUnpadded c type).length ≤ minLen := by
    rw [length_buildUnpadded]
    split <;> decide
  have hoptions : optionsOf ((build c type).set 0 opReply) = buildOptions c type := by
    rw [optionsOf, List.drop_set_of_lt (by decide), ← optionsOf, optionsOf_build]
  refine ⟨build c type, minLen - (buildUnpadded c type).length, dhcpBuild_eq c type hbuf, ?_, ?_,
    ?_, ?_, ?_⟩
  · rw [build, List.length_append, List.length_replicate, Nat.add_sub_cancel' hunpadded]
    rfl
  · rw [build, buildUnpadded, List.append_assoc, List.drop_left' (buildHeader_length c),
      List.append_assoc]
    rfl
  · rw [optionsOf_build]
    rfl
  · intro c' out hxid hmac
    obtain ⟨htype, hserver⟩ :=
      said_buildOptions c type (bytesAt 4 ((build c type).set 0 opReply) offYiaddr)
    refine ⟨(said (bytesAt 4 ((build c type).set 0 opReply) offYiaddr)
      (buildOptions c type)).info, ?_⟩
    rw [dhcpParse_eq, if_pos ((isReply_build c type).mpr ⟨hxid, hmac⟩), parse_eq_foldl, hoptions,
      foldl_option, Parsed.of, htype, hserver]
    split <;> rfl
  · intro c' out hne
    rw [dhcpParse_eq, if_neg fun h ↦ ?_]
    obtain ⟨hxid, hmac⟩ := (isReply_build c type).mp h
    exact hne.elim (fun h ↦ h hxid) fun h ↦ h hmac

end Raw

end WsmDriver.Dhcp
