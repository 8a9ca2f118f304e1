import WsmDriver.Dhcp.Types
import WsmDriver.Format.Options
import Mathlib.Tactic.IntervalCases

/-!
# DHCP messages

A message is a fixed part of 240 bytes, the last four of them the magic cookie, and a string of
options. `build` is `dhcp_build` and `parse` is `dhcp_parse` as far as it computes: what it stores
through its pointers is left to the program that calls it.

Where the length of a received message allows it, the parser takes an option that comes twice from
its last occurrence, and the server identifier like every other.
-/

namespace WsmDriver.Dhcp

open Format

/-! ## Constants -/

/-- `DHCP_OP_REQUEST` and `DHCP_OP_REPLY`. -/
def opRequest : UInt8 := 1

def opReply : UInt8 := 2

/-- `DHCP_HTYPE_ETHER` and `DHCP_HLEN_ETHER`. -/
def htypeEther : UInt8 := 1

def hlenEther : UInt8 := 6

/-- `DHCP_FLAG_BROADCAST`. -/
def flagBroadcast : UInt16 := 0x8000

/-- The message types. -/
def dhcpDiscover : UInt8 := 1

def dhcpOffer : UInt8 := 2

def dhcpRequest : UInt8 := 3

def dhcpAck : UInt8 := 5

def dhcpNak : UInt8 := 6

/-- The options. -/
def optPad : UInt8 := 0

def optSubnet : UInt8 := 1

def optRouter : UInt8 := 3

def optDns : UInt8 := 6

def optRequestedIp : UInt8 := 50

def optLeaseTime : UInt8 := 51

def optMsgType : UInt8 := 53

def optServerId : UInt8 := 54

def optParamReq : UInt8 := 55

def optClientId : UInt8 := 61

def optEnd : UInt8 := 255

/-- `DHCP_FIXED_LEN`. -/
def fixedLen : ℕ := 240

/-- `DHCP_OFF_XID`, `DHCP_OFF_YIADDR` and `DHCP_OFF_CHADDR`. -/
def offXid : ℕ := 4

def offYiaddr : ℕ := 16

def offChaddr : ℕ := 28

/-- `DHCP_MIN_LEN`. -/
def minLen : ℕ := 300

/-- The magic cookie. -/
def magicCookie : List UInt8 := [0x63, 0x82, 0x53, 0x63]

/-! ## Bytes -/

/-- `n` bytes from `off` on. -/
def bytesAt (n : ℕ) (p : List UInt8) (off : ℕ) : Vector UInt8 n :=
  Vector.ofFn fun i ↦ p.getD (off + i) 0

/-- `be32`: four bytes as a big-endian number. -/
def be32 (p : List UInt8) : UInt32 :=
  (p.getD 0 0).toUInt32 <<< 24 ||| (p.getD 1 0).toUInt32 <<< 16 ||| (p.getD 2 0).toUInt32 <<< 8 |||
    (p.getD 3 0).toUInt32

/-- The bytes of a number, high byte first. -/
def bytesOf32 (x : UInt32) : List UInt8 :=
  [(x >>> 24).toUInt8, (x >>> 16).toUInt8, (x >>> 8).toUInt8, x.toUInt8]

/-! ## Building -/

/-- The options of a message. -/
def buildOptions (c : Client) (type : UInt8) : List TaggedOption :=
  [(optMsgType, [type]), (optClientId, htypeEther :: c.mac.toList)] ++
    (if type = dhcpRequest then
      [(optRequestedIp, c.offered.toList), (optServerId, c.serverId.toList)] else []) ++
      [(optParamReq, [optSubnet, optRouter, optDns, optLeaseTime])]

/-- The fixed part of a message: between the flags and the hardware address are four addresses, all
zero. -/
def buildHeader (c : Client) : List UInt8 :=
  [opRequest, htypeEther, hlenEther, 0] ++ bytesOf32 c.xid ++
    ([0, 0, (flagBroadcast >>> 8).toUInt8, flagBroadcast.toUInt8] : List UInt8) ++
    List.replicate 16 (0 : UInt8) ++ c.mac.toList ++
      List.replicate 202 (0 : UInt8) ++ magicCookie

/-- `dhcp_build`, without the padding. -/
def buildUnpadded (c : Client) (type : UInt8) : List UInt8 :=
  buildHeader c ++ ((buildOptions c type).flatMap TaggedOption.encode ++ [optEnd])

/-- `dhcp_build`. -/
def build (c : Client) (type : UInt8) : List UInt8 :=
  buildUnpadded c type ++ List.replicate (minLen - (buildUnpadded c type).length) optPad

/-! ## Parsing -/

/-- What the parser makes of the options: the message type, what it fills in for its caller, and
what it copies to the client as the server identifier. -/
structure Reply where
  type : UInt8 := 0
  info : NetInfo := {}
  serverId : Option Ip4 := none
  deriving DecidableEq, Repr

/-- The `switch` of `dhcp_parse`, for an option with the value `v`. -/
def Reply.option (r : Reply) (code : UInt8) (v : List UInt8) : Reply :=
  if code = optMsgType then if 1 ≤ v.length then { r with type := v.getD 0 0 } else r
  else if code = optSubnet then if 4 ≤ v.length then { r with info.sn := bytesAt 4 v 0 } else r
  else if code = optRouter then if 4 ≤ v.length then { r with info.gw := bytesAt 4 v 0 } else r
  else if code = optDns then if 4 ≤ v.length then { r with info.dns := bytesAt 4 v 0 } else r
  else if code = optLeaseTime then if 4 ≤ v.length then { r with info.leaseS := be32 v } else r
  else if code = optServerId then if 4 ≤ v.length then
    { r with serverId := some (bytesAt 4 v 0) } else r
  else r

/-- The loop of `dhcp_parse`. Every turn takes a byte at least, so it takes no more turns than there
are bytes. -/
def parseOptions : ℕ → List UInt8 → Reply → Reply
  | 0, _, r => r
  | _ + 1, [], r => r
  | n + 1, code :: p, r =>
    if code = optPad then parseOptions n p r
    else if code = optEnd then r
    else match p with
      | [] => r
      | l :: p =>
        if p.length < l.toNat then r
        else parseOptions n (p.drop l.toNat) (r.option code (p.take l.toNat))

/-- The checks at the head of `dhcp_parse`. -/
def IsReply (xid : UInt32) (mac : Mac) (p : List UInt8) : Prop :=
  fixedLen ≤ p.length ∧ p.getD 0 0 = opReply ∧ be32 (p.drop offXid) = xid ∧
    bytesAt 6 p offChaddr = mac ∧
    (bytesAt 4 p 236).toList = magicCookie

instance (xid : UInt32) (mac : Mac) (p : List UInt8) : Decidable (IsReply xid mac p) :=
  inferInstanceAs (Decidable (_ ∧ _ ∧ _ ∧ _ ∧ _))

/-- The rest of `dhcp_parse`. -/
def parse (p : List UInt8) : Reply :=
  parseOptions (p.length - fixedLen) (p.drop fixedLen) { info.ip := bytesAt 4 p offYiaddr }

/-- The parser goes through the options from first to last. -/
theorem parseOptions_eq_foldl (n : ℕ) (p : List UInt8) (r : Reply) :
    parseOptions n p r = (decode optPad optEnd n p).foldl (fun r o ↦ r.option o.1 o.2) r := by
  fun_induction parseOptions n p r with
  | case1 p r => rfl
  | case2 n r => rfl
  | case3 n p r ih => rw [ih, decode_pad]
  | case4 n p r h => rw [decode_stop h, List.foldl_nil]
  | case5 n code r h h' => rw [decode, if_neg h, if_neg h']; rfl
  | case6 n code r h h' l p hl => simp only [decode, if_neg h, if_neg h', if_pos hl, List.foldl_nil]
  | case7 n code r h h' l p hl ih =>
    simp only [decode, if_neg h, if_neg h', if_neg hl, List.foldl_cons, ih]

/-- The options of a message. -/
def optionsOf (p : List UInt8) : List TaggedOption := options optPad optEnd (p.drop fixedLen)

theorem parse_eq_foldl (p : List UInt8) :
    parse p = (optionsOf p).foldl (fun r o ↦ r.option o.1 o.2)
    { info.ip := bytesAt 4 p offYiaddr } := by
  have h : decode optPad optEnd (p.length - fixedLen) (p.drop fixedLen) = optionsOf p :=
    decode_enough (Nat.le_of_eq List.length_drop)
  rw [parse, parseOptions_eq_foldl, h]

attribute [irreducible] parse

/-- The value of an option, if the message has it: where it comes twice, the first of them. -/
def optionOf (p : List UInt8) (code : UInt8) : Option (List UInt8) := (optionsOf p).lookup code

/-! ## What is built can be read -/

theorem buildHeader_length (c : Client) : (buildHeader c).length = fixedLen := by
  simp only [buildHeader, List.length_append, List.length_replicate, Vector.length_toList]
  rfl

theorem buildOptions_wellFormed (c : Client) (type : UInt8) :
    ∀ o ∈ buildOptions c type, o.WellFormed optPad optEnd := by
  have hwf : ∀ {code : UInt8} {v : List UInt8}, code ≠ optPad → code ≠ optEnd →
      v.length < 256 →
      TaggedOption.WellFormed optPad optEnd (code, v) := fun h h' hl ↦ ⟨h, h', hl⟩
  have hid : (htypeEther :: c.mac.toList).length < 256 := by simp
  have hip : ∀ ip : Ip4, ip.toList.length < 256 := by simp
  unfold buildOptions
  split <;> simp only [List.cons_append, List.nil_append, List.forall_mem_cons]
  · exact ⟨hwf (by decide) (by decide) (by simp), hwf (by decide) (by decide) hid,
      hwf (by decide) (by decide) (hip _), hwf (by decide) (by decide) (hip _),
      hwf (by decide) (by decide) (by simp), by simp⟩
  · exact ⟨hwf (by decide) (by decide) (by simp), hwf (by decide) (by decide) hid,
      hwf (by decide) (by decide) (by simp), by simp⟩

theorem optionsOf_build (c : Client) (type : UInt8) : optionsOf (build c type) =
    buildOptions c type := by
  have hdrop : (build c type).drop fixedLen = (buildOptions c type).flatMap TaggedOption.encode ++
      optEnd :: List.replicate (minLen - (buildUnpadded c type).length) optPad := by
    rw [build, buildUnpadded, List.append_assoc, List.drop_left' (buildHeader_length c),
      List.append_assoc]
    rfl
  rw [optionsOf, hdrop]
  exact options_encode (by decide) (buildOptions_wellFormed c type) _

theorem optionOf_build_msgType (c : Client) (type : UInt8) : optionOf (build c type) optMsgType =
    some [type] := by
  rw [optionOf, optionsOf_build]
  rfl

theorem optionOf_build_requestedIp (c : Client) :
    optionOf (build c dhcpRequest) optRequestedIp = some c.offered.toList := by
  rw [optionOf, optionsOf_build]
  rfl

theorem optionOf_build_serverId (c : Client) :
    optionOf (build c dhcpRequest) optServerId = some c.serverId.toList := by
  rw [optionOf, optionsOf_build]
  rfl

theorem be32_bytesOf32_append (x : UInt32) (p : List UInt8) : be32 (bytesOf32 x ++ p) = x := by
  simp only [be32, bytesOf32, List.cons_append, List.getD_cons_zero, List.getD_cons_succ]
  refine UInt32.toBitVec_inj.mp (BitVec.eq_of_getLsbD_eq fun i hi ↦ ?_)
  interval_cases i <;> simp [-UInt32.toUInt32_toUInt8]

theorem be32_build (c : Client) (type : UInt8) : be32 ((build c type).drop offXid) = c.xid := by
  exact be32_bytesOf32_append c.xid _

theorem bytesAt_append {n off : ℕ} {p v q : List UInt8} (hp : p.length = off) (hv : v.length = n) :
    (bytesAt n (p ++ (v ++ q)) off).toList = v := by
  refine List.ext_getElem (by simpa using hv.symm) fun i hi hi' ↦ ?_
  simp only [bytesAt, Vector.getElem_toList, Vector.getElem_ofFn, List.getD_eq_getElem?_getD]
  rw [List.getElem?_append_right (by omega), hp, Nat.add_sub_cancel_left,
    List.getElem?_append_left hi', List.getElem?_eq_getElem hi', Option.getD_some]

/-! ## What a server sends -/

/-- A server's message: an address and options. -/
def serverMessage (xid : UInt32) (mac : Mac) (yiaddr : Ip4) (os : List TaggedOption) : List UInt8 :=
  opReply :: htypeEther :: hlenEther :: 0 :: bytesOf32 xid ++ List.replicate 8 (0 : UInt8) ++
    (yiaddr.toList ++
      (List.replicate 8 (0 : UInt8) ++ (mac.toList ++ (List.replicate 202 (0 : UInt8) ++
      (magicCookie ++ (os.flatMap TaggedOption.encode ++ [optEnd]))))))

end WsmDriver.Dhcp
