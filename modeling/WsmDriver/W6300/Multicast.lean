import WsmDriver.W6300.Types

/-!
# The multicast filter

In MACRAW mode the chip blocks IPv4 multicast as a class, by one bit of `Sn_MR`. The stack joins and
leaves groups one by one and may ask for all multicast frames; the driver keeps a counter of 8 bits
for all of it. `Groups` is what the counter and the bit stand for: the groups joined and not left,
and whether all frames are asked for.

These functions share nothing with the path of a frame but the bus, of which they use two accesses.
-/

namespace WsmDriver.W6300

open Effect Failing

/-- `ESP_ERR_NOT_SUPPORTED`. -/
def espErrNotSupported : EspErr := .other 0x106

/-- `W6300_SMR_MAC_RAW`, `W6300_SMR_MAC_FILTER` and `W6300_SMR_MAC_BLOCK_MCAST`. -/
def smrMacRaw : UInt8 := 0x07

def smrMacFilter : UInt8 := 0x80

def smrMacBlockMcast : UInt8 := 0x20

/-- `Sn_MR` as `w6300_setup_default` leaves it. -/
def setupSmr : UInt8 := smrMacRaw ||| smrMacFilter ||| smrMacBlockMcast

/-- A hardware address. -/
abbrev EthAddr := Vector UInt8 6

/-- The address of an IPv4 multicast group. -/
def IsIp4Mcast (addr : EthAddr) : Prop := addr.get 0 = 0x01 ∧ addr.get 1 = 0x00 ∧ addr.get 2 = 0x5e

/-- The address of an IPv6 multicast group. -/
def IsIp6Mcast (addr : EthAddr) : Prop := addr.get 0 = 0x33 ∧ addr.get 1 = 0x33

instance (addr : EthAddr) : Decidable (IsIp4Mcast addr) := inferInstanceAs (Decidable (_ ∧ _ ∧ _))

instance (addr : EthAddr) : Decidable (IsIp6Mcast addr) := inferInstanceAs (Decidable (_ ∧ _))

/-! ## The functions -/

/-- The accesses to `Sn_MR` of the MACRAW socket. -/
inductive MrOp
  | read
  | write (value : UInt8)
  deriving DecidableEq

abbrev MrOp.Ans : MrOp → Type
  | .read => Except EspErr UInt8
  | .write _ => Except EspErr Unit

/-- What the filter keeps of `emac_w6300_t`. -/
structure Filter where
  mcastCnt : UInt8 := 0
  deriving DecidableEq, Repr

/-- The programs of the filter. -/
abbrev Filtering := Failing EspErr Filter MrOp.Ans

/-- What `emac_w6300_set_block_ip4_mcast` writes. -/
def blocked (block : Bool) (smr : UInt8) : UInt8 :=
  if block then smr ||| smrMacBlockMcast else smr &&& ~~~smrMacBlockMcast

/-- `emac_w6300_set_block_ip4_mcast`. -/
def emacW6300SetBlockIp4Mcast (block : Bool) : Filtering Unit := do
  let smr ← ExceptT.mk (Program.perform MrOp.read)
  ExceptT.mk (Program.perform (MrOp.write (blocked block smr)))

/-- `emac_w6300_add_mac_filter`. -/
def emacW6300AddMacFilter (addr : EthAddr) : Filtering Unit :=
  if IsIp4Mcast addr then do
    emacW6300SetBlockIp4Mcast false
    modify fun s ↦ { s with mcastCnt := s.mcastCnt + 1 }
  else if IsIp6Mcast addr then pure ()
  else throw espErrNotSupported

/-- `emac_w6300_del_mac_filter`. -/
def emacW6300DelMacFilter (addr : EthAddr) : Filtering Unit := do
  ensure (¬IsIp6Mcast addr) .fail
  modify fun s ↦ if IsIp4Mcast addr ∧ 0 < s.mcastCnt then
    { s with mcastCnt := s.mcastCnt - 1 } else s
  if (← get).mcastCnt = 0 then
    emacW6300SetBlockIp4Mcast true

/-- `emac_w6300_set_all_multicast`. -/
def emacW6300SetAllMulticast (enable : Bool) : Filtering Unit := do
  emacW6300SetBlockIp4Mcast (!enable)
  modify fun s ↦ { s with mcastCnt := 0 }

/-! ## What they are for -/

/-- What the stack has asked for. -/
structure Groups where
  all : Bool := false
  joined : List EthAddr := []
  deriving DecidableEq

/-- Some IPv4 multicast frames are wanted. -/
def Groups.Wanted (g : Groups) : Prop := g.all = true ∨ g.joined ≠ []

instance (g : Groups) : Decidable g.Wanted := inferInstanceAs (Decidable (_ ∨ _))

/-- The calls of the filter. -/
inductive FilterCall
  | add (addr : EthAddr)
  | rm (addr : EthAddr)
  | setAll (enable : Bool)
  deriving DecidableEq

namespace FilterCall

def prog : FilterCall → Filtering Unit
  | add addr => emacW6300AddMacFilter addr
  | rm addr => emacW6300DelMacFilter addr
  | setAll enable => emacW6300SetAllMulticast enable

/-- What the stack has asked for after a call that succeeds. -/
def groups (g : Groups) : FilterCall → Groups
  | add addr => if IsIp4Mcast addr then { g with joined := addr :: g.joined } else g
  | rm addr => if IsIp4Mcast addr then { g with joined := g.joined.erase addr } else g
  | setAll enable => { g with all := enable }

/-- A group that is left has been joined. -/
def Matched (g : Groups) : FilterCall → Prop
  | rm addr => IsIp4Mcast addr → addr ∈ g.joined
  | _ => True

/-- The counter after a call. -/
def count (n : UInt8) : FilterCall → UInt8
  | add addr => if IsIp4Mcast addr then n + 1 else n
  | rm addr => if IsIp4Mcast addr ∧ 0 < n then n - 1 else n
  | setAll _ => 0

/-- `Sn_MR` after a call. -/
def smr (n : UInt8) (e : UInt8) : FilterCall → UInt8
  | add addr => if IsIp4Mcast addr then blocked false e else e
  | rm addr => if (rm addr).count n = 0 then blocked true e else e
  | setAll enable => blocked (!enable) e

end FilterCall

/-- `Sn_MR`, which only the driver writes. An access may fail. -/
def snMr : Env Filter UInt8 MrOp.Ans where
  drift _ _ := False
  answer
    | .read, _, e, a, e' => e' = e ∧ (a = .ok e ∨ ∃ err, a = .error err)
    | .write v, _, _, a, e' => (a = .ok () ∧ e' = v) ∨ ∃ err, a = .error err

theorem snMr_drifts {e e' : UInt8} (h : snMr.Drifts e e') : e' = e :=
  h.induct (P := fun e' ↦ e' = e) (fun _ _ (hd : False) _ ↦ hd.elim) rfl

section

variable {s s' : Filter} {e e' : UInt8} {G : MrOp → Filter → UInt8 → Prop}
    {R : ℕ → ℕ → Prop}

/-- If the bit is written, then into what the register held. -/
theorem setBlockIp4Mcast_ok (block : Bool) :
    preE snMr (fun _ _ _ ↦ True) R (emacW6300SetBlockIp4Mcast block)
    (fun _ s' e' ↦ s' = s ∧ e' = blocked block e) (fun _ _ _ ↦ True) s e := by
  intro e₁ he
  obtain rfl := snMr_drifts he
  refine ⟨trivial, ?_⟩
  rintro a e₂ ⟨rfl, rfl | ⟨err, rfl⟩⟩
  · intro e₃ he₃
    obtain rfl := snMr_drifts he₃
    refine ⟨trivial, ?_⟩
    rintro b e₄ (⟨rfl, rfl⟩ | ⟨err, rfl⟩) e₅ he₅
    · exact ⟨rfl, snMr_drifts he₅⟩
    · trivial
  · exact fun _ _ ↦ trivial

theorem addMacFilter_ok (addr : EthAddr) :
    preE snMr (fun _ _ _ ↦ True) R (emacW6300AddMacFilter addr)
    (fun _ s' e' ↦ s'.mcastCnt = (FilterCall.add addr).count s.mcastCnt ∧ e' =
      (FilterCall.add addr).smr s.mcastCnt e)
    (fun _ _ _ ↦ True) s e := by
  unfold emacW6300AddMacFilter FilterCall.count FilterCall.smr
  by_cases h4 : IsIp4Mcast addr
  · simp only [if_pos h4]
    refine (setBlockIp4Mcast_ok false).seq ?_
    rintro - _ _ ⟨rfl, rfl⟩ e' he'
    exact ⟨rfl, snMr_drifts he'⟩
  · simp only [if_neg h4]
    split
    · exact fun e' he' ↦ ⟨rfl, snMr_drifts he'⟩
    · exact fun _ _ ↦ trivial

theorem delMacFilter_ok (addr : EthAddr) :
    preE snMr (fun _ _ _ ↦ True) R (emacW6300DelMacFilter addr)
    (fun _ s' e' ↦ s'.mcastCnt = (FilterCall.rm addr).count s.mcastCnt ∧ e' =
      (FilterCall.rm addr).smr s.mcastCnt e)
    (fun _ _ _ ↦ True) s e := by
  unfold emacW6300DelMacFilter
  refine preE_ensure_bind (fun _ ↦ preE_modify_bind.mpr (preE_get_bind.mpr ?_)) fun _ _ _ ↦ trivial
  have hcount : (if IsIp4Mcast addr ∧ 0 < s.mcastCnt then { s with mcastCnt := s.mcastCnt - 1 } else
      s).mcastCnt = (FilterCall.rm addr).count s.mcastCnt := by
    rw [FilterCall.count]
    split <;> rfl
  rw [hcount, FilterCall.smr]
  split
  · refine preE.imp (setBlockIp4Mcast_ok true) ?_ fun _ _ _ h ↦ h
    rintro - _ _ ⟨rfl, rfl⟩
    exact ⟨hcount, rfl⟩
  · exact fun e' he' ↦ ⟨hcount, snMr_drifts he'⟩

theorem setAllMulticast_ok (enable : Bool) :
    preE snMr (fun _ _ _ ↦ True) R (emacW6300SetAllMulticast enable)
    (fun _ s' e' ↦ s'.mcastCnt = 0 ∧ e' = blocked (!enable) e) (fun _ _ _ ↦ True) s e := by
  unfold emacW6300SetAllMulticast
  refine (setBlockIp4Mcast_ok (!enable)).seq ?_
  rintro - _ _ ⟨rfl, rfl⟩ e' he'
  exact ⟨rfl, snMr_drifts he'⟩

/-- What a call that succeeds does. -/
theorem FilterCall.returns_ok {k : FilterCall} (h : Returns snMr k.prog.run s e (.ok ()) s' e') :
    s'.mcastCnt = k.count s.mcastCnt ∧ e' = k.smr s.mcastCnt e := by
  cases k with
  | add addr => exact (addMacFilter_ok (R := fun _ _ ↦ True) addr).returns h
  | rm addr => exact (delMacFilter_ok (R := fun _ _ ↦ True) addr).returns h
  | setAll enable => exact (setAllMulticast_ok (R := fun _ _ ↦ True) enable).returns h

end

/-! ## Runs -/

/-- The bit is clear exactly if some frames are wanted. -/
def Agrees (g : Groups) (e : UInt8) : Prop := e &&& smrMacBlockMcast = 0 ↔ g.Wanted

instance (g : Groups) (e : UInt8) : Decidable (Agrees g e) := inferInstanceAs (Decidable (_ ↔ _))

/-- Nothing but the bit has changed. -/
def OtherBits (e e' : UInt8) : Prop := e' &&& ~~~smrMacBlockMcast = e &&& ~~~smrMacBlockMcast

/-- A call that will not make the driver forget what is wanted: no group is left, and no other
address removed, with the counter at its end, and all multicast is not turned off, while some frames
are still wanted. -/
def FilterCall.Harmless (g : Groups) (s : Filter) : FilterCall → Prop
  | .add _ => True
  | .rm addr => (if IsIp4Mcast addr then s.mcastCnt ≤ 1 else s.mcastCnt = 0) →
      ¬((FilterCall.rm addr).groups g).Wanted
  | .setAll enable => enable = false → g.joined = []

/-- The points reached by sequences of calls that succeed, from the default setup, with what has
been asked for. -/
inductive FilterRun (ok : Groups → Filter → FilterCall → Prop) : Groups → Filter →
    UInt8 → Prop
  | start : FilterRun ok {} {} setupSmr
  | call {g : Groups} {s s' : Filter} {e e' : UInt8} (k : FilterCall) (h : FilterRun ok g s e)
      (hm : k.Matched g)
      (hk : ok g s k) (hr : Returns snMr k.prog.run s e (.ok ()) s' e') :
        FilterRun ok (k.groups g) s' e'

theorem blocked_bit (block : Bool) (e : UInt8) : blocked block e &&& smrMacBlockMcast = 0 ↔ block =
    false := by
  cases block with
  | false =>
    refine iff_of_true (UInt8.toBitVec_inj.mp ?_) rfl
    ext i hi
    simp [blocked]
  | true =>
    refine iff_of_false (fun h ↦ ?_) Bool.noConfusion
    have hbit := congrArg (fun b : UInt8 ↦ b.toBitVec.getLsbD 5) h
    simp [blocked, smrMacBlockMcast] at hbit

theorem blocked_otherBits (block : Bool) (e : UInt8) : OtherBits e (blocked block e) := by
  refine UInt8.toBitVec_inj.mp ?_
  ext i hi
  cases block with
  | false => simp [blocked]
  | true =>
    simp [blocked]
    grind

section

variable {g : Groups} {n : UInt8} {e : UInt8} {k : FilterCall}

theorem toNat_pred (h : 0 < n) : (n - 1).toNat = n.toNat - 1 :=
  UInt8.toNat_sub_of_le _ _ (UInt8.le_iff_toNat_le.mpr (UInt8.lt_iff_toNat_lt.mp h))

/-- The counter never exceeds the joins that are outstanding. -/
theorem FilterCall.count_le (hn : n.toNat ≤ g.joined.length) (hm : k.Matched g) :
    (k.count n).toNat ≤ (k.groups g).joined.length := by
  cases k with
  | add addr =>
    rw [count, groups]
    split
    · have hadd : (n + 1).toNat ≤ n.toNat + 1 := by
        rw [UInt8.toNat_add]
        exact Nat.mod_le _ _
      exact Nat.le_trans hadd (Nat.succ_le_succ hn)
    · exact hn
  | rm addr =>
    rw [count, groups]
    by_cases h4 : IsIp4Mcast addr
    · have hlen : (g.joined.erase addr).length = g.joined.length - 1 :=
        List.length_erase_of_mem (hm h4)
      rw [if_pos h4, hlen]
      split
      · rename_i h
        exact toNat_pred h.2 ▸ Nat.sub_le_sub_right hn 1
      · -- The counter stops at zero, where the groups may still be more.
        rename_i h
        have hzero : n.toNat = 0 := Nat.eq_zero_of_not_pos fun hpos ↦
          h ⟨h4, UInt8.lt_iff_toNat_lt.mpr hpos⟩
        omega
    · rw [if_neg h4, if_neg fun h ↦ h4 h.1]
      exact hn
  | setAll enable => exact Nat.zero_le _

/-- When a removal finds the counter at its end. -/
theorem FilterCall.count_rm_eq_zero {addr : EthAddr} :
    (rm addr).count n = 0 ↔ if IsIp4Mcast addr then n ≤ 1 else n = 0 := by
  rw [count]
  by_cases h4 : IsIp4Mcast addr
  · rw [if_pos h4]
    split
    · rename_i h
      rw [← UInt8.toNat_inj, toNat_pred h.2, UInt8.le_iff_toNat_le]
      exact Nat.sub_eq_zero_iff_le
    · rename_i h
      have hzero : n = 0 := UInt8.toNat_inj.mp (Nat.eq_zero_of_not_pos fun hpos ↦
        h ⟨h4, UInt8.lt_iff_toNat_lt.mpr hpos⟩)
      rw [hzero]
      decide
  · rw [if_neg h4, if_neg fun h ↦ h4 h.1]

/-- What one call does to the agreement. -/
theorem FilterCall.agrees_iff {s : Filter} (hn : s.mcastCnt.toNat ≤ g.joined.length)
    (hg : Agrees g e) (hm : k.Matched g) :
    Agrees (k.groups g) (k.smr s.mcastCnt e) ↔ k.Harmless g s := by
  cases k with
  | add addr =>
    refine iff_of_true ?_ trivial
    rw [groups, smr]
    split
    · exact iff_of_true ((blocked_bit false e).mpr rfl) (.inr (List.cons_ne_nil _ _))
    · exact hg
  | rm addr =>
    rw [smr, Harmless, ← count_rm_eq_zero]
    by_cases h0 : (rm addr).count s.mcastCnt = 0
    · have hset : ¬blocked true e &&& smrMacBlockMcast = 0 :=
        fun h ↦ Bool.noConfusion ((blocked_bit true e).mp h)
      rw [if_pos h0]
      constructor
      · exact fun h _ hw ↦ hset (h.mpr hw)
      · exact fun h ↦ iff_of_false hset (h h0)
    · refine iff_of_true ?_ fun h ↦ absurd h h0
      -- With the counter above 0 a join is outstanding, now as before.
      rw [if_neg h0]
      have hafter := count_le hn hm
      have hpos : 0 < ((rm addr).count s.mcastCnt).toNat :=
        Nat.pos_of_ne_zero fun h ↦ h0 (UInt8.toNat_inj.mp h)
      have hleft : ((rm addr).groups g).joined ≠ [] :=
        List.ne_nil_of_length_pos (Nat.lt_of_lt_of_le hpos hafter)
      have hjoined : g.joined ≠ [] := by
        rintro hnil
        rw [groups] at hleft
        split at hleft
        · exact hleft (by rw [hnil]; rfl)
        · exact hleft hnil
      exact iff_of_true (hg.mpr (.inr hjoined)) (.inr hleft)
  | setAll enable =>
    rw [Agrees, smr, blocked_bit]
    cases enable with
    | false =>
      constructor
      · exact fun h _ ↦ by_contra fun hne ↦ Bool.noConfusion (h.mpr (.inr hne))
      · intro h
        refine iff_of_false Bool.noConfusion ?_
        rintro (hall | hne)
        · exact Bool.noConfusion hall
        · exact hne (h rfl)
    | true => exact iff_of_true (iff_of_true rfl (.inl rfl)) Bool.noConfusion

theorem FilterCall.smr_otherBits : OtherBits e (k.smr n e) := by
  cases k with
  | add addr =>
    rw [smr]
    split
    · exact blocked_otherBits false e
    · rfl
  | rm addr =>
    rw [smr]
    split
    · exact blocked_otherBits true e
    · rfl
  | setAll enable => exact blocked_otherBits _ e

end

namespace FilterRun

variable {ok : Groups → Filter → FilterCall → Prop} {g : Groups} {s : Filter} {e : UInt8}

theorem count_le (h : FilterRun ok g s e) : s.mcastCnt.toNat ≤ g.joined.length := by
  induction h with
  | start => exact Nat.le_refl _
  | call k _ hm _ hr ih => exact (FilterCall.returns_ok hr).1 ▸ FilterCall.count_le ih hm

theorem otherBits (h : FilterRun ok g s e) : OtherBits setupSmr e := by
  induction h with
  | start => rfl
  | call k _ _ _ hr ih => exact (FilterCall.returns_ok hr).2 ▸ FilterCall.smr_otherBits.trans ih

theorem agrees (hok : ∀ g s k, ok g s k → k.Harmless g s) (h : FilterRun ok g s e) :
    Agrees g e := by
  induction h with
  | start => decide
  | call k h hm hk hr ih =>
    exact (FilterCall.returns_ok hr).2 ▸ (FilterCall.agrees_iff h.count_le ih hm).mpr (hok _ _ _ hk)

end FilterRun

/-- **The bit and the groups.** No call touches another bit of `Sn_MR`. As long as all calls are
harmless the bit is clear exactly if some frames are wanted, and the first call that is not makes it
disagree. -/
theorem mmb4_follows_groups {ok : Groups → Filter → FilterCall → Prop} {g : Groups} {s : Filter}
    {e : UInt8} (h : FilterRun ok g s e) :
    OtherBits setupSmr e ∧ ((∀ g s k, ok g s k → k.Harmless g s) → Agrees g e ∧
      ∀ (k : FilterCall) (s' : Filter) (e' : UInt8), k.Matched g → Returns snMr k.prog.run s e
      (.ok ()) s' e' →
        (Agrees (k.groups g) e' ↔ k.Harmless g s)) := by
  refine ⟨h.otherBits, fun hok ↦ ⟨h.agrees hok, fun k s' e' hm hr ↦ ?_⟩⟩
  obtain ⟨-, rfl⟩ := FilterCall.returns_ok hr
  exact FilterCall.agrees_iff h.count_le (h.agrees hok) hm

/-- A register whose accesses succeed. -/
def MrOp.reply : (o : MrOp) → UInt8 → o.Ans × UInt8
  | .read, e => (.ok e, e)
  | .write value, _ => (.ok (), value)

theorem snMr_reply : snMr.Follows (fun _ ↦ True) MrOp.reply := by
  refine .always fun o s e ↦ ?_
  cases o with
  | read => exact ⟨rfl, .inl rfl⟩
  | write value => exact .inl ⟨rfl, rfl⟩

/-- A call whose accesses succeed. -/
theorem FilterRun.reply {ok : Groups → Filter → FilterCall → Prop} {g : Groups} {s s' : Filter}
    {e e' : UInt8} (k : FilterCall) (h : FilterRun ok g s e) (hm : k.Matched g) (hk : ok g s k)
    (hn : (runWith MrOp.reply 10 ⟨k.prog.run, s, e⟩).prog.result? = some (.ok ()))
    (hs : (runWith MrOp.reply 10 ⟨k.prog.run, s, e⟩).store = s')
    (he : (runWith MrOp.reply 10 ⟨k.prog.run, s, e⟩).env = e') :
    FilterRun ok (k.groups g) s' e' := by
  subst hs he
  exact h.call k hm hk (returns_runWith snMr_reply trivial hn)

/-- 224.0.0.1 as a hardware address. -/
def allHosts : EthAddr := #v[0x01, 0x00, 0x5e, 0x00, 0x00, 0x01]

/-- 224.0.0.251. -/
def mdns : EthAddr := #v[0x01, 0x00, 0x5e, 0x00, 0x00, 0xfb]

/-- Two groups are joined, one of them is left. -/
theorem mmb4_follows_groups_leave_one :
    OtherBits setupSmr 0x87 ∧ ((∀ g s k, FilterCall.Harmless g s k → k.Harmless g s) →
      Agrees { joined := [mdns] } 0x87 ∧ ∀ (k : FilterCall) (s' : Filter) (e' : UInt8),
        k.Matched { joined := [mdns] } → Returns snMr k.prog.run ⟨1⟩ 0x87 (.ok ()) s' e' →
          (Agrees (k.groups { joined := [mdns] }) e' ↔
            k.Harmless { joined := [mdns] } ⟨1⟩)) := by
  have h₁ : FilterRun (fun g s k ↦ k.Harmless g s) { joined := [allHosts] } ⟨1⟩ 0x87 :=
    FilterRun.start.reply (.add allHosts) trivial trivial rfl rfl rfl
  have h₂ : FilterRun (fun g s k ↦ k.Harmless g s) { joined := [mdns, allHosts] } ⟨2⟩ 0x87 :=
    h₁.reply (.add mdns) trivial trivial rfl rfl rfl
  have h₃ : FilterRun (fun g s k ↦ k.Harmless g s) { joined := [mdns] } ⟨1⟩ 0x87 :=
    h₂.reply (.rm allHosts) (fun _ ↦ by decide) (fun h ↦ absurd h (by decide)) rfl rfl rfl
  exact mmb4_follows_groups h₃

/-- All multicast is turned on; a group that is joined and left turns it off again. -/
theorem mmb4_blocked_under_all : ∃ (g : Groups) (s : Filter) (e : UInt8),
    FilterRun (fun _ _ _ ↦ True) g s e ∧ g.all = true ∧ ¬Agrees g e := by
  have h₁ : FilterRun (fun _ _ _ ↦ True) { all := true } ⟨0⟩ 0x87 :=
    FilterRun.start.reply (.setAll true) trivial trivial rfl rfl rfl
  have h₂ : FilterRun (fun _ _ _ ↦ True) { all := true, joined := [allHosts] } ⟨1⟩ 0x87 :=
    h₁.reply (.add allHosts) trivial trivial rfl rfl rfl
  have h₃ : FilterRun (fun _ _ _ ↦ True) { all := true } ⟨0⟩ 0xa7 :=
    h₂.reply (.rm allHosts) (fun _ ↦ by decide) trivial rfl rfl rfl
  exact ⟨_, _, _, h₃, rfl, by decide⟩

end WsmDriver.W6300
