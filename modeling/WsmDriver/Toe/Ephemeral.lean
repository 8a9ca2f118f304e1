import WsmDriver.Toe.Ports

/-!
# Ephemeral ports

A TCP socket that was never bound connects from a port that `connect` takes from the clock: one of
the 16368 ports from 0xC000, whichever the microseconds say. Nobody looks whether another descriptor
has that port.

So the ports are in range, always. They are different as long as the clock is never read at a moment
whose microseconds, modulo 16368, are those of a port in use; and if no port is bound twice, no two
sockets that connect are ever on the same one.
-/

namespace WsmDriver

open Effect

variable {cfg : ToeConfig} {E : Type} {U : Env Tables E ChipOp.Ans}
  {V : Call → Env Tables E ChipOp.Ans} {t t' : Tables} {e e' e₀ : E} {fd x y : ℤ} {p : UInt16}

/-- The local port `connect` takes from a reading of the clock. -/
def ephemeralPort (now : UInt32) : UInt16 := (0xC000 + now % 0x3FF0).toUInt16

theorem ephemeralPort_toNat (now : UInt32) : (ephemeralPort now).toNat = 0xC000 +
    now.toNat % 0x3FF0 := by
  have hmod : now.toNat % 0x3FF0 < 0x3FF0 := Nat.mod_lt _ (by decide)
  have hsum : (0xC000 + now % 0x3FF0 : UInt32).toNat = 0xC000 + now.toNat % 0x3FF0 := by
    rw [UInt32.toNat_add, UInt32.toNat_mod]
    change (49152 + now.toNat % 16368) % 2 ^ 32 = 49152 + now.toNat % 16368
    omega
  rw [ephemeralPort, UInt32.toNat_toUInt16, hsum]
  omega

/-- The range of the ephemeral ports. -/
theorem ephemeralPort_range (now : UInt32) : 0xC000 ≤ ephemeralPort now ∧ ephemeralPort now ≤
    0xFFEF := by
  have hmod : now.toNat % 0x3FF0 < 0x3FF0 := Nat.mod_lt _ (by decide)
  rw [UInt16.le_iff_toNat_le, UInt16.le_iff_toNat_le, ephemeralPort_toNat]
  change 49152 ≤ 49152 + now.toNat % 16368 ∧ 49152 + now.toNat % 16368 ≤ 65519
  omega

/-! ## Ports in use -/

/-- A live TCP descriptor with the port `p`. -/
def TcpOn (cfg : ToeConfig) (t : Tables) (x : ℤ) (p : UInt16) : Prop :=
  toeFdValid cfg t x ∧ (t.desc x).isUdp = false ∧ (t.desc x).port = p

/-- No live TCP descriptor but perhaps `fd` has the port `p`. -/
def PortFree (cfg : ToeConfig) (t : Tables) (fd : ℤ) (p : UInt16) : Prop :=
  ∀ x, x ≠ fd → ¬TcpOn cfg t x p

/-- A live TCP descriptor that was not made by `accept`, with a port `p`. -/
structure OwnsPort (cfg : ToeConfig) (t : Tables) (x : ℤ) (p : UInt16) : Prop where
  valid : toeFdValid cfg t x
  tcp : (t.desc x).isUdp = false
  own : (t.desc x).connected = false
  port : (t.desc x).port = p
  nonzero : p ≠ 0

/-- No two descriptors have one port, if neither was made by `accept`. -/
def Apart (cfg : ToeConfig) (t : Tables) : Prop :=
  ∀ x y p, OwnsPort cfg t x p → OwnsPort cfg t y p → x = y

namespace Apart

theorem of_owns (h : Apart cfg t) (ho : ∀ x p, OwnsPort cfg t' x p → OwnsPort cfg t x p) :
    Apart cfg t' :=
  fun x y p hx hy ↦ h x y p (ho x p hx) (ho y p hy)

theorem of_desc (h : Apart cfg t) (hd : t'.desc = t.desc) : Apart cfg t' := by
  refine h.of_owns fun x p ⟨hv, htcp, hown, hport, hp⟩ ↦ ?_
  simp only [toeFdValid, hd] at hv htcp hown hport
  exact ⟨hv, htcp, hown, hport, hp⟩

theorem setOwner (h : Apart cfg t) (sn v : ℤ) : Apart cfg (t.setOwner sn v) := h.of_desc rfl

variable {f : Desc → Desc}

theorem owns_upd_ne (hx : x ≠ fd) (ho : OwnsPort cfg (t.upd fd f) x p) : OwnsPort cfg t x p := by
  obtain ⟨hv, htcp, hown, hport, hp⟩ := ho
  simp only [toeFdValid, Tables.upd_desc_ne _ _ hx] at hv htcp hown hport
  exact ⟨hv, htcp, hown, hport, hp⟩

/-- A descriptor may get a port that nobody else owns. -/
theorem upd (h : Apart cfg t)
    (hfree : ∀ p, OwnsPort cfg (t.upd fd f) fd p → OwnsPort cfg t fd p ∨ ∀ x,
      OwnsPort cfg t x p → x = fd) :
    Apart cfg (t.upd fd f) := by
  have hself : ∀ {x p}, OwnsPort cfg (t.upd fd f) x p → OwnsPort cfg (t.upd fd f) fd p → x =
      fd := by
    intro x p hx hfd
    by_contra hne
    rcases hfree p hfd with hold | hnew
    · exact hne (h x fd p (owns_upd_ne hne hx) hold)
    · exact hne (hnew x (owns_upd_ne hne hx))
  intro x y p hx hy
  by_cases hxfd : x = fd
  · subst hxfd
    exact (hself hy hx).symm
  · by_cases hyfd : y = fd
    · subst hyfd
      exact hself hx hy
    · exact h x y p (owns_upd_ne hxfd hx) (owns_upd_ne hyfd hy)

/-- Changing fields that play no part. -/
theorem upd_same (h : Apart cfg t) (hu : (f (t.desc fd)).used = (t.desc fd).used)
    (hudp : (f (t.desc fd)).isUdp = (t.desc fd).isUdp)
    (hport : (f (t.desc fd)).port = (t.desc fd).port)
    (hc : (t.desc fd).connected = true → (f (t.desc fd)).connected = true) :
    Apart cfg (t.upd fd f) := by
  refine h.upd fun p ⟨hv, htcp, hown, hp, hp₀⟩ ↦ .inl ?_
  simp only [toeFdValid, Tables.upd_desc_self] at hv htcp hown hp
  refine ⟨⟨hv.1, hv.2.1, hu ▸ hv.2.2⟩, hudp ▸ htcp, ?_, hport ▸ hp, hp₀⟩
  exact Bool.eq_false_iff.mpr fun hcon ↦ absurd (hc hcon) (by simp [hown])

/-- A descriptor may get out of the way. -/
theorem upd_not (h : Apart cfg t) (hf : ∀ p, ¬OwnsPort cfg (t.upd fd f) fd p) :
    Apart cfg (t.upd fd f) :=
  h.upd fun p ho ↦ absurd ho (hf p)

theorem descClear (h : Apart cfg t) : Apart cfg (toeDescClear fd t) :=
  h.upd_not fun p ho ↦ absurd ho.valid.2.2 (by simp)

/-- Only retuning a descriptor can put it on a port of another one. -/
theorem move (h : Apart cfg t) (hs : Shaped cfg t) {k : Kind} (hm : Move cfg k t t')
    (hk : k ≠ .tune) : Apart cfg t' := by
  cases hm with
  | init =>
    cases hi : t.tablesInit with
    | true => rwa [toeTablesInit_of_init hi]
    | false =>
      intro x y p hx
      have hu := hx.valid.2.2
      rw [toeTablesInit_desc hi hx.valid.1 hx.valid.2.1] at hu
      exact absurd (hs.init ⟨hx.valid.1, hx.valid.2.1, hu⟩) (by simp [hi])
  | tune => exact absurd rfl hk
  | listening => exact h.upd_same rfl rfl rfl id
  | socket udp hi hc hfree =>
    exact (h.setOwner _ _).upd_not fun p ho ↦ ho.nonzero (by simpa using ho.port.symm)
  | scrub => exact h.descClear
  | reserve => exact h.setOwner _ _
  | release => exact h.setOwner _ _
  | arm => exact (h.setOwner _ _).upd_same rfl rfl rfl id
  | opened => exact h.upd_same rfl rfl rfl id
  | @disarm _ fd hr hl =>
    rw [toeListenerDisarm]
    split
    · exact (h.of_desc (toeSnRelease_desc _ t)).upd_same rfl rfl rfl id
    · exact h.upd_same rfl rfl rfl id
  | @handover _ fd c hr hl hc =>
    -- The connection has the port of the listener, and is marked as connected.
    refine ((h.upd_not fun p ho ↦ ?_).setOwner _ _).upd_same rfl rfl rfl id
    exact absurd ho.own (by simp)
  | @close _ fd hv =>
    rw [Tables.closed]
    split
    · exact (h.of_desc (toeSnRelease_desc _ t)).descClear
    · exact h.descClear

end Apart

/-! ## The calls that keep ports apart -/

/-- What keeps the ports apart, with what is known of the tables anyway. -/
abbrev KeepsApart (cfg : ToeConfig) (t : Tables) : Prop := Shaped cfg t ∧ Apart cfg t

theorem Apart.keptBy (cfg : ToeConfig) : KeptBy cfg (· ≠ .tune) (KeepsApart cfg) where
  range h := (Shaped.tablesInv cfg).range h.1
  idle h := (Shaped.tablesInv cfg).idle h.1
  move hk h hm := ⟨h.1.move hm, h.2.move h.1 hm hk⟩

/-- The call does not give a port to a TCP descriptor. -/
structure Call.AssignsNoPort (cfg : ToeConfig) (c : Call) (t : Tables) : Prop where
  bind : ∀ fd p, c = .bind fd p → toeFdReady cfg t fd → (t.desc fd).isUdp = true
  connect : ∀ fd ip p, c = .connect fd ip p → (t.desc fd).port = 0 → (t.desc fd).isUdp = true

theorem Apart.settles {c : Call} (hc : c.AssignsNoPort cfg t) :
    Settles cfg U (fun t _ ↦ KeepsApart cfg t)
      (fun _ d d' ↦ d'.port = d.port ∧ (d.connected = true → d'.connected = true) ∨ d.isUdp =
        true) c t :=
  have hK := Apart.keptBy cfg
  { hK.stable with
    tune := fun {fd t _ f} h hv hf hP ↦ by
      refine ⟨h.1.move (.tune hv hf), ?_⟩
      rcases hP with ⟨hport, hcon⟩ | hudp
      · exact h.2.upd_same hf.used hf.isUdp hport hcon
      · -- The ports of UDP sockets are a space of their own.
        refine h.2.upd_not fun p ho ↦ ?_
        have htcp := ho.tcp
        rw [Tables.upd_desc_self, hf.isUdp, hudp] at htcp
        exact absurd htcp (by decide)
    licenses := fun _ _ _ hport hcon ↦ .inl ⟨hport, hcon⟩
    binds := fun heq hr ↦ .inr (hc.bind _ _ heq hr)
    connects := fun heq h₀ _ ↦ .inr (hc.connect _ _ _ heq h₀)
    init := fun h ↦ hK.move (by decide) h (.init _)
    listening := fun b h hr htcp ↦ hK.move (by decide) h (.listening b hr htcp)
    reserves := fun _ {_ _ _} hi hs h ↦ hK.move (by decide) h (.reserve hi hs)
    opens := hK.opens (by decide)
    defers := fun x _ ↦ hK.defers (by decide) x }

theorem Call.AssignsNoPort.prog {c : Call} (hc : c.AssignsNoPort cfg t) (hfit : cfg.Fits)
    (h : KeepsApart cfg t) :
    wlp U (fun _ t _ ↦ KeepsApart cfg t) (c.prog cfg) (fun _ t _ ↦ KeepsApart cfg t) t e :=
  (Apart.keptBy cfg).prog hfit (fun _ ht _ _ _ ↦ ht) (Apart.settles hc)
    (fun _ _ _ _ h hv ↦ (Apart.keptBy cfg).move (by decide) h (.close hv))
    (fun sn _ _ h ↦ ⟨h.1.release sn, h.2.of_desc (toeSnRelease_desc sn _)⟩) h

/-! ## The calls that assign one -/

/-- `bind` gives a TCP descriptor no port that another one owns. -/
def Call.BindsApart (cfg : ToeConfig) (c : Call) (t : Tables) : Prop :=
  ∀ fd p, c = .bind fd p → toeFdReady cfg t fd → (t.desc fd).isUdp = false → ∀ x,
    OwnsPort cfg t x p → x = fd

/-- The answer, if it is a reading of the clock that `connect` makes a port of, makes one that is
not in use. -/
def Call.ReadsFresh (cfg : ToeConfig) : Call → (o : ChipOp) → Tables → o.Ans → Prop
  | .connect fd _ _, .toeTimeUs, t, now => PortFree cfg t fd (ephemeralPort now)
  | _, _, _, _ => True

/-- Surroundings in which `connect` reads the clock at such moments only. -/
def Call.wellTimed (cfg : ToeConfig) (c : Call) (U : Env Tables E ChipOp.Ans) :
    Env Tables E ChipOp.Ans where
  drift := U.drift
  answer o t e a e' := U.answer o t e a e' ∧ c.ReadsFresh cfg o t a

theorem PortFree.owns (h : PortFree cfg t fd p) : ∀ x, OwnsPort cfg t x p → x = fd :=
  fun x ho ↦ by
  by_contra hx
  exact h x hx ⟨ho.valid, ho.tcp, ho.port⟩

/-- A TCP descriptor gets a port nobody else owns. -/
theorem KeepsApart.assign (h : KeepsApart cfg t) (hv : toeFdValid cfg t fd)
    (hfree : ∀ x, OwnsPort cfg t x p → x = fd) :
    KeepsApart cfg (t.upd fd fun d ↦ { d with port := p }) := by
  refine ⟨h.1.move (.tune hv ⟨rfl, rfl, rfl, rfl, rfl⟩), h.2.upd fun q ho ↦ .inr fun x hx ↦
    hfree x ?_⟩
  have hport := ho.port
  rw [Tables.upd_desc_self] at hport
  rwa [← hport] at hx

theorem wiztoeBind_tcp_apart (h : KeepsApart cfg t) (htcp : (t.desc fd).isUdp = false)
    (hfree : toeFdReady cfg t fd → ∀ x, OwnsPort cfg t x p → x = fd) :
    wlp U (fun _ t _ ↦ KeepsApart cfg t) (wiztoeBind cfg fd p)
    (fun _ t _ ↦ KeepsApart cfg t) t e := by
  unfold wiztoeBind
  refine pre_get_bind.mpr (pre_ite (fun _ _ _ ↦ h) fun hr ↦ pre_modify_bind.mpr ?_)
  rw [if_neg (by simp [htcp])]
  exact fun _ _ ↦ h.assign (not_not.mp hr).1 (hfree (not_not.mp hr))

theorem wiztoeConnect_tcp_apart {ip : Ip4} {port : UInt16} (h : KeepsApart cfg t)
    (hp : (t.desc fd).port = 0) (htcp : (t.desc fd).isUdp = false) :
    wlp ((Call.connect fd ip port).wellTimed cfg U) (fun _ t _ ↦ KeepsApart cfg t)
    (wiztoeConnect cfg fd ip port)
      (fun _ t _ ↦ KeepsApart cfg t) t e := by
  unfold wiztoeConnect
  refine pre_get_bind.mpr (pre_ite (fun _ _ _ ↦ h) fun hr ↦ ?_)
  have hr := not_not.mp hr
  rw [if_neg (by simp [htcp])]
  refine pre.seq (M := fun _ t _ ↦ toeFdReady cfg t fd ∧ KeepsApart cfg t) ?_
    fun lport t e ⟨hr, h⟩ ↦ ?_
  · unfold toeConnectPort
    refine pre_get_bind.mpr ?_
    rw [if_neg (by simp [hp])]
    refine pre_perform_bind.mpr fun _ _ ↦
      ⟨h, fun now e₂ ha ↦ pre_modify_bind.mpr fun _ _ ↦ ⟨?_, ?_⟩⟩
    · exact ⟨⟨hr.1.1, hr.1.2.1, by simpa using hr.1.2.2⟩, by simpa using hr.2⟩
    · -- The clock was read at a time at which the port it gives is free.
      exact h.assign hr.1 (PortFree.owns ha.2)
  · refine pre_get_bind.mpr (pre_perform_bind.mpr fun _ _ ↦ ⟨h, fun r _ _ ↦ ?_⟩)
    refine pre_ite (fun _ _ _ ↦ h) fun _ ↦ pre_modify_bind.mpr ?_
    have hopen : KeepsApart cfg (t.setOpened fd true) :=
      (Apart.keptBy cfg).move (by decide) h (.opened true hr)
    exact pre_perform_bind.mpr fun _ _ ↦ ⟨hopen, fun r _ _ _ _ ↦ hopen⟩

/-- **A call keeps the ports apart** if it binds no port another descriptor owns and finds the clock
at none. -/
theorem KeepsApart.prog (hfit : cfg.Fits) (c : Call) (h : KeepsApart cfg t)
    (hb : c.BindsApart cfg t) :
    wlp (c.wellTimed cfg U) (fun _ t _ ↦ KeepsApart cfg t) (c.prog cfg)
    (fun _ t _ ↦ KeepsApart cfg t) t e := by
  by_cases hc : c.AssignsNoPort cfg t
  · exact hc.prog hfit h
  cases c with
  | bind fd p =>
    cases hudp : (t.desc fd).isUdp with
    | true =>
      exact absurd ⟨fun _ _ heq _ ↦ by cases heq; exact hudp, fun _ _ _ heq ↦ by cases heq⟩ hc
    | false =>
      exact pre_discard ((wiztoeBind_tcp_apart h hudp fun hr ↦ hb fd p rfl hr hudp).imp
        fun _ _ _ h _ _ ↦ h)
  | connect fd ip port =>
    cases hudp : (t.desc fd).isUdp with
    | true =>
      exact absurd ⟨fun _ _ heq ↦ (by cases heq), fun _ _ _ heq _ ↦ by cases heq; exact hudp⟩ hc
    | false =>
      by_cases hp : (t.desc fd).port = 0
      · exact pre_discard ((wiztoeConnect_tcp_apart h hp hudp).imp fun _ _ _ h _ _ ↦ h)
      · exact absurd ⟨fun _ _ heq ↦ (by cases heq),
          fun _ _ _ heq h₀ ↦ by cases heq; exact absurd h₀ hp⟩ hc
  | _ => exact absurd ⟨fun _ _ heq ↦ (by cases heq), fun _ _ _ heq ↦ (by cases heq)⟩ hc

/-! ## What `connect` picks -/

/-- Every port `connect` picks on `fd` is in the ephemeral range. -/
def PicksInRange (cfg : ToeConfig) (U : Env Tables E ChipOp.Ans) (fd : ℤ) (ip : Ip4) (port : UInt16)
    (t : Tables) (e : E) : Prop :=
  ∀ sn protocol lport flag t' e', Performs U (wiztoeConnect cfg fd ip port) t
    e (.socket sn protocol lport flag) t' e' →
    0xC000 ≤ lport ∧ lport ≤ 0xFFEF

/-- No port `connect` picks on `fd` is that of another live TCP descriptor. -/
def PicksUnique (cfg : ToeConfig) (U : Env Tables E ChipOp.Ans) (fd : ℤ) (ip : Ip4) (port : UInt16)
    (t : Tables) (e : E) : Prop :=
  ∀ sn protocol lport flag t' e', Performs U (wiztoeConnect cfg fd ip port) t
    e (.socket sn protocol lport flag) t' e' →
    PortFree cfg t' fd lport

/-- The hardware socket is opened on the port the clock says. -/
theorem wiztoeConnect_picks (cfg : ToeConfig) (ip : Ip4) (port : UInt16) {Q : UInt32 → Prop}
    (hp : (t.desc fd).port = 0) (htcp : (t.desc fd).isUdp = false)
    (hQ : ∀ e₁ now e₂, U.Drifts e e₁ → U.answer .toeTimeUs t e₁ now e₂ → Q now) :
    wlp U (fun o t' _ ↦ ∀ sn protocol lport flag, o = .socket sn protocol lport flag →
        ∃ now, Q now ∧ lport = ephemeralPort now ∧ t' = t.upd fd fun d ↦
        { d with port := lport })
      (wiztoeConnect cfg fd ip port) Whatever t e := by
  unfold wiztoeConnect
  refine pre_get_bind.mpr (pre_ite (fun _ _ _ ↦ trivial) fun _ ↦ ?_)
  rw [if_neg (by simp [htcp])]
  refine pre.seq (M := fun lport t' _ ↦ ∃ now, Q now ∧ lport = ephemeralPort now ∧
    t' = t.upd fd fun d ↦ { d with port := lport }) ?_ fun lport t' e hl ↦ ?_
  · unfold toeConnectPort
    refine pre_get_bind.mpr ?_
    rw [if_neg (by simp [hp])]
    refine pre_perform_bind.mpr fun e₁ hd ↦
      ⟨fun _ _ _ _ heq ↦ (by cases heq), fun now e₂ ha ↦ ?_⟩
    exact pre_modify_bind.mpr fun _ _ ↦ ⟨now, hQ e₁ now e₂ hd ha, rfl, rfl⟩
  · refine pre_get_bind.mpr (pre_perform_bind.mpr fun _ _ ↦ ⟨fun _ _ _ _ heq ↦ ?_,
      fun r _ _ ↦ ?_⟩)
    · cases heq
      exact hl
    · refine pre_ite (fun _ _ _ ↦ trivial) fun _ ↦ pre_modify_bind.mpr ?_
      exact pre_perform_bind.mpr fun _ _ ↦
        ⟨fun _ _ _ _ heq ↦ (by cases heq), fun _ _ _ _ _ ↦ trivial⟩

theorem portFree_upd {f : Desc → Desc} : PortFree cfg (t.upd fd f) fd p ↔ PortFree cfg t fd p := by
  refine forall_congr' fun x ↦ imp_congr_right fun hx ↦ ?_
  rw [TcpOn, TcpOn, toeFdValid, toeFdValid, Tables.upd_desc_ne _ _ hx]

/-- Any reading of the clock is one `connect` can get. -/
theorem wiztoeConnect_performs (ip : Ip4) (port : UInt16) {now : UInt32} {e₁ e₂ : E}
    (hr : toeFdReady cfg t fd) (hp : (t.desc fd).port = 0) (htcp : (t.desc fd).isUdp = false)
    (hd : U.Drifts e e₁) (ha : U.answer .toeTimeUs t e₁ now e₂) :
    ∃ sn flag, Performs U (wiztoeConnect cfg fd ip port) t e
    (.socket sn .tcp (ephemeralPort now) flag)
      (t.upd fd fun d ↦ { d with port := ephemeralPort now }) e₂ := by
  have hpick : Returns U (toeConnectPort fd) t e (ephemeralPort now)
      (t.upd fd fun d ↦ { d with port := ephemeralPort now }) e₂ := by
    refine Returns.get_bind ?_
    rw [if_neg (by simp [hp])]
    exact (Reaches.drifts hd).trans (Returns.perform_bind ha (.modify_bind (.pure _ _ _)))
  generalize t.upd fd (fun d ↦ { d with port := ephemeralPort now }) = t' at hpick ⊢
  refine ⟨toeSn t' fd, toeOpenFlag t' fd, ?_⟩
  unfold wiztoeConnect
  refine .get_bind ?_
  rw [if_neg (not_not.mpr hr), if_neg (by simp [htcp])]
  exact Performs.seq hpick (.get_bind (.bind (.perform _ _) _))

/-! ## Two connections to one server -/

/-- A chip whose clock is only looked at every 16368 microseconds. -/
def tickingChip : (o : ChipOp) → UInt32 → o.Ans × UInt32
  | .toeTimeUs, now => (now, now + 16368)
  | o, now => ((placidChip .established o ()).1, now)

/-- The tables and the clock after the call `c`. -/
def afterTicking (c : Call) (s : Tables × UInt32) : Tables × UInt32 :=
  ((runWith tickingChip 40 ⟨c.prog w5500, s.1, s.2⟩).store,
    (runWith tickingChip 40 ⟨c.prog w5500, s.1, s.2⟩).env)

/-- Two TCP sockets, the first of which is connected to port 80 of 192.168.0.3. -/
def oneOfTwoConnected : Tables × UInt32 :=
  afterTicking (.connect 0 #v[192, 168, 0, 3] 80)
    (afterTicking (.socket 2 1 0) (afterTicking (.socket 2 1 0) (.zero, 1000)))

theorem afterTicking_history {c : Call} {s : Tables × UInt32}
    (h : AnyHistory w5500 (fun _ ↦ Env.script tickingChip) 1000 s.1 s.2)
    (hn : (runWith tickingChip 40 ⟨c.prog w5500, s.1, s.2⟩).prog.result? = some ()) :
    AnyHistory w5500 (fun _ ↦ Env.script tickingChip) 1000 (afterTicking c s).1
    (afterTicking c s).2 := by
  have hfollows : (Env.script tickingChip : Env Tables UInt32 ChipOp.Ans).Follows (fun _ ↦ True)
      tickingChip :=
    .always fun _ _ _ ↦ ⟨rfl, rfl⟩
  simpa only [afterTicking] using h.callWith c trivial hfollows trivial hn

theorem oneOfTwoConnected_history :
    AnyHistory w5500 (fun _ ↦ Env.script tickingChip) 1000 oneOfTwoConnected.1
      oneOfTwoConnected.2 :=
  afterTicking_history
    (afterTicking_history (afterTicking_history (s := (.zero, 1000)) .start (by decide))
    (by decide)) (by decide)

/-! ## Ports over a run -/

/-- **Randomized is not unique.** The port `connect` picks is always in the ephemeral range. It is
always one that no other live TCP descriptor has, exactly if `connect` cannot find the clock at a
moment whose microseconds, modulo 16368, are those of a port in use. In a run in which it never
does, and in which `bind` gives no descriptor the port of another, no two of the descriptors that
were not made by `accept` have one port. -/
theorem ephemeral_ports (hfit : cfg.Fits) :
    (∀ (U : Env Tables E ChipOp.Ans) (t : Tables) (e : E) (fd : ℤ) (ip : Ip4) (port : UInt16),
      toeFdReady cfg t fd →
      (t.desc fd).isUdp = false → (t.desc fd).port = 0 →
      PicksInRange cfg U fd ip port t e ∧
        (PicksUnique cfg U fd ip port t e ↔
          ∀ e₁ now e₂, U.Drifts e e₁ → U.answer .toeTimeUs t e₁ now e₂ →
            ∀ x, x ≠ fd → toeFdValid cfg t x → (t.desc x).isUdp = false →
              now.toNat % 16368 + 0xC000 ≠ (t.desc x).port.toNat)) ∧
    ∀ (V : Call → Env Tables E ChipOp.Ans) (e₀ : E) (t : Tables) (e : E),
      History (fun c ↦ c.wellTimed cfg (V c)) (fun c t _ ↦ c.BindsApart cfg t)
      (Call.prog cfg) .zero e₀ t e →
      Apart cfg t := by
  refine ⟨fun U t e fd ip port hr htcp hp ↦ ⟨?_, ?_, ?_⟩, fun V e₀ t e h ↦ ?_⟩
  · intro sn protocol lport flag t' e' hperf
    have hpick := wiztoeConnect_picks cfg ip port (U := U) (e := e) (Q := fun _ ↦ True) hp htcp
      fun _ _ _ _ _ ↦ trivial
    obtain ⟨now, -, rfl, -⟩ := hpick.performs hperf sn protocol lport flag rfl
    exact ephemeralPort_range now
  · intro hunique e₁ now e₂ hd ha x hx hv hudp hport
    obtain ⟨sn, flag, hperf⟩ := wiztoeConnect_performs ip port hr hp htcp hd ha
    refine portFree_upd.mp (hunique _ _ _ _ _ _ hperf) x hx ⟨hv, hudp, ?_⟩
    exact UInt16.toNat_inj.mp (by rw [ephemeralPort_toNat, ← hport, Nat.add_comm])
  · intro hclock sn protocol lport flag t' e' hperf
    have hpick := wiztoeConnect_picks cfg ip port (U := U) (e := e) hp htcp hclock
    obtain ⟨now, hnow, rfl, rfl⟩ := hpick.performs hperf sn protocol lport flag rfl
    refine portFree_upd.mpr fun x hx hon ↦ hnow x hx hon.1 hon.2.1 ?_
    rw [hon.2.2, ephemeralPort_toNat, Nat.add_comm]
  · have hzero : KeepsApart cfg .zero :=
      ⟨.zero cfg, fun x _ _ hx ↦ absurd hx.valid.2.2 (by simp [Tables.zero])⟩
    exact (h.invariant (I := fun t _ ↦ KeepsApart cfg t)
      (G := fun _ _ _ t _ ↦ KeepsApart cfg t) hzero
      (fun _ _ _ _ h _ ↦ h) fun c _ _ h hb ↦ h.prog hfit c hb).2

theorem ephemeral_ports_second :
    PicksInRange w5500 (Env.script tickingChip) 1 #v[192, 168, 0, 3] 80 oneOfTwoConnected.1
      oneOfTwoConnected.2 ∧
      (PicksUnique w5500 (Env.script tickingChip) 1 #v[192, 168, 0, 3] 80 oneOfTwoConnected.1
        oneOfTwoConnected.2 ↔
        ∀ e₁ now e₂,
        (Env.script tickingChip : Env Tables _ _).Drifts oneOfTwoConnected.2 e₁ →
          (Env.script tickingChip).answer .toeTimeUs oneOfTwoConnected.1 e₁ now e₂ →
          ∀ x, x ≠ 1 → toeFdValid w5500 oneOfTwoConnected.1 x →
          (oneOfTwoConnected.1.desc x).isUdp = false →
            now.toNat % 16368 + 0xC000 ≠ (oneOfTwoConnected.1.desc x).port.toNat) :=
  (ephemeral_ports w5500_fits).1 _ _ _ 1 _ 80 (by decide +kernel) (by decide +kernel)
    (by decide +kernel)

/-- The second socket, connected 16368 microseconds later to the same server, is given the port of
the first. -/
theorem not_ephemeral_unique : ¬∀ (t : Tables) (now : UInt32) (fd : ℤ) (ip : Ip4) (port : UInt16),
    AnyHistory w5500 (fun _ ↦ Env.script tickingChip) 1000 t now → toeFdReady w5500 t fd →
    (t.desc fd).isUdp = false →
    (t.desc fd).port = 0 → PicksUnique w5500 (Env.script tickingChip) fd ip port t now := by
  intro h
  have hunique := h _ _ 1 #v[192, 168, 0, 3] 80 oneOfTwoConnected_history (by decide +kernel)
    (by decide +kernel) (by decide +kernel)
  have hperf := performs_runWith (V := .script tickingChip) (h := tickingChip) (n := 6)
    (s := oneOfTwoConnected.1)
    (e := oneOfTwoConnected.2) (p := wiztoeConnect w5500 1 #v[192, 168, 0, 3] 80)
    (o := .socket 1 .tcp 0xC3E8 false) (.always fun _ _ _ ↦ ⟨rfl, rfl⟩) trivial
      (by decide +kernel)
  refine hunique _ _ _ _ _ _ hperf 0 (by decide) ?_
  exact ⟨by decide +kernel, by decide +kernel, by decide +kernel⟩

end WsmDriver
