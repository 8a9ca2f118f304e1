import WsmDriver.Toe.Alphabet
import WsmDriver.Toe.Hygiene
import WsmDriver.Toe.Holdings

/-!
# Socket options and hardware sockets

Some options are fields of the descriptor. Time to live, type of service and keep-alive are
registers of the hardware socket the descriptor holds, and stay there when the hardware socket
changes hands: nothing puts them back when it is given up, and nothing copies them when a listener
takes another one. What is in effect on a descriptor is what its own option calls say as long as a
hardware socket that is claimed has the registers its new holder would give it.
-/

namespace WsmDriver

open Effect

variable {cfg : ToeConfig} {E : Type} {U : Env Tables E ChipOp.Ans}
  {V : Call → Env Tables E ChipOp.Ans} {t t' : Tables} {e₀ e e' : E} {fd x sn : ℤ}

/-- The registers of a hardware socket that hold socket options. -/
structure OptRegs where
  ttl : UInt8
  tos : UInt8
  kpalvtr : UInt8
  deriving DecidableEq, Repr

/-- An option and the bytes of its value. -/
abbrev OptCall := WiztoeOpt × List UInt8

/-- The registers after an option call that reached them. -/
def OptRegs.set (r : OptRegs) : OptCall → OptRegs
  | (.keepalive, bytes) => { r with kpalvtr := if optInt bytes ≠ 0 then 12 else 0 }
  | (.keepidle, bytes) => { r with kpalvtr := .ofInt (min (max (optInt bytes) 5) (5 * 255) / 5) }
  | (.ttl, bytes) => { r with ttl := .ofInt (optInt bytes) }
  | (.tos, bytes) => { r with tos := .ofInt (optInt bytes) }
  | _ => r

/-- The values that a sequence of option calls puts in effect. -/
def settings (reset : OptRegs) (calls : List OptCall) : OptRegs := calls.foldl OptRegs.set reset

/-- `regs` reads the option registers off the chip: each of them is written by its own operation
only, and read back by its own. -/
structure Registers (U : Env Tables E ChipOp.Ans) (regs : E → ℤ → OptRegs) : Prop where
  drift : ∀ {e e'}, U.drift e e' → regs e' = regs e
  others : ∀ {o t e a e'}, o.sets = false → U.answer o t e a e' → regs e' = regs e
  setTtl : ∀ {sn v t e a e'}, U.answer (.setSnTtl sn v) t e a e' →
    regs e' = Function.update (regs e) sn { regs e sn with ttl := v }
  setTos : ∀ {sn v t e a e'}, U.answer (.setSnTos sn v) t e a e' →
    regs e' = Function.update (regs e) sn { regs e sn with tos := v }
  setKpalvtr : ∀ {sn v t e a e'}, U.answer (.setSnKpalvtr sn v) t e a e' →
    regs e' = Function.update (regs e) sn { regs e sn with kpalvtr := v }
  getTtl : ∀ {sn t e a e'}, U.answer (.getSnTtl sn) t e a e' → a = (regs e sn).ttl
  getTos : ∀ {sn t e a e'}, U.answer (.getSnTos sn) t e a e' → a = (regs e sn).tos

/-! ## The account -/

/-- The option calls accepted on each descriptor since it was created. -/
abbrev OptAccount := ℤ → List OptCall

/-- What a descriptor created by the call starts with: a connection has its listener's options. -/
def Call.inherits (a : OptAccount) : Call → List OptCall
  | .accept fd => a fd
  | _ => []

/-- What the call adds to the account of `x`. An option call is accepted if there is a value and the
descriptor holds a hardware socket. -/
def Call.sets? (cfg : ToeConfig) (t : Tables) (x : ℤ) : Call → List OptCall
  | .setsockopt fd opt (some bytes) => if x = fd ∧ toeFdReady cfg t fd ∧ bytes ≠ [] then
      [(opt, bytes)] else []
  | _ => []

/-- The account after the call. -/
def OptAccount.enter (cfg : ToeConfig) (c : Call) (t t' : Tables) (a : OptAccount) : OptAccount :=
  fun x ↦
  if (t.desc x).used = false ∧ (t'.desc x).used = true then c.inherits a else a x ++ c.sets? cfg t x

theorem OptAccount.enter_of_used (a : OptAccount) (c : Call) (hu : (t.desc x).used = true) :
    a.enter cfg c t t' x = a x ++ c.sets? cfg t x := by
  rw [OptAccount.enter, if_neg (by simp [hu])]

theorem Call.sets?_of_not_sets {c : Call} (hc : c.sets = false) : c.sets? cfg t x = [] := by
  cases c with
  | setsockopt => exact absurd hc (by simp [Call.sets])
  | _ => rfl

/-! ## What a call does to the registers -/

theorem Registers.drifts {regs : E → ℤ → OptRegs} (hU : Registers U regs) (hd : U.Drifts e e') :
    regs e' = regs e :=
  hd.induct (P := fun e' ↦ regs e' = regs e) (fun _ _ hd he ↦ (hU.drift hd).trans he) rfl

/-- The registers keep what no call but `setsockopt` writes. -/
theorem Registers.keeps {regs : E → ℤ → OptRegs} (hU : Registers U regs) {c : Call}
    (hc : c.sets = false) :
    wlp U (fun _ _ _ ↦ True) (c.prog cfg) (fun _ _ e' ↦ regs e' = regs e) t e := by
  have hasks : (c.prog cfg).Asks fun o ↦ o.sets = false :=
    c.asks (fun _ ↦ ChipOp.plain.not_sets) (fun _ _ _ _ _ ↦ rfl) (fun _ ↦ rfl) fun h ↦
      absurd h (by simp [hc])
  exact hasks.wlp_env (fun _ _ he hd ↦ (hU.drift hd).trans he)
    (fun _ _ _ _ _ ho he ha ↦ (hU.others ho ha).trans he) rfl

/-- An option call writes the registers of the hardware socket its descriptor holds, if it is
accepted. -/
theorem Registers.setsockopt {regs : E → ℤ → OptRegs} (hU : Registers U regs) (opt : WiztoeOpt)
    (val : Option (List UInt8)) :
    wlp U (fun _ _ _ ↦ True) (wiztoeSetsockopt cfg fd opt val) (fun _ _ e' ↦ ∀ s, regs e' s =
      if s = toeSn t fd then settings (regs e s) ((Call.setsockopt fd opt val).sets? cfg t fd) else
      regs e s) t e := by
  -- Either the registers are left alone and the option is none of theirs, or one of them is
  -- written.
  have hsame : ∀ {r : ℤ} {t' e₁}, regs e₁ = regs e →
      (∀ g : OptRegs, settings g ((Call.setsockopt fd opt val).sets? cfg t fd) = g) →
      wlp U (fun _ _ _ ↦ True) (pure r) (fun _ _ e' ↦ ∀ s, regs e' s = if s = toeSn t fd then
        settings (regs e s) ((Call.setsockopt fd opt val).sets? cfg t fd) else regs e s) t' e₁ := by
    intro r t' e₁ he hset e' hd s
    rw [hU.drifts hd, he, hset, ite_self]
  have hwrite : ∀ {o : ChipOp} {bytes : List UInt8}, val = some bytes → bytes ≠ [] →
      (∀ e₁ a e₂, U.answer o t e₁ a e₂ → regs e₂ =
        Function.update (regs e₁) (toeSn t fd) ((regs e₁ (toeSn t fd)).set (opt, bytes))) →
      wlp U (fun _ _ _ ↦ True) (if ¬toeFdReady cfg t fd then pure (-1) else chip o >>=
        fun _ ↦ pure 0 : Toe ℤ) (fun _ _ e' ↦ ∀ s, regs e' s = if s = toeSn t fd then
          settings (regs e s) ((Call.setsockopt fd opt val).sets? cfg t fd) else regs e s) t e := by
    rintro o bytes rfl hne ho
    refine pre_ite (fun hr ↦ hsame rfl fun g ↦ ?_) fun hr ↦ ?_
    · rw [Call.sets?, if_neg fun h ↦ hr h.2.1]
      rfl
    · have hsets : (Call.setsockopt fd opt (some bytes)).sets? cfg t fd = [(opt, bytes)] :=
        if_pos ⟨rfl, not_not.mp hr, hne⟩
      refine pre_perform_bind.mpr fun e₁ hd ↦ ⟨trivial, fun a e₂ ha e' hd' s ↦ ?_⟩
      rw [hU.drifts hd', ho e₁ a e₂ ha, hU.drifts hd, Function.update_apply, hsets]
      split
      · rename_i hs
        rw [hs]
        rfl
      · rfl
  unfold wiztoeSetsockopt
  refine pre_get_bind.mpr ?_
  cases val with
  | none => exact hsame rfl fun _ ↦ rfl
  | some bytes =>
    have hrefused : ¬(toeFdReady cfg t fd ∧ bytes ≠ []) →
        ∀ g : OptRegs, settings g ((Call.setsockopt fd opt (some bytes)).sets? cfg t fd) = g := by
      intro hc g
      rw [Call.sets?, if_neg fun h ↦ hc h.2]
      rfl
    -- The options that are fields of the descriptor, and those that are none at all.
    have hfield : (∀ g : OptRegs, g.set (opt, bytes) = g) →
        ∀ g : OptRegs, settings g ((Call.setsockopt fd opt (some bytes)).sets? cfg t fd) = g := by
      intro hset g
      rw [Call.sets?]
      split
      · exact hset g
      · rfl
    refine pre_ite (fun hc ↦ hsame rfl (hrefused fun h ↦ ?_)) fun hc ↦ ?_
    · rcases hc with hc | hc
      · exact hc h.1.1
      · exact h.2 (List.length_eq_zero_iff.mp hc)
    have hne : bytes ≠ [] := by
      rintro rfl
      exact hc (.inr rfl)
    cases opt with
    | nodelay => exact pre_modify_bind.mpr (hsame rfl (hfield fun _ ↦ rfl))
    | rcvtimeoMs =>
      exact pre_ite (fun _ ↦ hsame rfl (hfield fun _ ↦ rfl)) fun _ ↦
        pre_modify_bind.mpr (hsame rfl (hfield fun _ ↦ rfl))
    | sndtimeoMs =>
      exact pre_ite (fun _ ↦ hsame rfl (hfield fun _ ↦ rfl)) fun _ ↦
        pre_modify_bind.mpr (hsame rfl (hfield fun _ ↦ rfl))
    | keepalive => exact hwrite rfl hne fun _ _ _ ha ↦ hU.setKpalvtr ha
    | keepidle => exact hwrite rfl hne fun _ _ _ ha ↦ hU.setKpalvtr ha
    | ttl => exact hwrite rfl hne fun _ _ _ ha ↦ hU.setTtl ha
    | tos => exact hwrite rfl hne fun _ _ _ ha ↦ hU.setTos ha
    | rcvbuf => exact hsame rfl (hfield fun _ ↦ rfl)
    | sndbuf => exact hsame rfl (hfield fun _ ↦ rfl)
    | error => exact hsame rfl (hfield fun _ ↦ rfl)
    | type => exact hsame rfl (hfield fun _ ↦ rfl)

/-! ## In effect -/

/-- What an account makes of the registers a descriptor should have. -/
structure InEffect (cfg : ToeConfig) (regs : E → ℤ → OptRegs) (reset : OptRegs) (t : Tables)
    (e : E) (a : OptAccount) : Prop where
  owned : WellOwned cfg t
  regs : ∀ x sn, Holds cfg t x sn → regs e sn = settings reset (a x)

/-- The account of the one for whom the call claims a hardware socket. -/
def Call.claimant (a : OptAccount) (x : ℤ) : Call → List OptCall
  | .socket .. => []
  | .accept fd => a fd
  | _ => a x

/-- Every hardware socket the call may claim for a descriptor has the registers that descriptor
should have, and none is released under its descriptor. -/
def Call.KeepsOptions (cfg : ToeConfig) (regs : E → ℤ → OptRegs) (reset : OptRegs) (c : Call)
    (t : Tables) (e : E) (a : OptAccount) : Prop :=
  c.ReleasesUnheld cfg t ∧ ∀ x sn, c.Claims cfg t x sn → regs e sn =
    settings reset (c.claimant a x)

/-- Runs in which every claimed hardware socket has the right registers, with the account kept of
them. -/
abbrev OptHistory (cfg : ToeConfig) (V : Call → Env Tables E ChipOp.Ans)
    (regs : E → ℤ → OptRegs) (reset : OptRegs) (e₀ : E) :
    Tables → E → OptAccount → Prop :=
  Accounted V (fun c t e a ↦ c.KeepsOptions cfg regs reset t e a) (Call.prog cfg)
    (fun c t t' a ↦ a.enter cfg c t t') .zero e₀ fun _ ↦ []

/-- A hardware socket is claimed for a descriptor whose account is the claimant's afterwards. -/
theorem Call.Claims.enter {c : Call} {a : OptAccount} (h : c.Claims cfg t x sn)
    (hh : Holds cfg t' x sn) : a.enter cfg c t t' x = c.claimant a x := by
  have hu' := hh.1.1.2.2
  -- Only `setsockopt` adds to an account, and it claims nothing.
  have hkept : (t.desc x).used = true → c.sets? cfg t x = [] → a.enter cfg c t t' x = a x := by
    intro hu hs
    rw [a.enter_of_used c hu, hs, List.append_nil]
  have hnew : (t.desc x).used = false → a.enter cfg c t t' x = c.inherits a := by
    intro hu
    rw [OptAccount.enter, if_pos ⟨hu, hu'⟩]
  cases c with
  | socket domain type protocol => exact hnew ((toeTablesInit_used cfg t x).symm.trans h.2.1.2.2)
  | accept fd =>
    rcases h.2.1 with rfl | hx
    · exact hkept h.1.1.2.2 rfl
    · exact hnew hx.2.2
  | close fd =>
    refine hkept ?_ rfl
    have hu := h.2.1.1
    have hne : x ≠ fd := by
      rintro rfl
      exact absurd hu (by simp [Tables.closed, toeDescClear])
    rwa [closed_desc_ne hne] at hu
  | socketRelease s =>
    refine hkept ?_ rfl
    have hu := h.2.1.1
    rwa [toeSnRelease_desc] at hu
  | _ => exact h.elim

namespace InEffect

variable {regs : E → ℤ → OptRegs} {reset : OptRegs} {a : OptAccount}

/-- The registers a descriptor should have after a call that does not write them. -/
theorem after {c : Call} (h : InEffect cfg regs reset t e a) (hc : c.sets = false)
    (hk : c.KeepsOptions cfg regs reset t e a) (hw : WellOwned cfg t') (he : regs e' = regs e)
    (hm : ∀ x sn, Holds cfg t' x sn → c.MayHold cfg t x sn) :
    InEffect cfg regs reset t' e' (a.enter cfg c t t') := by
  refine ⟨hw, fun x sn hh ↦ ?_⟩
  rw [he]
  have hkept : (t.desc x).used = true → a.enter cfg c t t' x = a x := fun hu ↦ by
    rw [a.enter_of_used c hu, Call.sets?_of_not_sets hc, List.append_nil]
  cases hm x sn hh with
  | kept hx => rw [h.regs x sn hx, hkept hx.1.1.2.2]
  | @handed fd heq hx hfd =>
    subst heq
    rw [h.regs fd sn hfd]
    rcases hx with rfl | hx
    · rw [hkept hfd.1.1.2.2]
    · rw [OptAccount.enter, if_pos ⟨hx.2.2, hh.1.1.2.2⟩]
      rfl
  | claimed hclaim => rw [hk.2 x sn hclaim, hclaim.enter hh]

/-- An option call writes into the registers what it adds to the account. -/
theorem after_setsockopt {opt : WiztoeOpt} {val : Option (List UInt8)} (hfit : cfg.Fits)
    (h : InEffect cfg regs reset t e a) (hw : WellOwned cfg t')
    (he : ∀ s, regs e' s = if s = toeSn t fd then
      settings (regs e s) ((Call.setsockopt fd opt val).sets? cfg t fd) else regs e s)
    (hm : ∀ x sn, Holds cfg t' x sn → (Call.setsockopt fd opt val).MayHold cfg t x sn) :
    InEffect cfg regs reset t' e' (a.enter cfg (.setsockopt fd opt val) t t') := by
  refine ⟨hw, fun x sn hh ↦ ?_⟩
  cases hm x sn hh with
  | handed heq => exact absurd heq (by simp)
  | claimed hclaim => exact hclaim.elim
  | kept hx =>
    rw [a.enter_of_used _ hx.1.1.2.2, he]
    by_cases hfd : x = fd
    · subst hfd
      rw [if_pos (by rw [h.owned.toeSn_eq hfit hx.1, hx.2]), h.regs x sn hx, settings, settings,
        ← List.foldl_append]
      rfl
    · have hnone : (Call.setsockopt fd opt val).sets? cfg t x = [] := by
        cases val with
        | none => rfl
        | some bytes => exact if_neg fun hc ↦ hfd hc.1
      rw [hnone, List.append_nil]
      by_cases hs : sn = toeSn t fd
      · -- Then `fd` holds no hardware socket, and nothing was written.
        have hnready : ¬toeFdReady cfg t fd := fun hr ↦
          hfd (hx.eq ⟨hr, (h.owned.toeSn_eq hfit hr).symm.trans hs.symm⟩ h.owned)
        have hrefused : (Call.setsockopt fd opt val).sets? cfg t fd = [] := by
          cases val with
          | none => rfl
          | some bytes => exact if_neg fun hc ↦ hnready hc.2.1
        rw [if_pos hs, hrefused]
        exact h.regs x sn hx
      · rw [if_neg hs]
        exact h.regs x sn hx

/-- Every call that claims hardware sockets with the right registers keeps the options in effect. -/
theorem call {c : Call} (hfit : cfg.Fits) (hU : Registers U regs)
    (h : InEffect cfg regs reset t e a) (hk : c.KeepsOptions cfg regs reset t e a)
    (hr : Returns U (c.prog cfg) t e () t' e') :
    InEffect cfg regs reset t' e' (a.enter cfg c t t') := by
  have hrel : ∀ s, c = .socketRelease s → WellOwned cfg (toeSnRelease cfg s t) := by
    intro s heq
    by_cases hs : 0 ≤ s ∧ s < cfg.maxSock
    · rw [toeSnRelease_of_mem hs.1 hs.2]
      exact h.owned.release_unheld hk.1 heq hs
    · rw [toeSnRelease, if_neg hs]
      exact h.owned
  obtain ⟨hw, hm⟩ := (c.holds_after (U := U) (e := e) hfit h.owned hrel).returns hr
  by_cases hc : c.sets = true
  · cases c with
    | setsockopt fd opt val =>
      have hset : wlp U (fun _ _ _ ↦ True) ((Call.setsockopt fd opt val).prog cfg)
          (fun _ _ e' ↦ ∀ s, regs e' s =
          if s = toeSn t fd then settings (regs e s) ((Call.setsockopt fd opt val).sets? cfg t fd)
            else regs e s) t e :=
        pre_discard ((hU.setsockopt opt val).imp fun _ _ _ hs _ hd s ↦ by rw [hU.drifts hd, hs s])
      exact h.after_setsockopt hfit hw (hset.returns hr) hm
    | _ => exact absurd hc (by simp [Call.sets])
  · have hc : c.sets = false := Bool.eq_false_of_not_eq_true hc
    exact h.after hc hk hw ((hU.keeps hc).returns hr) hm

theorem history (hfit : cfg.Fits) (hV : ∀ c, Registers (V c) regs)
    (h : OptHistory cfg V regs reset e₀ t e a) : InEffect cfg regs reset t e a := by
  refine h.invariant (I := fun t e a ↦ InEffect cfg regs reset t e a)
    ⟨.zero cfg, fun x sn hh ↦ absurd hh.1.1.2.2 (by simp [Tables.zero])⟩ ?_ ?_
  · exact fun c t e e' a h hd ↦
      ⟨h.owned, fun x sn hh ↦ ((hV c).drift hd).symm ▸ h.regs x sn hh⟩
  · exact fun c t e a t' e' h hk hr ↦ h.call hfit (hV c) hk hr

end InEffect

/-- `wiztoe_getsockopt` of an option that is a register reads it off the chip. -/
theorem wiztoeGetsockopt_reads {regs : E → ℤ → OptRegs} (hU : Registers U regs) {len : ℕ}
    (hr : toeFdReady cfg t fd) (hlen : 4 ≤ len) :
    wlp U (fun _ _ _ ↦ True) (wiztoeGetsockopt cfg fd .ttl (some len))
        (fun r _ _ ↦ r = (0, ((regs e (toeSn t fd)).ttl.toNat : ℤ))) t e ∧
      wlp U (fun _ _ _ ↦ True) (wiztoeGetsockopt cfg fd .tos (some len))
        (fun r _ _ ↦ r = (0, ((regs e (toeSn t fd)).tos.toNat : ℤ))) t e := by
  have hc : ¬(¬toeFdValid cfg t fd ∨ len < 4) := by
    rintro (hv | hl)
    · exact hv hr.1
    · omega
  unfold wiztoeGetsockopt
  constructor
  · refine pre_get_bind.mpr ?_
    dsimp only
    rw [if_neg hc, if_neg (not_not.mpr hr)]
    refine pre_perform_bind.mpr fun e₁ hd ↦ ⟨trivial, fun v e₂ ha _ _ ↦ ?_⟩
    rw [hU.getTtl ha, hU.drifts hd]
  · refine pre_get_bind.mpr ?_
    dsimp only
    rw [if_neg hc, if_neg (not_not.mpr hr)]
    refine pre_perform_bind.mpr fun e₁ hd ↦ ⟨trivial, fun v e₂ ha _ _ ↦ ?_⟩
    rw [hU.getTos ha, hU.drifts hd]

/-- **Socket options belong to the descriptor.** In a run in which every hardware socket that is
claimed has the registers its new holder should have, the registers of the hardware socket a
descriptor holds are given by the option calls accepted on that descriptor since it was created, and
`wiztoe_getsockopt` returns them. -/
theorem options_in_effect {regs : E → ℤ → OptRegs} {reset : OptRegs} {a : OptAccount}
    (hfit : cfg.Fits) (hV : ∀ c, Registers (V c) regs) (h : OptHistory cfg V regs reset e₀ t e a)
    (hr : toeFdReady cfg t fd) : regs e (toeSn t fd) = settings reset (a fd) ∧
    (∀ len r t' e', 4 ≤ len → Returns (V (.getsockopt fd .ttl (some len)))
      (wiztoeGetsockopt cfg fd .ttl (some len)) t e r t' e' → r =
      (0, ((settings reset (a fd)).ttl.toNat : ℤ))) ∧
    (∀ len r t' e', 4 ≤ len → Returns (V (.getsockopt fd .tos (some len)))
      (wiztoeGetsockopt cfg fd .tos (some len)) t e r t' e' → r =
      (0, ((settings reset (a fd)).tos.toNat : ℤ))) := by
  have hI := InEffect.history hfit hV h
  have hregs : regs e (toeSn t fd) = settings reset (a fd) :=
    hI.regs fd _ ⟨hr, (hI.owned.toeSn_eq hfit hr).symm⟩
  refine ⟨hregs, fun len r t' e' hlen hrun ↦ ?_, fun len r t' e' hlen hrun ↦ ?_⟩
  · rw [← hregs]
    exact (wiztoeGetsockopt_reads (hV _) hr hlen).1.returns hrun
  · rw [← hregs]
    exact (wiztoeGetsockopt_reads (hV _) hr hlen).2.returns hrun

/-! ## A chip with option registers -/

/-- A chip that keeps the option registers and has nothing else to say. -/
def optChip : (o : ChipOp) → (ℤ → OptRegs) → o.Ans × (ℤ → OptRegs)
  | .setSnTtl sn v, e => ((), Function.update e sn { e sn with ttl := v })
  | .setSnTos sn v, e => ((), Function.update e sn { e sn with tos := v })
  | .setSnKpalvtr sn v, e => ((), Function.update e sn { e sn with kpalvtr := v })
  | .getSnTtl sn, e => ((e sn).ttl, e)
  | .getSnTos sn, e => ((e sn).tos, e)
  | o, e => ((placidChip .closed o ()).1, e)

theorem optChip_registers : Registers (Env.script optChip) id where
  drift hd := hd.elim
  others {o} _ _ _ _ ho ha := by
    rw [ha.2]
    cases o with
    | setSnTtl => exact absurd ho (by simp [ChipOp.sets])
    | setSnTos => exact absurd ho (by simp [ChipOp.sets])
    | setSnKpalvtr => exact absurd ho (by simp [ChipOp.sets])
    | _ => rfl
  setTtl ha := ha.2
  setTos ha := ha.2
  setKpalvtr ha := ha.2
  getTtl ha := ha.1
  getTos ha := ha.1

/-- The registers after a reset. -/
def resetRegs : OptRegs := ⟨128, 0, 0⟩

/-- The tables, the registers and the account. -/
structure OptState where
  tables : Tables
  regs : ℤ → OptRegs
  account : OptAccount

namespace OptState

/-- Nothing has been called yet. -/
def start : OptState := ⟨.zero, fun _ ↦ resetRegs, fun _ ↦ []⟩

/-- The state after the call `c`. -/
def after (c : Call) (s : OptState) : OptState :=
  let end_ := runWith optChip 40 ⟨c.prog w5500, s.tables, s.regs⟩
  ⟨end_.store, end_.env, s.account.enter w5500 c s.tables end_.store⟩

/-- A TCP socket. -/
def created : OptState := start.after (.socket 2 1 0)

/-- Its time to live is set to 5. -/
def limited : OptState := created.after (.setsockopt 0 .ttl (some [5]))

/-- It is closed and another one is created. -/
def reused : OptState := (limited.after (.close 0)).after (.socket 2 1 0)

/-- Runs on this chip with the calls that `K` allows. -/
abbrev Run (K : Call → Tables → (ℤ → OptRegs) → OptAccount → Prop) (s : OptState) : Prop :=
  Accounted (fun _ ↦ Env.script optChip) K (Call.prog w5500)
    (fun c t t' a ↦ a.enter w5500 c t t') .zero start.regs (fun _ ↦ []) s.tables s.regs s.account

theorem Run.after {K : Call → Tables → (ℤ → OptRegs) → OptAccount → Prop} {s : OptState}
    (h : Run K s) (c : Call) (ha : K c s.tables s.regs s.account)
    (hn : (runWith optChip 40 ⟨c.prog w5500, s.tables, s.regs⟩).prog.result? = some ()) :
    Run K (s.after c) := by
  have hr :=
    returns_runWith (V := Env.script optChip) (.always fun _ _ _ ↦ ⟨rfl, rfl⟩) trivial hn
  simpa only [Run, OptState.after] using Accounted.call c h ha hr

/-- The claimed hardware sockets have the registers of their new holders. -/
abbrev Right (c : Call) (t : Tables) (e : ℤ → OptRegs) (a : OptAccount) : Prop :=
  c.KeepsOptions w5500 id resetRegs t e a

theorem limited_run : Run Right limited := by
  have hsocket : Right (.socket 2 1 0) start.tables start.regs start.account :=
    ⟨fun _ h ↦ (by cases h), fun _ _ _ ↦ rfl⟩
  have hset : Right (.setsockopt 0 .ttl (some [5])) created.tables created.regs created.account :=
    ⟨fun _ h ↦ (by cases h), fun _ _ h ↦ h.elim⟩
  have hcreated : Run Right created := Run.after (s := start) .start _ hsocket (by decide)
  exact hcreated.after _ hset (by decide)

end OptState

open OptState in
theorem options_in_effect_limited : limited.regs 0 = settings resetRegs (limited.account 0) := by
  have hr : toeFdReady w5500 limited.tables 0 := by decide
  exact (options_in_effect w5500_fits (fun _ ↦ optChip_registers) limited_run hr).1

open OptState in
/-- A new descriptor has the time to live that was set on the one closed before it: what is in
effect is no function of the option calls made on the descriptor. -/
theorem not_options_in_effect :
    ¬∃ f : List OptCall → OptRegs, ∀ s, Run (fun _ _ _ _ ↦ True) s →
      ∀ fd, toeFdReady w5500 s.tables fd → s.regs (toeSn s.tables fd) = f (s.account fd) := by
  rintro ⟨f, hf⟩
  have hcreated : Run (fun _ _ _ _ ↦ True) created :=
    Run.after (s := start) .start (.socket 2 1 0) trivial (by decide)
  have hlimited : Run (fun _ _ _ _ ↦ True) limited := hcreated.after _ trivial (by decide)
  have hreused : Run (fun _ _ _ _ ↦ True) reused :=
    (hlimited.after (.close 0) trivial (by decide)).after _ trivial (by decide)
  have h₀ : created.regs (toeSn created.tables 0) = f (created.account 0) :=
    hf _ hcreated 0 (by decide)
  have h₁ : reused.regs (toeSn reused.tables 0) = f (reused.account 0) :=
    hf _ hreused 0 (by decide)
  have ha : created.account 0 = reused.account 0 := by decide
  rw [ha, ← h₁] at h₀
  exact absurd h₀ (by decide +kernel)

end WsmDriver
