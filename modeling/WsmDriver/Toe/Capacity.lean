import WsmDriver.Toe.Ownership
import Mathlib.Data.Fintype.EquivFin

/-!
# One descriptor for each hardware socket is enough

Where the two tables have the same size and no hardware socket is ever reserved, every socket that
is not free is held by a live descriptor, and by a different one for each socket. So a descriptor
that holds none, be it unused or a listener that has just handed its socket over, leaves a free
socket over.

The argument does not need the full agreement of the tables: a descriptor may still name a socket
that was released under it, so `wiztoe_socket_release` may be applied to any number at all.
-/

namespace WsmDriver

open Effect

variable {cfg : ToeConfig} {t t' : Tables} {fd sn c : ℤ}

/-- A hardware socket that is not free is held by a live descriptor that names it. -/
structure Backed (cfg : ToeConfig) (t : Tables) : Prop where
  owner : ∀ {sn}, cfg.IsSock sn → t.owner sn ≠ toeSnFree →
    cfg.IsDesc (t.owner sn) ∧ (t.desc (t.owner sn)).used = true ∧ (t.desc (t.owner sn)).sn = sn
  desc : ∀ {fd}, cfg.IsDesc fd → (t.desc fd).WellFormed cfg

namespace Backed

/-! ## Counting -/

/-- **The count.** A descriptor that owns nothing leaves a hardware socket free: otherwise the
owners would be a permutation of the descriptors that misses one. -/
theorem exists_free (hN : cfg.maxDesc = cfg.maxSock) (h : Backed cfg t) (hd : cfg.IsDesc fd)
    (hno : ∀ sn, cfg.IsSock sn → t.owner sn ≠ fd) : ∃ sn, IsFree cfg t sn := by
  by_contra hfree
  push Not at hfree
  have hsock : ∀ i : Fin cfg.maxSock, cfg.IsSock (i : ℕ) := fun i ↦ ⟨by omega, by omega⟩
  have hown : ∀ i : Fin cfg.maxSock, cfg.IsDesc (t.owner (i : ℕ)) ∧
      (t.desc (t.owner (i : ℕ))).sn = (i : ℕ) := by
    intro i
    have hi := h.owner (hsock i) fun hf ↦ hfree _ ⟨(hsock i).1, (hsock i).2, hf⟩
    exact ⟨hi.1, hi.2.2⟩
  -- A map of a finite set to itself that is injective meets every element, `fd` among them.
  let f : Fin cfg.maxSock → Fin cfg.maxSock := fun i ↦
    ⟨(t.owner (i : ℕ)).toNat, by have := (hown i).1.1; have := (hown i).1.2; omega⟩
  have hf : ∀ i, ((f i : ℕ) : ℤ) = t.owner (i : ℕ) :=
    fun i ↦ Int.toNat_of_nonneg (hown i).1.1
  have hinj : Function.Injective f := by
    intro i j hij
    have heq : t.owner (i : ℕ) = t.owner (j : ℕ) := by rw [← hf, ← hf, hij]
    have hsn := (hown i).2
    rw [heq, (hown j).2] at hsn
    exact Fin.ext (by omega)
  obtain ⟨i, hi⟩ := Finite.injective_iff_surjective.mp hinj
    ⟨fd.toNat, by have := hd.1; have := hd.2; omega⟩
  refine hno _ (hsock i) ?_
  rw [← hf, hi]
  exact Int.toNat_of_nonneg hd.1

theorem owner_ne (h : Backed cfg t) (hn : (t.desc fd).sn < 0) (hfd : 0 ≤ fd) (hs : cfg.IsSock sn) :
    t.owner sn ≠ fd := by
  intro heq
  have hs₀ := hs.1
  have howner := (h.owner hs (by rw [heq, toeSnFree]; omega)).2.2
  rw [heq] at howner
  omega

/-- An unused descriptor leaves a hardware socket free. -/
theorem exists_free_of_unused (hN : cfg.maxDesc = cfg.maxSock) (h : Backed cfg t)
    (hc : IsUnused cfg t c) : ∃ sn, IsFree cfg t sn := by
  refine h.exists_free hN hc.isDesc fun sn hs ↦ h.owner_ne ?_ hc.1 hs
  have := (h.desc hc.isDesc).unused hc.2.2
  omega

/-! ## The moves -/

theorem upd_role (h : Backed cfg t) {f : Desc → Desc} (hu : (f (t.desc fd)).used = (t.desc fd).used)
    (hs : (f (t.desc fd)).sn = (t.desc fd).sn) (hf : (f (t.desc fd)).WellFormed cfg) :
    Backed cfg (t.upd fd f) where
  owner {y} hy ho := by
    have hown := h.owner hy ho
    rw [Tables.upd_owner, Tables.upd_desc]
    split
    · rename_i heq
      rw [heq] at hown ⊢
      exact ⟨hown.1, hu.trans hown.2.1, hs.trans hown.2.2⟩
    · exact hown
  desc {x} hx := by
    rw [Tables.upd_desc]
    split
    · exact hf
    · exact h.desc hx

theorem assign (h : Backed cfg t) {d : Desc} (hd : cfg.IsDesc fd) (hn : (t.desc fd).sn < 0)
    (hu : d.used = true) (hdsn : d.sn = sn) (hf : d.WellFormed cfg) :
    Backed cfg ((t.setOwner sn fd).upd fd fun _ ↦ d) where
  owner {y} hy ho := by
    rw [Tables.upd_owner, Tables.setOwner_owner] at ho ⊢
    by_cases heq : y = sn
    · subst heq
      simp [hd, hu, hdsn]
    · rw [if_neg heq] at ho ⊢
      have hne : t.owner y ≠ fd := h.owner_ne hn hd.1 hy
      rw [Tables.upd_desc_ne _ _ hne]
      exact h.owner hy ho
  desc {x} hx := by
    rw [Tables.upd_desc]
    split
    · exact hf
    · exact h.desc hx

theorem unassign (h : Backed cfg t) {f : Desc → Desc} (hf : (f (t.desc fd)).WellFormed cfg) :
    Backed cfg ((t.setOwner (t.desc fd).sn toeSnFree).upd fd f) where
  owner {y} hy ho := by
    rw [Tables.upd_owner, Tables.setOwner_owner] at ho ⊢
    by_cases heq : y = (t.desc fd).sn
    · exact absurd (if_pos heq) ho
    · rw [if_neg heq] at ho ⊢
      have hown := h.owner hy ho
      have hne : t.owner y ≠ fd := by
        intro hfd
        rw [hfd] at hown
        exact heq hown.2.2.symm
      rw [Tables.upd_desc_ne _ _ hne]
      exact hown
  desc {x} hx := by
    rw [Tables.upd_desc]
    split
    · exact hf
    · exact h.desc hx

theorem clear (h : Backed cfg t) (hfd : 0 ≤ fd) (hn : (t.desc fd).sn < 0) :
    Backed cfg (toeDescClear fd t) where
  owner {y} hy ho := by
    have hne : t.owner y ≠ fd := h.owner_ne hn hfd hy
    rw [toeDescClear, Tables.upd_owner, Tables.upd_desc_ne _ _ hne]
    exact h.owner hy ho
  desc {x} hx := by
    rw [toeDescClear, Tables.upd_desc]
    split
    · exact ⟨fun _ ↦ rfl, le_rfl, by dsimp only; omega, by simp, by simp⟩
    · exact h.desc hx

theorem release (h : Backed cfg t) : Backed cfg (toeSnRelease cfg sn t) := by
  rw [toeSnRelease]
  split
  · refine ⟨fun {y} hy ho ↦ ?_, h.desc⟩
    rw [Tables.setOwner_owner] at ho ⊢
    by_cases heq : y = sn
    · exact absurd (if_pos heq) ho
    · rw [if_neg heq] at ho ⊢
      exact h.owner hy ho
  · exact h

theorem disarm (h : Backed cfg t) (hr : toeFdReady cfg t fd) :
    Backed cfg (toeListenerDisarm cfg fd t) := by
  have hw := h.desc hr.1.isDesc
  rw [toeListenerDisarm, if_pos hr.2, toeSnRelease_of_mem hr.2 hw.sn_lt]
  exact h.unassign ⟨fun _ ↦ rfl, le_rfl, by dsimp only; omega, by simp, hw.listening⟩

theorem close (h : Backed cfg t) (hv : toeFdValid cfg t fd) : Backed cfg (t.closed cfg fd) := by
  have hw := h.desc hv.isDesc
  rw [Tables.closed]
  split
  · rename_i hn
    rw [toeSnRelease_of_mem hn hw.sn_lt, toeDescClear]
    exact h.unassign ⟨fun _ ↦ rfl, le_rfl, by dsimp only; omega, by simp, by simp⟩
  · exact h.clear hv.1 (by omega)

theorem handover (h : Backed cfg t) (hr : toeFdReady cfg t fd) (hc : IsUnused cfg t c) :
    Backed cfg (t.handover fd c) := by
  have hw := h.desc hr.1.isDesc
  have hne := hr.ne_unused hc
  have hlet := h.unassign (f := fun d ↦ { d with sn := -1, opened := false })
    ⟨fun _ ↦ rfl, le_rfl, by dsimp only; omega, by simp, hw.listening⟩
  have hcn : (t.desc c).sn = -1 := (h.desc hc.isDesc).unused hc.2.2
  rw [Tables.handover_eq hne]
  refine hlet.assign hc.isDesc ?_ ?_ ?_ (hw.handover hr hne)
  · rw [Tables.upd_desc_ne _ _ hne]
    simp [hcn]
  · simp [Tables.handover, Tables.upd_desc_ne _ _ hne]
  · simp [Tables.handover, Tables.upd_desc_ne _ _ hne]

/-- A listener that has handed its hardware socket over finds a free one. -/
theorem exists_free_of_handover (hN : cfg.maxDesc = cfg.maxSock) (h : Backed cfg t)
    (hr : toeFdReady cfg t fd) (hc : IsUnused cfg t c) :
    ∃ sn, IsFree cfg (t.handover fd c) sn := by
  refine (h.handover hr hc).exists_free hN hr.1.isDesc fun sn hs ↦ ?_
  exact (h.handover hr hc).owner_ne (by simp [Tables.handover]) hr.1.1 hs

theorem move (h : Backed cfg t) (hi : t.tablesInit = true) {k : Kind} (hk : k ≠ .reserve)
    (hm : Move cfg k t t') : Backed cfg t' := by
  cases hm with
  | init => rwa [toeTablesInit_of_init hi]
  | @tune _ fd f hv hf => exact h.upd_role hf.used hf.sn ((h.desc hv.isDesc).sameRole hf)
  | @listening _ fd b hr htcp =>
    have hw := h.desc hr.1.isDesc
    exact h.upd_role rfl rfl ⟨hw.unused, hw.sn_ge, hw.sn_lt, hw.opened, fun _ ↦ htcp⟩
  | @socket _ c sn udp _ hc hs =>
    have hcn : (t.desc c).sn = -1 := (h.desc hc.isDesc).unused hc.2.2
    have hs₀ := hs.1
    exact h.assign hc.isDesc (by omega) rfl rfl
      ⟨by simp, by dsimp only; omega, hs.2.1, fun _ ↦ hs₀, by simp⟩
  | @scrub _ c _ hc =>
    have hcn : (t.desc c).sn = -1 := (h.desc hc.isDesc).unused hc.2.2
    exact h.clear hc.1 (by omega)
  | reserve => exact absurd rfl hk
  | @release _ sn h₀ h₁ _ =>
    have hrel : Backed cfg (toeSnRelease cfg sn t) := h.release
    rwa [toeSnRelease_of_mem h₀ h₁] at hrel
  | @arm _ fd sn hv hl hn hs =>
    have hw := h.desc hv.isDesc
    have hs₀ := hs.1
    exact h.assign (d := { t.desc fd with sn := sn }) hv.isDesc hn hv.2.2 rfl
      ⟨by simp [hv.2.2], by dsimp only; omega, hs.2.1, fun _ ↦ hs₀, hw.listening⟩
  | @opened _ fd b hr =>
    have hw := h.desc hr.1.isDesc
    exact h.upd_role rfl rfl ⟨hw.unused, hw.sn_ge, hw.sn_lt, fun _ ↦ hr.2, hw.listening⟩
  | disarm hr _ => exact h.disarm hr
  | handover hr _ hc => exact h.handover hr hc
  | close hv => exact h.close hv

end Backed

/-- The tables at any time. -/
def Covered (cfg : ToeConfig) (t : Tables) : Prop :=
  Untouched cfg t ∨ (t.tablesInit = true ∧ Backed cfg t)

theorem Untouched.backed (h : Untouched cfg t) : Backed cfg (toeTablesInit cfg t) :=
  ⟨fun hs ho ↦ absurd (toeTablesInit_owner h.1 hs.1 hs.2) ho, h.init.desc⟩

namespace Covered

theorem zero (cfg : ToeConfig) : Covered cfg .zero := .inl ⟨rfl, fun _ _ ↦ rfl⟩

theorem of_valid (h : Covered cfg t) (hv : toeFdValid cfg t fd) :
    t.tablesInit = true ∧ Backed cfg t := by
  rcases h with h | h
  · exact absurd hv h.not_valid
  · exact h

/-- The tables after the first touch. -/
theorem init (h : Covered cfg t) : Backed cfg (toeTablesInit cfg t) := by
  rcases h with hu | h
  · exact hu.backed
  · rw [toeTablesInit_of_init h.1]
    exact h.2

theorem move (h : Covered cfg t) {k : Kind} (hk : k ≠ .reserve) (hm : Move cfg k t t') :
    Covered cfg t' := by
  rcases h with hu | h
  · cases hm with
    | init => exact .inr ⟨toeTablesInit_tablesInit cfg t, hu.backed⟩
    | tune hv => exact absurd hv hu.not_valid
    | listening _ hr => exact absurd hr.1 hu.not_valid
    | socket _ hi => exact absurd hi (by simp [hu.1])
    | scrub hi => exact absurd hi (by simp [hu.1])
    | reserve hi => exact absurd hi (by simp [hu.1])
    | release => exact .inl hu
    | arm hv => exact absurd hv hu.not_valid
    | opened _ hr => exact absurd hr.1 hu.not_valid
    | disarm hr => exact absurd hr.1 hu.not_valid
    | handover hr => exact absurd hr.1 hu.not_valid
    | close hv => exact absurd hv hu.not_valid
  · exact .inr ⟨hm.tablesInit h.1, h.2.move h.1 hk hm⟩

theorem release (h : Covered cfg t) : Covered cfg (toeSnRelease cfg sn t) := by
  rcases h with hu | h
  · exact .inl ⟨by rw [toeSnRelease_tablesInit, hu.1], by rw [toeSnRelease_desc]; exact hu.2⟩
  · exact .inr ⟨by rw [toeSnRelease_tablesInit, h.1], h.2.release⟩

theorem tablesInv (cfg : ToeConfig) : TablesInv cfg (Covered cfg) where
  range h hv := ((h.of_valid hv).2.desc hv.isDesc).sn_lt
  idle {t fd} h hv hn := by
    have hw := (h.of_valid hv).2.desc hv.isDesc
    cases ho : (t.desc fd).opened with
    | false => rfl
    | true => exact absurd (hw.opened ho) (by omega)
  move hk _ h hm := h.move hk hm

/-! ## Over whole histories -/

variable {E : Type} {U : Env Tables E ChipOp.Ans} {e : E}

theorem maintains (U : Env Tables E ChipOp.Ans) {c : Call} (hc : c ≠ .socketReserve) :
    Maintains cfg U (fun t _ ↦ Covered cfg t) (fun _ t _ ↦ Covered cfg t) (fun _ ↦ True) c t :=
  (tablesInv cfg).maintains (fun heq ↦ absurd heq hc) fun _ _ _ h ↦ h.release

end Covered

/-- Histories in which `wiztoe_socket_reserve` is never used. -/
abbrev UnreservedHistory (cfg : ToeConfig) {E : Type} (V : Call → Env Tables E ChipOp.Ans) :
    E → Tables → E → Prop :=
  History V (fun c _ _ ↦ c ≠ .socketReserve) (Call.prog cfg) .zero

variable {E : Type} {U : Env Tables E ChipOp.Ans} {V : Call → Env Tables E ChipOp.Ans}
    {e₀ e e' : E}

theorem Covered.history (hfit : cfg.Fits) (h : UnreservedHistory cfg V e₀ t e) : Covered cfg t := by
  have hcall : ∀ (c : Call) (t : Tables) (e : E), Covered cfg t → c ≠ .socketReserve →
      wlp (V c) (c.Guard cfg (fun t _ ↦ Covered cfg t) (fun _ t _ ↦ Covered cfg t)
        (fun _ ↦ True) t) (c.prog cfg) (fun _ t _ ↦ Covered cfg t) t e :=
    fun c _ _ h hc ↦ (Covered.maintains (V c) hc).prog hfit h
  exact h.invariant (I := fun t _ ↦ Covered cfg t) (.zero cfg) (fun _ _ _ _ h _ ↦ h) hcall

theorem Covered.during (hfit : cfg.Fits) {c : Call} {o : ChipOp}
    (h : During V (fun c _ _ ↦ c ≠ .socketReserve) (Call.prog cfg) .zero e₀ c t o t' e') :
    Covered cfg t' := by
  have hG : c.Guard cfg (fun t _ ↦ Covered cfg t) (fun _ t _ ↦ Covered cfg t) (fun _ ↦ True) t
      o t' e' := by
    refine History.during (I := fun t _ ↦ Covered cfg t) (fun t e ↦ Covered.history hfit)
      (fun e hw hc ↦ ?_) h
    exact ((Covered.maintains (V c) hc).prog hfit hw).imp fun _ _ _ _ ↦ trivial
  cases hG with
  | own hT => exact hT.1
  | serve _ hT =>
    obtain ⟨-, hP⟩ := hT.1
    exact hP
  | release _ _ hJ => exact hJ

theorem toeSnAlloc_of_free (c : ℤ) (h : ∃ sn, IsFree cfg t sn) : 0 ≤ (toeSnAlloc cfg c t).1 := by
  rcases toeSnAlloc_cases cfg c t with ⟨sn, hs, heq⟩ | ⟨-, hnone⟩
  · rw [heq]
    exact hs.1
  · obtain ⟨sn, hs⟩ := h
    exact absurd hs (hnone sn)

theorem toeDescAlloc_eq {t₁ : Tables} (h : toeDescAlloc cfg t = (c, t₁)) (hc : 0 ≤ c) :
    IsUnused cfg t c ∧ t₁ = t.upd c fun _ ↦ { used := true, sn := -1 } := by
  rcases toeDescAlloc_cases cfg t with ⟨c', hc', heq⟩ | ⟨heq, -⟩
  · rw [heq, Prod.mk.injEq] at h
    obtain ⟨rfl, rfl⟩ := h
    exact ⟨hc', rfl⟩
  · rw [heq, Prod.mk.injEq] at h
    omega

/-- Where ioLibrary grants what it is asked for, `accept` leaves its listener with a hardware
socket. -/
theorem Covered.accepts (hN : cfg.maxDesc = cfg.maxSock) (hU : Grants U) (fd : ℤ) :
    Accepts cfg U (fun t _ ↦ Covered cfg t) (fun t _ ↦ Covered cfg t ∧ 0 ≤ (t.desc fd).sn)
      (fun t _ ↦ Covered cfg t) fd where
  stable := (tablesInv cfg).stable
  arm h hl hn hs := h.move (by decide) (.arm hl.1 hl.2 hn hs.free)
  opens := (tablesInv cfg).opens fd
  listens := (tablesInv cfg).listens fd
  defers h hr _ := h.move (by decide) (.opened false hr)
  handsOver :=
    { armed := fun {t _ c sn} h hr hl hc hs => by
        have hlis := IsListener.handover ⟨hr.1, hl⟩ hc
        have hw := (h.move (by decide) (.handover hr hl hc)).move (by decide)
          (.arm hlis.1 hlis.2 (by simp [Tables.handover]) hs.free)
        exact ⟨hw, by simpa [Tables.arm] using hs.free.1⟩
      unarmed := fun h hr hl hc hnone => by
        obtain ⟨sn, hs⟩ := (h.of_valid hr.1).2.exists_free_of_handover hN hr hc
        exact absurd hs (hnone sn) }
  stable' := (tablesInv cfg).stable_of fun _ h ↦ h.1
  opens' :=
    { refused := fun h _ _ _ ↦ h
      granted := fun h hr _ ↦ ⟨h.1.move (by decide) (.opened true hr), by
        simpa [Tables.setOpened] using h.2⟩ }
  listens' :=
    { unopened := fun _ _ _ hans hne ↦ absurd (hU.socket hans) hne
      unlistened := fun _ _ _ hans hne ↦ absurd (hU.listen hans) hne }
  le h := h
  le' h := h.1

/-- **Capacity.** With as many descriptors as hardware sockets and no reservation, over any history:
`toe_sn_alloc` succeeds in `wiztoe_socket` once `toe_desc_alloc` did; it succeeds in `accept` at any
moment at which a connection is handed over; `wiztoe_socket` fails only when every descriptor is in
use; and `accept` returns a connection with the listener still armed, unless ioLibrary refused a
`socket` or a `listen`. -/
theorem capacity (hfit : cfg.Fits) (hN : cfg.maxDesc = cfg.maxSock)
    (V : Call → Env Tables E ChipOp.Ans) (e₀ : E) :
    (∀ t e, UnreservedHistory cfg V e₀ t e → ∀ c t₁,
      toeDescAlloc cfg (toeTablesInit cfg t) = (c, t₁) → 0 ≤ c →
      0 ≤ (toeSnAlloc cfg c t₁).1) ∧
    (∀ fd t o t' e', During V (fun c _ _ ↦ c ≠ .socketReserve) (Call.prog cfg) .zero e₀
      (.accept fd)
      t o t' e' → toeFdReady cfg t' fd → ∀ c t₁, toeDescAlloc cfg t' = (c, t₁) →
      0 ≤ c →
      0 ≤ (toeSnAlloc cfg fd (t'.handover fd c)).1) ∧
    (∀ t e, UnreservedHistory cfg V e₀ t e → ∀ domain type protocol r t' e',
      type = 1 ∨ type = 2 →
      Returns (V (.socket domain type protocol))
      (wiztoeSocket cfg domain type protocol) t e r t' e' →
      r < 0 → ∀ fd, cfg.IsDesc fd → (t.desc fd).used = true) ∧
    (∀ t e, UnreservedHistory cfg V e₀ t e → ∀ fd r t' e', Grants (V (.accept fd)) →
      Returns (V (.accept fd)) (wiztoeAccept cfg fd) t e r t' e' → 0 ≤ r →
      0 ≤ (t'.desc fd).sn) := by
  refine ⟨fun t e h c t₁ hc h₀ ↦ ?_, fun fd t o t' e' h hr c t₁ hc h₀ ↦ ?_,
    fun t e h domain type protocol r t' e' htype hrun hr fd hd ↦ ?_,
    fun t e h fd r t' e' hU hrun hr ↦ ?_⟩
  · obtain ⟨hu, rfl⟩ := toeDescAlloc_eq hc h₀
    refine toeSnAlloc_of_free c ?_
    simpa [IsFree] using (Covered.history hfit h).init.exists_free_of_unused hN hu
  · obtain ⟨hu, -⟩ := toeDescAlloc_eq hc h₀
    exact toeSnAlloc_of_free fd
      (((Covered.during hfit h).of_valid hr.1).2.exists_free_of_handover hN hr hu)
  · -- `wiztoe_socket` fails for want of a descriptor or of a hardware socket, and the second is
    -- excluded.
    have hcov := Covered.history hfit h
    have hfail :=
      ((wiztoeSocket_keeps (A := fun _ ↦ False) hfit (Covered.tablesInv cfg).keeps.untuned domain
      type protocol hcov).returns hrun).2.1 hr
    rw [← toeTablesInit_used cfg]
    rcases hfail with hne | hnone | ⟨⟨x, hx⟩, hnone⟩
    · omega
    · by_contra hu
      exact hnone fd ⟨hd.1, hd.2, by simpa using hu⟩
    · obtain ⟨sn, hs⟩ := hcov.init.exists_free_of_unused hN hx
      exact absurd hs (hnone sn)
  · have hA := Covered.accepts hN hU fd
    exact (((wiztoeAccept_keeps hfit hA (Covered.history hfit h)).returns hrun).2 hr).2

theorem capacity_w5500 :
    0 ≤ (toeSnAlloc w5500 0 (toeDescAlloc w5500 (toeTablesInit w5500 .zero)).2).1 :=
  (capacity (E := Unit) w5500_fits rfl (fun _ ↦ .any) ()).1 .zero () .start 0 _ rfl le_rfl

/-! ## Tables too large for the fields

With 129 entries the descriptor index and the hardware socket number 128 do not fit the `int8_t`
fields and read back as `-128`: the descriptor counts as holding no hardware socket, and closing it
leaks the one it had. -/

/-- A table size beyond the range of `int8_t`. -/
def oversized : ToeConfig := ⟨129, 129, false⟩

/-- The tables after `k` TCP sockets. -/
def filled (k : ℕ) : Tables where
  desc fd :=
    if 0 ≤ fd ∧ fd < k then { used := true, sn := int8 fd }
    else if 0 ≤ fd ∧ fd < 129 then { sn := -1 } else {}
  owner sn := if 0 ≤ sn ∧ sn < k then int8 sn else if 0 ≤ sn ∧ sn < 129 then toeSnFree else 0
  tablesInit := true

theorem int8_ne_toeSnFree {x : ℤ} (h₀ : 0 ≤ x) (h₁ : x < 129) : int8 x ≠ toeSnFree := by
  rw [int8, Int.bmod_def, toeSnFree]
  omega

theorem toeTablesInit_zero : toeTablesInit oversized .zero = filled 0 := by
  rw [toeTablesInit, if_neg (by simp [Tables.zero]), filled, Tables.mk.injEq]
  refine ⟨funext fun fd ↦ ?_, funext fun sn ↦ ?_, rfl⟩
  · rw [if_neg (show ¬(0 ≤ fd ∧ fd < ((0 : ℕ) : ℤ)) by omega)]
    rfl
  · rw [if_neg (show ¬(0 ≤ sn ∧ sn < ((0 : ℕ) : ℤ)) by omega)]
    rfl

theorem filled_desc_used {k : ℕ} {fd : ℤ} (h₀ : 0 ≤ fd) (h₁ : fd < 129) :
    ((filled k).desc fd).used = decide (fd < k) := by
  by_cases hk : fd < k
  · simp [filled, h₀, hk]
  · simp [filled, h₀, h₁, hk]

theorem toeDescAlloc_filled {k : ℕ} (hk : k < 129) : toeDescAlloc oversized (filled k) =
    ((k : ℤ), (filled k).upd k fun _ ↦ { used := true, sn := -1 }) := by
  have hfind : ((List.range oversized.maxDesc).find? fun fd : ℕ ↦ !((filled k).desc fd).used) =
      some k := by
    rw [List.find?_range_eq_some]
    refine ⟨?_, List.mem_range.mpr hk, fun j hj ↦ ?_⟩
    · rw [filled_desc_used (by omega) (by omega)]
      simp
    · rw [filled_desc_used (by omega) (by omega)]
      simpa using hj
  rw [toeDescAlloc, hfind]
  simp [toeDescClear, Tables.upd]

theorem filled_owner {k : ℕ} {sn : ℤ} (h₀ : 0 ≤ sn) (h₁ : sn < 129) :
    (filled k).owner sn = toeSnFree ↔ (k : ℤ) ≤ sn := by
  by_cases hk : sn < k
  · simp [filled, h₀, hk, int8_ne_toeSnFree h₀ h₁]
  · simp [filled, h₀, h₁, hk]
    omega

theorem toeSnAlloc_filled {k : ℕ} (hk : k < 129) {t : Tables} (ht : t.owner = (filled k).owner) :
    toeSnAlloc oversized k t = ((k : ℤ), t.setOwner k (int8 k)) := by
  have hfind : ((List.range oversized.maxSock).find? fun sn : ℕ ↦ t.owner sn == toeSnFree) =
      some k := by
    rw [List.find?_range_eq_some]
    refine ⟨?_, List.mem_range.mpr hk, fun j hj ↦ ?_⟩
    · rw [ht, beq_iff_eq, filled_owner (by omega) (by omega)]
    · rw [ht, Bool.not_eq_true', beq_eq_false_iff_ne, ne_eq, filled_owner (by omega) (by omega)]
      omega
  rw [toeSnAlloc, hfind]

theorem filled_succ (k : ℕ) :
    (((filled k).upd k fun _ ↦ { used := true, sn := -1 }).setOwner k (int8 k)).upd k
      (fun d ↦ { d with sn := int8 k, isUdp := decide ((1 : ℤ) = 2) }) = filled (k + 1) := by
  rw [Tables.setOwner_upd, Tables.upd_upd]
  have hdesc : ∀ fd, (((filled k).setOwner k (int8 k)).upd k fun _ ↦
      { used := true, sn := int8 k, isUdp := decide ((1 : ℤ) = 2) }).desc fd =
        (filled (k + 1)).desc fd := by
    intro fd
    rw [Tables.upd_desc]
    by_cases hfd : fd = k
    · have hk : (0 : ℤ) ≤ k ∧ (k : ℤ) < ((k + 1 : ℕ) : ℤ) := by omega
      rw [if_pos hfd, hfd, filled]
      dsimp only
      rw [if_pos hk]
      simp
    · have hiff : (0 ≤ fd ∧ fd < k) ↔ (0 ≤ fd ∧ fd < ((k + 1 : ℕ) : ℤ)) := by omega
      rw [if_neg hfd]
      simp only [filled, Tables.setOwner_desc, hiff]
  have howner : ∀ sn, ((filled k).setOwner k (int8 k)).owner sn = (filled (k + 1)).owner sn := by
    intro sn
    rw [Tables.setOwner_owner]
    by_cases hsn : sn = k
    · have hk : (0 : ℤ) ≤ k ∧ (k : ℤ) < ((k + 1 : ℕ) : ℤ) := by omega
      rw [if_pos hsn, hsn, filled]
      dsimp only
      rw [if_pos hk]
    · have hiff : (0 ≤ sn ∧ sn < k) ↔ (0 ≤ sn ∧ sn < ((k + 1 : ℕ) : ℤ)) := by omega
      rw [if_neg hsn]
      simp only [filled, hiff]
  exact (Tables.mk.injEq ..).mpr ⟨funext hdesc, funext howner, rfl⟩

theorem wiztoeSocket_filled {k : ℕ} (hk : k < 129) {t : Tables}
    (ht : toeTablesInit oversized t = filled k) :
    (wiztoeSocket oversized 2 1 0).exec? t = some ((k : ℤ), filled (k + 1)) := by
  unfold wiztoeSocket
  rw [Program.exec?_modify_bind, ht, if_neg (by decide), Program.exec?_modifyGet_bind,
    toeDescAlloc_filled hk]
  dsimp only
  rw [if_neg (by omega), Program.exec?_modifyGet_bind, toeSnAlloc_filled hk (Tables.upd_owner ..)]
  dsimp only
  rw [if_neg (by omega), Program.exec?_modify_bind, Program.exec?_pure, filled_succ]

/-- 129 TCP sockets use the whole table up. -/
theorem filled_history (k : ℕ) (hk : k < 129) :
    UnreservedHistory oversized (fun _ ↦ Env.any (E := Unit)) () (filled (k + 1)) () := by
  have hnext : ∀ t, toeTablesInit oversized t = filled k →
      UnreservedHistory oversized (fun _ ↦ Env.any (E := Unit)) () t () →
      UnreservedHistory oversized (fun _ ↦ Env.any (E := Unit)) () (filled (k + 1)) () :=
    fun t ht h ↦ h.call (.socket 2 1 0) (by simp)
      (returns_of_exec? (Program.exec?_discard (wiztoeSocket_filled hk ht)))
  induction k with
  | zero => exact hnext .zero toeTablesInit_zero .start
  | succ k ih =>
    refine hnext _ (toeTablesInit_of_init rfl) (ih (by omega) fun t ht h ↦ ?_)
    exact h.call (.socket 2 1 0) (by simp)
      (returns_of_exec? (Program.exec?_discard (wiztoeSocket_filled (by omega) ht)))

/-- Closing descriptor 128 frees the descriptor and no hardware socket. -/
theorem wiztoeClose_filled :
    (wiztoeClose oversized 128).exec? (filled 129) = some (0, toeDescClear 128 (filled 129)) := by
  have hwait : ∀ fd : ℕ, ¬Waiting (toeDescClear 128 (filled 129)) fd := by
    rintro fd ⟨-, hl, -⟩
    rw [toeDescClear, Tables.upd_desc, filled] at hl
    split at hl
    · exact absurd hl (by simp)
    · dsimp only at hl
      split at hl
      · exact absurd hl (by simp)
      · split at hl <;> exact absurd hl (by simp)
  have hserve : (toeRearmPendingListeners oversized).exec? (toeDescClear 128 (filled 129)) =
      some (⟨⟩, toeDescClear 128 (filled 129)) := by
    refine Program.exec?_forM fun fd _ ↦ ?_
    unfold toeRearmPendingListener Program.when
    rw [Program.exec?_get_bind]
    exact congrArg (Program.exec? · _) (if_neg (hwait fd))
  unfold wiztoeClose Program.when
  rw [Program.exec?_get_bind, if_neg (by decide), if_neg (by decide)]
  change ((modify (toeDescClear 128) >>= fun _ ↦ do
    toeRearmPendingListeners oversized
    return 0 : Toe ℤ)).exec? (filled 129) = _
  rw [Program.exec?_modify_bind, Program.exec?_bind hserve, Program.exec?_pure]

/-- The sizes matter: with 129 entries, after 129 sockets and one `close`, `toe_desc_alloc` succeeds
and `toe_sn_alloc` fails. -/
theorem not_capacity_oversized :
    ¬∀ t e, UnreservedHistory oversized (fun _ ↦ Env.any (E := Unit)) () t e → ∀ c t₁,
      toeDescAlloc oversized (toeTablesInit oversized t) = (c, t₁) → 0 ≤ c →
      0 ≤ (toeSnAlloc oversized c t₁).1 := by
  intro h
  have hclose : UnreservedHistory oversized (fun _ ↦ Env.any (E := Unit)) ()
      (toeDescClear 128 (filled 129)) () :=
    (filled_history 128 (by decide)).call (.close 128) (by simp)
      (returns_of_exec? (Program.exec?_discard wiztoeClose_filled))
  have hunused : IsUnused oversized (toeDescClear 128 (filled 129)) 128 :=
    ⟨by decide, by decide, by simp [toeDescClear]⟩
  have halloc := h _ _ hclose
  rw [toeTablesInit_of_init rfl] at halloc
  rcases toeDescAlloc_cases oversized (toeDescClear 128 (filled 129)) with
    ⟨c, hc, heq⟩ | ⟨-, hnone⟩
  · have hsn := halloc c _ heq hc.1
    rcases toeSnAlloc_cases oversized c ((toeDescClear 128 (filled 129)).upd c
      fun _ ↦ { used := true, sn := -1 }) with ⟨sn, hs, -⟩ | ⟨heq, -⟩
    · -- No hardware socket is free: every owner field, read back, names somebody.
      have hle := (filled_owner hs.1 hs.2.1).mp hs.2.2
      have hlt := hs.2.1
      simp only [oversized] at hlt
      omega
    · rw [heq] at hsn
      exact absurd hsn (by simp)
  · exact hnone 128 hunused

end WsmDriver
