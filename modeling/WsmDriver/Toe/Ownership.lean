import WsmDriver.Toe.Maintain

/-!
# Who holds what

The two tables describe one relation from both ends: `desc fd .sn` is the hardware socket of `fd`,
`owner sn` is the descriptor of `sn`. `Owned` says that they agree. Every move of the pool is one of
a few changes to this relation (a pair is added, a pair is removed, an entry outside of it is
relabelled, fields outside of it change), and each of these keeps the agreement.

Before the first touch the tables are zero-initialised and read as if descriptor 0 owned everything;
what holds then is that no descriptor is in use (`Untouched`).
-/

namespace WsmDriver

open Effect

variable {cfg : ToeConfig}

/-- An index of the descriptor table. -/
def ToeConfig.IsDesc (cfg : ToeConfig) (fd : ℤ) : Prop := 0 ≤ fd ∧ fd < cfg.maxDesc

/-- An index of the hardware socket table. -/
def ToeConfig.IsSock (cfg : ToeConfig) (sn : ℤ) : Prop := 0 ≤ sn ∧ sn < cfg.maxSock

/-- What a descriptor says about itself. -/
structure Desc.WellFormed (cfg : ToeConfig) (d : Desc) : Prop where
  unused : d.used = false → d.sn = -1
  sn_ge : -1 ≤ d.sn
  sn_lt : d.sn < cfg.maxSock
  opened : d.opened = true → 0 ≤ d.sn
  listening : d.listening = true → d.isUdp = false

/-- The tables agree on who holds which hardware socket. -/
structure Agree (cfg : ToeConfig) (t : Tables) : Prop where
  owner_iff : ∀ {fd sn}, cfg.IsDesc fd → cfg.IsSock sn →
    (t.owner sn = fd ↔ (t.desc fd).used = true ∧ (t.desc fd).sn = sn)
  desc : ∀ {fd}, cfg.IsDesc fd → (t.desc fd).WellFormed cfg

/-- The tables agree, and an owner is a descriptor index or one of the negative marks. -/
structure Owned (cfg : ToeConfig) (t : Tables) : Prop extends Agree cfg t where
  owner_lt : ∀ {sn}, cfg.IsSock sn → t.owner sn < cfg.maxDesc

/-- The tables before the first touch. -/
def Untouched (cfg : ToeConfig) (t : Tables) : Prop :=
  t.tablesInit = false ∧ ∀ fd, cfg.IsDesc fd → t.desc fd = {}

/-- The tables at any time. -/
def WellOwned (cfg : ToeConfig) (t : Tables) : Prop :=
  Untouched cfg t ∨ (t.tablesInit = true ∧ Owned cfg t)

variable {t : Tables} {fd c sn : ℤ}

theorem toeFdValid.isDesc (h : toeFdValid cfg t fd) : cfg.IsDesc fd := ⟨h.1, h.2.1⟩

theorem IsUnused.isDesc (h : IsUnused cfg t fd) : cfg.IsDesc fd := ⟨h.1, h.2.1⟩

theorem IsFree.isSock (h : IsFree cfg t sn) : cfg.IsSock sn := ⟨h.1, h.2.1⟩

theorem Untouched.not_valid (h : Untouched cfg t) : ¬toeFdValid cfg t fd := by
  intro hv
  have := hv.2.2
  rw [h.2 fd hv.isDesc] at this
  exact absurd this (by simp)

theorem WellOwned.of_init (h : WellOwned cfg t) (hi : t.tablesInit = true) : Owned cfg t := by
  rcases h with h | h
  · exact absurd h.1 (by simp [hi])
  · exact h.2

theorem WellOwned.of_valid (h : WellOwned cfg t) (hv : toeFdValid cfg t fd) :
    t.tablesInit = true ∧ Owned cfg t := by
  rcases h with h | h
  · exact absurd hv h.not_valid
  · exact h

theorem toeFdReady.ne_unused (hr : toeFdReady cfg t fd) (hc : IsUnused cfg t c) : c ≠ fd := by
  rintro rfl
  exact absurd hc.2.2 (by simp [hr.1.2.2])

/-- Handing over is letting go of the hardware socket and assigning it to the connection. -/
theorem Tables.handover_eq (hne : c ≠ fd) :
    t.handover fd c = (((t.setOwner (t.desc fd).sn toeSnFree).upd fd fun d ↦
      { d with sn := -1, opened := false }).setOwner (t.desc fd).sn c).upd c fun _ ↦
        (t.handover fd c).desc c := by
  have hswap : ∀ (d : Desc) (f : Desc → Desc) (v w : ℤ),
      ((((t.setOwner (t.desc fd).sn v).upd fd f).setOwner (t.desc fd).sn w).upd c fun _ ↦ d) =
        ((t.upd c fun _ ↦ d).setOwner (t.desc fd).sn w).upd fd f := by
    intro d f v w
    simp [Tables.upd, Tables.setOwner, Function.update_of_ne hne.symm, Function.update_comm hne]
  rw [hswap]
  simp [Tables.handover, Tables.upd_desc_ne _ _ hne]

theorem Desc.WellFormed.sameRole {d d' : Desc} (h : d.WellFormed cfg) (hd : SameRole d d') :
    d'.WellFormed cfg where
  unused := by
    rw [hd.used, hd.sn]
    exact h.unused
  sn_ge := by
    rw [hd.sn]
    exact h.sn_ge
  sn_lt := by
    rw [hd.sn]
    exact h.sn_lt
  opened := by
    rw [hd.opened, hd.sn]
    exact h.opened
  listening := by
    rw [hd.listening, hd.isUdp]
    exact h.listening

/-- The connection is a well-formed descriptor. -/
theorem Desc.WellFormed.handover (h : (t.desc fd).WellFormed cfg) (hr : toeFdReady cfg t fd)
    (hne : c ≠ fd) : ((t.handover fd c).desc c).WellFormed cfg := by
  have hge := hr.2
  have hlt := h.sn_lt
  simp only [Tables.handover, Tables.upd_desc_ne _ _ hne, Tables.setOwner_desc,
    Tables.upd_desc_self]
  exact ⟨by simp, by dsimp only; omega, hlt, fun _ ↦ hge, by simp⟩

namespace Owned

/-- The hardware socket of a ready descriptor is its own. -/
theorem owner_of_ready (h : Owned cfg t) (hr : toeFdReady cfg t fd) :
    cfg.IsSock (t.desc fd).sn ∧ t.owner (t.desc fd).sn = fd := by
  have hs : cfg.IsSock (t.desc fd).sn := ⟨hr.2, (h.desc hr.1.isDesc).sn_lt⟩
  exact ⟨hs, (h.owner_iff hr.1.isDesc hs).mpr ⟨hr.1.2.2, rfl⟩⟩

/-! ## Changes that keep the agreement -/

theorem desc_upd (h : Owned cfg t) {f : Desc → Desc} (hf : (f (t.desc fd)).WellFormed cfg) {x : ℤ}
    (hx : cfg.IsDesc x) : ((t.upd fd f).desc x).WellFormed cfg := by
  rw [Tables.upd_desc]
  split
  · exact hf
  · exact h.desc hx

/-- Fields that play no part in who holds what may change. -/
theorem upd_role (h : Owned cfg t) {f : Desc → Desc} (hu : (f (t.desc fd)).used = (t.desc fd).used)
    (hs : (f (t.desc fd)).sn = (t.desc fd).sn) (hf : (f (t.desc fd)).WellFormed cfg) :
    Owned cfg (t.upd fd f) where
  owner_iff {x y} hx hy := by
    rw [Tables.upd_owner, h.owner_iff hx hy, Tables.upd_desc]
    split
    · rename_i heq
      rw [hu, hs, heq]
    · rfl
  owner_lt := h.owner_lt
  desc := h.desc_upd hf

/-- A pair is added: `fd` held nothing and takes a hardware socket nobody held. -/
theorem assign (h : Owned cfg t) {d : Desc} (hd : cfg.IsDesc fd) (hn : (t.desc fd).sn < 0)
    (hs : cfg.IsSock sn) (ho : t.owner sn < 0) (hu : d.used = true) (hdsn : d.sn = sn)
    (hf : d.WellFormed cfg) : Owned cfg ((t.setOwner sn fd).upd fd fun _ ↦ d) where
  owner_iff {x y} hx hy := by
    have hxy := h.owner_iff hx hy
    have hx₀ := hx.1
    have hy₀ := hy.1
    rw [Tables.upd_owner, Tables.setOwner_owner, Tables.upd_desc, Tables.setOwner_desc]
    by_cases hxfd : x = fd
    · subst hxfd
      by_cases hysn : y = sn
      · simp [hysn, hu, hdsn]
      · -- `fd` held no other hardware socket before.
        rw [if_neg hysn, if_pos rfl, hxy]
        constructor
        · rintro ⟨-, hsn⟩
          omega
        · rintro ⟨-, hsn⟩
          exact absurd (hsn.symm.trans hdsn) hysn
    · rw [if_neg hxfd]
      by_cases hysn : y = sn
      · subst hysn
        rw [if_pos rfl]
        constructor
        · exact fun heq ↦ absurd heq.symm hxfd
        · intro hp
          have := hxy.mpr hp
          omega
      · rw [if_neg hysn]
        exact hxy
  owner_lt {y} hy := by
    rw [Tables.upd_owner, Tables.setOwner_owner]
    split
    · exact hd.2
    · exact h.owner_lt hy
  desc {x} hx := by
    rw [Tables.upd_desc]
    split
    · exact hf
    · exact h.desc hx

/-- A pair is removed: `fd` lets go of its hardware socket. -/
theorem unassign (h : Owned cfg t) {f : Desc → Desc} {v : ℤ} (hr : toeFdReady cfg t fd)
    (hv : v < 0) (hs : (f (t.desc fd)).sn = -1) (hf : (f (t.desc fd)).WellFormed cfg) :
    Owned cfg ((t.setOwner (t.desc fd).sn v).upd fd f) where
  owner_iff {x y} hx hy := by
    have hxy := h.owner_iff hx hy
    have hx₀ := hx.1
    have hy₀ := hy.1
    have hown := h.owner_of_ready hr
    rw [Tables.upd_owner, Tables.setOwner_owner, Tables.upd_desc, Tables.setOwner_desc]
    by_cases hxfd : x = fd
    · subst hxfd
      rw [if_pos rfl, hs]
      constructor
      · intro heq
        split at heq
        · omega
        · rename_i hne
          exact absurd (hxy.mp heq).2.symm hne
      · rintro ⟨-, hsn⟩
        omega
    · rw [if_neg hxfd]
      by_cases hysn : y = (t.desc fd).sn
      · rw [if_pos hysn]
        constructor
        · intro heq
          omega
        · intro hp
          have := hxy.mpr hp
          rw [hysn, hown.2] at this
          exact absurd this.symm hxfd
      · rw [if_neg hysn]
        exact hxy
  owner_lt {y} hy := by
    rw [Tables.upd_owner, Tables.setOwner_owner]
    split
    · have := hr.1.2.1
      have := hr.1.1
      omega
    · exact h.owner_lt hy
  desc {x} hx := by
    rw [Tables.upd_desc]
    split
    · exact hf
    · exact h.desc hx

/-- A descriptor without a hardware socket is cleared. -/
theorem clear (h : Owned cfg t) (hn : (t.desc fd).sn < 0) :
    Owned cfg (toeDescClear fd t) where
  owner_iff {x y} hx hy := by
    have hxy := h.owner_iff hx hy
    have hy₀ := hy.1
    rw [toeDescClear, Tables.upd_owner, hxy, Tables.upd_desc]
    split
    · rename_i heq
      constructor
      · rintro ⟨-, hsn⟩
        rw [heq] at hsn
        omega
      · rintro ⟨-, hsn⟩
        dsimp only at hsn
        omega
    · rfl
  owner_lt := h.owner_lt
  desc := h.desc_upd ⟨fun _ ↦ rfl, le_rfl, by dsimp only; omega, by simp, by simp⟩

/-- An entry outside of the relation is relabelled. -/
theorem relabel (h : Owned cfg t) {v : ℤ} (ho : t.owner sn < 0) (hv : v < 0) :
    Owned cfg (t.setOwner sn v) where
  owner_iff {x y} hx hy := by
    have hxy := h.owner_iff hx hy
    have hx₀ := hx.1
    rw [Tables.setOwner_owner, Tables.setOwner_desc, ← hxy]
    split
    · rename_i heq
      rw [heq]
      omega
    · rfl
  owner_lt {y} hy := by
    rw [Tables.setOwner_owner]
    split
    · omega
    · exact h.owner_lt hy
  desc := h.desc

/-! ## The moves -/

theorem disarm (h : Owned cfg t) (hr : toeFdReady cfg t fd) :
    Owned cfg (toeListenerDisarm cfg fd t) := by
  have hw := h.desc hr.1.isDesc
  rw [toeListenerDisarm, if_pos hr.2, toeSnRelease_of_mem hr.2 hw.sn_lt]
  exact h.unassign hr (by decide) rfl
    ⟨fun _ ↦ rfl, le_rfl, by dsimp only; omega, by simp, hw.listening⟩

theorem arm (h : Owned cfg t) (hv : toeFdValid cfg t fd) (hn : (t.desc fd).sn < 0)
    (hs : IsFree cfg t sn) : Owned cfg (t.arm fd sn) := by
  have hw := h.desc hv.isDesc
  have hs₀ := hs.1
  exact h.assign (d := { t.desc fd with sn := sn }) hv.isDesc hn hs.isSock
    (by rw [hs.2.2]; decide) hv.2.2 rfl
    ⟨by simp [hv.2.2], by dsimp only; omega, hs.2.1, fun _ ↦ hs₀, hw.listening⟩

theorem close (h : Owned cfg t) (hv : toeFdValid cfg t fd) : Owned cfg (t.closed cfg fd) := by
  have hw := h.desc hv.isDesc
  rw [Tables.closed]
  split
  · rename_i hn
    rw [toeSnRelease_of_mem hn hw.sn_lt, toeDescClear]
    exact h.unassign ⟨hv, hn⟩ (by decide) rfl
      ⟨fun _ ↦ rfl, le_rfl, by dsimp only; omega, by simp, by simp⟩
  · exact h.clear (by omega)

theorem handover (h : Owned cfg t) (hr : toeFdReady cfg t fd) (hc : IsUnused cfg t c) :
    Owned cfg (t.handover fd c) := by
  have hw := h.desc hr.1.isDesc
  have hne := hr.ne_unused hc
  have hlet := h.unassign (f := fun d ↦ { d with sn := -1, opened := false }) (v := toeSnFree) hr
    (by decide) rfl ⟨fun _ ↦ rfl, le_rfl, by dsimp only; omega, by simp, hw.listening⟩
  have hs := h.owner_of_ready hr
  have hcn : (t.desc c).sn = -1 := (h.desc hc.isDesc).unused hc.2.2
  rw [Tables.handover_eq hne]
  refine hlet.assign hc.isDesc ?_ hs.1 (by simp [toeSnFree]) ?_ ?_ (hw.handover hr hne)
  · rw [Tables.upd_desc_ne _ _ hne]
    simp [hcn]
  · simp [Tables.handover, Tables.upd_desc_ne _ _ hne]
  · simp [Tables.handover, Tables.upd_desc_ne _ _ hne]

/-- Every move keeps the agreement. -/
theorem move (h : Owned cfg t) (hi : t.tablesInit = true) {k : Kind} {t' : Tables}
    (hm : Move cfg k t t') : Owned cfg t' := by
  cases hm with
  | init => rwa [toeTablesInit_of_init hi]
  | @tune _ fd f hv hf => exact h.upd_role hf.used hf.sn ((h.desc hv.isDesc).sameRole hf)
  | @listening _ fd b hr htcp =>
    have hw := h.desc hr.1.isDesc
    exact h.upd_role rfl rfl ⟨hw.unused, hw.sn_ge, hw.sn_lt, hw.opened, fun _ ↦ htcp⟩
  | @socket _ c sn udp _ hc hs =>
    have hcn : (t.desc c).sn = -1 := (h.desc hc.isDesc).unused hc.2.2
    have hs₀ := hs.1
    exact h.assign hc.isDesc (by omega) hs.isSock (by rw [hs.2.2]; decide) rfl rfl
      ⟨by simp, by dsimp only; omega, hs.2.1, fun _ ↦ hs₀, by simp⟩
  | @scrub _ c _ hc =>
    have hcn : (t.desc c).sn = -1 := (h.desc hc.isDesc).unused hc.2.2
    exact h.clear (by omega)
  | @reserve _ sn _ hs => exact h.relabel (by rw [hs.2.2]; decide) (by decide)
  | @release _ sn _ _ ho => exact h.relabel (by rw [ho]; decide) (by decide)
  | arm hv _ hn hs => exact h.arm hv hn hs
  | @opened _ fd b hr =>
    have hw := h.desc hr.1.isDesc
    exact h.upd_role rfl rfl ⟨hw.unused, hw.sn_ge, hw.sn_lt, fun _ ↦ hr.2, hw.listening⟩
  | disarm hr _ => exact h.disarm hr
  | handover hr _ hc => exact h.handover hr hc
  | close hv => exact h.close hv

end Owned

theorem Move.tablesInit {k : Kind} {t' : Tables} (hm : Move cfg k t t') (hi : t.tablesInit = true) :
    t'.tablesInit = true := by
  cases hm with
  | init => exact toeTablesInit_tablesInit cfg t
  | tune => exact hi
  | listening => exact hi
  | socket => exact hi
  | scrub => exact hi
  | reserve => exact hi
  | release => exact hi
  | arm => exact hi
  | opened => exact hi
  | disarm =>
    rw [toeListenerDisarm]
    split
    · rw [Tables.upd_tablesInit, toeSnRelease_tablesInit, hi]
    · exact hi
  | handover => exact hi
  | close =>
    rw [Tables.closed, toeDescClear]
    split
    · rw [Tables.upd_tablesInit, toeSnRelease_tablesInit, hi]
    · exact hi

/-- The first touch of the tables. -/
theorem Untouched.init (h : Untouched cfg t) : Owned cfg (toeTablesInit cfg t) := by
  refine ⟨⟨fun {fd sn} hd hs ↦ ?_, fun {fd} hd ↦ ?_⟩, fun {sn} hs ↦ ?_⟩
  · have hd₀ := hd.1
    rw [toeTablesInit_owner h.1 hs.1 hs.2, toeTablesInit_desc h.1 hd.1 hd.2, h.2 fd hd, toeSnFree]
    constructor
    · intro heq
      omega
    · rintro ⟨hu, -⟩
      exact absurd hu (by simp)
  · rw [toeTablesInit_desc h.1 hd.1 hd.2, h.2 fd hd]
    exact ⟨fun _ ↦ rfl, le_rfl, by dsimp only; omega, by simp, by simp⟩
  · rw [toeTablesInit_owner h.1 hs.1 hs.2, toeSnFree]
    omega

/-! ## Free hardware sockets -/

theorem toeSnFree_ne {x : ℤ} (h : 0 ≤ x) : x ≠ toeSnFree := by
  rw [toeSnFree]
  omega

theorem IsFree.of_setOwner {v : ℤ} (h : IsFree cfg (t.setOwner sn v) c) (hv : v ≠ toeSnFree) :
    IsFree cfg t c := by
  rw [IsFree, Tables.setOwner_owner] at h
  split at h
  · exact absurd h.2.2 hv
  · exact h

/-- Only the hardware socket that was let go of can have become free. -/
theorem IsFree.of_setOwner_free (h : IsFree cfg (t.setOwner sn toeSnFree) c) :
    IsFree cfg t c ∨ c = sn := by
  by_cases hne : c = sn
  · exact .inr hne
  · rw [IsFree, Tables.setOwner_owner_ne _ _ hne] at h
    exact .inl h

theorem IsFree.of_handover (h : IsFree cfg (t.handover fd c) sn) (hc : 0 ≤ c) :
    IsFree cfg t sn := by
  rw [IsFree, Tables.handover, Tables.upd_owner] at h
  exact IsFree.of_setOwner (t := t.upd c _) h (toeSnFree_ne hc)

/-- The calm moves free no hardware socket. -/
theorem IsFree.of_calm {k : Kind} {t' : Tables} (h : IsFree cfg t' sn) (hk : k.calm = true)
    (hm : Move cfg k t t') (hi : t.tablesInit = true) : IsFree cfg t sn := by
  cases hm with
  | init => rwa [toeTablesInit_of_init hi] at h
  | tune => exact h
  | listening => exact h
  | socket _ _ hc => exact IsFree.of_setOwner (t := t) h (toeSnFree_ne hc.1)
  | scrub => exact h
  | arm hv => exact IsFree.of_setOwner (t := t) h (toeSnFree_ne hv.1)
  | reserve => exact absurd hk (by decide)
  | release => exact absurd hk (by decide)
  | opened => exact absurd hk (by decide)
  | disarm => exact absurd hk (by decide)
  | handover => exact absurd hk (by decide)
  | close => exact absurd hk (by decide)

namespace WellOwned

theorem zero (cfg : ToeConfig) : WellOwned cfg .zero := .inl ⟨rfl, fun _ _ ↦ rfl⟩

theorem move (h : WellOwned cfg t) {k : Kind} {t' : Tables} (hm : Move cfg k t t') :
    WellOwned cfg t' := by
  have hinit : t.tablesInit = true → WellOwned cfg t' :=
    fun hi ↦ .inr ⟨hm.tablesInit hi, (h.of_init hi).move hi hm⟩
  cases hm with
  | init =>
    rcases h with hu | h
    · exact .inr ⟨toeTablesInit_tablesInit cfg t, hu.init⟩
    · exact hinit h.1
  | tune hv => exact hinit (h.of_valid hv).1
  | listening _ hr => exact hinit (h.of_valid hr.1).1
  | socket _ hi => exact hinit hi
  | scrub hi => exact hinit hi
  | reserve hi => exact hinit hi
  | @release _ sn _ _ ho =>
    rcases h with hu | h
    · exact .inl hu
    · exact hinit h.1
  | arm hv => exact hinit (h.of_valid hv).1
  | opened _ hr => exact hinit (h.of_valid hr.1).1
  | disarm hr => exact hinit (h.of_valid hr.1).1
  | handover hr => exact hinit (h.of_valid hr.1).1
  | close hv => exact hinit (h.of_valid hv).1

/-- A calm move is made after the first touch, or it is the first touch. -/
theorem calm (h : WellOwned cfg t) {k : Kind} {t' : Tables} (hk : k.calm = true)
    (hm : Move cfg k t t') :
    t.tablesInit = true ∨ (Untouched cfg t ∧ t' = toeTablesInit cfg t) := by
  cases hm with
  | init =>
    rcases h with hu | h
    · exact .inr ⟨hu, rfl⟩
    · exact .inl h.1
  | tune hv => exact .inl (h.of_valid hv).1
  | listening _ hr => exact .inl (h.of_valid hr.1).1
  | socket _ hi => exact .inl hi
  | scrub hi => exact .inl hi
  | arm hv => exact .inl (h.of_valid hv).1
  | reserve => exact absurd hk (by decide)
  | release => exact absurd hk (by decide)
  | opened => exact absurd hk (by decide)
  | disarm => exact absurd hk (by decide)
  | handover => exact absurd hk (by decide)
  | close => exact absurd hk (by decide)

theorem tablesInv (cfg : ToeConfig) : TablesInv cfg (WellOwned cfg) where
  range h hv := ((h.of_valid hv).2.desc hv.isDesc).sn_lt
  idle {t fd} h hv hn := by
    have hw := (h.of_valid hv).2.desc hv.isDesc
    cases ho : (t.desc fd).opened with
    | false => rfl
    | true => exact absurd (hw.opened ho) (by omega)
  move _ _ h hm := h.move hm

/-- A condition on the tables alone is stable when it includes the agreement. -/
theorem stable (V : Env Tables E ChipOp.Ans) {T : Tables → Prop}
    (h : ∀ t, T t → WellOwned cfg t) : Stable cfg V fun t _ ↦ T t := (tablesInv cfg).stable_of h

end WellOwned

/-- A ready descriptor's hardware socket is read back exactly. -/
theorem WellOwned.toeSn_eq (hfit : cfg.Fits) (h : WellOwned cfg t) (hr : toeFdReady cfg t fd) :
    toeSn t fd = (t.desc fd).sn := by
  have hlt := (WellOwned.tablesInv cfg).range h hr.1
  have hsock := hfit.maxSock_le
  exact uint8_of_lt hr.2 (by omega)

/-! ## What releasing a held socket cannot break

A caller that releases a hardware socket under its descriptor breaks the agreement, but what a
descriptor says about itself stays right. -/

/-- Every live descriptor is well formed, and there is none before the first touch. -/
structure Shaped (cfg : ToeConfig) (t : Tables) : Prop where
  init : ∀ {fd}, toeFdValid cfg t fd → t.tablesInit = true
  desc : ∀ {fd}, toeFdValid cfg t fd → (t.desc fd).WellFormed cfg

namespace Shaped

variable {t' : Tables}

theorem zero (cfg : ToeConfig) : Shaped cfg .zero :=
  ⟨fun hv ↦ absurd hv.2.2 (by simp [Tables.zero]),
    fun hv ↦ absurd hv.2.2 (by simp [Tables.zero])⟩

theorem of_desc (h : Shaped cfg t) (hi : t'.tablesInit = t.tablesInit) (hd : t'.desc = t.desc) :
    Shaped cfg t' where
  init {fd} hv := by
    have hv' : toeFdValid cfg t fd := by simpa only [toeFdValid, hd] using hv
    rw [hi]
    exact h.init hv'
  desc {fd} hv := by
    rw [hd]
    exact h.desc (by simpa only [toeFdValid, hd] using hv)

theorem upd (h : Shaped cfg t) (hi : t.tablesInit = true) {f : Desc → Desc}
    (hf : (f (t.desc fd)).used = true → (f (t.desc fd)).WellFormed cfg) :
    Shaped cfg (t.upd fd f) where
  init _ := hi
  desc {x} hv := by
    have hu := hv.2.2
    rw [Tables.upd_desc] at hu ⊢
    split
    · rename_i hx
      rw [if_pos hx] at hu
      exact hf hu
    · rename_i hx
      rw [if_neg hx] at hu
      exact h.desc ⟨hv.1, hv.2.1, hu⟩

theorem setOwner (h : Shaped cfg t) (sn v : ℤ) : Shaped cfg (t.setOwner sn v) := h.of_desc rfl rfl

theorem release (h : Shaped cfg t) (sn : ℤ) : Shaped cfg (toeSnRelease cfg sn t) :=
  h.of_desc (toeSnRelease_tablesInit sn t) (toeSnRelease_desc sn t)

theorem clear (h : Shaped cfg t) (hi : t.tablesInit = true) (fd : ℤ) :
    Shaped cfg (toeDescClear fd t) := h.upd hi (by simp)

theorem move (h : Shaped cfg t) {k : Kind} (hm : Move cfg k t t') : Shaped cfg t' := by
  cases hm with
  | init =>
    cases hi : t.tablesInit with
    | true => rwa [toeTablesInit_of_init hi]
    | false =>
      -- Nothing is in use yet.
      have hnone : ∀ fd, ¬toeFdValid cfg (toeTablesInit cfg t) fd := by
        intro fd hv
        have hu := hv.2.2
        rw [toeTablesInit_desc hi hv.1 hv.2.1] at hu
        exact absurd (h.init ⟨hv.1, hv.2.1, hu⟩) (by simp [hi])
      exact ⟨fun hv ↦ absurd hv (hnone _), fun hv ↦ absurd hv (hnone _)⟩
  | tune hv hf => exact h.upd (h.init hv) fun _ ↦ (h.desc hv).sameRole hf
  | listening b hr htcp =>
    have hw := h.desc hr.1
    exact h.upd (h.init hr.1) fun _ ↦ ⟨hw.unused, hw.sn_ge, hw.sn_lt, hw.opened, fun _ ↦ htcp⟩
  | @socket _ c sn udp hi hc hs =>
    have hs₀ := hs.1
    exact (h.setOwner sn c).upd hi fun _ ↦
      ⟨by simp, by dsimp only; omega, hs.2.1, fun _ ↦ hs₀, by simp⟩
  | scrub hi => exact h.clear hi _
  | reserve => exact h.setOwner _ _
  | release => exact h.setOwner _ _
  | @arm _ fd sn hv hl hn hs =>
    have hw := h.desc hv
    have hs₀ := hs.1
    exact (h.setOwner sn fd).upd (h.init hv) fun _ ↦
      ⟨fun hu ↦ absurd hv.2.2 (by simpa using hu), by dsimp only; omega, hs.2.1, fun _ ↦ hs₀,
        hw.listening⟩
  | @opened _ fd b hr =>
    have hw := h.desc hr.1
    exact h.upd (h.init hr.1) fun _ ↦
      ⟨hw.unused, hw.sn_ge, hw.sn_lt, fun _ ↦ hr.2, hw.listening⟩
  | @disarm _ fd hr hl =>
    have hw := h.desc hr.1
    rw [toeListenerDisarm, if_pos hr.2]
    refine (h.release _).upd (by rw [toeSnRelease_tablesInit, h.init hr.1]) fun _ ↦ ?_
    rw [toeSnRelease_desc]
    exact ⟨fun _ ↦ rfl, le_rfl, by dsimp only; omega, by simp, hw.listening⟩
  | @handover _ fd c hr hl hc =>
    have hw := h.desc hr.1
    have hne := hr.ne_unused hc
    rw [Tables.handover_eq hne]
    refine Shaped.upd (Shaped.setOwner (Shaped.upd (h.setOwner _ _) (h.init hr.1) fun _ ↦ ?_) _ _)
      (h.init hr.1) fun _ ↦ hw.handover hr hne
    exact ⟨fun _ ↦ rfl, le_rfl, by dsimp only; omega, by simp, hw.listening⟩
  | @close _ fd hv =>
    rw [Tables.closed]
    split
    · exact (h.release _).clear (by rw [toeSnRelease_tablesInit, h.init hv]) fd
    · exact h.clear (h.init hv) fd

theorem tablesInv (cfg : ToeConfig) : TablesInv cfg (Shaped cfg) where
  range h hv := (h.desc hv).sn_lt
  idle {t fd} h hv hn := by
    have hw := h.desc hv
    cases ho : (t.desc fd).opened with
    | false => rfl
    | true => exact absurd (hw.opened ho) (by omega)
  move _ _ h hm := h.move hm

end Shaped

/-! ## Over whole histories -/

variable {E : Type} {V : Call → Env Tables E ChipOp.Ans} {e₀ e e' : E} {t' : Tables}

theorem Shaped.history (hfit : cfg.Fits) (h : AnyHistory cfg V e₀ t e) : Shaped cfg t := by
  have hcall : ∀ (c : Call) (t : Tables) (e : E), Shaped cfg t → True →
      wlp (V c) (c.Guard cfg (fun t _ ↦ Shaped cfg t) (fun _ t _ ↦ Shaped cfg t)
        (fun _ ↦ True) t) (c.prog cfg) (fun _ t _ ↦ Shaped cfg t) t e := fun c t e h _ ↦
    ((Shaped.tablesInv cfg).maintains (fun _ {_ _} hi hs hT ↦ hT.move (.reserve hi hs))
      fun sn _ _ hT ↦ hT.release sn).prog hfit h
  exact h.invariant (I := fun t _ ↦ Shaped cfg t) (.zero cfg) (fun _ _ _ _ h _ ↦ h) hcall

theorem WellOwned.release (h : WellOwned cfg t) {c : Call} (hc : c.Disciplined cfg t)
    (heq : c = .socketRelease sn) : WellOwned cfg (toeSnRelease cfg sn t) := by
  obtain ⟨h₀, h₁, ho⟩ := hc sn heq
  rw [toeSnRelease_of_mem h₀ h₁]
  exact h.move (.release h₀ h₁ ho)

theorem WellOwned.history (hfit : cfg.Fits) (h : ToeHistory cfg V e₀ t e) : WellOwned cfg t := by
  have hcall : ∀ (c : Call) (t : Tables) (e : E), WellOwned cfg t → c.Disciplined cfg t →
      wlp (V c) (c.Guard cfg (fun t _ ↦ WellOwned cfg t) (fun _ t _ ↦ WellOwned cfg t)
        (fun _ ↦ True) t) (c.prog cfg) (fun _ t _ ↦ WellOwned cfg t) t e := fun c t e h hc ↦
    ((WellOwned.tablesInv cfg).maintains (fun _ {_ _} hi hs hT ↦ hT.move (.reserve hi hs))
      fun sn heq _ hT ↦ hT.release hc heq).prog hfit h
  exact h.invariant (I := fun t _ ↦ WellOwned cfg t) (.zero cfg) (fun _ _ _ _ h _ ↦ h) hcall

/-- **Ownership.** From the first touch on the two tables agree between any two calls, whatever the
chip and ioLibrary answered; until then no descriptor is in use. -/
theorem ownership (hfit : cfg.Fits) (h : ToeHistory cfg V e₀ t e) :
    (t.tablesInit = true → Owned cfg t) ∧ (t.tablesInit = false → Untouched cfg t) := by
  have hw := WellOwned.history hfit h
  refine ⟨hw.of_init, fun hi ↦ ?_⟩
  rcases hw with hu | hw
  · exact hu
  · exact absurd hw.1 (by simp [hi])

/-- A call on a descriptor nobody created leaves the zero-initialised tables alone, and they do not
agree: descriptor 0 is unused and reads as bound to hardware socket 0. -/
theorem not_agree_before_first_touch :
    ¬∀ t e, ToeHistory w5500 (fun _ ↦ Env.any (E := Unit)) () t e → Agree w5500 t := by
  intro h
  have hrun : ToeHistory w5500 (fun _ ↦ .any) () (afterCall w5500 .closed (.bind 0 80) .zero) () :=
    ToeHistory.afterCall .start (fun _ heq ↦ by cases heq) (fun _ _ _ ↦ trivial)
      (by decide)
  have hdesc : w5500.IsDesc 0 := ⟨le_rfl, by decide⟩
  exact absurd (((h _ _ hrun).desc hdesc).unused rfl) (by decide)

/-- A TCP socket that is made a listener: the tables agree. -/
theorem ownership_listener :
    Owned w5500 (afterCall w5500 .closed (.listen 0 1)
      (afterCall w5500 .closed (.socket 2 1 0) .zero)) := by
  have hsocket : ToeHistory w5500 (fun _ ↦ .any) ()
      (afterCall w5500 .closed (.socket 2 1 0) .zero) () :=
    ToeHistory.afterCall .start (fun _ heq ↦ by cases heq) (fun _ _ _ ↦ trivial)
      (by decide)
  have hlisten : ToeHistory w5500 (fun _ ↦ .any) () (afterCall w5500 .closed (.listen 0 1)
      (afterCall w5500 .closed (.socket 2 1 0) .zero)) () :=
    hsocket.afterCall (fun _ heq ↦ by cases heq) (fun _ _ _ ↦ trivial) (by decide)
  exact (ownership w5500_fits hlisten).1 rfl

end WsmDriver
