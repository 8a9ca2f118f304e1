import WsmDriver.Effect.Execution
import WsmDriver.Toe.Hygiene
import WsmDriver.Toe.Waiting

/-!
# Releasing a hardware socket that is not reserved

`wiztoe_socket_release` takes any number inside the table at its word: it closes the hardware
socket, marks it free and lets the waiting listeners at it. What that does to a number nobody
reserved is decided by the tables alone: nothing, if the number is free already and no listener
waits for one; otherwise a descriptor loses its hardware socket to the pool, or a listener is moved.
-/

namespace WsmDriver

open Effect

variable {cfg : ToeConfig} {E : Type} {V : Env Tables E ChipOp.Ans} {R : ℕ → ℕ → Prop}
  {t t' : Tables} {e : E} {fd sn v : ℤ}

/-- An owner is the descriptor that holds the hardware socket, and the other way round. -/
def Mutual (cfg : ToeConfig) (t : Tables) : Prop :=
  ∀ fd sn, cfg.IsDesc fd → cfg.IsSock sn →
    (t.owner sn = fd ↔ (t.desc fd).used = true ∧ (t.desc fd).sn = sn)

/-- A hardware socket set aside by `wiztoe_socket_reserve`. -/
def IsReserved (cfg : ToeConfig) (t : Tables) (sn : ℤ) : Prop :=
  cfg.IsSock sn ∧ t.owner sn = toeSnRaw

/-- The used descriptors and the owners are as they were. -/
structure Untroubled (cfg : ToeConfig) (t t' : Tables) : Prop where
  desc : ∀ fd, toeFdValid cfg t fd → t'.desc fd = t.desc fd
  owner : ∀ sn, cfg.IsSock sn → t'.owner sn = t.owner sn

/-- Whatever the chip does, releasing `sn` with the tables `t` troubles nobody unless it is
reserved, and the tables agree afterwards. -/
structure HarmlessRelease (cfg : ToeConfig) (t : Tables) (sn : ℤ) : Prop where
  tables : ¬IsReserved cfg t sn → ∀ t' e',
    Returns .any (wiztoeSocketRelease cfg sn) t () () t' e' → Untroubled cfg t t'
  /-- No operation addresses the hardware socket of a descriptor. -/
  chip : ¬IsReserved cfg t sn → ∀ o t' e',
    Performs .any (wiztoeSocketRelease cfg sn) t () o t' e' →
      ∀ fd, toeFdReady cfg t fd → o.sock? ≠ some (t.desc fd).sn
  agrees : ∀ t' e', Returns .any (wiztoeSocketRelease cfg sn) t () () t' e' → Mutual cfg t'

/-- The tables were touched before, and `sn` is outside of them, or reserved, or free while no
listener waits. -/
structure Releasable (cfg : ToeConfig) (t : Tables) (sn : ℤ) : Prop where
  init : t.tablesInit = true
  mark : cfg.IsSock sn →
    t.owner sn = toeSnRaw ∨ (t.owner sn = toeSnFree ∧ ∀ fd, cfg.IsDesc fd → ¬Waiting t fd)

/-- Histories in which only such numbers are released. Nothing is asked of the chip. -/
abbrev CarefulHistory (cfg : ToeConfig) : Tables → Unit → Prop :=
  History (fun _ : Call ↦ .any) (fun c t _ ↦ ∀ sn, c = .socketRelease sn → Releasable cfg t sn)
    (Call.prog cfg) .zero ()

/-! ## The tables of a careful history -/

/-- After the first touch the tables agree. -/
def Settled (cfg : ToeConfig) (t : Tables) : Prop := t.tablesInit = true ∧ Owned cfg t

theorem Settled.move (h : Settled cfg t) {k : Kind} (hm : Move cfg k t t') : Settled cfg t' :=
  ⟨hm.tablesInit h.1, h.2.move h.1 hm⟩

theorem Settled.tablesInv (cfg : ToeConfig) : TablesInv cfg (Settled cfg) where
  range h hv := (h.2.desc hv.isDesc).sn_lt
  idle h hv hn := (WellOwned.tablesInv cfg).idle (.inr h) hv hn
  move _ _ h hm := h.move hm

theorem Releasable.settled (h : Releasable cfg t sn) (ht : Settled cfg t) :
    Settled cfg (toeSnRelease cfg sn t) := by
  by_cases hs : cfg.IsSock sn
  · rw [toeSnRelease_of_mem hs.1 hs.2]
    refine ⟨ht.1, ht.2.relabel ?_ (by decide)⟩
    rcases h.mark hs with ho | ⟨ho, -⟩
    · rw [ho]
      decide
    · rw [ho]
      decide
  · rwa [toeSnRelease, if_neg (by exact hs)]

/-- Before the first touch descriptor 0 reads as the owner of every hardware socket. -/
structure FirstTouched (cfg : ToeConfig) (t : Tables) : Prop where
  owned : WellOwned cfg t
  owner : t.tablesInit = false → ∀ sn, t.owner sn = 0

namespace FirstTouched

theorem settled (h : FirstTouched cfg t) (hi : t.tablesInit = true) : Settled cfg t :=
  ⟨hi, h.owned.of_init hi⟩

theorem of_settled (h : Settled cfg t) : FirstTouched cfg t :=
  ⟨.inr h, fun hi ↦ absurd h.1 (by simp [hi])⟩

/-- Whatever is done to the tables touches them first, unless it is a release. -/
theorem move (h : FirstTouched cfg t) {k : Kind} (hk : k ≠ .release) (hm : Move cfg k t t') :
    FirstTouched cfg t' := by
  refine ⟨h.owned.move hm, fun hfalse ↦ absurd ?_ (Bool.eq_false_iff.mp hfalse)⟩
  have hafter : t.tablesInit = true → t'.tablesInit = true := hm.tablesInit
  cases hm with
  | init => exact toeTablesInit_tablesInit cfg t
  | tune hv => exact hafter (h.owned.of_valid hv).1
  | listening _ hr => exact hafter (h.owned.of_valid hr.1).1
  | socket _ hi => exact hafter hi
  | scrub hi => exact hafter hi
  | reserve hi => exact hafter hi
  | release => exact absurd rfl hk
  | arm hv => exact hafter (h.owned.of_valid hv).1
  | opened _ hr => exact hafter (h.owned.of_valid hr.1).1
  | disarm hr => exact hafter (h.owned.of_valid hr.1).1
  | handover hr => exact hafter (h.owned.of_valid hr.1).1
  | close hv => exact hafter (h.owned.of_valid hv).1

theorem tablesInv (cfg : ToeConfig) : TablesInv cfg (FirstTouched cfg) where
  range h hv := (WellOwned.tablesInv cfg).range h.owned hv
  idle h hv := (WellOwned.tablesInv cfg).idle h.owned hv
  move _ hk h hm := h.move hk hm

theorem history (hfit : cfg.Fits) {e : Unit} (h : CarefulHistory cfg t e) : FirstTouched cfg t := by
  have hcall : ∀ (c : Call) (t : Tables) (e : Unit), FirstTouched cfg t →
      (∀ sn, c = .socketRelease sn → Releasable cfg t sn) →
      wlp .any (c.Guard cfg (fun t _ ↦ FirstTouched cfg t) (fun _ t _ ↦ FirstTouched cfg t)
        (fun _ ↦ True) t) (c.prog cfg) (fun _ t _ ↦ FirstTouched cfg t) t e := fun c t e h hc ↦
    ((tablesInv cfg).maintains (fun _ {_ _} hi hs hT ↦ hT.move (by decide) (.reserve hi hs))
      fun sn heq _ hT ↦ .of_settled ((hc sn heq).settled (hT.settled (hc sn heq).init))).prog hfit h
  exact h.invariant (I := fun t _ ↦ FirstTouched cfg t) ⟨.zero cfg, fun _ _ ↦ rfl⟩
    (fun _ _ _ _ h _ ↦ h) hcall

end FirstTouched

/-! ## A release that harms nobody -/

/-- The loop over the descriptors does nothing when no listener waits. -/
theorem toeRearmPendingListeners_idle (h : ∀ fd, cfg.IsDesc fd → ¬Waiting t fd) :
    pre V (fun _ _ _ ↦ False) R (toeRearmPendingListeners cfg) (fun _ t' _ ↦ t' = t) t e := by
  refine (pre_forM (fun l t' _ ↦ t' = t ∧ ∀ i ∈ l, i < cfg.maxDesc) (fun _ _ _ _ h ↦ h) ?_ _
    ⟨rfl, fun _ ↦ List.mem_range.mp⟩).imp fun _ _ _ h ↦ h.1
  rintro i l t' e ⟨rfl, hl⟩
  rw [List.forall_mem_cons] at hl
  unfold toeRearmPendingListener
  refine pre_get_bind.mpr (pre_when (fun hw ↦ ?_) fun _ _ _ ↦ ⟨rfl, hl.2⟩)
  exact absurd hw (h i ⟨by omega, by omega⟩)

/-- With no listener waiting, a release closes and frees the hardware socket and does nothing
else. -/
theorem wiztoeSocketRelease_idle (h : ∀ fd, cfg.IsDesc fd → ¬Waiting t fd) (sn : ℤ) :
    pre V (fun o _ _ ↦ cfg.IsSock sn ∧ o = .close (uint8 sn)) R (wiztoeSocketRelease cfg sn)
      (fun _ t' _ ↦ t' = toeSnRelease cfg sn t) t e := by
  unfold wiztoeSocketRelease
  refine pre_when (fun hs ↦ ?_) fun hs _ _ ↦ by rw [toeSnRelease, if_neg hs]
  refine pre_perform_bind.mpr fun e₁ _ ↦
    ⟨⟨hs, rfl⟩, fun _ e₂ _ ↦ pre_modify_bind.mpr ?_⟩
  refine (toeRearmPendingListeners_idle fun fd hd hw ↦ h fd hd ?_).guard fun _ _ _ hf ↦ hf.elim
  rwa [Waiting, toeSnRelease_desc] at hw

theorem wiztoeSocketRelease_outside (hs : ¬cfg.IsSock sn) :
    pre V (fun _ _ _ ↦ False) R (wiztoeSocketRelease cfg sn) (fun _ t' _ ↦ t' = t) t e := by
  unfold wiztoeSocketRelease
  exact pre_when (fun h ↦ absurd h hs) fun _ _ _ ↦ rfl

theorem toeSnRelease_free (h : t.owner sn = toeSnFree) : toeSnRelease cfg sn t = t := by
  rw [toeSnRelease]
  split
  · rw [Tables.setOwner, ← h, Function.update_eq_self]
  · rfl

/-- After a careful release the tables agree. -/
theorem Releasable.agrees (hfit : cfg.Fits) (h : Releasable cfg t sn) (ht : Settled cfg t)
    {e' : Unit} (hr : Returns .any (wiztoeSocketRelease cfg sn) t () () t' e') : Mutual cfg t' := by
  have M : Maintains cfg .any (fun t (_ : Unit) ↦ Settled cfg t) (fun _ t _ ↦ Settled cfg t)
      (fun _ ↦ True) (.socketRelease sn) t :=
    (Settled.tablesInv cfg).maintains (fun _ {_ _} hi hs hT ↦ hT.move (.reserve hi hs))
        fun sn' heq _ hT ↦ by
      obtain rfl : sn = sn' := Call.socketRelease.inj heq
      exact h.settled hT
  have hs : Settled cfg t' := (M.prog hfit ht).returns hr
  exact fun fd sn hd hsn ↦ hs.2.owner_iff hd hsn

/-- A number that is not reserved is outside of the table, or free with nobody waiting: its release
leaves the tables as they are. -/
theorem Releasable.idle (h : Releasable cfg t sn) (hres : ¬IsReserved cfg t sn) :
    pre V (fun o _ _ ↦ IsFree cfg t sn ∧ o = .close (uint8 sn)) R (wiztoeSocketRelease cfg sn)
      (fun _ t' _ ↦ t' = t) t e := by
  by_cases hs : cfg.IsSock sn
  · obtain ⟨hfree, hnone⟩ := (h.mark hs).resolve_left fun hraw ↦ hres ⟨hs, hraw⟩
    refine ((wiztoeSocketRelease_idle hnone sn).guard fun _ _ _ ho ↦ ⟨⟨hs.1, hs.2, hfree⟩,
      ho.2⟩).imp ?_
    rintro _ t' _ rfl
    exact toeSnRelease_free hfree
  · exact (wiztoeSocketRelease_outside hs).guard fun _ _ _ hf ↦ hf.elim

theorem Releasable.harmless (hfit : cfg.Fits) (h : Releasable cfg t sn) (ht : Settled cfg t) :
    HarmlessRelease cfg t sn := by
  have hidle : ¬IsReserved cfg t sn → wlp .any (fun o _ (_ : Unit) ↦ IsFree cfg t sn ∧ o =
      .close (uint8 sn)) (wiztoeSocketRelease cfg sn) (fun _ t' _ ↦ t' = t) t () := h.idle
  refine ⟨fun hres t' e' hr ↦ ?_, fun hres o t' e' hp fd hfd ho ↦ ?_,
    fun t' e' hr ↦ h.agrees hfit ht hr⟩
  · rw [(hidle hres).returns hr]
    exact ⟨fun _ _ ↦ rfl, fun _ _ ↦ rfl⟩
  · obtain ⟨⟨h₀, h₁, hfree⟩, rfl⟩ := (hidle hres).performs hp
    have hsock := hfit.maxSock_le
    have hsn : sn = (t.desc fd).sn := by
      rw [← uint8_of_lt h₀ (by omega)]
      exact Option.some_inj.mp ho
    -- The hardware socket of a descriptor is owned by it.
    have hown := (ht.2.owner_of_ready hfd).2
    rw [← hsn, hfree, toeSnFree] at hown
    have hfd₀ := hfd.1.1
    omega

/-! ## A release that harms somebody

The chip that opens whatever it is asked to open shows it: there the release returns, and every
listener that can be served is served. -/

theorem placidChip_grants :
    Grants (Env.script (placidChip .closed) : Env Tables Unit ChipOp.Ans) where
  socket hans := hans.1
  listen hans := hans.1

/-- What a release leads to on that chip is the end of one of its runs. -/
theorem exists_release {Q : Unit → Tables → Unit → Prop}
    {G : ChipOp → Tables → Unit → Prop}
    (h : wp (Env.script (placidChip .closed)) G (wiztoeSocketRelease cfg sn) Q t ()) :
    ∃ t' e', Returns .any (wiztoeSocketRelease cfg sn) t () () t' e' ∧ Q () t' e' := by
  obtain ⟨_, t', e', hr, hq⟩ := wp_returns Env.script_responsive h
  have hle : Env.script (placidChip .closed) ≤ (Env.any : Env Tables Unit ChipOp.Ans) :=
    ⟨fun _ ↦ trivial, fun _ ↦ trivial⟩
  exact ⟨t', e', hr.mono hle, hq⟩

/-- The mark `v` is gone from `sn`, and the descriptor it named, if it did, holds a hardware socket,
so that it does not wait for one. -/
structure Unmarked (cfg : ToeConfig) (sn v : ℤ) (t : Tables) : Prop where
  shaped : Shaped cfg t
  holds : 0 ≤ v → 0 ≤ (t.desc v).sn
  owner : t.owner sn ≠ v

theorem Unmarked.serves {U : Env Tables E ChipOp.Ans} (hU : Grants U) (sn v : ℤ) :
    Serves cfg U fun _ t _ ↦ Unmarked cfg sn v t where
  stable _ :=
    { range := fun h hv ↦ (Shaped.tablesInv cfg).range h.shaped hv
      idle := fun h hv ↦ (Shaped.tablesInv cfg).idle h.shaped hv
      drift := fun h _ ↦ h
      answer := fun _ h _ ↦ h }
  opens _ :=
    { refused := fun h _ _ _ ↦ h
      granted := fun {t e _ _ _ _} h hr _ ↦ by
        refine ⟨h.shaped.move (.opened true hr), fun h₀ ↦ ?_, h.owner⟩
        rw [Tables.setOpened, Tables.upd_desc]
        split
        · rename_i heq
          exact heq ▸ h.holds h₀
        · exact h.holds h₀ }
  listens _ _ _ :=
    { unopened := fun _ _ _ hans hne ↦ absurd (hU.socket hans) hne
      unlistened := fun _ _ _ hans hne ↦ absurd (hU.listen hans) hne }
  skip h _ := h
  arm {fd _ t _ sn'} _ h hv hw hs := by
    -- The listener that is served is not the descriptor `v`.
    have hne : (fd : ℤ) ≠ v := by
      rintro rfl
      have := h.holds hv.1
      have := hw.2.2
      omega
    refine ⟨h.shaped.move (.arm hv hw.2.1 hw.2.2 hs.free), fun h₀ ↦ ?_, ?_⟩
    · rw [Tables.arm, Tables.upd_desc_ne _ _ hne.symm]
      exact h.holds h₀
    · rw [Tables.arm, Tables.upd_owner, Tables.setOwner_owner]
      split
      · exact hne
      · exact h.owner
  none h _ _ := h

/-- Whoever released a number that was neither free nor reserved took it away from its owner. -/
theorem HarmlessRelease.marked (hfit : cfg.Fits) (h : HarmlessRelease cfg t sn) (ht : Settled cfg t)
    (hs : cfg.IsSock sn) : t.owner sn = toeSnRaw ∨ t.owner sn = toeSnFree := by
  by_contra hcon
  rw [not_or] at hcon
  obtain ⟨hraw, hfree⟩ := hcon
  have hshaped : Shaped cfg t := ⟨fun _ ↦ ht.1, fun hv ↦ ht.2.desc hv.isDesc⟩
  have hholds : 0 ≤ t.owner sn → 0 ≤ (t.desc (t.owner sn)).sn := by
    intro h₀
    rw [((ht.2.owner_iff ⟨h₀, ht.2.owner_lt hs⟩ hs).mp rfl).2]
    exact hs.1
  have hunmarked : Unmarked cfg sn (t.owner sn) (toeSnRelease cfg sn t) := by
    refine ⟨hshaped.release sn, by rwa [toeSnRelease_desc], ?_⟩
    rw [toeSnRelease_of_mem hs.1 hs.2, Tables.setOwner_owner_self]
    exact Ne.symm hfree
  obtain ⟨t', e', hr, hq⟩ := exists_release (wiztoeSocketRelease_serves (G := fun _ _ _ ↦ True)
    (J := fun t (_ : Unit) ↦ Shaped cfg t) (A := fun _ ↦ True) hfit (Shaped.tablesInv cfg).stable
    (Unmarked.serves placidChip_grants sn (t.owner sn)) (fun _ _ ↦ hunmarked) (fun _ _ ↦ trivial)
    (fun _ ↦ trivial) (fun _ ↦ trivial) hs hshaped)
  exact hq.owner ((h.tables (fun hres ↦ hraw hres.2) t' e' hr).owner sn hs)

/-- Whoever released a free number gave it to a waiting listener. -/
theorem HarmlessRelease.not_waiting (hfit : cfg.Fits) (h : HarmlessRelease cfg t sn)
    (ht : Settled cfg t) (hs : cfg.IsSock sn) (hfree : t.owner sn = toeSnFree)
    (hd : cfg.IsDesc fd) : ¬Waiting t fd := by
  intro hw
  have hrel : WellOwned cfg (toeSnRelease cfg sn t) := by
    rw [toeSnRelease_free hfree]
    exact .inr ht
  obtain ⟨t', e', hr, hq⟩ := exists_release (wiztoeSocketRelease_serves (G := fun _ _ _ ↦ True)
    (J := fun t (_ : Unit) ↦ WellOwned cfg t) (A := fun _ ↦ True) hfit
      (WellOwned.tablesInv cfg).stable
    (Served.serves placidChip_grants) (fun _ _ ↦ .all hrel) (fun _ _ ↦ trivial)
    (fun _ ↦ trivial) (fun _ ↦ trivial) hs (.inr ht))
  have hsame := h.tables (fun hres ↦ absurd (hfree.symm.trans hres.2) (by decide)) t' e' hr
  have hw' : Waiting t' fd := by
    rw [Waiting, hsame.desc fd ⟨hd.1, hd.2, hw.1⟩]
    exact hw
  refine hq.busy hd hw' (by simp) sn ⟨hs.1, hs.2, ?_⟩
  rw [hsame.owner sn hs, hfree]

/-- Before the first touch the tables do not agree, and releasing a number does not make them. -/
theorem HarmlessRelease.init (hS : 0 < cfg.maxSock) (hD : 0 < cfg.maxDesc)
    (h : HarmlessRelease cfg t sn) (ht : FirstTouched cfg t) : t.tablesInit = true := by
  rw [← Bool.not_eq_false]
  intro hi
  have hun : Untouched cfg t := ht.owned.resolve_right fun hs ↦ absurd hs.1 (by simp [hi])
  have hnone : ∀ fd, cfg.IsDesc fd → ¬Waiting t fd := by
    intro fd hd hw
    exact absurd hw.1 (by simp [hun.2 fd hd])
  obtain ⟨t', e', hr, rfl⟩ := exists_release (wiztoeSocketRelease_idle hnone sn)
  by_cases hs : cfg.IsSock sn
  · have hown :=
      (h.tables (fun hres ↦ absurd ((ht.owner hi sn).symm.trans hres.2) (by decide)) _ e' hr).owner
      sn hs
    rw [toeSnRelease_of_mem hs.1 hs.2, Tables.setOwner_owner_self, ht.owner hi sn] at hown
    exact absurd hown (by decide)
  · rw [toeSnRelease, if_neg (by exact hs)] at hr
    have hd : cfg.IsDesc 0 := ⟨le_rfl, by omega⟩
    have hused := ((h.agrees t e' hr 0 0 hd ⟨le_rfl, by omega⟩).mp (ht.owner hi 0)).1
    exact absurd hused (by simp [hun.2 0 hd])

/-- **Release.** In every state that careful histories reach, releasing a number harms nobody if and
only if the tables were touched before and the number is outside of them, or reserved, or free while
no listener waits. -/
theorem release_harmless_iff (hfit : cfg.Fits) (hS : 0 < cfg.maxSock) (hD : 0 < cfg.maxDesc)
    {e : Unit} (h : CarefulHistory cfg t e) (sn : ℤ) :
    HarmlessRelease cfg t sn ↔ Releasable cfg t sn := by
  have ht := FirstTouched.history hfit h
  constructor
  · intro hh
    have hi := hh.init hS hD ht
    have hs := ht.settled hi
    refine ⟨hi, fun hsn ↦ (hh.marked hfit hs hsn).imp_right fun hfree ↦
      ⟨hfree, fun fd hd ↦ ?_⟩⟩
    exact hh.not_waiting hfit hs hsn hfree hd
  · exact fun hr ↦ hr.harmless hfit (ht.settled hr.init)

/-! ## One descriptor, one hardware socket -/

/-- The tables after the first `wiztoe_socket`. -/
def oneSocket : Tables := afterCall w5500 .closed (.socket 2 1 0) .zero

theorem oneSocket_history : CarefulHistory w5500 oneSocket () :=
  History.call (.socket 2 1 0) .start (fun _ heq ↦ by cases heq)
    (afterCall_returns (fun _ _ _ ↦ trivial) (by decide))

/-- Releasing the number of another descriptor's hardware socket. -/
theorem release_harmless_iff_oneSocket : HarmlessRelease w5500 oneSocket 0 ↔
    Releasable w5500 oneSocket 0 :=
  release_harmless_iff w5500_fits (by decide) (by decide) oneSocket_history 0

/-- Descriptor 0 holds hardware socket 0, and its release leaves it held by descriptor 0 and
free. -/
theorem not_release_harmless :
    ¬∀ (t : Tables) (e : Unit), CarefulHistory w5500 t e → ∀ sn,
    HarmlessRelease w5500 t sn := by
  intro h
  have hrun : Returns Env.any ((Call.socketRelease 0).prog w5500) oneSocket () ()
      (afterCall w5500 .closed (.socketRelease 0) oneSocket) () :=
    afterCall_returns (fun _ _ _ ↦ trivial) (by decide)
  have hmut := (h oneSocket () oneSocket_history 0).agrees _ () hrun 0 0 ⟨le_rfl, by decide⟩
    ⟨le_rfl, by decide⟩
  have hown := hmut.mpr ⟨by decide, by decide⟩
  exact absurd hown (by decide)

end WsmDriver
