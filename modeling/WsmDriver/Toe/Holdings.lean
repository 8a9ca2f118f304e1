import WsmDriver.Toe.Confinement
import Mathlib.Data.Finset.Card
import Mathlib.Data.Finset.Range

/-!
# Which hardware sockets change hands

Most calls leave every descriptor with the hardware socket it holds. A new descriptor takes the
first free one. A listener that is re-armed, by its own `accept` or by a call that returns a
hardware socket, takes the first one that is free at that moment; which one that is depends on how
many were claimed since the call began, and so on what ioLibrary answered. It is always among the
few lowest of those that were free, or became free, when the call began, and how many that are is
the number of claims before it.
-/

namespace WsmDriver

open Effect

variable {cfg : ToeConfig} {E : Type} {U : Env Tables E ChipOp.Ans} {b t t' : Tables} {e : E}
  {fd c x sn s : ℤ} {l : List ℕ} {n : ℕ}

/-- The descriptor `fd` holds the hardware socket `sn`. -/
def Holds (cfg : ToeConfig) (t : Tables) (fd sn : ℤ) : Prop :=
  toeFdReady cfg t fd ∧ (t.desc fd).sn = sn

instance (t : Tables) (sn : ℤ) : Decidable (IsFree cfg t sn) := by
  unfold IsFree; infer_instance

/-- One of the `n` lowest free hardware sockets. -/
def IsLowFree (cfg : ToeConfig) (t : Tables) (n : ℕ) (sn : ℤ) : Prop :=
  IsFree cfg t sn ∧ ((Finset.range sn.toNat).filter fun s : ℕ ↦ IsFree cfg t s).card < n

instance (t : Tables) (n : ℕ) (sn : ℤ) : Decidable (IsLowFree cfg t n sn) := by
  unfold IsLowFree; infer_instance

/-- How many listeners that wait come before `fd`. -/
def waitingBefore (t : Tables) (fd : ℤ) : ℕ :=
  ((Finset.range fd.toNat).filter fun i : ℕ ↦ Waiting t i).card

namespace Holds

theorem owner (h : Holds cfg t fd sn) (hw : WellOwned cfg t) : t.owner sn = fd := by
  obtain ⟨hr, rfl⟩ := h
  exact ((hw.of_valid hr.1).2.owner_of_ready hr).2

/-- No two descriptors hold the same hardware socket. -/
theorem eq (h : Holds cfg t fd sn) (h' : Holds cfg t c sn) (hw : WellOwned cfg t) : fd = c :=
  (h.owner hw).symm.trans (h'.owner hw)

theorem not_free (h : Holds cfg t fd sn) (hw : WellOwned cfg t) : ¬IsFree cfg t sn := fun hs ↦
  toeSnFree_ne h.1.1.1 ((h.owner hw).symm.trans hs.2.2)

theorem of_desc (h : Holds cfg t' x sn) (hu : (t'.desc x).used = (t.desc x).used)
    (hs : (t'.desc x).sn = (t.desc x).sn) : Holds cfg t x sn := by
  obtain ⟨⟨hv, h₀⟩, rfl⟩ := h
  exact ⟨⟨⟨hv.1, hv.2.1, hu ▸ hv.2.2⟩, hs ▸ h₀⟩, hs.symm⟩

theorem of_upd {f : Desc → Desc} (h : Holds cfg (t.upd fd f) x sn)
    (hu : (f (t.desc fd)).used = (t.desc fd).used) (hs : (f (t.desc fd)).sn = (t.desc fd).sn) :
    Holds cfg t x sn := by
  by_cases hx : x = fd
  · subst hx
    exact h.of_desc (by rw [Tables.upd_desc_self, hu]) (by rw [Tables.upd_desc_self, hs])
  · have hd := t.upd_desc_ne (f := f) hx
    exact h.of_desc (by rw [hd]) (by rw [hd])

theorem of_setOpened {o : Bool} (h : Holds cfg (t.setOpened fd o) x sn) : Holds cfg t x sn :=
  h.of_upd rfl rfl

/-- A listener that has given its hardware socket up holds none. -/
theorem of_disarm (h : Holds cfg (toeListenerDisarm cfg fd t) x sn) :
    x ≠ fd ∧ Holds cfg t x sn := by
  have hne : x ≠ fd := by
    rintro rfl
    have h₀ := h.1.2
    rw [toeListenerDisarm, Tables.upd_desc_self] at h₀
    exact absurd h₀ (by dsimp only; omega)
  have hd : (toeListenerDisarm cfg fd t).desc x = t.desc x := toeListenerDisarm_desc_ne hne
  exact ⟨hne, h.of_desc (by rw [hd]) (by rw [hd])⟩

theorem of_init (h : Holds cfg (toeTablesInit cfg t) x sn) (hw : WellOwned cfg t) :
    Holds cfg t x sn := by
  rcases hw with hu | hi
  · -- Nothing is in use yet.
    have hused := h.1.1.2.2
    rw [toeTablesInit_desc hu.1 h.1.1.1 h.1.1.2.1, hu.2 x h.1.1.isDesc] at hused
    exact absurd hused (by simp)
  · rwa [toeTablesInit_of_init hi.1] at h

theorem of_arm (h : Holds cfg (t.arm fd sn) x s) (hne : x ≠ fd) : Holds cfg t x s := by
  have hd : (t.arm fd sn).desc x = t.desc x := Tables.upd_desc_ne _ _ hne
  exact h.of_desc (by rw [hd]) (by rw [hd])

end Holds

/-! ## What becomes free -/

theorem IsFree.disarm (h : IsFree cfg t s) : IsFree cfg (toeListenerDisarm cfg fd t) s := by
  rw [toeListenerDisarm]
  split
  · rw [toeSnRelease]
    split
    · refine ⟨h.1, h.2.1, ?_⟩
      rw [Tables.upd_owner, Tables.setOwner_owner]
      split
      · rfl
      · exact h.2.2
    · exact h
  · exact h

/-- What a listener gives up is free afterwards. -/
theorem Holds.free_disarm (h : Holds cfg t fd sn) (hw : WellOwned cfg t) :
    IsFree cfg (toeListenerDisarm cfg fd t) sn := by
  have hs := ((hw.of_valid h.1.1).2.owner_of_ready h.1).1
  rw [toeListenerDisarm, if_pos h.1.2, toeSnRelease_of_mem hs.1 hs.2, ← h.2]
  exact ⟨hs.1, hs.2, by simp⟩

theorem IsFree.of_disarm (h : IsFree cfg (toeListenerDisarm cfg fd t) s)
    (hr : toeFdReady cfg t fd) : IsFree cfg t s ∨ Holds cfg t fd s := by
  rw [toeListenerDisarm, if_pos hr.2, toeSnRelease] at h
  split at h
  · exact (IsFree.of_setOwner_free (t := t) h).imp_right fun heq ↦ ⟨hr, heq.symm⟩
  · exact .inl h

theorem IsFree.of_disarm_waiting (h : IsFree cfg (toeListenerDisarm cfg fd t) s)
    (hn : (t.desc fd).sn < 0) : IsFree cfg t s := by
  rwa [toeListenerDisarm, if_neg (by omega)] at h

/-- The first free hardware socket is among the lowest of those that were free before, if few of
these have been taken since. -/
theorem IsNextFree.low {A : Finset ℕ} {f : ℕ → ℕ} (hs : IsNextFree cfg t sn)
    (hb : IsFree cfg b sn) (hf : ∀ s : ℕ, IsFree cfg b s → ¬IsFree cfg t s → f s ∈ A)
    (hinj : ∀ s s' : ℕ, IsFree cfg b s → ¬IsFree cfg t s → IsFree cfg b s' →
      ¬IsFree cfg t s' → f s = f s' → s = s') :
    IsLowFree cfg b (A.card + 1) sn := by
  -- What is below it and was free before is free no longer.
  have hgone : ∀ s ∈ (Finset.range sn.toNat).filter fun s : ℕ ↦
      IsFree cfg b s, IsFree cfg b s ∧ ¬IsFree cfg t s := by
    intro s hmem
    obtain ⟨hlt, hfree⟩ := Finset.mem_filter.mp hmem
    have hlt := Finset.mem_range.mp hlt
    refine ⟨hfree, fun hs' ↦ ?_⟩
    have := hs.le hs'
    omega
  refine ⟨hb, Nat.lt_succ_of_le (Finset.card_le_card_of_injOn f (fun s hmem ↦ ?_)
    fun s hmem s' hmem' heq ↦ ?_)⟩
  · exact hf s (hgone s hmem).1 (hgone s hmem).2
  · exact hinj s s' (hgone s hmem).1 (hgone s hmem).2 (hgone s' hmem').1 (hgone s' hmem').2 heq

/-! ## Serving the waiting listeners -/

/-- While waiting listeners are served, from the tables `b`, with the descriptors of `l` still to be
visited: those that waited and have been visited may have taken one of the lowest free hardware
sockets, and nothing else has changed hands. -/
structure Serving (cfg : ToeConfig) (b : Tables) (l : List ℕ) (t : Tables) : Prop where
  owned : WellOwned cfg t
  same : SameListeners b t
  kept : ∀ x, ¬Waiting b x ∨ (∃ i ∈ l, (i : ℤ) = x) → (t.desc x).sn = (b.desc x).sn
  taken : ∀ x sn, Waiting b x → Holds cfg t x sn → IsLowFree cfg b (waitingBefore b x + 1) sn
  free : ∀ s, IsFree cfg t s → IsFree cfg b s
  back : ∀ s, IsFree cfg b s → IsFree cfg t s ∨ ∃ x, Waiting b x ∧ Holds cfg t x s
  sorted : l.Pairwise (· < ·)
  ahead : ∀ i ∈ l, ∀ x, cfg.IsDesc x → (∀ j ∈ l, (j : ℤ) ≠ x) → x < i

namespace Serving

theorem tail {i : ℕ} (h : Serving cfg b (i :: l) t) : Serving cfg b l t where
  owned := h.owned
  same := h.same
  kept x hx := h.kept x (hx.imp_right fun ⟨j, hj, heq⟩ ↦ ⟨j, List.mem_cons_of_mem i hj, heq⟩)
  taken := h.taken
  free := h.free
  back := h.back
  sorted := (List.pairwise_cons.mp h.sorted).2
  ahead j hj x hd hx := by
    by_cases hi : (i : ℤ) = x
    · have := (List.pairwise_cons.mp h.sorted).1 j hj
      omega
    · refine h.ahead j (List.mem_cons_of_mem i hj) x hd fun k hk ↦ ?_
      rcases List.mem_cons.mp hk with rfl | hk
      · exact hi
      · exact hx k hk

/-- A descriptor that is still to be visited waits only if it waited before. -/
theorem waiting {i : ℕ} (h : Serving cfg b (i :: l) t) (hw : Waiting t i) : Waiting b i := by
  refine ⟨(h.same i).1 ▸ hw.1, (h.same i).2 ▸ hw.2.1, ?_⟩
  rw [← h.kept i (.inr ⟨i, List.mem_cons_self .., rfl⟩)]
  exact hw.2.2

/-- Of the hardware sockets that were free the ones taken by now are held by listeners that come
before the one to be visited next. -/
theorem low {i : ℕ} (h : Serving cfg b (i :: l) t) (hs : IsNextFree cfg t sn) :
    IsLowFree cfg b (waitingBefore b i + 1) sn := by
  have hholder : ∀ s : ℕ, IsFree cfg b s → ¬IsFree cfg t s → ∃ x, Waiting b x ∧
      Holds cfg t x s :=
    fun s hb ht ↦ (h.back s hb).resolve_left ht
  refine hs.low (f := fun s ↦ (t.owner s).toNat) (h.free sn hs.free) (fun s hb ht ↦ ?_)
    fun s s' hb ht hb' ht' heq ↦ ?_
  · obtain ⟨x, hx, hh⟩ := hholder s hb ht
    have hd := hh.1.1.isDesc
    have hx₀ := hd.1
    -- Had it not been visited yet, it would wait still.
    have hlt := h.ahead i (List.mem_cons_self ..) x hd fun j hj heq ↦ by
      have hsn := h.kept x (.inr ⟨j, hj, heq⟩)
      have hneg := hx.2.2
      have h₀ := hh.1.2
      omega
    rw [hh.owner h.owned]
    refine Finset.mem_filter.mpr ⟨Finset.mem_range.mpr (by omega), ?_⟩
    rwa [Int.toNat_of_nonneg hx₀]
  · obtain ⟨x, -, hh⟩ := hholder s hb ht
    obtain ⟨x', -, hh'⟩ := hholder s' hb' ht'
    have hx₀ := hh.1.1.1
    have hx₀' := hh'.1.1.1
    rw [hh.owner h.owned, hh'.owner h.owned] at heq
    obtain rfl : x = x' := by omega
    exact Int.ofNat_inj.mp (hh.2.symm.trans hh'.2)

theorem arm {i : ℕ} (h : Serving cfg b (i :: l) t) (hi : i ∉ l) (hv : toeFdValid cfg t i)
    (hw : Waiting t i) (hs : IsNextFree cfg t sn) : Serving cfg b l (t.arm i sn) := by
  have hb := h.waiting hw
  have hd : ∀ x : ℤ, x ≠ i → (t.arm i sn).desc x = t.desc x :=
    fun x hne ↦ Tables.upd_desc_ne _ _ hne
  have hself : Holds cfg (t.arm i sn) i sn :=
    ⟨⟨by simpa [toeFdValid, Tables.arm] using hv, by simpa [Tables.arm] using hs.free.1⟩,
      by simp [Tables.arm]⟩
  refine { h.tail with
    owned := h.owned.move (.arm hv hw.2.1 hw.2.2 hs.free)
    same := fun x ↦ ?_
    kept := fun x hx ↦ ?_
    taken := fun x s hx hh ↦ ?_
    free := fun s hs' ↦ h.free s (IsFree.of_setOwner (t := t) hs' (toeSnFree_ne hv.1))
    back := fun s hb' ↦ ?_ }
  · have hsame : SameListeners t (t.arm i sn) := SameListeners.upd (t := t.setOwner sn i) rfl rfl
    exact ⟨(hsame x).1.trans (h.same x).1, (hsame x).2.trans (h.same x).2⟩
  · have hne : x ≠ i := by
      rintro rfl
      rcases hx with hx | ⟨j, hj, heq⟩
      · exact hx hb
      · exact hi (Int.ofNat_inj.mp heq ▸ hj)
    rw [hd x hne]
    exact h.tail.kept x hx
  · by_cases hx' : x = i
    · subst hx'
      obtain rfl : sn = s := hself.2.symm.trans hh.2
      exact h.low hs
    · exact h.taken x s hx (hh.of_arm hx')
  · by_cases hsn : s = sn
    · exact .inr ⟨i, hb, hsn ▸ hself⟩
    · rcases h.back s hb' with hs' | ⟨x, hx, hh⟩
      · refine .inl ⟨hs'.1, hs'.2.1, ?_⟩
        rw [Tables.arm, Tables.upd_owner, Tables.setOwner_owner_ne _ _ hsn, hs'.2.2]
      · have hne : x ≠ i := by
          rintro rfl
          exact absurd hh.1.2 (not_le.mpr hw.2.2)
        exact .inr ⟨x, hx, hh.of_desc (by rw [hd x hne]) (by rw [hd x hne])⟩

theorem setOpened {x : ℤ} (h : Serving cfg b l t) (hr : toeFdReady cfg t x) (o : Bool) :
    Serving cfg b l (t.setOpened x o) := by
  have hsame : SameListeners t (t.setOpened x o) := .upd rfl rfl
  have hsn : ∀ y, ((t.setOpened x o).desc y).sn = (t.desc y).sn := by
    intro y
    rw [Tables.setOpened, Tables.upd_desc]
    split
    · rename_i hy
      rw [hy]
    · rfl
  exact { h with
    owned := h.owned.move (.opened o hr)
    same := fun y ↦ ⟨(hsame y).1.trans (h.same y).1, (hsame y).2.trans (h.same y).2⟩
    kept := fun y hy ↦ (hsn y).trans (h.kept y hy)
    taken := fun y s hy hh ↦ h.taken y s hy hh.of_setOpened
    back := fun s hs ↦ by
      rcases h.back s hs with hs | ⟨y, hy, hh⟩
      · exact .inl hs
      · exact .inr ⟨y, hy, hh.of_desc (hsame y).1.symm (hsn y).symm⟩ }

/-- A listener that waited gives up again what it took. -/
theorem disarm {i : ℕ} (h : Serving cfg b l t) (hi : i ∉ l) (hb : Waiting b i)
    (hr : toeFdReady cfg t i) (hl : (t.desc i).listening = true) :
    Serving cfg b l (toeListenerDisarm cfg i t) := by
  have hsame : SameListeners t (toeListenerDisarm cfg i t) := .disarm
  have htaken := h.taken i _ hb ⟨hr, rfl⟩
  exact { h with
    owned := h.owned.move (.disarm hr hl)
    same := fun x ↦ ⟨(hsame x).1.trans (h.same x).1, (hsame x).2.trans (h.same x).2⟩
    kept := fun x hx ↦ by
      have hne : x ≠ i := by
        rintro rfl
        rcases hx with hx | ⟨j, hj, heq⟩
        · exact hx hb
        · exact hi (Int.ofNat_inj.mp heq ▸ hj)
      rw [toeListenerDisarm_desc_ne hne]
      exact h.kept x hx
    taken := fun x s hx hh ↦ h.taken x s hx hh.of_disarm.2
    free := fun s hs ↦ by
      rcases hs.of_disarm hr with hs | hh
      · exact h.free s hs
      · exact hh.2 ▸ htaken.1
    back := fun s hs ↦ by
      rcases h.back s hs with hs | ⟨x, hx, hh⟩
      · exact .inl hs.disarm
      by_cases hne : x = i
      · subst hne
        exact .inl (hh.free_disarm h.owned)
      · have hd : (toeListenerDisarm cfg i t).desc x = t.desc x := toeListenerDisarm_desc_ne hne
        exact .inr ⟨x, hx, hh.of_desc (by rw [hd]) (by rw [hd])⟩ }

theorem serves (U : Env Tables E ChipOp.Ans) (b : Tables) : Serves cfg U fun l t _ ↦
    Serving cfg b l t where
  stable _ := WellOwned.stable U fun _ h ↦ h.owned
  opens _ := ⟨fun h _ _ _ ↦ h, fun h hr _ ↦ h.setOpened hr true⟩
  listens hi h₁ hw :=
    { unopened := fun h hr hl _ _ ↦ h.disarm hi (h₁.waiting hw) hr hl
      unlistened := fun h hr hl _ _ ↦ h.disarm hi (h₁.waiting hw) hr hl }
  skip h _ := h.tail
  arm hi h hv hw hs := h.arm hi hv hw hs
  none h _ _ := h.tail

theorem start (hw : WellOwned cfg b) : Serving cfg b (List.range cfg.maxDesc) b where
  owned := hw
  same _ := ⟨rfl, rfl⟩
  kept _ _ := rfl
  taken _ _ hx hh := absurd hh.1.2 (by rw [not_le]; exact hx.2.2)
  free _ hs := hs
  back _ hs := .inl hs
  sorted := List.pairwise_lt_range
  ahead _ _ x hd hx := by
    have hx₀ := hd.1
    have hx₁ := hd.2
    exact absurd (Int.toNat_of_nonneg hx₀) (hx x.toNat (List.mem_range.mpr (by omega)))

/-- After all of them have been visited a descriptor holds what it held, or it is a listener that
has been served. -/
theorem holds (h : Serving cfg b [] t) (hh : Holds cfg t x sn) :
    Holds cfg b x sn ∨ (Waiting b x ∧ IsLowFree cfg b (waitingBefore b x + 1) sn) := by
  by_cases hx : Waiting b x
  · exact .inr ⟨hx, h.taken x sn hx hh⟩
  · exact .inl (hh.of_desc (h.same x).1 (h.kept x (.inl hx)))

end Serving

/-! ## Accepting -/

/-- While the listener `fd` is polled by an `accept` made with the tables `t₀`: it holds what it
held or the lowest of the hardware sockets that were free or its own, and nothing else has changed
hands. -/
structure Polling (cfg : ToeConfig) (t₀ : Tables) (fd : ℤ) (t : Tables) : Prop where
  owned : WellOwned cfg t
  others : ∀ x, x ≠ fd → (t.desc x).used = (t₀.desc x).used ∧ (t.desc x).sn =
    (t₀.desc x).sn
  own : ∀ sn, Holds cfg t₀ fd sn → IsFree cfg (toeListenerDisarm cfg fd t₀) sn
  taken : ∀ sn, Holds cfg t fd sn → Holds cfg t₀ fd sn ∨
    IsLowFree cfg (toeListenerDisarm cfg fd t₀) 1 sn
  free : ∀ s, IsFree cfg t s → IsFree cfg (toeListenerDisarm cfg fd t₀) s
  back : ∀ s, IsFree cfg (toeListenerDisarm cfg fd t₀) s → IsFree cfg t s ∨ Holds cfg t fd s

/-- What descriptors may hold after an `accept` made with the tables `t₀`: what they held; or they
are the listener or the new connection, and hold what the listener held or one of the lowest of the
hardware sockets that were free or its own. -/
structure Relocated (cfg : ToeConfig) (t₀ : Tables) (fd : ℤ) (t : Tables) : Prop where
  owned : WellOwned cfg t
  holds : ∀ x sn, Holds cfg t x sn → Holds cfg t₀ x sn ∨ ((x = fd ∨ IsUnused cfg t₀ x) ∧
    (Holds cfg t₀ fd sn ∨ IsLowFree cfg (toeListenerDisarm cfg fd t₀) 1 sn ∨
      (∃ c, IsUnused cfg t₀ c) ∧ IsLowFree cfg (toeListenerDisarm cfg fd t₀) 2 sn))

namespace Polling

variable {t₀ : Tables}

theorem start (hw : WellOwned cfg t) (hv : toeFdValid cfg t fd) : Polling cfg t fd t where
  owned := hw
  others _ _ := ⟨rfl, rfl⟩
  own _ hh := hh.free_disarm hw
  taken _ hh := .inl hh
  free _ hs := hs.disarm
  back s hs := by
    rcases lt_or_ge (t.desc fd).sn 0 with hn | hn
    · exact .inl (hs.of_disarm_waiting hn)
    · exact hs.of_disarm ⟨hv, hn⟩

/-- The hardware socket of the listener is one that was free or its own. -/
theorem taken_free (h : Polling cfg t₀ fd t) (hh : Holds cfg t fd sn) :
    IsFree cfg (toeListenerDisarm cfg fd t₀) sn :=
  (h.taken sn hh).elim (h.own sn) And.left

theorem relocated (h : Polling cfg t₀ fd t) : Relocated cfg t₀ fd t := by
  refine ⟨h.owned, fun x sn hh ↦ ?_⟩
  by_cases hx : x = fd
  · subst hx
    exact (h.taken sn hh).imp_right fun hlow ↦ ⟨.inl rfl, .inr (.inl hlow)⟩
  · exact .inl (hh.of_desc (h.others x hx).1 (h.others x hx).2)

theorem setOpened (h : Polling cfg t₀ fd t) (hr : toeFdReady cfg t fd) (o : Bool) :
    Polling cfg t₀ fd (t.setOpened fd o) where
  owned := h.owned.move (.opened o hr)
  others x hx := by
    rw [Tables.setOpened, Tables.upd_desc_ne _ _ hx]
    exact h.others x hx
  own := h.own
  taken s hh := h.taken s hh.of_setOpened
  free := h.free
  back s hs := (h.back s hs).imp_right fun hh ↦
    hh.of_desc (by simp [Tables.setOpened]) (by simp [Tables.setOpened])

theorem disarm (h : Polling cfg t₀ fd t) (hr : toeFdReady cfg t fd)
    (hl : (t.desc fd).listening = true) : Polling cfg t₀ fd (toeListenerDisarm cfg fd t) where
  owned := h.owned.move (.disarm hr hl)
  others x hx := by
    rw [toeListenerDisarm_desc_ne hx]
    exact h.others x hx
  own := h.own
  taken _ hh := absurd rfl hh.of_disarm.1
  free s hs := (hs.of_disarm hr).elim (h.free s) h.taken_free
  back s hs := .inl <| (h.back s hs).elim IsFree.disarm fun hh ↦ hh.free_disarm h.owned

theorem arm (h : Polling cfg t₀ fd t) (hl : IsListener cfg t fd) (hn : (t.desc fd).sn < 0)
    (hs : IsNextFree cfg t sn) : Polling cfg t₀ fd (t.arm fd sn) where
  owned := h.owned.move (.arm hl.1 hl.2 hn hs.free)
  others x hx := by
    rw [Tables.arm, Tables.upd_desc_ne _ _ hx]
    exact h.others x hx
  own := h.own
  taken s hh := by
    obtain rfl : sn = s := by simpa [Tables.arm] using hh.2
    -- The listener held nothing, so what was free is free still.
    have hnone : ∀ s : ℕ, IsFree cfg (toeListenerDisarm cfg fd t₀) s → ¬IsFree cfg t s →
        False :=
      fun s hb ht ↦ (h.back s hb).elim ht fun hh ↦ absurd hh.1.2 (not_le.mpr hn)
    exact .inr (hs.low (A := ∅) (f := id) (h.free sn hs.free) (fun s hb ht ↦ (hnone s hb ht).elim)
      fun s _ hb ht ↦ (hnone s hb ht).elim)
  free s hs' := h.free s (IsFree.of_setOwner (t := t) hs' (toeSnFree_ne hl.1.1))
  back s hb := by
    by_cases hsn : s = sn
    · subst hsn
      exact .inr ⟨⟨hl.arm.1, by simpa [Tables.arm] using hs.free.1⟩, by simp [Tables.arm]⟩
    · rcases h.back s hb with hs' | hh
      · refine .inl ⟨hs'.1, hs'.2.1, ?_⟩
        rw [Tables.arm, Tables.upd_owner, Tables.setOwner_owner_ne _ _ hsn, hs'.2.2]
      · exact absurd hh.1.2 (not_le.mpr hn)

/-- The connection holds what the listener held, and the others hold what they did. -/
theorem handover_holds (h : Polling cfg t₀ fd t) (hr : toeFdReady cfg t fd) (hc : IsUnused cfg t c)
    (hh : Holds cfg (t.handover fd c) x sn) :
    x ≠ fd ∧ ((x = c ∧ Holds cfg t fd sn) ∨ Holds cfg t₀ x sn) := by
  have hne := hr.ne_unused hc
  have hx : x ≠ fd := by
    rintro rfl
    exact absurd hh.1.2 (by simp [Tables.handover])
  refine ⟨hx, ?_⟩
  by_cases hxc : x = c
  · subst hxc
    refine .inl ⟨rfl, hr, ?_⟩
    rw [← hh.2]
    simp [Tables.handover, Tables.upd_desc_ne _ _ hne]
  · have hd : (t.handover fd c).desc x = t.desc x := by
      rw [Tables.handover, Tables.upd_desc_ne _ _ hx, Tables.setOwner_desc,
        Tables.upd_desc_ne _ _ hxc]
    have hxt := h.others x hx
    exact .inr (hh.of_desc (by rw [hd, hxt.1]) (by rw [hd, hxt.2]))

theorem handover (h : Polling cfg t₀ fd t) (hr : toeFdReady cfg t fd)
    (hl : (t.desc fd).listening = true) (hc : IsUnused cfg t c) :
    Relocated cfg t₀ fd (t.handover fd c) := by
  refine ⟨h.owned.move (.handover hr hl hc), fun x sn hh ↦ ?_⟩
  have hc₀ : IsUnused cfg t₀ c := ⟨hc.1, hc.2.1, (h.others c (hr.ne_unused hc)).1 ▸ hc.2.2⟩
  rcases (h.handover_holds hr hc hh).2 with ⟨rfl, hfd⟩ | hx
  · exact .inr ⟨.inr hc₀, (h.taken sn hfd).imp_right .inl⟩
  · exact .inl hx

theorem handover_arm (h : Polling cfg t₀ fd t) (hr : toeFdReady cfg t fd)
    (hl : (t.desc fd).listening = true) (hc : IsUnused cfg t c)
    (hs : IsNextFree cfg (t.handover fd c) sn) :
    Relocated cfg t₀ fd ((t.handover fd c).arm fd sn) := by
  have hlis := IsListener.handover ⟨hr.1, hl⟩ hc
  have hK := h.handover hr hl hc
  have hc₀ : IsUnused cfg t₀ c := ⟨hc.1, hc.2.1, (h.others c (hr.ne_unused hc)).1 ▸ hc.2.2⟩
  refine ⟨hK.owned.move (.arm hlis.1 hlis.2 (by simp [Tables.handover]) hs.free),
    fun x s hh ↦ ?_⟩
  by_cases hx : x = fd
  · subst hx
    obtain rfl : sn = s := by simpa [Tables.arm] using hh.2
    -- Of the hardware sockets that were free only the one handed over has been taken.
    have hgone : ∀ s : ℕ, IsFree cfg (toeListenerDisarm cfg x t₀) s →
        ¬IsFree cfg (t.handover x c) s →
        s = (t.desc x).sn.toNat := by
      intro s hb hns
      rcases h.back s hb with ht | hown
      · refine absurd ⟨ht.1, ht.2.1, ?_⟩ hns
        have hsn : (s : ℤ) ≠ (t.desc x).sn := by
          intro heq
          exact Holds.not_free ⟨hr, heq.symm⟩ h.owned ht
        rw [Tables.handover, Tables.upd_owner, Tables.setOwner_owner_ne _ _ hsn]
        exact ht.2.2
      · rw [hown.2]
        rfl
    refine .inr ⟨.inl rfl, .inr (.inr ⟨⟨c, hc₀⟩, ?_⟩)⟩
    exact hs.low (A := {(t.desc x).sn.toNat}) (f := id) (h.free sn (hs.free.of_handover hc.1))
      (fun s hb hns ↦ Finset.mem_singleton.mpr (hgone s hb hns))
      fun s s' hb hns hb' hns' _ ↦ (hgone s hb hns).trans (hgone s' hb' hns').symm
  · exact hK.holds x s (hh.of_arm hx)

end Polling

namespace Relocated

variable {t₀ : Tables}

theorem accepts (U : Env Tables E ChipOp.Ans) (t₀ : Tables) (fd : ℤ) :
    Accepts cfg U (fun t _ ↦ Polling cfg t₀ fd t) (fun t _ ↦ Relocated cfg t₀ fd t)
      (fun t _ ↦ Relocated cfg t₀ fd t) fd where
  stable := WellOwned.stable U fun _ h ↦ h.owned
  arm h hl hn hs := h.arm hl hn hs
  opens := ⟨fun h _ _ _ ↦ h, fun h hr _ ↦ h.setOpened hr true⟩
  listens := ⟨fun h hr hl _ _ ↦ h.disarm hr hl, fun h hr hl _ _ ↦ h.disarm hr hl⟩
  defers h hr _ := h.setOpened hr false
  handsOver :=
    ⟨fun h hr hl hc hs ↦ h.handover_arm hr hl hc hs, fun h hr hl hc _ ↦ h.handover hr hl hc⟩
  stable' := WellOwned.stable U fun _ h ↦ h.owned
  opens' :=
    { refused := fun h _ _ _ ↦ h
      granted := fun h hr _ ↦
        ⟨h.owned.move (.opened true hr), fun x s hh ↦ h.holds x s hh.of_setOpened⟩ }
  listens' :=
    { unopened := fun h hr hl _ _ ↦ ⟨h.owned.move (.disarm hr hl),
      fun x s hh ↦ h.holds x s hh.of_disarm.2⟩
      unlistened := fun h hr hl _ _ ↦
        ⟨h.owned.move (.disarm hr hl), fun x s hh ↦ h.holds x s hh.of_disarm.2⟩ }
  le h := h.relocated
  le' h := h

end Relocated

/-! ## Creating -/

/-- Whether `wiztoe_socket` knows the type. -/
def SocketType (type : ℤ) : Prop := type = 1 ∨ type = 2

/-- A new descriptor takes the first free hardware socket. -/
theorem wiztoeSocket_holds (hfit : cfg.Fits) (hw : WellOwned cfg t) (domain type protocol : ℤ) :
    wlp U (fun _ _ _ ↦ True) (wiztoeSocket cfg domain type protocol) (fun _ t' _ ↦
      WellOwned cfg t' ∧ ∀ x sn, Holds cfg t' x sn → Holds cfg t x sn ∨ (SocketType type ∧
        IsUnused cfg (toeTablesInit cfg t) x ∧ IsNextFree cfg (toeTablesInit cfg t) sn)) t e := by
  have hsock := hfit.maxSock_le
  have hdesc := hfit.maxDesc_le
  unfold wiztoeSocket
  refine pre_modify_bind.mpr ?_
  have hw₁ := hw.move (.init t)
  have hold : ∀ x sn, Holds cfg (toeTablesInit cfg t) x sn → Holds cfg t x sn :=
    fun x sn hh ↦ hh.of_init hw
  have hi := toeTablesInit_tablesInit cfg t
  generalize toeTablesInit cfg t = t₁ at hw₁ hold hi
  refine pre_ite (fun _ _ _ ↦ ⟨hw₁, fun x sn hh ↦ .inl (hold x sn hh)⟩) fun htype ↦ ?_
  have htype : SocketType type := by
    unfold SocketType
    omega
  refine pre_modifyGet_bind.mpr ?_
  rcases toeDescAlloc_cases cfg t₁ with ⟨c, hc, heq⟩ | ⟨heq, -⟩
  · obtain ⟨hc₀, hc₁, -⟩ := id hc
    rw [heq]
    dsimp only
    rw [if_neg (by omega)]
    refine pre_modifyGet_bind.mpr ?_
    rcases toeSnAlloc_next cfg c (t₁.upd c fun _ ↦ { used := true, sn := -1 }) with
      ⟨sn, hs, heq⟩ | ⟨heq, -⟩
    · obtain ⟨hs₀, hs₁, -⟩ := hs.free
      rw [heq]
      dsimp only
      rw [if_neg (by omega), int8_of_lt hc₀ (by omega), int8_of_lt hs₀ (by omega)]
      have hs' : IsNextFree cfg t₁ sn := ⟨hs.free, fun h ↦ hs.le h⟩
      refine pre_modify_bind.mpr fun e' _ ↦ ?_
      rw [Tables.setOwner_upd, Tables.upd_upd]
      refine ⟨hw₁.move (.socket (decide (type = 2)) hi hc hs'.free), fun x s hh ↦ ?_⟩
      by_cases hx : x = c
      · subst hx
        obtain rfl : sn = s := by simpa using hh.2
        exact .inr ⟨htype, hc, hs'⟩
      · have hd :=
          (t₁.setOwner sn c).upd_desc_ne
          (f := fun _ ↦ { used := true, sn := sn, isUdp := decide (type = 2) }) hx
        exact .inl (hold x s (hh.of_desc (by rw [hd, Tables.setOwner_desc])
          (by rw [hd, Tables.setOwner_desc])))
    · rw [heq]
      dsimp only
      rw [if_pos (by omega)]
      refine pre_modify_bind.mpr fun e' _ ↦ ?_
      rw [toeDescClear, Tables.upd_upd]
      refine ⟨hw₁.move (.scrub hi hc), fun x s hh ↦ ?_⟩
      by_cases hx : x = c
      · subst hx
        exact absurd hh.1.1.2.2 (by simp)
      · have hd := t₁.upd_desc_ne (f := fun _ ↦ { sn := -1 }) hx
        exact .inl (hold x s (hh.of_desc (by rw [hd]) (by rw [hd])))
  · rw [heq]
    dsimp only
    rw [if_pos (by omega)]
    exact fun _ _ ↦ ⟨hw₁, fun x sn hh ↦ .inl (hold x sn hh)⟩

/-! ## Nothing changes hands -/

/-- Every descriptor holds what it held, or nothing. -/
structure Steady (cfg : ToeConfig) (t t' : Tables) : Prop where
  owned : WellOwned cfg t'
  holds : ∀ x sn, Holds cfg t' x sn → Holds cfg t x sn

namespace Steady

theorem refl (hw : WellOwned cfg t) : Steady cfg t t := ⟨hw, fun _ _ hh ↦ hh⟩

theorem upd (h : Steady cfg t t') {f : Desc → Desc} (hw : WellOwned cfg (t'.upd fd f))
    (hu : (f (t'.desc fd)).used = (t'.desc fd).used) (hs : (f (t'.desc fd)).sn = (t'.desc fd).sn) :
    Steady cfg t (t'.upd fd f) :=
  ⟨hw, fun x sn hh ↦ h.holds x sn (hh.of_upd hu hs)⟩

theorem settles (U : Env Tables E ChipOp.Ans) (t : Tables) (c : Call) (t₁ : Tables) :
    Settles cfg U (fun t' _ ↦ Steady cfg t t') (fun _ _ _ ↦ True) c t₁ where
  toStable := WellOwned.stable U fun _ h ↦ h.owned
  tune h hv hf _ := h.upd (h.owned.move (.tune hv hf)) hf.used hf.sn
  licenses _ _ _ _ _ := trivial
  binds _ _ := trivial
  connects _ _ _ := trivial
  init h := ⟨h.owned.move (.init _), fun x sn hh ↦ h.holds x sn (hh.of_init h.owned)⟩
  listening b h hr htcp := h.upd (h.owned.move (.listening b hr htcp)) rfl rfl
  reserves _ _ _ _ hi hs h := ⟨h.owned.move (.reserve hi hs), h.holds⟩
  opens _ := ⟨fun h _ _ _ ↦ h, fun h hr _ ↦ h.upd (h.owned.move (.opened true hr)) rfl rfl⟩
  defers _ _ := fun h hr _ ↦ h.upd (h.owned.move (.opened false hr)) rfl rfl

end Steady

/-! ## All calls -/

/-- The hardware sockets the call, made with the tables `t`, may claim for the descriptor `x`. -/
def Call.Claims (cfg : ToeConfig) (t : Tables) (x sn : ℤ) : Call → Prop
  | .socket _ type _ => SocketType type ∧ IsUnused cfg (toeTablesInit cfg t) x ∧
      IsNextFree cfg (toeTablesInit cfg t) sn
  | .accept fd => IsListener cfg t fd ∧ (x = fd ∨ IsUnused cfg t x) ∧
      (IsLowFree cfg (toeListenerDisarm cfg fd t) 1 sn ∨
        (∃ c, IsUnused cfg t c) ∧ IsLowFree cfg (toeListenerDisarm cfg fd t) 2 sn)
  | .close fd => toeFdValid cfg t fd ∧ Waiting (t.closed cfg fd) x ∧
      IsLowFree cfg (t.closed cfg fd) (waitingBefore (t.closed cfg fd) x + 1) sn
  | .socketRelease s => cfg.IsSock s ∧ Waiting (toeSnRelease cfg s t) x ∧
      IsLowFree cfg (toeSnRelease cfg s t) (waitingBefore (toeSnRelease cfg s t) x + 1) sn
  | _ => False

/-- What the descriptor `x` may hold after the call: what it held, or what the call claimed for it,
or, as a new connection, what its listener held. -/
inductive Call.MayHold (cfg : ToeConfig) (t : Tables) (c : Call) (x sn : ℤ) : Prop
  | kept (h : Holds cfg t x sn) : Call.MayHold cfg t c x sn
  | handed {fd : ℤ} (hc : c = .accept fd) (hx : x = fd ∨ IsUnused cfg t x)
      (h : Holds cfg t fd sn) : Call.MayHold cfg t c x sn
  | claimed (h : c.Claims cfg t x sn) : Call.MayHold cfg t c x sn

/-- The tables are still the ones the call was made with. -/
theorem stable_at (U : Env Tables E ChipOp.Ans) (t : Tables) :
    Stable cfg U fun t' _ ↦ t' = t ∧ WellOwned cfg t' := WellOwned.stable U fun _ h ↦ h.2

/-- **What a call can give to whom.** -/
theorem Call.holds_after (hfit : cfg.Fits) (hw : WellOwned cfg t) (c : Call)
    (hrel : ∀ s, c = .socketRelease s → WellOwned cfg (toeSnRelease cfg s t)) :
    wlp U (fun _ _ _ ↦ True) (c.prog cfg) (fun _ t' _ ↦
      WellOwned cfg t' ∧ ∀ x sn, Holds cfg t' x sn → c.MayHold cfg t x sn) t e := by
  have hsteady : ∀ {t'}, Steady cfg t t' →
      WellOwned cfg t' ∧ ∀ x sn, Holds cfg t' x sn → c.MayHold cfg t x sn :=
    fun h ↦ ⟨h.owned, fun x sn hh ↦ .kept (h.holds x sn hh)⟩
  by_cases hset : c.settled = true
  · exact (((Steady.settles U t c t).prog hset (.refl hw)).guard fun _ _ _ _ ↦ trivial).imp
      fun _ _ _ ↦ hsteady
  cases c with
  | socket domain type protocol =>
    refine pre_discard ((wiztoeSocket_holds hfit hw domain type protocol).imp fun _ t' _ h _ _ ↦
      ⟨h.1, ?_⟩)
    exact fun x sn hh ↦ (h.2 x sn hh).elim .kept fun hclaim ↦ .claimed hclaim
  | accept fd =>
    by_cases hl : IsListener cfg t fd
    · refine pre_discard
        (((wiztoeAccept_keeps hfit (Relocated.accepts U t fd) (.start hw hl.1)).guard
        fun _ _ _ _ ↦ trivial).imp fun r t' _ h _ _ ↦ ?_)
      have hK : Relocated cfg t fd t' := (lt_or_ge r 0).elim (fun hr ↦ (h.1 hr).relocated) h.2
      refine ⟨hK.owned, fun x sn hh ↦ ?_⟩
      rcases hK.holds x sn hh with hk | ⟨hx, hown | hlow⟩
      · exact .kept hk
      · exact .handed rfl hx hown
      · exact .claimed ⟨hl, hx, hlow⟩
    · -- Not a listener: the call is refused at once.
      have hc : ¬toeFdValid cfg t fd ∨ (t.desc fd).listening = false :=
        (not_and_or.mp hl).imp_right Bool.eq_false_of_not_eq_true
      change wlp U (fun _ _ _ ↦ True) (discard (wiztoeAccept cfg fd)) _ t e
      unfold wiztoeAccept
      refine pre_discard (pre_get_bind.mpr ?_)
      rw [if_pos hc]
      exact fun _ _ _ _ ↦ hsteady (.refl hw)
  | socketRelease s =>
    have hb := hrel s rfl
    by_cases hs : 0 ≤ s ∧ s < cfg.maxSock
    · refine (wiztoeSocketRelease_serves (A := fun _ ↦ True) hfit (stable_at U t)
        (Serving.serves U (toeSnRelease cfg s t)) (fun h _ ↦ h.1 ▸ .start hb) (fun _ _ ↦ trivial)
        (fun _ ↦ trivial) (fun _ ↦ trivial) hs ⟨rfl, hw⟩).imp fun _ t' _ h ↦
          ⟨h.owned, fun x sn hh ↦ ?_⟩
      rcases h.holds hh with hk | hx
      · exact .kept (hk.of_desc (by rw [toeSnRelease_desc]) (by rw [toeSnRelease_desc]))
      · exact .claimed ⟨hs, hx⟩
    · exact (wiztoeSocketRelease_invalid (Steady.settles U t (.socketRelease s) t).toStable hs
        (.refl hw)).imp fun _ _ _ ↦ hsteady
  | close fd =>
    refine pre_discard (pre.imp ?_ fun _ _ _ h _ _ ↦ h)
    by_cases hv : toeFdValid cfg t fd
    · have hb := hw.move (.close hv)
      refine (wiztoeClose_serves (A := fun _ ↦ True) hfit (stable_at U t)
        (Serving.serves U (t.closed cfg fd)) ⟨fun h _ _ ↦ .start hb, fun h _ _ ↦ .start hb⟩
        (fun _ _ ↦ trivial)
        (fun _ ↦ trivial) (fun _ ↦ trivial) hv ⟨rfl, hw⟩).imp fun _ t' _ h ↦
          ⟨h.owned, fun x sn hh ↦ ?_⟩
      rcases h.holds hh with hk | hx
      · have hne : x ≠ fd := by
          rintro rfl
          exact absurd hk.1.1.2.2 (by simp [Tables.closed, toeDescClear])
        have hd : (t.closed cfg fd).desc x = t.desc x := closed_desc_ne hne
        exact .kept (hk.of_desc (by rw [hd]) (by rw [hd]))
      · exact .claimed ⟨hv, hx⟩
    · exact (wiztoeClose_invalid (Steady.settles U t (.close fd) t).toStable hv (.refl hw)).imp
        fun _ _ _ ↦ hsteady
  | _ => exact absurd rfl hset

end WsmDriver
