import WsmDriver.Toe.Holdings

/-!
# What a call leaves to the others

A descriptor that holds a hardware socket keeps it whatever is called on other descriptors: a
hardware socket is taken from its descriptor only by the calls that close it or accept on it.
`Leaves A` relates the tables before and after a piece of a call that may take from the descriptors
in `A` and from no others.

Everything here is about undisturbed pieces of a call. A call that goes on after a yield may find
its descriptor in another role than the one it was made for, so the pieces of `accept` are analysed
without the assumption that its descriptor is a listener.
-/

namespace WsmDriver

open Effect

variable {cfg : ToeConfig} {E : Type} {U : Env Tables E ChipOp.Ans} {A : ℤ → Prop}
  {t t' t₀ : Tables} {e : E} {fd c sn x : ℤ}

/-- The tables agree, and every descriptor outside `A` is left with the hardware socket it held. -/
structure Leaves (cfg : ToeConfig) (A : ℤ → Prop) (t₀ t : Tables) : Prop where
  owned : WellOwned cfg t
  holds : ∀ {x sn}, ¬A x → Holds cfg t₀ x sn → Holds cfg t x sn

theorem Holds.to_desc (h : Holds cfg t x sn) (hd : t'.desc x = t.desc x) : Holds cfg t' x sn :=
  h.of_desc (by rw [hd]) (by rw [hd])

/-- Kinds of transitions that take no hardware socket from a descriptor. -/
def Kind.taking : Kind → Bool
  | .disarm | .handover | .close => true
  | _ => false

theorem Kind.not_taking_of_calm {k : Kind} (h : k.calm = true) : k.taking = false := by
  cases k with
  | disarm => exact absurd h (by decide)
  | handover => exact absurd h (by decide)
  | close => exact absurd h (by decide)
  | _ => rfl

namespace Leaves

theorem refl (hw : WellOwned cfg t) : Leaves cfg A t t := ⟨hw, fun _ hh ↦ hh⟩

theorem trans (h : Leaves cfg A t₀ t) (h' : Leaves cfg A t t') : Leaves cfg A t₀ t' :=
  ⟨h'.owned, fun hx hh ↦ h'.holds hx (h.holds hx hh)⟩

theorem mono {B : ℤ → Prop} (h : Leaves cfg A t₀ t) (hAB : ∀ x, A x → B x) :
    Leaves cfg B t₀ t :=
  ⟨h.owned, fun hx hh ↦ h.holds (fun hA ↦ hx (hAB _ hA)) hh⟩

/-- A descriptor that held nothing has nothing to lose. -/
theorem except (h : Leaves cfg (fun x ↦ A x ∨ x = fd) t₀ t)
    (hfd : ∀ s, ¬Holds cfg t₀ fd s) : Leaves cfg A t₀ t := by
  refine ⟨h.owned, fun {x sn} hx hh ↦ h.holds ?_ hh⟩
  rintro (hA | rfl)
  · exact hx hA
  · exact hfd sn hh

/-! ## One change -/

/-- The descriptors that held something are not touched. -/
theorem of_desc (hw : WellOwned cfg t')
    (hd : ∀ x, ¬A x → toeFdReady cfg t x → t'.desc x = t.desc x) :
    Leaves cfg A t t' := ⟨hw, fun hx hh ↦ hh.to_desc (hd _ hx hh.1)⟩

theorem upd (hw : WellOwned cfg (t.upd fd f)) (hu : (f (t.desc fd)).used = (t.desc fd).used)
    (hs : (f (t.desc fd)).sn = (t.desc fd).sn) : Leaves cfg A t (t.upd fd f) := by
  refine ⟨hw, fun {x sn} _ hh ↦ ?_⟩
  by_cases hx : x = fd
  · subst hx
    exact hh.of_desc (by rw [Tables.upd_desc_self, hu]) (by rw [Tables.upd_desc_self, hs])
  · exact hh.to_desc (t.upd_desc_ne _ hx)

/-- Most transitions take nothing from anyone. -/
theorem move {k : Kind} (hw : WellOwned cfg t) (hm : Move cfg k t t') (hk : k.taking = false) :
    Leaves cfg A t t' := by
  have hw' := hw.move hm
  cases hm with
  | init =>
    refine of_desc hw' fun x _ hr ↦ ?_
    rw [toeTablesInit_of_init (hw.of_valid hr.1).1]
  | tune hv hf => exact upd hw' hf.used hf.sn
  | listening b hr htcp => exact upd hw' rfl rfl
  | @socket _ c sn udp hi hc hs =>
    exact of_desc hw' fun x _ hr ↦ Tables.upd_desc_ne _ _ (hr.ne_unused hc).symm
  | scrub hi hc => exact of_desc hw' fun x _ hr ↦ Tables.upd_desc_ne _ _ (hr.ne_unused hc).symm
  | reserve => exact of_desc hw' fun _ _ _ ↦ rfl
  | release => exact of_desc hw' fun _ _ _ ↦ rfl
  | arm hv hl hn hs =>
    refine of_desc hw' fun x _ hr ↦ Tables.upd_desc_ne _ _ ?_
    rintro rfl
    exact absurd hr.2 (not_le.mpr hn)
  | opened b hr => exact upd hw' rfl rfl
  | disarm => exact absurd hk (by decide)
  | handover => exact absurd hk (by decide)
  | close => exact absurd hk (by decide)

theorem arm (hw : WellOwned cfg t) (hv : toeFdValid cfg t fd) (hn : (t.desc fd).sn < 0)
    (hs : IsFree cfg t sn) : Leaves cfg A t (t.arm fd sn) := by
  obtain ⟨hi, ho⟩ := hw.of_valid hv
  refine of_desc (.inr ⟨hi, ho.arm hv hn hs⟩) fun x _ hr ↦ Tables.upd_desc_ne _ _ ?_
  rintro rfl
  exact absurd hr.2 (not_le.mpr hn)

theorem disarm (hw : WellOwned cfg t) (hA : A fd) (hr : toeFdReady cfg t fd) :
    Leaves cfg A t (toeListenerDisarm cfg fd t) := by
  obtain ⟨hi, ho⟩ := hw.of_valid hr.1
  refine of_desc (.inr ⟨?_, ho.disarm hr⟩) fun x hx _ ↦ toeListenerDisarm_desc_ne ?_
  · rw [toeListenerDisarm, if_pos hr.2, Tables.upd_tablesInit, toeSnRelease_tablesInit, hi]
  · rintro rfl
    exact hx hA

theorem handover (hw : WellOwned cfg t) (hA : A fd) (hr : toeFdReady cfg t fd)
    (hc : IsUnused cfg t c) : Leaves cfg A t (t.handover fd c) := by
  obtain ⟨hi, ho⟩ := hw.of_valid hr.1
  refine of_desc (.inr ⟨hi, ho.handover hr hc⟩) fun x hx hrx ↦ ?_
  have hxfd : x ≠ fd := by
    rintro rfl
    exact hx hA
  rw [Tables.handover, Tables.upd_desc_ne _ _ hxfd, Tables.setOwner_desc,
    Tables.upd_desc_ne _ _ (hrx.ne_unused hc).symm]

theorem close (hw : WellOwned cfg t) (hA : A fd) (hv : toeFdValid cfg t fd) :
    Leaves cfg A t (t.closed cfg fd) := by
  refine of_desc (hw.move (.close hv)) fun x hx _ ↦ closed_desc_ne ?_
  rintro rfl
  exact hx hA

/-! ## The analyses of whole functions -/

theorem stable (U : Env Tables E ChipOp.Ans) (A : ℤ → Prop) (t₀ : Tables) :
    Stable cfg U fun t _ ↦ Leaves cfg A t₀ t := WellOwned.stable U fun _ h ↦ h.owned

theorem keeps (U : Env Tables E ChipOp.Ans) (A : ℤ → Prop) (t₀ : Tables) :
    Keeps cfg U fun t _ ↦ Leaves cfg A t₀ t :=
  { stable U A t₀ with
    move := fun {_ _ _ _} hk h hm ↦ h.trans (.move h.owned hm (Kind.not_taking_of_calm hk)) }

theorem setOpened (h : Leaves cfg A t₀ t) (hr : toeFdReady cfg t fd) (b : Bool) :
    Leaves cfg A t₀ (t.setOpened fd b) := h.trans (.move h.owned (.opened b hr) rfl)

theorem opens (U : Env Tables E ChipOp.Ans) (A : ℤ → Prop) (t₀ : Tables) (fd : ℤ) :
    Opens cfg U (fun t _ ↦ Leaves cfg A t₀ t) fd :=
  ⟨fun h _ _ _ ↦ h, fun h hr _ ↦ h.setOpened hr true⟩

theorem defers (U : Env Tables E ChipOp.Ans) (A : ℤ → Prop) (t₀ : Tables) (fd : ℤ) :
    Defers cfg U (fun t _ ↦ Leaves cfg A t₀ t) fd := fun h hr _ ↦ h.setOpened hr false

/-- The settled calls take nothing from anyone. -/
theorem settles (U : Env Tables E ChipOp.Ans) (A : ℤ → Prop) (t₀ : Tables) (c : Call)
    (t : Tables) : Settles cfg U (fun t _ ↦ Leaves cfg A t₀ t) (fun _ _ _ ↦ True) c t :=
  { stable U A t₀ with
    tune := fun {_ _ _ _} h hv hf _ ↦ h.trans (.move h.owned (.tune hv hf) rfl)
    licenses := fun _ _ _ _ _ ↦ trivial
    binds := fun _ _ ↦ trivial
    connects := fun _ _ _ ↦ trivial
    init := fun h ↦ h.trans (.move h.owned (.init _) rfl)
    listening := fun b h hr htcp ↦ h.trans (.move h.owned (.listening b hr htcp) rfl)
    reserves := fun _ {_ _ _} hi hs h ↦ h.trans (.move h.owned (.reserve hi hs) rfl)
    opens := opens U A t₀
    defers := fun fd _ ↦ defers U A t₀ fd }

/-- A listener that waits when its turn comes held nothing at the start, so it has nothing to lose
when it gives up again what it took. -/
theorem serves (U : Env Tables E ChipOp.Ans) (A : ℤ → Prop) (t₀ : Tables) :
    Serves cfg U fun _ t _ ↦ Leaves cfg A t₀ t where
  stable _ := stable U A t₀
  opens _ := opens U A t₀ _
  listens {fd _ t _} _ h hw := by
    by_cases hA : A fd
    · exact ⟨fun h hr _ _ _ ↦ h.trans (.disarm h.owned hA hr), fun h hr _ _ _ ↦ h.trans
        (.disarm h.owned hA hr)⟩
    have hnone : ∀ s, ¬Holds cfg t₀ fd s := fun s hh ↦
      absurd (h.holds hA hh).1.2 (not_le.mpr hw.2.2)
    have hdis : ∀ {t' : Tables}, Leaves cfg A t₀ t' → toeFdReady cfg t' fd →
        Leaves cfg A t₀ (toeListenerDisarm cfg fd t') := fun h' hr ↦
      ((h'.mono fun _ ↦ .inl).trans (.disarm h'.owned (.inr rfl) hr)).except hnone
    exact ⟨fun h' hr _ _ _ ↦ hdis h' hr, fun h' hr _ _ _ ↦ hdis h' hr⟩
  skip h _ := h
  arm _ h hv hw hs := h.trans (.arm h.owned hv hw.2.2 hs.free)
  none h _ _ := h

end Leaves

/-! ## Accepting on a descriptor in any role -/

section Accept

variable {R : ℕ → ℕ → Prop}

theorem toeListenerReopen_leaves (hr : toeFdReady cfg t fd) (h : Leaves cfg A t₀ t) :
    pre U (fun _ _ _ ↦ True) R (toeListenerReopen fd)
      (fun _ t' _ ↦ SetsOpened fd t t' ∧ Leaves cfg A t₀ t') t e := by
  refine ((toeListenerReopen_leads (A := fun _ ↦ True) (F := fun _ _ ↦ True)
    (Leaves.stable U A t₀)
    (Leaves.opens U A t₀ fd) (fun _ _ _ _ ↦ trivial) (fun _ _ _ _ _ ↦ trivial)
    (.inr (Leaves.defers U A t₀ fd)) trivial hr h).guard fun _ _ _ _ ↦ trivial).imp ?_
  exact fun _ _ _ h ↦ ⟨h.1, h.2.1⟩

/-- A live descriptor without a hardware socket takes the first free one. -/
theorem toeListenerRearm_leaves (hfit : cfg.Fits) (hA : A fd)
    (hv : toeFdValid cfg t fd ∨ ∀ sn, ¬IsFree cfg t sn) (h : Leaves cfg A t₀ t) :
    pre U (fun _ _ _ ↦ True) R (discard <| toeListenerRearm cfg fd)
    (fun _ t' _ ↦ Leaves cfg A t₀ t') t e := by
  refine pre_discard (pre.imp ?_ fun _ _ _ h _ _ ↦ h)
  have hvalid : ∀ sn, IsFree cfg t sn → toeFdValid cfg t fd :=
    fun sn hs ↦ hv.resolve_right fun hnone ↦ hnone sn hs
  refine pre_toeListenerRearm hfit (fun sn hs ↦ (hvalid sn hs).isDesc) (fun _ _ _ ↦ h)
    (fun sn hn hs ↦ ?_) fun _ _ _ _ ↦ h
  have hv := hvalid sn hs.free
  -- The hardware socket that is given to `fd` was nobody's.
  have harm := h.trans (.arm h.owned hv hn hs.free)
  have hr : toeFdReady cfg (t.arm fd sn) fd :=
    ⟨by simpa [toeFdValid, Tables.arm] using hv, by simpa [Tables.arm] using hs.free.1⟩
  refine pre.seq (toeListenerReopen_leaves hr harm) ?_
  rintro r t' e ⟨hset, h'⟩
  refine pre_ite (fun _ ↦ pre_modify_bind.mpr fun _ _ ↦ ?_) fun _ _ _ ↦ h'
  exact h'.trans (.disarm h'.owned hA (hset.ready hr))

theorem toeAcceptEstablished_leaves (hfit : cfg.Fits) (hA : A fd) (hr : toeFdReady cfg t fd)
    (h : Leaves cfg A t₀ t) :
    pre U (fun _ _ _ ↦ True) R (toeAcceptEstablished cfg fd)
    (fun _ t' _ ↦ Leaves cfg A t₀ t') t e := by
  rcases toeDescAlloc_cases cfg t with ⟨c, hc, heq⟩ | ⟨heq, -⟩
  · refine (toeAcceptEstablished_handover hfit ((Leaves.stable U A t₀).range (e := e) h hr.1) hr hc
      heq).mpr ?_
    have hne := hr.ne_unused hc
    have hv : toeFdValid cfg (t.handover fd c) fd := by
      simpa [toeFdValid, Tables.handover, Tables.upd_desc_ne _ _ hne.symm] using hr.1
    refine pre.seq (toeListenerRearm_leaves hfit hA (.inl hv)
      (h.trans (.handover h.owned hA hr hc))) ?_
    exact fun _ _ _ h _ _ ↦ h
  · exact (toeAcceptEstablished_full heq).mpr fun _ _ ↦ h

theorem toeAcceptStatus_leaves (hfit : cfg.Fits) (hA : A fd) (hr : toeFdReady cfg t fd) (sr : SnSR)
    (h : Leaves cfg A t₀ t) :
    pre U (fun _ _ _ ↦ True) R (toeAcceptStatus cfg fd sr)
    (fun _ t' _ ↦ Leaves cfg A t₀ t') t e := by
  refine pre_toeAcceptStatus (fun _ ↦ ?_) (fun _ _ _ ↦ h) (fun _ ↦ ?_) fun _ ↦ ?_
  · exact pre.seq (toeAcceptEstablished_leaves hfit hA hr h) fun _ _ _ h _ _ ↦ h
  · refine pre_perform_bind.mpr fun _ _ ↦ ⟨trivial, fun r e _ ↦ ?_⟩
    refine pre_when_bind (fun _ ↦ pre_modify_bind.mpr fun _ _ ↦ ?_) fun _ _ _ ↦ h
    exact h.trans (.disarm h.owned hA hr)
  · refine pre.seq (toeListenerReopen_leaves hr h) ?_
    rintro r t' e ⟨hset, h'⟩
    refine pre_when_bind (fun _ ↦ pre_modify_bind.mpr fun _ _ ↦ ?_) fun _ _ _ ↦ h'
    exact h'.trans (.disarm h'.owned hA (hset.ready hr))

/-- A turn of `accept` up to the wait, on a live descriptor, or on a dead one while there is nothing
to take. -/
theorem toeAcceptPoll_leaves (hfit : cfg.Fits) (hA : A fd)
    (hv : toeFdValid cfg t fd ∨ ((t.desc fd).sn < 0 ∧ ∀ sn, ¬IsFree cfg t sn))
    (h : Leaves cfg A t₀ t) :
    pre U (fun _ _ _ ↦ True) R (toeAcceptPoll cfg fd) (fun _ t' _ ↦ Leaves cfg A t₀ t') t e := by
  unfold toeAcceptPoll
  refine pre_get_bind.mpr (pre_ite (fun _ ↦ ?_) fun hn ↦ ?_)
  · exact pre.seq (toeListenerRearm_leaves hfit hA (hv.imp_right And.right) h) fun _ _ _ h _ _ ↦ h
  · have hr : toeFdReady cfg t fd := ⟨hv.resolve_right fun hd ↦ hn hd.1, not_lt.mp hn⟩
    refine pre_perform_bind.mpr fun _ _ ↦ ⟨trivial, fun sr e _ ↦ ?_⟩
    exact toeAcceptStatus_leaves hfit hA hr sr h

end Accept

end WsmDriver
