import WsmDriver.Toe.Confinement

/-!
# No free hardware socket while a listener waits for one

A listener loses its hardware socket inside its own `accept` and gets one back inside someone else's
`close` or `release`. Where ioLibrary grants every `socket` and `listen`, no hardware socket is left
free between calls as long as some listener waits: the listener that hands its socket over takes a
free one at once or finds none, and the loop that runs when a socket comes back leaves no listener
unserved while there is one.
-/

namespace WsmDriver

open Effect

variable {cfg : ToeConfig} {E : Type} {U : Env Tables E ChipOp.Ans}
  {V : Call → Env Tables E ChipOp.Ans} {e₀ e e' : E} {t t' : Tables} {fd sn c : ℤ} {l : List ℕ}

/-- Nobody outside of `l` waits while a hardware socket is free. -/
structure Served (cfg : ToeConfig) (l : List ℕ) (t : Tables) : Prop where
  owned : WellOwned cfg t
  busy : ∀ {fd}, cfg.IsDesc fd → Waiting t fd → (∀ i ∈ l, (i : ℤ) ≠ fd) → ∀ sn,
    ¬IsFree cfg t sn

namespace Served

theorem zero (cfg : ToeConfig) : Served cfg [] .zero :=
  ⟨.zero cfg, fun _ hw ↦ absurd hw.1 (by simp [Tables.zero])⟩

/-- Fewer waiting listeners and fewer free hardware sockets. -/
theorem shrink (h : Served cfg l t) (hw : WellOwned cfg t')
    (hwait : ∀ fd, cfg.IsDesc fd → Waiting t' fd → Waiting t fd)
    (hfree : ∀ sn, IsFree cfg t' sn → IsFree cfg t sn) : Served cfg l t' :=
  ⟨hw, fun hd hx hl sn hs ↦ h.busy hd (hwait _ hd hx) hl sn (hfree sn hs)⟩

theorem of_none (hw : WellOwned cfg t) (hnone : ∀ sn, ¬IsFree cfg t sn) : Served cfg l t :=
  ⟨hw, fun _ _ _ ↦ hnone⟩

end Served

/-! ## What the moves do to waiting listeners and free sockets -/

theorem Waiting.of_upd {f : Desc → Desc} (h : Waiting (t.upd fd f) c)
    (hf : (f (t.desc fd)).used = true → (f (t.desc fd)).listening = true →
      (f (t.desc fd)).sn < 0 → Waiting t fd) : Waiting t c := by
  rw [Waiting, Tables.upd_desc] at h
  split at h
  · rename_i heq
    rw [heq]
    exact hf h.1 h.2.1 h.2.2
  · exact h

theorem Waiting.of_setOpened {b : Bool} (h : Waiting (t.setOpened fd b) c) : Waiting t c :=
  h.of_upd fun hu hl hn ↦ ⟨hu, hl, hn⟩

theorem Waiting.of_arm (h : Waiting (t.arm fd sn) c) (hs : 0 ≤ sn) : Waiting t c ∧ c ≠ fd := by
  refine ⟨Waiting.of_upd (t := t.setOwner sn fd) h fun _ _ hn ↦ absurd hn (not_lt.mpr hs), ?_⟩
  rintro rfl
  have := h.2.2
  rw [Tables.arm, Tables.upd_desc_self] at this
  exact absurd this (not_lt.mpr hs)

theorem Waiting.of_handover (h : Waiting (t.handover fd c) sn) (hne : sn ≠ fd) : Waiting t sn := by
  rw [Waiting, Tables.handover, Tables.upd_desc_ne _ _ hne, Tables.setOwner_desc,
    Tables.upd_desc] at h
  split at h
  · exact absurd h.2.1 (by simp)
  · exact h

/-- The calm moves make no listener wait. -/
theorem Waiting.of_calm {k : Kind} (h : Waiting t' c) (hk : k.calm = true) (hm : Move cfg k t t')
    (hi : t.tablesInit = true) : Waiting t c := by
  -- A calm move may end a wait, but it makes nobody wait.
  cases hm with
  | init => rwa [toeTablesInit_of_init hi] at h
  | tune hv hf =>
    refine h.of_upd fun hu hl hn ↦ ?_
    rw [hf.used] at hu
    rw [hf.listening] at hl
    rw [hf.sn] at hn
    exact ⟨hu, hl, hn⟩
  | listening b hr =>
    have hr₀ := hr.2
    exact h.of_upd fun _ _ hn ↦ absurd hr₀ (by simpa using hn)
  | socket => exact Waiting.of_upd (t := t.setOwner _ _) h fun _ hl _ ↦ absurd hl (by simp)
  | scrub => exact h.of_upd fun hu _ _ ↦ absurd hu (by simp)
  | arm _ _ _ hs => exact (h.of_arm hs.1).1
  | reserve => exact absurd hk (by decide)
  | release => exact absurd hk (by decide)
  | opened => exact absurd hk (by decide)
  | disarm => exact absurd hk (by decide)
  | handover => exact absurd hk (by decide)
  | close => exact absurd hk (by decide)

namespace Served

/-- The calm moves add neither a waiting listener nor a free hardware socket. -/
theorem move (h : Served cfg l t) {k : Kind} (hk : k.calm = true) (hm : Move cfg k t t') :
    Served cfg l t' := by
  have hw := h.owned.move hm
  rcases h.owned.calm hk hm with hi | ⟨hu, rfl⟩
  · exact h.shrink hw (fun x _ hx ↦ hx.of_calm hk hm hi) fun _ hs ↦ hs.of_calm hk hm hi
  · -- Before the first touch no descriptor is in use.
    refine ⟨hw, fun {fd} hd hx ↦ ?_⟩
    rw [Waiting, toeTablesInit_desc hu.1 hd.1 hd.2, hu.2 fd hd] at hx
    exact absurd hx.1 (by simp)

theorem reserve (h : Served cfg l t) (hi : t.tablesInit = true) (hs : IsFree cfg t sn) :
    Served cfg l (t.setOwner sn toeSnRaw) :=
  h.shrink (h.owned.move (.reserve hi hs)) (fun _ _ hx ↦ hx) fun _ hs ↦ hs.of_setOwner (by decide)

theorem setOpened (h : Served cfg l t) (hr : toeFdReady cfg t fd) (b : Bool) :
    Served cfg l (t.setOpened fd b) :=
  h.shrink (h.owned.move (.opened b hr)) (fun _ _ hx ↦ hx.of_setOpened) fun _ hs ↦ hs

theorem stable (U : Env Tables E ChipOp.Ans) (l : List ℕ) :
    Stable cfg U fun t _ ↦ Served cfg l t := WellOwned.stable U fun _ h ↦ h.owned

theorem opens (U : Env Tables E ChipOp.Ans) (l : List ℕ) (fd : ℤ) :
    Opens cfg U (fun t _ ↦ Served cfg l t) fd where
  refused h _ _ _ := h
  granted h hr _ := h.setOpened hr true

/-- A listener never has to give its hardware socket up. -/
theorem listens (hU : Grants U) (l : List ℕ) (fd : ℤ) :
    Listens cfg U (fun t _ ↦ Served cfg l t) fd where
  unopened _ _ _ hans hne := absurd (hU.socket hans) hne
  unlistened _ _ _ hans hne := absurd (hU.listen hans) hne

theorem handsOver (fd : ℤ) :
    HandsOver cfg (fun t (_ : E) ↦ Served cfg [] t) (fun t _ ↦ Served cfg [] t) fd where
  armed {t e c sn} h hr hl hc hs := by
    have hlis := IsListener.handover ⟨hr.1, hl⟩ hc
    have hw := (h.owned.move (.handover hr hl hc)).move
      (.arm hlis.1 hlis.2 (by simp [Tables.handover]) hs.free)
    refine h.shrink hw (fun x _ hx ↦ ?_) fun y hy ↦ ?_
    · obtain ⟨hx, hne⟩ := hx.of_arm hs.free.1
      exact hx.of_handover hne
    · exact (IsFree.of_setOwner (t := t.handover fd c) hy (toeSnFree_ne hr.1.1)).of_handover hc.1
  unarmed h hr hl hc hnone := .of_none (h.owned.move (.handover hr hl hc)) hnone

theorem skip {i : ℕ} (h : Served cfg (i :: l) t) (hi : ¬Waiting t i) : Served cfg l t := by
  refine ⟨h.owned, fun {x} hd hx hl ↦ h.busy hd hx fun j hj ↦ ?_⟩
  rcases List.mem_cons.mp hj with rfl | hj
  · rintro rfl
    exact hi hx
  · exact hl j hj

theorem serves (hU : Grants U) : Serves cfg U fun l t _ ↦ Served cfg l t where
  stable := stable U
  opens _ := opens U _ _
  listens _ _ _ := listens hU _ _
  skip h := h.skip
  arm _ h hv hw hs := (h.move rfl (.arm hv hw.2.1 hw.2.2 hs.free)).skip fun hx ↦
    (hx.of_arm hs.free.1).2 rfl
  none h _ hnone := .of_none h.owned hnone

/-- Nothing is asked of the descriptors that are still to be visited. -/
theorem all (hw : WellOwned cfg t) : Served cfg (List.range cfg.maxDesc) t := by
  refine ⟨hw, fun {x} hd _ hl ↦ ?_⟩
  have hd₀ := hd.1
  have hd₁ := hd.2
  exact absurd (Int.toNat_of_nonneg hd₀) (hl x.toNat (List.mem_range.mpr (by omega)))

theorem maintains (hU : Grants U) {c : Call} (hc : c.Disciplined cfg t) :
    Maintains cfg U (fun t _ ↦ Served cfg [] t) (fun l t _ ↦ Served cfg l t)
    (fun _ ↦ True) c t where
  keeps := { stable U [] with move := fun {_ _ _ _} hk h hm ↦ h.move hk hm }
  opens := opens U []
  listens := listens hU []
  defers _ _ _ _ _ h hr _ := h.setOpened hr false
  handsOver := handsOver
  reserves _ _ _ _ hi hs h := h.reserve hi hs
  serves := serves hU
  served h := h
  serving _ _ := trivial
  frees _ _ :=
    { idle := fun h hv _ ↦ .all (h.owned.move (.close hv))
      closed := fun h hr _ ↦ .all (h.owned.move (.close hr.1)) }
  releases heq _ _ _ _ h _ := .all (h.owned.release hc heq)

theorem history (hfit : cfg.Fits) (hV : ∀ c, Grants (V c)) (h : ToeHistory cfg V e₀ t e) :
    Served cfg [] t := by
  have hcall : ∀ (c : Call) (t : Tables) (e : E), Served cfg [] t → c.Disciplined cfg t →
      wlp (V c) (c.Guard cfg (fun t _ ↦ Served cfg [] t) (fun l t _ ↦ Served cfg l t)
        (fun _ ↦ True) t) (c.prog cfg) (fun _ t _ ↦ Served cfg [] t) t e := fun c t e h hc ↦
    (maintains (hV c) hc).prog hfit h
  exact h.invariant (I := fun t _ ↦ Served cfg [] t) (.zero cfg) (fun _ _ _ _ h _ ↦ h) hcall

end Served

/-! ## Listeners are in use -/

/-- A descriptor with the `listening` flag is a live one. -/
def ListenersUsed (t : Tables) : Prop :=
  ∀ fd, (t.desc fd).listening = true → (t.desc fd).used = true

theorem ListenersUsed.upd (h : ListenersUsed t) {f : Desc → Desc}
    (hf : (f (t.desc fd)).listening = true → (f (t.desc fd)).used = true) :
    ListenersUsed (t.upd fd f) := by
  intro x
  rw [Tables.upd_desc]
  split
  · exact hf
  · exact h x

theorem ListenersUsed.move (h : ListenersUsed t) {k : Kind} (hm : Move cfg k t t') :
    ListenersUsed t' := by
  cases hm with
  | init =>
    intro x hx
    rw [toeTablesInit] at hx ⊢
    split at hx
    · rw [if_pos ‹_›]
      exact h x hx
    · rw [if_neg ‹_›]
      dsimp only at hx ⊢
      split at hx
      · rw [if_pos ‹_›]
        exact h x hx
      · rw [if_neg ‹_›]
        exact h x hx
  | tune hv hf => exact h.upd fun _ ↦ hf.used.trans hv.2.2
  | listening b hr => exact h.upd fun _ ↦ hr.1.2.2
  | socket => exact ListenersUsed.upd (t := t.setOwner _ _) h fun _ ↦ rfl
  | scrub => exact h.upd fun hl ↦ absurd hl (by simp)
  | reserve => exact h
  | release => exact h
  | arm hv => exact ListenersUsed.upd (t := t.setOwner _ _) h fun _ ↦ hv.2.2
  | opened b hr => exact h.upd fun _ ↦ hr.1.2.2
  | disarm hr =>
    rw [toeListenerDisarm, if_pos hr.2]
    exact ListenersUsed.upd (by simpa [ListenersUsed] using h)
      fun _ ↦ by rw [toeSnRelease_desc]; exact hr.1.2.2
  | @handover _ fd c hr hl hc =>
    have hne : fd ≠ c := by
      rintro rfl
      exact absurd hc.2.2 (by simp [hr.1.2.2])
    rw [Tables.handover]
    refine ListenersUsed.upd (t := (t.upd c _).setOwner _ _) (h.upd fun hl ↦ absurd hl (by simp)) ?_
    intro _
    simpa [Tables.upd_desc_ne _ _ hne] using hr.1.2.2
  | close hv =>
    rw [Tables.closed]
    split
    · exact ListenersUsed.upd (by simpa [ListenersUsed] using h) fun hl ↦ absurd hl (by simp)
    · exact h.upd fun hl ↦ absurd hl (by simp)

theorem ListenersUsed.history (hfit : cfg.Fits) (h : ToeHistory cfg V e₀ t e) :
    ListenersUsed t := by
  have hinv : TablesInv cfg fun t ↦ WellOwned cfg t ∧ ListenersUsed t :=
    (WellOwned.tablesInv cfg).and fun _ h hm ↦ h.move hm
  have hcall : ∀ (c : Call) (t : Tables) (e : E), WellOwned cfg t ∧ ListenersUsed t →
      c.Disciplined cfg t → wlp (V c) (c.Guard cfg (fun t _ ↦ WellOwned cfg t ∧ ListenersUsed t)
        (fun _ t _ ↦ WellOwned cfg t ∧ ListenersUsed t) (fun _ ↦ True) t) (c.prog cfg)
        (fun _ t _ ↦ WellOwned cfg t ∧ ListenersUsed t) t e := by
    intro c t e h hc
    refine (hinv.maintains (fun _ {_ _} hi hs hT ↦ ⟨hT.1.move (.reserve hi hs), hT.2⟩)
      fun sn heq _ hT ↦ ⟨hT.1.release hc heq, fun fd hl ↦ ?_⟩).prog hfit h
    rw [toeSnRelease_desc] at hl ⊢
    exact hT.2 fd hl
  exact (h.invariant (I := fun t _ ↦ WellOwned cfg t ∧ ListenersUsed t)
    ⟨.zero cfg, fun _ hl ↦ absurd hl (by simp [Tables.zero])⟩ (fun _ _ _ _ h _ ↦ h) hcall).2

/-! ## A returned hardware socket goes to a waiting listener -/

/-- While a call that returned the hardware socket `sn` serves the listeners that waited when it was
made, with the tables `t`: nothing but `sn` is free, and either `sn` is and `g` waits, or one of
them has claimed it. -/
structure Claims (cfg : ToeConfig) (t : Tables) (sn g : ℤ) (l : List ℕ) (t' : Tables) : Prop where
  pending : Pending cfg t l t'
  served : Served cfg l t'
  only : ∀ y, IsFree cfg t' y → y = sn
  taken : (IsFree cfg t' sn ∧ Waiting t' g) ∨
    ∃ x, Waiting t x ∧ IsListener cfg t' x ∧ t'.owner sn = x

theorem IsListener.same (h : IsListener cfg t c) (hs : SameListeners t t') : IsListener cfg t' c :=
  ⟨⟨h.1.1, h.1.2.1, (hs c).1.trans h.1.2.2⟩, (hs c).2.trans h.2⟩

namespace Claims

variable {g : ℤ}

theorem setOpened {i : ℕ} (h : Claims cfg t sn g l t') (hi : i ∉ l) (hr : toeFdReady cfg t' i)
    (b : Bool) : Claims cfg t sn g l (t'.setOpened i b) where
  pending := h.pending.change hi (h.pending.owned.move (.opened b hr)) (.upd rfl rfl)
    fun _ hne ↦ Tables.upd_desc_ne _ _ hne
  served := h.served.setOpened hr b
  only := h.only
  taken := by
    rcases h.taken with ⟨hs, hg⟩ | ⟨x, hx, hl, hown⟩
    · refine .inl ⟨hs, ?_⟩
      have hne : g ≠ i := by
        rintro rfl
        exact absurd hr.2 (not_le.mpr hg.2.2)
      rwa [Waiting, Tables.setOpened, Tables.upd_desc_ne _ _ hne]
    · exact .inr ⟨x, hx, hl.same (.upd rfl rfl), hown⟩

theorem tail {i : ℕ} (h : Claims cfg t sn g (i :: l) t') (hserved : Served cfg l t') :
    Claims cfg t sn g l t' :=
  ⟨h.pending.tail, hserved, h.only, h.taken⟩

theorem arm {i : ℕ} {y : ℤ} (h : Claims cfg t sn g (i :: l) t') (hi : i ∉ l)
    (hv : toeFdValid cfg t' i) (hw : Waiting t' i) (hy : IsFree cfg t' y) :
    Claims cfg t sn g l (t'.arm i y) where
  pending := h.pending.tail.change hi (h.pending.owned.move (.arm hv hw.2.1 hw.2.2 hy))
    (.upd rfl rfl) fun _ hne ↦ Tables.upd_desc_ne _ _ hne
  served := (h.served.move rfl (.arm hv hw.2.1 hw.2.2 hy)).skip fun hx ↦ (hx.of_arm hy.1).2 rfl
  only z hz := h.only z (IsFree.of_setOwner (t := t') hz (toeSnFree_ne hv.1))
  taken := by
    refine .inr ⟨i, h.pending.waiting i (List.mem_cons_self ..) hw,
      IsListener.arm ⟨hv, hw.2.1⟩, ?_⟩
    rw [h.only y hy]
    simp [Tables.arm]

theorem serves (hU : Grants U) : Serves cfg U fun l t' _ ↦ Claims cfg t sn g l t' where
  stable _ := WellOwned.stable U fun _ h ↦ h.pending.owned
  opens hi := ⟨fun h _ _ _ ↦ h, fun h hr _ ↦ h.setOpened hi hr true⟩
  listens _ _ _ :=
    { unopened := fun _ _ _ hans hne ↦ absurd (hU.socket hans) hne
      unlistened := fun _ _ _ hans hne ↦ absurd (hU.listen hans) hne }
  skip h hi := h.tail (h.served.skip hi)
  arm hi h hv hw hs := h.arm hi hv hw hs.free
  none h _ hnone := h.tail (.of_none h.pending.owned hnone)

/-- When no listener is left to be visited, the returned hardware socket has been claimed. -/
theorem claimed (h : Claims cfg t sn g [] t') (hd : cfg.IsDesc g) :
    ∃ x, Waiting t x ∧ IsListener cfg t' x ∧ t'.owner sn = x := by
  rcases h.taken with ⟨hs, hg⟩ | hx
  · exact absurd hs (h.served.busy hd hg (by simp) sn)
  · exact hx

theorem closed (h : Served cfg [] t) (hg : Waiting t g) (hd : cfg.IsDesc g)
    (hr : toeFdReady cfg t fd) :
    Claims cfg t (t.desc fd).sn g (List.range cfg.maxDesc) (t.closed cfg fd) := by
  have hlt := (WellOwned.tablesInv cfg).range h.owned hr.1
  have hne : g ≠ fd := by
    rintro rfl
    exact absurd hr.2 (not_le.mpr hg.2.2)
  have hown : ∀ y, (t.closed cfg fd).owner y = if y = (t.desc fd).sn then toeSnFree else
      t.owner y := by
    intro y
    rw [Tables.closed, if_pos hr.2, toeSnRelease_of_mem hr.2 hlt, toeDescClear, Tables.upd_owner,
      Tables.setOwner_owner]
  refine ⟨h.owned.pending_closed hr.1 _, .all (h.owned.move (.close hr.1)), fun y hy ↦ ?_,
    .inl ?_⟩
  · by_contra hne
    rw [IsFree, hown, if_neg hne] at hy
    exact h.busy hd hg (by simp) y hy
  · refine ⟨⟨hr.2, hlt, by rw [hown, if_pos rfl]⟩, ?_⟩
    rwa [Waiting, closed_desc_ne hne]

theorem released (h : Served cfg [] t) (hg : Waiting t g) (hd : cfg.IsDesc g)
    (hs : cfg.IsSock sn) (hraw : t.owner sn = toeSnRaw) :
    Claims cfg t sn g (List.range cfg.maxDesc) (toeSnRelease cfg sn t) := by
  have hw : WellOwned cfg (t.setOwner sn toeSnFree) := h.owned.move (.release hs.1 hs.2 hraw)
  rw [toeSnRelease_of_mem hs.1 hs.2]
  refine ⟨⟨hw, fun x _ hx ↦ hx.2.1, fun x _ hx ↦ hx⟩, .all hw, fun y hy ↦ ?_,
    .inl ⟨⟨hs.1, hs.2, ?_⟩, hg⟩⟩
  · by_contra hne
    rw [IsFree, Tables.setOwner_owner_ne _ _ hne] at hy
    exact h.busy hd hg (by simp) y hy
  · simp

end Claims

/-- The call gives the hardware socket `sn` back to the pool. -/
def Call.GivesBack (cfg : ToeConfig) (c : Call) (t : Tables) (sn : ℤ) : Prop :=
  (∃ fd, c = .close fd ∧ toeFdReady cfg t fd ∧ (t.desc fd).sn = sn) ∨ c = .socketRelease sn

/-- A hardware socket given back while a listener waits is a listener's when the call returns. -/
theorem Served.claims (hfit : cfg.Fits) (hU : Grants U) {c : Call} {g : ℤ} (h : Served cfg [] t)
    (hc : c.Disciplined cfg t) (hret : c.GivesBack cfg t sn) (hd : cfg.IsDesc g)
    (hg : Waiting t g) : wlp U (fun _ _ _ ↦ True) (c.prog cfg)
      (fun _ t' _ ↦ ∃ x, Waiting t x ∧ IsListener cfg t' x ∧ t'.owner sn = x) t e := by
  have hS : Serves cfg U fun l t' _ ↦ Claims cfg t sn g l t' := Claims.serves hU
  rcases hret with ⟨fd, rfl, hr, rfl⟩ | rfl
  · refine pre_discard (pre.imp (wiztoeClose_serves hfit (Served.stable U []) hS ?_
      (A := fun _ ↦ True) (fun _ _ ↦ trivial) (fun _ ↦ trivial) (fun _ ↦ trivial) hr.1 h)
      fun _ t' _ hP _ _ ↦ hP.claimed hd)
    exact ⟨fun h _ _ ↦ .closed h hg hd hr, fun h _ _ ↦ .closed h hg hd hr⟩
  · obtain ⟨h₀, h₁, hraw⟩ := hc sn rfl
    refine (wiztoeSocketRelease_serves hfit (Served.stable U []) hS ?_ (A := fun _ ↦ True)
      (fun _ _ ↦ trivial) (fun _ ↦ trivial) (fun _ ↦ trivial) ⟨h₀, h₁⟩ h).imp
      fun _ t' _ hP ↦ hP.claimed hd
    exact fun h _ ↦ .released h hg hd ⟨h₀, h₁⟩ hraw

/-- **Waiting listeners first.** Where ioLibrary grants every `socket` and `listen`: between calls
no hardware socket is free while a listener holds none, and a hardware socket that `close` or
`release` gives back while a listener waits belongs to one of the waiting listeners when the call
returns. -/
theorem waiting_listeners_first (hfit : cfg.Fits) (hV : ∀ c, Grants (V c))
    (h : ToeHistory cfg V e₀ t e) :
    (∀ fd, cfg.IsDesc fd → (t.desc fd).listening = true → (t.desc fd).sn = -1 →
      ∀ sn, cfg.IsSock sn → t.owner sn ≠ toeSnFree) ∧
    (∀ (c : Call) (sn fd : ℤ) (t' : Tables) (e' : E), c.Disciplined cfg t →
      c.GivesBack cfg t sn →
      cfg.IsDesc fd → Waiting t fd → Returns (V c) (c.prog cfg) t e () t' e' →
      ∃ x, Waiting t x ∧ IsListener cfg t' x ∧ t'.owner sn = x) := by
  have hserved := Served.history hfit hV h
  refine ⟨fun fd hd hl hn sn hs hfree ↦ ?_, fun c sn fd t' e' hc hret hd hw hrun ↦ ?_⟩
  · have hw : Waiting t fd := ⟨ListenersUsed.history hfit h fd hl, hl, by omega⟩
    exact hserved.busy hd hw (by simp) sn ⟨hs.1, hs.2, hfree⟩
  · exact (hserved.claims hfit (hV c) hc hret hd hw).returns hrun

/-- One hardware socket, handed over by the listener: the listener waits, and gets the socket back
when the connection is closed. -/
theorem waiting_listeners_first_one_socket :
    let cfg : ToeConfig := ⟨1, 2, false⟩
    let t := afterCall cfg .established (.accept 0) (afterCall cfg .established (.listen 0 1)
      (afterCall cfg .established (.socket 2 1 0) .zero))
    Waiting t 0 ∧ ∃ x, Waiting t x ∧ IsListener cfg (afterCall cfg .closed (.close 1) t) x ∧
      (afterCall cfg .closed (.close 1) t).owner 0 = x := by
  intro cfg t
  let V : Call → Env Tables Unit ChipOp.Ans
    | .close _ => .script (placidChip .closed)
    | _ => .script (placidChip .established)
  have hgrants : ∀ c, Grants (V c) := by
    have h : ∀ sr, Grants (.script (S := Tables) (placidChip sr)) :=
      fun sr ↦ ⟨fun h ↦ h.1, fun h ↦ h.1⟩
    intro c
    cases c <;> exact h _
  have hsocket : ToeHistory cfg V () (afterCall cfg .established (.socket 2 1 0) .zero) () :=
    ToeHistory.afterCall .start (fun _ heq ↦ by cases heq) (fun _ _ _ ↦ ⟨rfl, rfl⟩)
      (by decide)
  have hlisten : ToeHistory cfg V () (afterCall cfg .established (.listen 0 1)
      (afterCall cfg .established (.socket 2 1 0) .zero)) () :=
    hsocket.afterCall (fun _ heq ↦ by cases heq) (fun _ _ _ ↦ ⟨rfl, rfl⟩) (by decide)
  have haccept : ToeHistory cfg V () t () :=
    hlisten.afterCall (fun _ heq ↦ by cases heq) (fun _ _ _ ↦ ⟨rfl, rfl⟩) (by decide)
  have hw : Waiting t 0 := by decide
  have hclose : Returns (V (.close 1)) ((Call.close 1).prog cfg) t () ()
      (afterCall cfg .closed (.close 1) t) () :=
    afterCall_returns (fun _ _ _ ↦ ⟨rfl, rfl⟩) (by decide)
  have hback : (Call.close 1).GivesBack cfg t 0 :=
    .inl ⟨1, rfl, by decide, by decide⟩
  exact ⟨hw, (waiting_listeners_first ⟨by decide, by decide⟩ hgrants haccept).2 (.close 1) 0
    0 _ () (fun _ heq ↦ by cases heq) hback ⟨le_rfl, by decide⟩ hw hclose⟩

end WsmDriver
