import WsmDriver.Toe.Ownership
import WsmDriver.Toe.PoolChip

/-!
# Pool hygiene

A hardware socket that nobody holds should be in `CLOSED`, so that the next descriptor inherits
nothing. The tables track this only through the `opened` flag: `wiztoe_close` closes the hardware
socket when the flag is set and relies on it being closed already when it is not. The flag is also
cleared where an open is deferred for lack of a source address, and there nothing was closed. As
long as every deferral meets a closed hardware socket the pool stays clean; `listen` on a listener
that is already in `LISTEN`, at a moment without an address, is what spoils it.
-/

namespace WsmDriver

open Effect

variable {cfg : ToeConfig} {auto : SnSR → SnSR → Prop} {strict : Prop} {t t' : Tables}
  {e e' : PoolChip} {fd c sn : ℤ} {V : Env Tables PoolChip ChipOp.Ans}

/-- Hardware sockets nobody holds are closed, before the first touch all of them. In the strict
form so are the hardware sockets of the unopened descriptors. -/
structure Clean (cfg : ToeConfig) (strict : Prop) (t : Tables) (e : PoolChip) : Prop where
  owned : WellOwned cfg t
  free : ∀ {sn}, IsFree cfg t sn → e.sr sn = .closed
  idle : strict → ∀ {fd}, Unopened cfg t fd → e.sr (t.desc fd).sn = .closed
  untouched : t.tablesInit = false → ∀ sn, e.sr sn = .closed

/-! ## What the moves do to unopened descriptors -/

/-- The descriptor was unopened before, with the same hardware socket. -/
def WasUnopened (cfg : ToeConfig) (t t' : Tables) (fd : ℤ) : Prop :=
  Unopened cfg t fd ∧ (t'.desc fd).sn = (t.desc fd).sn

theorem Unopened.of_desc (h : Unopened cfg t' fd) (hu : (t'.desc fd).used = (t.desc fd).used)
    (hs : (t'.desc fd).sn = (t.desc fd).sn) (ho : (t'.desc fd).opened = (t.desc fd).opened) :
    WasUnopened cfg t t' fd :=
  ⟨⟨⟨⟨h.1.1.1, h.1.1.2.1, hu ▸ h.1.1.2.2⟩, hs ▸ h.1.2⟩, ho ▸ h.2⟩, hs⟩

/-- Changing one descriptor leaves the others unopened or not. -/
theorem Unopened.of_upd {f : Desc → Desc} (h : Unopened cfg (t.upd fd f) c) (hne : c ≠ fd) :
    WasUnopened cfg t (t.upd fd f) c := by
  have hd : (t.upd fd f).desc c = t.desc c := Tables.upd_desc_ne _ _ hne
  exact h.of_desc (by rw [hd]) (by rw [hd]) (by rw [hd])

/-- A calm move makes a descriptor unopened by giving it a free hardware socket. -/
theorem Unopened.of_calm {k : Kind} (h : Unopened cfg t' c) (hk : k.calm = true)
    (hm : Move cfg k t t') (hi : t.tablesInit = true) :
    WasUnopened cfg t t' c ∨ IsFree cfg t (t'.desc c).sn := by
  cases hm with
  | init =>
    rw [toeTablesInit_of_init hi] at h ⊢
    exact .inl ⟨h, rfl⟩
  | @tune _ fd f hv hf =>
    refine .inl ?_
    by_cases hc : c = fd
    · subst hc
      exact h.of_desc (by simpa using hf.used) (by simpa using hf.sn) (by simpa using hf.opened)
    · exact h.of_upd hc
  | @listening _ fd b hr =>
    refine .inl ?_
    by_cases hc : c = fd
    · subst hc
      exact h.of_desc (by simp) (by simp) (by simp)
    · exact h.of_upd hc
  | @socket _ x sn udp _ hx hs =>
    by_cases hc : c = x
    · subst hc
      exact .inr (by simpa using hs)
    · exact .inl (Unopened.of_upd (t := t.setOwner sn x) h hc)
  | @scrub _ x _ hx =>
    have hc : c ≠ x := by
      rintro rfl
      exact absurd h.1.1.2.2 (by simp [toeDescClear])
    exact .inl (h.of_upd hc)
  | @arm _ fd sn hv hl hn hs =>
    by_cases hc : c = fd
    · subst hc
      exact .inr (by simpa [Tables.arm] using hs)
    · exact .inl (Unopened.of_upd (t := t.setOwner sn fd) h hc)
  | reserve => exact absurd hk (by decide)
  | release => exact absurd hk (by decide)
  | opened => exact absurd hk (by decide)
  | disarm => exact absurd hk (by decide)
  | handover => exact absurd hk (by decide)
  | close => exact absurd hk (by decide)

namespace Clean

theorem zero (h : ∀ sn, e.sr sn = .closed) : Clean cfg strict .zero e :=
  ⟨.zero cfg, fun _ ↦ h _, fun _ {_} _ ↦ h _, fun _ ↦ h⟩

/-- The chip moved, and no hardware socket left `CLOSED`. -/
theorem keep (h : Clean cfg strict t e) (hkeep : e.KeepsClosed e') : Clean cfg strict t e' :=
  ⟨h.owned, fun hs ↦ hkeep _ (h.free hs), fun hst {_} hu ↦ hkeep _ (h.idle hst hu),
    fun hi sn ↦ hkeep sn (h.untouched hi sn)⟩

/-- The tables moved: what became free is closed, and so is the hardware socket of whoever became
unopened. -/
theorem gives (h : Clean cfg strict t e) (hw : WellOwned cfg t') (hi : t'.tablesInit = t.tablesInit)
    (hfree : ∀ sn, IsFree cfg t' sn → IsFree cfg t sn ∨ e.sr sn = .closed)
    (hidle : ∀ fd, Unopened cfg t' fd →
      WasUnopened cfg t t' fd ∨ (strict → e.sr (t'.desc fd).sn = .closed)) :
    Clean cfg strict t' e where
  owned := hw
  free hs := (hfree _ hs).elim h.free id
  idle hst fd hu := by
    rcases hidle fd hu with ⟨hu', hsn⟩ | hc
    · rw [hsn]
      exact h.idle hst hu'
    · exact hc hst
  untouched hi' := h.untouched (hi ▸ hi')

theorem move (h : Clean cfg strict t e) {k : Kind} (hk : k.calm = true) (hm : Move cfg k t t') :
    Clean cfg strict t' e := by
  have hw := h.owned.move hm
  rcases h.owned.calm hk hm with hi | ⟨hu, rfl⟩
  · refine h.gives hw (by rw [hm.tablesInit hi, hi]) (fun sn hs ↦ .inl (hs.of_calm hk hm hi)) ?_
    intro fd hu
    exact (hu.of_calm hk hm hi).imp id fun hs _ ↦ h.free hs
  · exact ⟨hw, fun _ ↦ h.untouched hu.1 _, fun _ {_} _ ↦ h.untouched hu.1 _,
      fun _ ↦ h.untouched hu.1⟩

/-! ## The other moves -/

theorem setOpened (h : Clean cfg strict t e) (hr : toeFdReady cfg t fd) {b : Bool}
    (hc : b = false → strict → e.sr (t.desc fd).sn = .closed) :
    Clean cfg strict (t.setOpened fd b) e := by
  refine h.gives (h.owned.move (.opened b hr)) rfl (fun _ hs ↦ .inl hs) fun x hu ↦ ?_
  by_cases hx : x = fd
  · subst hx
    have hb : b = false := by simpa [Tables.setOpened] using hu.2
    exact .inr (by simpa [Tables.setOpened] using hc hb)
  · exact .inl (hu.of_upd hx)

/-- The hardware socket of `fd` has come out of `CLOSED`, and `fd` is marked. -/
theorem granted (h : Clean cfg strict t e) (hr : toeFdReady cfg t fd)
    (he : ∀ sn, sn ≠ (t.desc fd).sn → e'.sr sn = e.sr sn) :
    Clean cfg strict (t.setOpened fd true) e' := by
  obtain ⟨hi, ho⟩ := h.owned.of_valid hr.1
  have hown := (ho.owner_of_ready hr).2
  refine ⟨h.owned.move (.opened true hr), fun {sn} hs ↦ ?_, fun hst x hu ↦ ?_, fun hi' ↦ ?_⟩
  · -- The hardware socket of `fd` has an owner, so it is not the free one.
    have hne : sn ≠ (t.desc fd).sn := by
      rintro rfl
      have hfree : t.owner (t.desc fd).sn = toeSnFree := hs.2.2
      exact absurd (hown.symm.trans hfree) (toeSnFree_ne hr.1.1)
    rw [he sn hne]
    exact h.free hs
  · have hx : x ≠ fd := by
      rintro rfl
      exact absurd hu.2 (by simp [Tables.setOpened])
    obtain ⟨hu', hsn⟩ := hu.of_upd hx
    -- Two descriptors never name one hardware socket.
    have hne : (t.desc x).sn ≠ (t.desc fd).sn := by
      intro heq
      have hown' := (ho.owner_of_ready hu'.1).2
      rw [heq, hown] at hown'
      exact hx hown'.symm
    rw [Tables.setOpened, hsn, he _ hne]
    exact h.idle hst hu'
  · exact absurd (hi.symm.trans hi') (by simp)

theorem disarm (h : Clean cfg strict t e) (hr : toeFdReady cfg t fd)
    (hl : (t.desc fd).listening = true) (hc : e.sr (t.desc fd).sn = .closed) :
    Clean cfg strict (toeListenerDisarm cfg fd t) e := by
  have hw := h.owned.move (.disarm hr hl)
  have hlt := (WellOwned.tablesInv cfg).range h.owned hr.1
  rw [toeListenerDisarm, if_pos hr.2, toeSnRelease_of_mem hr.2 hlt] at hw ⊢
  refine h.gives hw rfl (fun sn hs ↦ ?_) fun x hu ↦ ?_
  · rcases IsFree.of_setOwner_free (t := t) hs with hs | rfl
    · exact .inl hs
    · exact .inr hc
  · have hx : x ≠ fd := by
      rintro rfl
      exact absurd hu.1.2 (by simp)
    exact .inl (Unopened.of_upd (t := t.setOwner _ _) hu hx)

theorem close (h : Clean cfg strict t e) (hv : toeFdValid cfg t fd)
    (hc : toeFdReady cfg t fd → e.sr (t.desc fd).sn = .closed) :
    Clean cfg strict (t.closed cfg fd) e := by
  have hw := h.owned.move (.close hv)
  have hlt := (WellOwned.tablesInv cfg).range h.owned hv
  have hx : ∀ {x}, Unopened cfg (t.closed cfg fd) x → x ≠ fd := by
    rintro x hu rfl
    exact absurd hu.1.1.2.2 (by simp [Tables.closed, toeDescClear])
  rw [Tables.closed] at hw hx ⊢
  split
  · rename_i hn
    rw [if_pos hn, toeSnRelease_of_mem hn hlt] at hw hx
    rw [toeSnRelease_of_mem hn hlt]
    refine h.gives hw rfl (fun sn hs ↦ ?_) fun x hu ↦ ?_
    · rcases IsFree.of_setOwner_free (t := t) hs with hs | rfl
      · exact .inl hs
      · exact .inr (hc ⟨hv, hn⟩)
    · exact .inl (Unopened.of_upd (t := t.setOwner _ _) hu (hx hu))
  · rename_i hn
    rw [if_neg hn] at hw hx
    exact h.gives hw rfl (fun _ hs ↦ .inl hs) fun x hu ↦ .inl (hu.of_upd (hx hu))

theorem handover (h : Clean cfg strict t e) (hr : toeFdReady cfg t fd)
    (hl : (t.desc fd).listening = true) (hc : IsUnused cfg t c) :
    Clean cfg strict (t.handover fd c) e := by
  refine h.gives (h.owned.move (.handover hr hl hc)) rfl (fun _ hs ↦ .inl (hs.of_handover hc.1)) ?_
  intro x hu
  have hx : x ≠ fd := by
    rintro rfl
    exact absurd hu.1.2 (by simp [Tables.handover])
  have hx' : x ≠ c := by
    rintro rfl
    exact absurd hu.2 (by simp [Tables.handover, Tables.upd_desc_ne _ _ hx])
  have hd : (t.handover fd c).desc x = t.desc x := by
    simp [Tables.handover, Tables.upd_desc_ne _ _ hx, Tables.upd_desc_ne _ _ hx']
  exact .inl (hu.of_desc (by rw [hd]) (by rw [hd]) (by rw [hd]))

theorem relabel (h : Clean cfg strict t e) {v : ℤ} (hw : WellOwned cfg (t.setOwner sn v))
    (hc : v = toeSnFree → e.sr sn = .closed) : Clean cfg strict (t.setOwner sn v) e := by
  refine h.gives hw rfl (fun x hs ↦ ?_) fun _ hu ↦ .inl ⟨hu, rfl⟩
  by_cases hv : v = toeSnFree
  · subst hv
    rcases hs.of_setOwner_free with hs | rfl
    · exact .inl hs
    · exact .inr (hc rfl)
  · exact .inl (hs.of_setOwner hv)

/-! ## What the functions need -/

theorem stable (hauto : ∀ x, ¬auto .closed x) (hV : V ≤ poolChip auto) :
    Stable cfg V (Clean cfg strict) where
  range h hv := (WellOwned.tablesInv cfg).range h.owned hv
  idle h hv := (WellOwned.tablesInv cfg).idle h.owned hv
  drift h hd := h.keep (.of_drift hauto (hV.drift hd))
  answer hq h hans := h.keep (.of_answer hq (hV.answer hans))

theorem keeps (hauto : ∀ x, ¬auto .closed x) (hV : V ≤ poolChip auto) :
    Keeps cfg V (Clean cfg strict) :=
  { stable hauto hV with move := fun {_ _ _ _} hk h hm ↦ h.move hk hm }

theorem opens (hfit : cfg.Fits) (hV : V ≤ poolChip auto) (fd : ℤ) :
    Opens cfg V (Clean cfg strict) fd where
  refused h _ hans hne := h.keep (PoolChip.closed_of_socket (hV.answer hans) hne).1
  granted {t e protocol port flag e'} h hr hans := by
    refine h.granted hr fun sn hne ↦ ?_
    have he : e'.sr = (e.set (toeSn t fd) (if toeSn t fd = toeSn t fd then protocol.opened else
        .closed)).sr :=
      hV.answer hans
    rw [he, PoolChip.set_sr_ne (by rwa [h.owned.toeSn_eq hfit hr])]

theorem listens (hfit : cfg.Fits) (hV : V ≤ poolChip auto) (fd : ℤ) :
    Listens cfg V (Clean cfg strict) fd where
  unopened h hr hl hans hne := by
    have hc := PoolChip.closed_of_socket (hV.answer hans) hne
    rw [h.owned.toeSn_eq hfit hr] at hc
    exact (h.keep hc.1).disarm hr hl hc.2
  unlistened h hr hl hans hne := by
    have hc := PoolChip.closed_of_listen (hV.answer hans) hne
    rw [h.owned.toeSn_eq hfit hr] at hc
    exact (h.keep hc.1).disarm hr hl hc.2

theorem handsOver (fd : ℤ) : HandsOver cfg (Clean cfg strict) (Clean cfg strict) fd where
  armed h hr hl hc hs := by
    have hlis := IsListener.handover ⟨hr.1, hl⟩ hc
    exact (h.handover hr hl hc).move rfl (.arm hlis.1 hlis.2 (by simp [Tables.handover]) hs.free)
  unarmed h hr hl hc _ := h.handover hr hl hc

/-- `accept` defers and re-opens as it likes without giving up an open hardware socket. -/
theorem accepts (hfit : cfg.Fits) (hauto : ∀ x, ¬auto .closed x) (hV : V ≤ poolChip auto)
    (fd : ℤ) : Accepts cfg V (Clean cfg False) (Clean cfg False) (Clean cfg False) fd := by
  refine .of_keeps (keeps hauto hV) (opens hfit hV fd) (listens hfit hV fd) ?_ (handsOver fd)
  intro t e e' h hr hans
  exact (h.keep (.of_answer (o := .getSIPR) rfl (hV.answer hans))).setOpened hr fun _ hs ↦ hs.elim

theorem serves (hfit : cfg.Fits) (hauto : ∀ x, ¬auto .closed x) (hV : V ≤ poolChip auto) :
    Serves cfg V fun _ ↦ Clean cfg strict where
  stable _ := stable hauto hV
  opens _ := opens hfit hV _
  listens _ _ _ := listens hfit hV _
  skip h _ := h
  arm _ h hv hw hs := h.move rfl (.arm hv hw.2.1 hw.2.2 hs.free)
  none h _ _ := h

theorem frees (hfit : cfg.Fits) (hV : V ≤ poolChip auto) (t : Tables) (fd : ℤ) :
    Frees cfg V (Clean cfg True) (Clean cfg True) t fd where
  idle h hv ho := h.close hv fun hr ↦ h.idle trivial ⟨hr, ho⟩
  closed {_ a _} h hr hans := by
    have hc := PoolChip.closed_of_close (a := a) (hV.answer hans)
    rw [h.owned.toeSn_eq hfit hr] at hc
    exact (h.keep hc.1).close hr.1 fun _ ↦ hc.2

end Clean

/-! ## Histories that keep the pool clean -/

/-- Whenever the call finds the source address cleared, the hardware socket its descriptor holds is
closed. Of the calls made on a descriptor only `listen` and `accept` look at the address, just
before they would open the listener's hardware socket. -/
def Call.DefersClosed (cfg : ToeConfig) (c : Call) (o : ChipOp) (t : Tables) (e : PoolChip) :
    Prop :=
  o = .getSIPR → e.sipr = 0 → ∀ fd, c.fd? = some fd → toeFdReady cfg t fd →
    e.sr (toeSn t fd) = .closed

/-- `wiztoe_socket_release` is not applied to the hardware socket of a descriptor. -/
def Call.ReleasesUnheld (cfg : ToeConfig) (c : Call) (t : Tables) : Prop :=
  ∀ sn, c = .socketRelease sn → ∀ fd, toeFdReady cfg t fd → (t.desc fd).sn ≠ sn

/-- Histories from closed hardware sockets in which every deferral meets a closed one. The chip
moves by itself as `auto` says, which may depend on the call. -/
abbrev TidyHistory (cfg : ToeConfig) (auto : Call → SnSR → SnSR → Prop) : PoolChip → Tables →
    PoolChip → Prop :=
  History (fun c ↦ (poolChip (auto c)).restrict (c.DefersClosed cfg))
    (fun c t _ ↦ c.ReleasesUnheld cfg t) (Call.prog cfg) .zero

theorem WellOwned.release_unheld (h : WellOwned cfg t) {c : Call} (hc : c.ReleasesUnheld cfg t)
    (heq : c = .socketRelease sn) (hs : cfg.IsSock sn) :
    WellOwned cfg (t.setOwner sn toeSnFree) := by
  rcases h with hu | ⟨hi, ho⟩
  · exact .inl hu
  refine .inr ⟨hi, ho.relabel ?_ (by decide)⟩
  by_contra hn
  have hd : cfg.IsDesc (t.owner sn) := ⟨by omega, ho.owner_lt hs⟩
  obtain ⟨hused, hsn⟩ := (ho.owner_iff hd hs).mp rfl
  have hs₀ := hs.1
  exact hc sn heq (t.owner sn) ⟨⟨hd.1, hd.2, hused⟩, by omega⟩ hsn

namespace Clean

theorem maintains {c : Call} (hfit : cfg.Fits) (hauto : ∀ x, ¬auto .closed x)
    (hV : V ≤ (poolChip auto).restrict (c.DefersClosed cfg)) (hc : c.ReleasesUnheld cfg t) :
    Maintains cfg V (Clean cfg True) (fun _ ↦ Clean cfg True) (fun _ ↦ True) c t :=
  have hV' : V ≤ poolChip auto := ⟨hV.drift, fun h ↦ (hV.answer h).2⟩
  { keeps := keeps hauto hV'
    opens := opens hfit hV'
    listens := listens hfit hV'
    defers := fun fd hfd {t e e'} h hr hans ↦ by
      obtain ⟨hok, hsipr, rfl⟩ := hV.answer hans
      have hsr := hok rfl hsipr.symm fd hfd hr
      rw [h.owned.toeSn_eq hfit hr] at hsr
      exact h.setOpened hr fun _ _ ↦ hsr
    handsOver := handsOver
    reserves := fun _ {_ _ _} hi hs h ↦
      h.relabel (h.owned.move (.reserve hi hs)) fun heq ↦ absurd heq (by decide)
    serves := serves hfit hauto hV'
    served := id
    serving := fun _ _ ↦ trivial
    frees := fun fd _ ↦ frees hfit hV' t fd
    releases := fun {sn} heq hsn {e a e'} h hans ↦ by
      have hsock := hfit.maxSock_le
      have hcl := PoolChip.closed_of_close (a := a) (hV'.answer hans)
      rw [uint8_of_lt hsn.1 (by omega)] at hcl
      rw [toeSnRelease_of_mem hsn.1 hsn.2]
      exact (h.keep hcl.1).relabel (h.owned.release_unheld hc heq hsn) fun _ ↦ hcl.2 }

theorem history {auto : Call → SnSR → SnSR → Prop} {e₀ : PoolChip} (hfit : cfg.Fits)
    (hauto : ∀ c x, ¬auto c .closed x) (h₀ : ∀ sn, e₀.sr sn = .closed)
    (h : TidyHistory cfg auto e₀ t e) : Clean cfg True t e := by
  have hcall : ∀ (c : Call) (t : Tables) (e : PoolChip), Clean cfg True t e →
      c.ReleasesUnheld cfg t → wlp ((poolChip (auto c)).restrict (c.DefersClosed cfg))
        (c.Guard cfg (Clean cfg True) (fun _ ↦ Clean cfg True) (fun _ ↦ True) t) (c.prog cfg)
        (fun _ ↦ Clean cfg True) t e :=
    fun c t e h hc ↦ (maintains hfit (hauto c) (Env.le_refl _) hc).prog hfit h
  refine h.invariant (zero h₀) ?_ hcall
  exact fun c t e e' h hd ↦ h.keep (.of_drift (hauto c) hd)

end Clean

/-! ## Runs on a plain chip -/

/-- The tables and the chip. -/
abbrev PoolState := Tables × PoolChip

namespace PoolState

/-- The state after the call `c`, answered by the plain chip. -/
def after (c : Call) (s : PoolState) : PoolState :=
  ((runWith plainChip 60 ⟨c.prog w5500, s.1, s.2⟩).store,
    (runWith plainChip 60 ⟨c.prog w5500, s.1, s.2⟩).env)

theorem after_history {V : Call → Env Tables PoolChip ChipOp.Ans} {I : PoolChip → Prop}
    {allowed : Call → Tables → PoolChip → Prop} {e₀ : PoolChip} {s : PoolState}
    (h : History V allowed (Call.prog w5500) .zero e₀ s.1 s.2) (c : Call)
    (ha : allowed c s.1 s.2) (hV : (V c).Follows I plainChip) (he : I s.2)
    (hn : (runWith plainChip 60 ⟨c.prog w5500, s.1, s.2⟩).prog.result? = some ()) :
    History V allowed (Call.prog w5500) .zero e₀ (s.after c).1 (s.after c).2 := by
  simpa only [after] using h.callWith c ha hV he hn

/-- The chip's source address becomes `v`. -/
def address (v : UInt32) (s : PoolState) : PoolState := (s.1, { s.2 with sipr := v })

/-- Hardware socket `sn` moves to `v` by itself. -/
def status (sn : ℤ) (v : SnSR) (s : PoolState) : PoolState := (s.1, s.2.set sn v)

/-- Zero-initialised tables and a chip with a source address. -/
def start : PoolState := (.zero, ⟨fun _ ↦ .closed, 1⟩)

/-- A TCP socket listens on port 80. -/
def listener : PoolState := ((start.after (.socket 2 1 0)).after (.bind 0 80)).after (.listen 0 1)

/-- The source address is cleared, `listen` is called again, and the listener is closed. -/
def leak : PoolState := ((listener.address 0).after (.listen 0 1)).after (.close 0)

end PoolState

/-- While there is an address nothing is deferred. -/
theorem plainChip_tidy (c : Call) :
    ((poolChip auto).restrict (c.DefersClosed cfg)).Follows (fun e ↦ e.sipr ≠ 0) plainChip where
  answer o t e hip := ⟨fun _ h ↦ absurd h hip, poolChip_plainChip _ o t e⟩
  keeps o e hip := by
    cases o with
    | listen sn =>
      rw [plainChip]
      split
      · exact hip
      · exact hip
    | _ => exact hip

theorem PoolState.listener_tidy :
    TidyHistory w5500 (fun _ _ _ ↦ False) start.2 listener.1 listener.2 := by
  have hstart : TidyHistory w5500 (fun _ _ _ ↦ False) start.2 start.1 start.2 := .start
  have hsocket := after_history hstart (.socket 2 1 0) (fun _ h ↦ by cases h) (plainChip_tidy _)
    (by decide) (by decide)
  have hbind := after_history hsocket (.bind 0 80) (fun _ h ↦ by cases h) (plainChip_tidy _)
    (by decide) (by decide)
  exact after_history hbind (.listen 0 1) (fun _ h ↦ by cases h) (plainChip_tidy _)
    (by decide) (by decide)

/-- **Pool hygiene.** In a history in which every deferral meets a closed hardware socket and only
unheld hardware sockets are released, a hardware socket nobody holds is closed, and so is the one a
new descriptor gets, whatever the peers, the link and the source address do. -/
theorem pool_hygiene {auto : Call → SnSR → SnSR → Prop} {e₀ : PoolChip} (hfit : cfg.Fits)
    (hauto : ∀ c x, ¬auto c .closed x) (h₀ : ∀ sn, e₀.sr sn = .closed)
    (h : TidyHistory cfg auto e₀ t e) :
    (∀ sn, cfg.IsSock sn → t.owner sn = toeSnFree → e.sr sn = .closed) ∧
    (∀ (domain type protocol fd : ℤ) (t' : Tables) (e' : PoolChip),
      Returns (poolChip (auto (.socket domain type protocol)))
      (wiztoeSocket cfg domain type protocol)
        t e fd t' e' → 0 ≤ fd → toeFdReady cfg t' fd ∧ e'.sr (toeSn t' fd) = .closed) := by
  have hclean := Clean.history hfit hauto h₀ h
  refine ⟨fun sn hs ho ↦ hclean.free ⟨hs.1, hs.2, ho⟩,
    fun domain type protocol fd t' e' hrun h₀ ↦ ?_⟩
  have hK : Keeps cfg (poolChip (auto (.socket domain type protocol))) (Clean cfg True) :=
    Clean.keeps (hauto _) (Env.le_refl _)
  obtain ⟨hclean', -, hun⟩ :=
    (wiztoeSocket_keeps (A := fun _ ↦ False) hfit hK.untuned domain type protocol
    hclean).returns hrun
  rw [hclean'.owned.toeSn_eq hfit (hun h₀).1]
  exact ⟨(hun h₀).1, hclean'.idle trivial (hun h₀)⟩

/-- Beside a listener the free hardware socket 1 is closed, and so it is for the next descriptor. -/
theorem pool_hygiene_listener :
    PoolState.listener.2.sr 1 = .closed ∧ ∃ t' e',
      Returns (poolChip fun _ _ ↦ False) (wiztoeSocket w5500 2 1 0) PoolState.listener.1
        PoolState.listener.2 1 t' e' ∧ toeFdReady w5500 t' 1 ∧ e'.sr (toeSn t' 1) = .closed := by
  have hclean := pool_hygiene w5500_fits (fun _ _ h ↦ h) (fun _ ↦ rfl) PoolState.listener_tidy
  have hsocket := returns_runWith (n := 60) (p := wiztoeSocket w5500 2 1 0)
    (s := PoolState.listener.1) (e := PoolState.listener.2) (a := 1)
    (Env.Follows.always (poolChip_plainChip fun _ _ ↦ False)) trivial (by decide +kernel)
  exact ⟨hclean.1 1 ⟨by decide, by decide⟩ (by decide +kernel), _, _, hsocket,
    hclean.2 2 1 0 1 _ _ hsocket (by decide)⟩

/-! ## The deferral that spoils the pool -/

namespace PoolState

/-- The state is reached from the start, on a chip that moves as `auto` allows. -/
def Reached (auto : SnSR → SnSR → Prop) (s : PoolState) : Prop :=
  ToeHistory w5500 (fun _ ↦ poolChip auto) start.2 s.1 s.2

namespace Reached

variable {s : PoolState}

theorem after (h : s.Reached auto) (c : Call) (hc : ∀ sn, c ≠ .socketRelease sn)
    (hn : (runWith plainChip 60 ⟨c.prog w5500, s.1, s.2⟩).prog.result? = some ()) :
    (s.after c).Reached auto :=
  after_history h c (fun sn heq ↦ absurd heq (hc sn)) (.always (poolChip_plainChip _)) trivial hn

theorem address (h : s.Reached auto) (v : UInt32) : (s.address v).Reached auto :=
  History.drift .localIp h fun _ ↦ .inl rfl

theorem status (h : s.Reached auto) {v : SnSR} (hv : auto (s.2.sr sn) v) :
    (s.status sn v).Reached auto := by
  refine History.drift .localIp h fun x ↦ ?_
  by_cases hx : x = sn
  · subst hx
    exact .inr (by simpa [PoolState.status] using hv)
  · exact .inl (PoolChip.set_sr_ne hx)

end Reached

theorem leak_reached : leak.Reached auto := by
  have hstart : start.Reached auto := .start
  have hsocket := hstart.after (.socket 2 1 0) (by simp) (by decide)
  have hbind := hsocket.after (.bind 0 80) (by simp) (by decide)
  have hlisten : listener.Reached auto := hbind.after (.listen 0 1) (by simp) (by decide)
  have hagain := (hlisten.address 0).after (.listen 0 1) (by simp) (by decide +kernel)
  exact hagain.after (.close 0) (by simp) (by decide +kernel)

end PoolState

/-- The hardware socket of a listener that was closed after a deferral is free and still listens. No
peer and no link is needed for it. -/
theorem not_pool_hygiene_deferred :
    ¬∀ t e, ToeHistory w5500 (fun _ ↦ poolChip fun _ _ ↦ False) PoolState.start.2 t e →
      ∀ sn, w5500.IsSock sn → t.owner sn = toeSnFree → e.sr sn = .closed := by
  intro h
  have hclosed := h _ _ PoolState.leak_reached 0 ⟨le_rfl, by decide⟩ (by decide +kernel)
  exact absurd hclosed (by decide +kernel)

end WsmDriver
