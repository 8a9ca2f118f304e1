import WsmDriver.Effect.Trace
import WsmDriver.Toe.Holdings

/-!
# What `accept` changes

While `accept` polls its listener it may give hardware sockets up and take others, any number of
times; `OnlyRearmed` says that nothing else changes. A completed handshake hands the hardware socket
over to a new descriptor, and then the listener is re-armed once more, which again changes nothing
else. What `accept` has changed when it returns is read off from these two stages.
-/

namespace WsmDriver

open Effect

variable {cfg : ToeConfig} {E : Type} {U : Env Tables E ChipOp.Ans} {t t' t₀ t₁ : Tables}
    {fd c sn s x : ℤ}

/-- Of the tables `t₀` only the hardware socket of `fd` has changed, its `opened` flag, and who owns
what it gave up or took. -/
structure OnlyRearmed (cfg : ToeConfig) (t₀ : Tables) (fd : ℤ) (t : Tables) : Prop where
  owned : Owned cfg t
  others : ∀ x, x ≠ fd → t.desc x = t₀.desc x
  self : ∃ sn b, t.desc fd = { t₀.desc fd with sn := sn, opened := b }
  owner : ∀ sn, t₀.owner sn ≠ fd → t.owner sn ≠ fd → t.owner sn = t₀.owner sn
  taken : ∀ sn, t.owner sn = fd → t₀.owner sn = fd ∨ IsFree cfg t₀ sn

namespace OnlyRearmed

theorem refl (h : Owned cfg t) : OnlyRearmed cfg t fd t :=
  ⟨h, fun _ _ ↦ rfl, ⟨(t.desc fd).sn, (t.desc fd).opened, rfl⟩, fun _ _ _ ↦ rfl,
    fun _ ho ↦ .inl ho⟩

theorem listener (h : OnlyRearmed cfg t₀ fd t) (hl : IsListener cfg t₀ fd) :
    IsListener cfg t fd := by
  obtain ⟨sn, b, heq⟩ := h.self
  obtain ⟨⟨h₀, h₁, hu⟩, hl⟩ := hl
  exact ⟨⟨h₀, h₁, by rw [heq]; exact hu⟩, by rw [heq]; exact hl⟩

theorem used (h : OnlyRearmed cfg t₀ fd t) (x : ℤ) : (t.desc x).used = (t₀.desc x).used := by
  by_cases hx : x = fd
  · obtain ⟨sn, b, heq⟩ := h.self
    rw [hx, heq]
  · rw [h.others x hx]

theorem idle (h : OnlyRearmed cfg t₀ fd t) (hv : toeFdValid cfg t x) (hn : (t.desc x).sn < 0) :
    (t.desc x).opened = false := by
  have hw := h.owned.desc hv.isDesc
  cases ho : (t.desc x).opened with
  | false => rfl
  | true => exact absurd (hw.opened ho) (by omega)

theorem upd {f : Desc → Desc} (h : OnlyRearmed cfg t₀ fd t) (hw : Owned cfg (t.upd fd f))
    (hf : ∃ sn b, f (t.desc fd) = { t.desc fd with sn := sn, opened := b }) :
    OnlyRearmed cfg t₀ fd (t.upd fd f) where
  owned := hw
  others x hx := (Tables.upd_desc_ne _ _ hx).trans (h.others x hx)
  self := by
    obtain ⟨sn, b, heq⟩ := h.self
    obtain ⟨sn', b', hf⟩ := hf
    exact ⟨sn', b', by rw [Tables.upd_desc_self, hf, heq]⟩
  owner := h.owner
  taken := h.taken

theorem setOpened (h : OnlyRearmed cfg t₀ fd t) (hr : toeFdReady cfg t fd) (b : Bool) :
    OnlyRearmed cfg t₀ fd (t.setOpened fd b) := by
  have hw := h.owned.desc hr.1.isDesc
  refine h.upd (h.owned.upd_role rfl rfl ?_) ⟨(t.desc fd).sn, b, rfl⟩
  exact ⟨hw.unused, hw.sn_ge, hw.sn_lt, fun _ ↦ hr.2, hw.listening⟩

theorem arm (h : OnlyRearmed cfg t₀ fd t) (hv : toeFdValid cfg t fd) (hn : (t.desc fd).sn < 0)
    (hs : IsFree cfg t sn) : OnlyRearmed cfg t₀ fd (t.arm fd sn) where
  owned := h.owned.arm hv hn hs
  others x hx := (Tables.upd_desc_ne _ _ hx).trans (h.others x hx)
  self := by
    obtain ⟨s, b, heq⟩ := h.self
    exact ⟨sn, b, by rw [Tables.arm, Tables.upd_desc_self, Tables.setOwner_desc, heq]⟩
  owner s ho ho' := by
    rw [Tables.arm, Tables.upd_owner, Tables.setOwner_owner] at ho' ⊢
    split
    · rename_i heq
      rw [if_pos heq] at ho'
      exact absurd rfl ho'
    · rename_i hne
      rw [if_neg hne] at ho'
      exact h.owner s ho ho'
  taken s ho := by
    rw [Tables.arm, Tables.upd_owner, Tables.setOwner_owner] at ho
    split at ho
    · rename_i heq
      rw [heq]
      by_cases ho₀ : t₀.owner sn = fd
      · exact .inl ho₀
      · refine .inr ⟨hs.1, hs.2.1, ?_⟩
        rw [← h.owner sn ho₀ (by rw [hs.2.2]; exact (toeSnFree_ne hv.1).symm)]
        exact hs.2.2
    · exact h.taken s ho

theorem disarm (h : OnlyRearmed cfg t₀ fd t) (hr : toeFdReady cfg t fd) :
    OnlyRearmed cfg t₀ fd (toeListenerDisarm cfg fd t) := by
  obtain ⟨⟨-, hlt⟩, hown⟩ := h.owned.owner_of_ready hr
  refine ⟨h.owned.disarm hr, fun x hx ↦ (toeListenerDisarm_desc_ne hx).trans (h.others x hx), ?_,
    ?_, ?_⟩
  · obtain ⟨sn, b, heq⟩ := h.self
    refine ⟨-1, false, ?_⟩
    rw [toeListenerDisarm, if_pos hr.2, Tables.upd_desc_self, toeSnRelease_desc, heq]
  · intro s ho ho'
    rw [toeListenerDisarm, if_pos hr.2, toeSnRelease_of_mem hr.2 hlt, Tables.upd_owner,
      Tables.setOwner_owner] at ho' ⊢
    split
    · rename_i heq
      rw [heq] at ho ⊢
      exact ((h.taken _ hown).resolve_left ho).2.2.symm
    · rename_i hne
      rw [if_neg hne] at ho'
      exact h.owner s ho ho'
  · intro s ho
    rw [toeListenerDisarm, if_pos hr.2, toeSnRelease_of_mem hr.2 hlt, Tables.upd_owner,
      Tables.setOwner_owner] at ho
    split at ho
    · exact absurd ho.symm (toeSnFree_ne hr.1.1)
    · exact h.taken s ho

end OnlyRearmed

/-! ## Polling -/

/-- Operations answered so far, each with the tables it was asked from. -/
abbrev Observations := List (Tables × Sigma ChipOp.Ans)

/-- The surroundings with a record of what was observed. -/
abbrev Watched (U : Env Tables E ChipOp.Ans) : Env Tables (E × Observations) ChipOp.Ans :=
  U.observed

/-- Nothing but the hardware socket of `fd` has changed since `t₀`, and the observations of `l` are
recorded. -/
def Polled (cfg : ToeConfig) (t₀ : Tables) (fd : ℤ) (l : Observations) (t : Tables)
    (e : E × Observations) : Prop :=
  OnlyRearmed cfg t₀ fd t ∧ l ⊆ e.2

variable {l : Observations} {e : E × Observations} {G : ChipOp → Tables → E × Observations →
      Prop} {R : ℕ → ℕ → Prop}

namespace Polled

theorem stable (U : Env Tables E ChipOp.Ans) (t₀ : Tables) (fd : ℤ) (l : Observations) :
    Stable cfg (Watched U) (Polled cfg t₀ fd l) where
  range h hv := (h.1.owned.desc hv.isDesc).sn_lt
  idle h hv hn := h.1.idle hv hn
  drift h hd := ⟨h.1, hd.2 ▸ h.2⟩
  answer _ h ha := ⟨h.1, ha.2 ▸ fun _ hx ↦ List.mem_cons_of_mem _ (h.2 hx)⟩

theorem answered {o : ChipOp} {a : o.Ans} {e' : E × Observations} (h : Polled cfg t₀ fd l t e)
    (ha : (Watched U).answer o t e a e') : Polled cfg t₀ fd l t e' :=
  ⟨h.1, ha.2 ▸ fun _ hx ↦ List.mem_cons_of_mem _ (h.2 hx)⟩

theorem opens : Opens cfg (Watched U) (Polled cfg t₀ fd l) fd :=
  ⟨fun h _ ha _ ↦ h.answered ha, fun h hr ha ↦ ⟨h.1.setOpened hr true, (h.answered ha).2⟩⟩

theorem listens : Listens cfg (Watched U) (Polled cfg t₀ fd l) fd :=
  ⟨fun h hr _ ha _ ↦ ⟨h.1.disarm hr, (h.answered ha).2⟩, fun h hr _ ha _ ↦
    ⟨h.1.disarm hr, (h.answered ha).2⟩⟩

theorem defers : Defers cfg (Watched U) (Polled cfg t₀ fd l) fd :=
  fun h hr ha ↦ ⟨h.1.setOpened hr false, (h.answered ha).2⟩

theorem rearmable (h : Polled cfg t₀ fd l t e) (hl : IsListener cfg t fd) :
    Rearmable cfg (Polled cfg t₀ fd l) fd t e where
  listener := hl
  idle hn := h.1.idle hl.1 hn
  held _ := h
  arm _ hn hs := ⟨h.1.arm hl.1 hn hs.free, h.2⟩
  none _ _ := h

end Polled

/-- The hardware socket of `fd` was seen with a completed handshake and handed over to `c`, and then
nothing but the hardware socket of `fd` has changed. -/
def HandedOver (cfg : ToeConfig) (t₀ : Tables) (fd c : ℤ) (t : Tables) (l : Observations) : Prop :=
  ∃ t₁ sr, (t₁, (⟨.getSnSR (t₁.desc fd).sn, sr⟩ : Sigma ChipOp.Ans)) ∈ l ∧
    (sr = .established ∨ sr = .closeWait) ∧
    OnlyRearmed cfg t₀ fd t₁ ∧ toeFdReady cfg t₁ fd ∧ IsUnused cfg t₁ c ∧
      OnlyRearmed cfg (t₁.handover fd c) fd t

/-- After a turn: a turn that goes on has only re-armed its listener, and the others hand a
descriptor out or have none. -/
def AfterTurn (cfg : ToeConfig) (t₀ : Tables) (fd : ℤ) : Option ℤ → Tables →
    E × Observations → Prop
  | none, t, _ => OnlyRearmed cfg t₀ fd t
  | some r, t, e => HandedOver cfg t₀ fd r t e.2 ∨ (r < 0 ∧ OnlyRearmed cfg t₀ fd t)

theorem HandedOver.drifts {e' : E × Observations} (h : HandedOver cfg t₀ fd c t e.2)
    (hd : (Watched U).Drifts e e') : HandedOver cfg t₀ fd c t e'.2 := by
  rwa [hd.unnoted.2]

theorem toeAcceptEstablished_changes {sr : SnSR} (hfit : cfg.Fits) (hr : toeFdReady cfg t fd)
    (hl : IsListener cfg t fd) (h : OnlyRearmed cfg t₀ fd t)
    (hmem : (t, (⟨.getSnSR (t.desc fd).sn, sr⟩ : Sigma ChipOp.Ans)) ∈ e.2)
    (hsr : sr = .established ∨ sr = .closeWait) :
    wlp (Watched U) (fun _ _ _ ↦ True) (toeAcceptEstablished cfg fd)
      (fun r t' e' ↦ HandedOver cfg t₀ fd r t' e'.2 ∨ (r < 0 ∧ OnlyRearmed cfg t₀ fd t'))
        t e := by
  rcases toeDescAlloc_cases cfg t with ⟨c, hc, heq⟩ | ⟨heq, -⟩
  · refine (toeAcceptEstablished_handover hfit (h.owned.desc hr.1.isDesc).sn_lt hr hc heq).mpr ?_
    -- From here on the listener is only re-armed, and the observation stays in the record.
    have hp : Polled cfg (t.handover fd c) fd e.2 (t.handover fd c) e :=
      ⟨.refl (h.owned.handover hr hc), fun _ hx ↦ hx⟩
    refine pre.seq ((discard_toeListenerRearm_keeps (A := fun _ ↦ True) hfit
      (Polled.stable U _ fd e.2) Polled.opens
      Polled.listens trivial (hp.rearmable (hl.handover hc))).guard fun _ _ _ _ ↦ trivial) ?_
    rintro _ t' e' ⟨⟨hp, hsub⟩, -⟩ e'' hd
    exact .inl ⟨t, sr, by rw [hd.unnoted.2]; exact hsub hmem, hsr, h, hr, hc, hp⟩
  · exact (toeAcceptEstablished_full heq).mpr fun _ _ ↦ .inr ⟨by decide, h⟩

theorem toeAcceptStatus_changes {sr : SnSR} (hfit : cfg.Fits) (hr : toeFdReady cfg t fd)
    (hl : IsListener cfg t fd) (h : OnlyRearmed cfg t₀ fd t)
    (hmem : (t, (⟨.getSnSR (t.desc fd).sn, sr⟩ : Sigma ChipOp.Ans)) ∈ e.2) :
    wlp (Watched U) (fun _ _ _ ↦ True) (toeAcceptStatus cfg fd sr) (AfterTurn cfg t₀ fd) t e := by
  have hp : Polled cfg t₀ fd [] t e := ⟨h, List.nil_subset _⟩
  refine pre_toeAcceptStatus (fun hsr ↦ ?_) (fun _ _ _ ↦ h) (fun _ ↦ ?_) fun _ ↦ ?_
  · refine pre.seq (toeAcceptEstablished_changes hfit hr hl h hmem hsr) ?_
    rintro r t' e' h e'' hd
    exact h.imp_left fun h ↦ h.drifts hd
  · refine pre_perform_bind.mpr fun _ _ ↦ ⟨trivial, fun r e' _ ↦ ?_⟩
    exact pre_when_bind (fun _ ↦ pre_modify_bind.mpr fun _ _ ↦ h.disarm hr) fun _ _ _ ↦ h
  · refine pre.seq ((toeListenerReopen_keeps (A := fun _ ↦ True) (Polled.stable U t₀ fd [])
      Polled.opens Polled.listens
      (.inr Polled.defers) trivial hr hl.2 hp).guard fun _ _ _ _ ↦ trivial) ?_
    rintro r t' e' ⟨-, hp, hp'⟩
    refine pre_when_bind (fun hneg ↦ pre_modify_bind.mpr fun _ _ ↦ (hp' hneg).1) fun _ _ _ ↦ hp.1

theorem toeAcceptPoll_changes (hfit : cfg.Fits) (hl : IsListener cfg t fd)
    (h : OnlyRearmed cfg t₀ fd t) :
    wlp (Watched U) (fun _ _ _ ↦ True) (toeAcceptPoll cfg fd) (AfterTurn cfg t₀ fd) t e := by
  have hp : Polled cfg t₀ fd [] t e := ⟨h, List.nil_subset _⟩
  unfold toeAcceptPoll
  refine pre_get_bind.mpr (pre_ite (fun _ ↦ ?_) fun hn ↦ ?_)
  · refine pre.seq ((discard_toeListenerRearm_keeps (A := fun _ ↦ True) hfit
      (Polled.stable U t₀ fd []) Polled.opens
      Polled.listens trivial (hp.rearmable hl)).guard fun _ _ _ _ ↦ trivial) ?_
    exact fun _ _ _ h _ _ ↦ h.1.1
  · have hr : toeFdReady cfg t fd := ⟨hl.1, not_lt.mp hn⟩
    have hsock := hfit.maxSock_le
    have hlt := (h.owned.desc hr.1.isDesc).sn_lt
    have hsn : toeSn t fd = (t.desc fd).sn := uint8_of_lt hr.2 (by omega)
    rw [hsn]
    refine pre_perform_bind.mpr fun e₁ _ ↦ ⟨trivial, fun sr e' ha ↦ ?_⟩
    exact toeAcceptStatus_changes hfit hr hl h (ha.2 ▸ List.mem_cons_self)

/-- `accept` on a listener hands a hardware socket over or has only re-armed the listener. -/
theorem wiztoeAccept_changes (hfit : cfg.Fits) (hw : Owned cfg t) (hl : IsListener cfg t fd) :
    wlp (Watched U) (fun _ _ _ ↦ True) (wiztoeAccept cfg fd)
      (fun r t' e' ↦ HandedOver cfg t fd r t' e'.2 ∨ (r < 0 ∧ OnlyRearmed cfg t fd t')) t e := by
  unfold wiztoeAccept
  refine pre_get_bind.mpr ?_
  rw [if_neg (by simpa [hl.2] using hl.1)]
  refine pre_perform_bind.mpr fun _ _ ↦ ⟨trivial, fun started e _ ↦ ?_⟩
  refine wlp_forever (fun t' _ ↦ OnlyRearmed cfg t fd t') (.refl hw) ?_
  intro t' e h
  unfold toeAcceptTurn
  refine pre.seq (toeAcceptPoll_changes hfit (h.listener hl) h) ?_
  rintro (_ | r) t'' e h
  · refine ((toeWaitTurn_waits (A := fun _ ↦ True) (Polled.stable U t fd []) started
      Desc.rcvTimeoutMs
      wiztoeErrTimeout ⟨h, List.nil_subset _⟩).guard fun _ _ _ _ ↦ trivial).imp ?_
    rintro (_ | r) _ e ⟨⟨rfl, hp⟩, hr⟩
    · exact hp.1
    · refine fun _ _ ↦ .inr ⟨?_, hp.1⟩
      rcases hr r rfl with rfl | rfl
      · decide
      · decide
  · exact fun e₁ hd₁ e₂ hd₂ ↦ h.imp_left fun h ↦ h.drifts (hd₁.trans hd₂)

/-! ## What is left when `accept` returns -/

/-- `c` is the connection accepted on the listener `fd`, with its hardware socket `s`; the tables
were `t` and are `t'`. -/
structure Connection (cfg : ToeConfig) (t : Tables) (fd c s : ℤ) (t' : Tables) : Prop where
  unused : IsUnused cfg t c
  holds : Holds cfg t' c s
  owner : t'.owner s = c
  port : (t'.desc c).port = (t.desc fd).port
  nodelay : (t'.desc c).nodelay = (t.desc fd).nodelay
  rcvTimeoutMs : (t'.desc c).rcvTimeoutMs = (t.desc fd).rcvTimeoutMs
  sndTimeoutMs : (t'.desc c).sndTimeoutMs = (t.desc fd).sndTimeoutMs
  opened : (t'.desc c).opened = true
  blocking : (t'.desc c).nonblocking = false
  listening : (t'.desc c).listening = false
  rdShutdown : (t'.desc c).rdShutdown = false
  isUdp : (t'.desc c).isUdp = false
  /-- The listener is what it was, apart from its hardware socket. -/
  listener : IsListener cfg t' fd
  self : ∃ sn b, t'.desc fd = { t.desc fd with sn := sn, opened := b }
  moved : (t'.desc fd).sn ≠ s
  others : ∀ x, x ≠ fd → x ≠ c → t'.desc x = t.desc x
  owners : ∀ sn, sn ≠ s → t.owner sn ≠ fd → t'.owner sn ≠ fd → t'.owner sn = t.owner sn

theorem HandedOver.connection {l : Observations} (h : HandedOver cfg t fd c t' l)
    (hl : IsListener cfg t fd) :
    ∃ t₁ sr, (t₁, (⟨.getSnSR (t₁.desc fd).sn, sr⟩ : Sigma ChipOp.Ans)) ∈ l ∧
    (sr = .established ∨ sr = .closeWait) ∧
      toeFdReady cfg t₁ fd ∧ Connection cfg t fd c (t₁.desc fd).sn t' := by
  obtain ⟨t₁, sr, hmem, hsr, h₁, hr, hc, h'⟩ := h
  refine ⟨t₁, sr, hmem, hsr, hr, ?_⟩
  have hne : c ≠ fd := hr.ne_unused hc
  obtain ⟨sn₁, b₁, hself₁⟩ := h₁.self
  have hself := h'.self
  have hself' : (t₁.handover fd c).desc fd = { t₁.desc fd with sn := -1, opened := false } := by
    simp [Tables.handover, Tables.upd_desc_ne _ _ hne.symm]
  -- The new descriptor is not touched any more once it has its hardware socket.
  have hdesc : t'.desc c =
      { used := true
        sn := (t₁.desc fd).sn
        opened := true
        connected := true
        port := (t.desc fd).port
        nodelay := (t.desc fd).nodelay
        rcvTimeoutMs := (t.desc fd).rcvTimeoutMs
        sndTimeoutMs := (t.desc fd).sndTimeoutMs } := by
    rw [h'.others c hne, hself₁]
    simp [Tables.handover, Tables.upd_desc_ne _ _ hne, hself₁]
  have hready : toeFdReady cfg t' c :=
    ⟨⟨hc.1, hc.2.1, by rw [hdesc]⟩, by rw [hdesc]; exact hr.2⟩
  have hown : t'.owner (t₁.desc fd).sn = c := by
    have h := (h'.owned.owner_of_ready hready).2
    rwa [hdesc] at h
  have hlis : IsListener cfg t' fd := h'.listener ((h₁.listener hl).handover hc)
  refine ⟨⟨hc.1, hc.2.1, by rw [← h₁.used c]; exact hc.2.2⟩, ⟨hready, by rw [hdesc]⟩,
    hown, by rw [hdesc], by rw [hdesc],
    by rw [hdesc], by rw [hdesc], by rw [hdesc], by rw [hdesc], by rw [hdesc], by rw [hdesc], by
      rw [hdesc], hlis, ?_,
    ?_, ?_, ?_⟩
  · obtain ⟨sn, b, hself⟩ := hself
    exact ⟨sn, b, by rw [hself, hself', hself₁]⟩
  · intro heq
    have hfd := (h'.owned.owner_of_ready ⟨hlis.1, heq ▸ hr.2⟩).2
    rw [heq] at hfd
    exact hne (hown.symm.trans hfd)
  · intro x hx hxc
    rw [h'.others x hx, Tables.handover, Tables.upd_desc_ne _ _ hx, Tables.setOwner_desc,
      Tables.upd_desc_ne _ _ hxc, h₁.others x hx]
  · intro sn hs ho ho'
    have hkept : (t₁.handover fd c).owner sn = t₁.owner sn := by
      rw [Tables.handover, Tables.upd_owner, Tables.setOwner_owner_ne _ _ hs]
      rfl
    -- The listener owned nothing else when it handed `s` over.
    have hno : t₁.owner sn ≠ fd := by
      intro heq
      have hsock := ((h₁.taken sn heq).resolve_left ho).isSock
      exact hs ((h₁.owned.owner_iff hr.1.isDesc hsock).mp heq).2.symm
    rw [h'.owner sn (by rwa [hkept]) ho', hkept, h₁.owner sn ho hno]

/-- **What `accept` changes.** Whatever the chip does, a call on a listener that returns a
descriptor has handed over to it the hardware socket that the listener held when it was observed in
`ESTABLISHED` or `CLOSE_WAIT`, and one that returns an error has changed no more than the hardware
socket of the listener. -/
theorem accept_changes {e e' : E} {r : ℤ} {l : Observations} (hfit : cfg.Fits) (hw : Owned cfg t)
    (hl : IsListener cfg t fd) (hr : Returns (Watched U) (wiztoeAccept cfg fd) t (e, []) r t'
      (e', l)) :
    (0 ≤ r → ∃ t₁ s sr, (t₁, (⟨.getSnSR s, sr⟩ : Sigma ChipOp.Ans)) ∈ l ∧
      (sr = .established ∨ sr = .closeWait) ∧
      Holds cfg t₁ fd s ∧ Connection cfg t fd r s t') ∧
    (r < 0 → (∀ x, (t'.desc x).used = (t.desc x).used) ∧ OnlyRearmed cfg t fd t') := by
  rcases (wiztoeAccept_changes (U := U) (e := (e, [])) hfit hw hl).returns hr with h | ⟨hneg, h⟩
  · obtain ⟨t₁, sr, hmem, hsr, hready, hc⟩ := h.connection hl
    exact ⟨fun _ ↦ ⟨t₁, _, sr, hmem, hsr, ⟨hready, rfl⟩, hc⟩,
      fun hneg ↦ absurd hc.unused.1 (not_le.mpr hneg)⟩
  · exact ⟨fun h₀ ↦ absurd h₀ (not_le.mpr hneg), fun _ ↦ ⟨h.used, h⟩⟩

/-- A TCP socket that was made a listener. -/
def oneListener : Tables :=
  afterCall w5500 .closed (.listen 0 1) (afterCall w5500 .closed (.socket 2 1 0) .zero)

theorem oneListener_owned : Owned w5500 oneListener := by
  have hsocket : ToeHistory w5500 (fun _ ↦ .any) ()
      (afterCall w5500 .closed (.socket 2 1 0) .zero) () :=
    ToeHistory.afterCall .start (fun _ heq ↦ by cases heq) (fun _ _ _ ↦ trivial)
      (by decide)
  have hlisten : ToeHistory w5500 (fun _ ↦ .any) () oneListener () :=
    hsocket.afterCall (fun _ heq ↦ by cases heq) (fun _ _ _ ↦ trivial) (by decide)
  exact (WellOwned.history w5500_fits hlisten).of_init (by decide)

/-- A client connects. -/
theorem accept_changes_connected : ∃ s, Connection w5500 oneListener 0 1 s
    (runWith (placidChip .established) 30 ⟨wiztoeAccept w5500 0, oneListener, ()⟩).store := by
  have hrun := returns_runWith (V := .any) (h := placidChip .established) (n := 30)
    (s := oneListener) (a := 1)
    (p := wiztoeAccept w5500 0) (.always fun _ _ _ ↦ trivial) (e := ()) trivial (by decide)
  obtain ⟨l, hrun⟩ := hrun.noted []
  obtain ⟨_, s, _, _, _, _, h⟩ := (accept_changes w5500_fits oneListener_owned
    ⟨by decide, by decide⟩ hrun).1 (by decide)
  exact ⟨s, h⟩

end WsmDriver
