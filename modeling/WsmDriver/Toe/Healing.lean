import WsmDriver.Toe.Accept
import WsmDriver.Toe.Holdings

/-!
# One poll heals any listener

Whatever a listener's hardware socket is in, one non-blocking `accept` brings the listener back to
where a client can reach it, if the chip has a source address and ioLibrary grants what it is asked
for; unless a handshake has been completed, which is what `accept` is there to report. Nothing is
assumed of how the tables came about: a descriptor may be a listener without a hardware socket, or
one whose open was deferred.
-/

namespace WsmDriver

open Effect

variable {cfg : ToeConfig} {auto : SnSR → SnSR → Prop} {V : Env Tables PoolChip ChipOp.Ans}
  {R : ℕ → ℕ → Prop} {t t' t₀ : Tables} {e e' e₀ : PoolChip} {fd c sn s : ℤ}

/-- A client can reach a listener: nobody has, or a handshake is going on. -/
def SnSR.OnAir (x : SnSR) : Prop := x = .listen ∨ x = .synrecv

/-- The status was `P`, and what happened to it since the chip did by itself. -/
def SnSR.Since (auto : SnSR → SnSR → Prop) (P : SnSR → Prop) (x : SnSR) : Prop :=
  ∃ y, P y ∧ Relation.ReflTransGen auto y x

theorem SnSR.Since.drifts {P : SnSR → Prop} (hV : V ≤ poolChip auto) (h : (e.sr sn).Since auto P)
    (hd : V.Drifts e e') : (e'.sr sn).Since auto P := by
  refine (hd.mono hV).induct (P := fun e ↦ (e.sr sn).Since auto P) (fun e e' hd h ↦ ?_) h
  rcases hd sn with heq | ha
  · rwa [heq]
  · obtain ⟨y, hy, hr⟩ := h
    exact ⟨y, hy, hr.tail ha⟩

/-- The chip has a source address, and ioLibrary grants every `socket` and every `listen`. -/
structure Addressed (V : Env Tables PoolChip ChipOp.Ans) : Prop extends Grants V where
  sipr : ∀ {t e a e'}, V.answer .getSIPR t e a e' → a ≠ 0

/-- `fd` holds a hardware socket a client can reach, or could before the chip went on by itself. -/
def OnTheAir (cfg : ToeConfig) (auto : SnSR → SnSR → Prop) (fd : ℤ) (t : Tables) (e : PoolChip) :
    Prop :=
  ∃ s, Holds cfg t fd s ∧ (e.sr s).Since auto SnSR.OnAir

theorem OnTheAir.drifts (hV : V ≤ poolChip auto) (h : OnTheAir cfg auto fd t e)
    (hd : V.Drifts e e') : OnTheAir cfg auto fd t e' := by
  obtain ⟨s, hh, hs⟩ := h
  exact ⟨s, hh, hs.drifts hV hd⟩

theorem toeListenerReopen_heals (hV : V ≤ poolChip auto) (hA : Addressed V) :
    pre V (fun _ _ _ ↦ True) R (toeListenerReopen fd)
      (fun r t' e' ↦ r = 0 ∧ t' = t.setOpened fd true ∧
        (e'.sr (toeSn t fd)).Since auto SnSR.OnAir) t e := by
  unfold toeListenerReopen toeChipHasIp
  refine pre_get_bind.mpr (pre.seq (M := fun b t' _ ↦ b = true ∧ t = t') ?_ ?_)
  · refine pre_perform_bind.mpr fun _ _ ↦ ⟨trivial, fun a _ ha _ _ ↦ ⟨?_, rfl⟩⟩
    exact decide_eq_true (hA.sipr ha)
  rintro _ _ e ⟨rfl, rfl⟩
  rw [if_neg (by simp)]
  refine pre_get_bind.mpr (pre_perform_bind.mpr fun _ _ ↦ ⟨trivial, fun r _ ha ↦ ?_⟩)
  obtain rfl := hA.socket ha
  rw [if_neg (not_not.mpr rfl)]
  refine pre_modify_bind.mpr (pre_perform_bind.mpr fun _ _ ↦ ⟨trivial, fun r e' ha ↦ ?_⟩)
  obtain rfl := hA.listen ha
  rw [if_neg (not_not.mpr rfl)]
  refine fun e'' hd ↦ ⟨rfl, rfl, ?_⟩
  have hsr : e'.sr (toeSn t fd) = .listen := by
    have h := (hV.answer ha).2
    rw [if_pos rfl] at h
    rw [h, PoolChip.set_sr_self]
  exact SnSR.Since.drifts hV ⟨.listen, .inl rfl, by rw [hsr]⟩ hd

/-- A listener that goes back to waiting is on the air, and still does not block. -/
def Healthy (cfg : ToeConfig) (auto : SnSR → SnSR → Prop) (fd : ℤ) (t : Tables) (e : PoolChip) :
    Prop :=
  (t.desc fd).nonblocking = true ∧ OnTheAir cfg auto fd t e

theorem discard_toeListenerRearm_heals (hfit : cfg.Fits) (hV : V ≤ poolChip auto) (hA : Addressed V)
    (hv : toeFdValid cfg t fd) (hb : (t.desc fd).nonblocking = true) (hn : (t.desc fd).sn < 0)
    (hfree : ∃ s, IsFree cfg t s) :
    pre V (fun _ _ _ ↦ True) R (discard <| toeListenerRearm cfg fd)
    (fun _ ↦ Healthy cfg auto fd) t e := by
  refine pre_discard (pre.imp (Q := fun _ ↦ Healthy cfg auto fd) ?_ fun _ _ _ h _ hd ↦
    ⟨h.1, h.2.drifts hV hd⟩)
  refine pre_toeListenerRearm hfit (fun _ _ ↦ hv.isDesc) (fun hheld ↦ absurd hn (not_lt.mpr hheld))
    (fun sn _ hs ↦ ?_) fun _ hnone ↦ ?_
  · refine pre.seq (toeListenerReopen_heals hV hA) ?_
    rintro _ _ e ⟨rfl, rfl, hair⟩
    rw [if_neg (by decide)]
    rw [toeSn_arm hfit hs.free] at hair
    refine fun e' hd ↦ ⟨?_, OnTheAir.drifts hV ⟨sn, ⟨⟨?_, ?_⟩, ?_⟩, hair⟩ hd⟩
    · simpa [Tables.setOpened, Tables.arm] using hb
    · simpa [toeFdValid, Tables.setOpened, Tables.arm] using hv
    · simpa [Tables.setOpened, Tables.arm] using hs.free.1
    · simp [Tables.setOpened, Tables.arm]
  · obtain ⟨s, hs⟩ := hfree
    exact absurd hs (hnone s)

/-! ## Polling -/

/-- The handshake on the hardware socket of `fd` has been completed, at the start or by the chip
since. -/
def HandshakeDone (cfg : ToeConfig) (auto : SnSR → SnSR → Prop) (fd : ℤ) (t : Tables)
    (e : PoolChip) : Prop :=
  toeFdReady cfg t fd ∧ ∃ x, x.Connected ∧ Relation.ReflTransGen auto (e.sr (t.desc fd).sn) x

/-- What a poll that sees a completed handshake returns: a new descriptor, or nothing while every
descriptor is in use and the connection is left alone. -/
def Reports (cfg : ToeConfig) (auto : SnSR → SnSR → Prop) (fd : ℤ) (t : Tables) (r : ℤ)
    (t' : Tables) (e' : PoolChip) : Prop :=
  IsUnused cfg t r ∨ (r = wiztoeErrWouldblock ∧ (∀ c, ¬IsUnused cfg t c) ∧ t' = t ∧
    (e'.sr (t.desc fd).sn).Since auto SnSR.Connected)

theorem Reports.drifts {r : ℤ} (hV : V ≤ poolChip auto) (h : Reports cfg auto fd t r t' e)
    (hd : V.Drifts e e') : Reports cfg auto fd t r t' e' :=
  h.imp_right fun ⟨hr, hfull, ht, hs⟩ ↦ ⟨hr, hfull, ht, hs.drifts hV hd⟩

/-- After the first half of a turn. -/
def AfterPoll (cfg : ToeConfig) (auto : SnSR → SnSR → Prop) (fd : ℤ) (t : Tables)
    (e : PoolChip) : Option ℤ → Tables → PoolChip → Prop
  | none => Healthy cfg auto fd
  | some r => fun t' e' ↦ HandshakeDone cfg auto fd t e ∧ Reports cfg auto fd t r t' e'

theorem discard_toeListenerRearm_ends (hV : V ≤ poolChip auto) (hA : Addressed V) :
    pre V (fun _ _ _ ↦ True) R (discard <| toeListenerRearm cfg fd) (fun _ _ _ ↦ True) t e := by
  refine pre_discard (pre.imp (Q := fun _ _ _ ↦ True) ?_ fun _ _ _ _ _ _ ↦ trivial)
  unfold toeListenerRearm
  refine pre_get_bind.mpr (pre_ite (fun _ _ _ ↦ trivial) fun _ ↦ pre_modifyGet_bind.mpr ?_)
  refine pre_ite (fun _ _ _ ↦ trivial) fun _ ↦
    pre_modify_bind.mpr (pre.seq (toeListenerReopen_heals hV hA) ?_)
  exact fun _ _ _ _ ↦ pre_ite (fun _ ↦ pre_modify_bind.mpr fun _ _ ↦ trivial) fun _ _ _ ↦
    trivial

theorem toeAcceptEstablished_reports (hfit : cfg.Fits) (hV : V ≤ poolChip auto) (hA : Addressed V)
    (hr : toeFdReady cfg t fd) (hsn : (t.desc fd).sn < cfg.maxSock)
    (hs : (e.sr (t.desc fd).sn).Connected) :
    pre V (fun _ _ _ ↦ True) R (toeAcceptEstablished cfg fd) (Reports cfg auto fd t) t e := by
  rcases toeDescAlloc_cases cfg t with ⟨c, hc, heq⟩ | ⟨heq, hnone⟩
  · refine (toeAcceptEstablished_handover hfit hsn hr hc heq).mpr
      (pre.seq (discard_toeListenerRearm_ends hV hA) ?_)
    exact fun _ _ _ _ _ _ ↦ .inl hc
  · refine (toeAcceptEstablished_full heq).mpr fun e' hd ↦ ?_
    exact .inr ⟨rfl, hnone, rfl, SnSR.Since.drifts hV ⟨_, hs, .refl⟩ hd⟩

theorem toeAcceptPoll_heals (hfit : cfg.Fits) (hV : V ≤ poolChip auto) (hA : Addressed V)
    (hs : Shaped cfg t) (hl : IsListener cfg t fd) (hb : (t.desc fd).nonblocking = true)
    (hfree : (t.desc fd).sn < 0 → ∃ s, IsFree cfg t s) (e : PoolChip) :
    pre V (fun _ _ _ ↦ True) R (toeAcceptPoll cfg fd) (AfterPoll cfg auto fd t e) t e := by
  unfold toeAcceptPoll
  refine pre_get_bind.mpr (pre_ite (fun hn ↦ ?_) fun hn ↦ ?_)
  · refine pre.seq (discard_toeListenerRearm_heals hfit hV hA hl.1 hb hn (hfree hn)) ?_
    exact fun _ _ _ h _ hd ↦ ⟨h.1, h.2.drifts hV hd⟩
  have hr : toeFdReady cfg t fd := ⟨hl.1, not_lt.mp hn⟩
  have hlt := (hs.desc hl.1).sn_lt
  have hsock := hfit.maxSock_le
  have hsn : toeSn t fd = (t.desc fd).sn := uint8_of_lt hr.2 (by omega)
  have hholds : ∀ {b}, Holds cfg (t.setOpened fd b) fd (t.desc fd).sn := fun {b} ↦
    ⟨by simpa [toeFdReady, toeFdValid, Tables.setOpened] using hr, by simp [Tables.setOpened]⟩
  rw [hsn]
  refine pre_perform_bind.mpr fun e₁ hd₁ ↦ ⟨trivial, fun sr e₂ ha ↦ ?_⟩
  obtain ⟨rfl, rfl⟩ : sr = e₁.sr (t.desc fd).sn ∧ e₂ = e₁ := hV.answer ha
  have hdone : (e₂.sr (t.desc fd).sn).Connected → HandshakeDone cfg auto fd t e := by
    intro hc
    obtain ⟨y, hy, hyx⟩ := SnSR.Since.drifts hV (P := (· = e.sr (t.desc fd).sn))
      ⟨_, rfl, .refl⟩ hd₁
    exact ⟨hr, _, hc, hy ▸ hyx⟩
  have hest : (e₂.sr (t.desc fd).sn).Connected → pre V (fun _ _ _ ↦ True) R (do
      let r ← toeAcceptEstablished cfg fd
      return some r : Toe (Option ℤ)) (AfterPoll cfg auto fd t e) t e₂ := fun hc ↦
    pre.seq (toeAcceptEstablished_reports hfit hV hA hr hlt hc) fun _ _ _ h _ hd ↦
      ⟨hdone hc, h.drifts hV hd⟩
  have hgo : (e₂.sr (t.desc fd).sn).OnAir →
      pre V (fun _ _ _ ↦ True) R (pure none : Toe (Option ℤ)) (AfterPoll cfg auto fd t e) t e₂ :=
        fun hair e' hd ↦
    ⟨hb, _, ⟨hr, rfl⟩, SnSR.Since.drifts hV ⟨_, hair, .refl⟩ hd⟩
  have hreopen : pre V (fun _ _ _ ↦ True) R (do
      let r ← toeListenerReopen fd
      .when (r < 0) (modify (toeListenerDisarm cfg fd))
      return none : Toe (Option ℤ)) (AfterPoll cfg auto fd t e) t e₂ := by
    refine pre.seq (toeListenerReopen_heals hV hA) ?_
    rintro _ _ e' ⟨rfl, rfl, hair⟩
    rw [hsn] at hair
    refine pre_when_bind (fun hneg ↦ absurd hneg (by decide)) fun _ e'' hd ↦ ?_
    exact ⟨by simpa [Tables.setOpened] using hb, _, hholds, hair.drifts hV hd⟩
  cases hsr : e₂.sr (t.desc fd).sn with
  | established => exact hest (by rw [hsr]; trivial)
  | closeWait => exact hest (by rw [hsr]; trivial)
  | listen => exact hgo (.inl hsr)
  | synrecv => exact hgo (.inr hsr)
  | init =>
    refine pre_get_bind.mpr (pre_perform_bind.mpr fun _ _ ↦ ⟨trivial, fun r e' ha ↦ ?_⟩)
    obtain rfl := hA.listen ha
    refine pre_when_bind (fun hne ↦ absurd rfl hne) fun _ e'' hd ↦ ⟨hb, _, ⟨hr, rfl⟩, ?_⟩
    have hsr : e'.sr (t.desc fd).sn = .listen := by
      have h := (hV.answer ha).2
      rw [if_pos rfl, hsn] at h
      rw [h, PoolChip.set_sr_self]
    exact SnSR.Since.drifts hV ⟨.listen, .inl rfl, by rw [hsr]⟩ hd
  | _ => exact hreopen

/-- What one poll of a listener leads to. -/
def Healed (cfg : ToeConfig) (auto : SnSR → SnSR → Prop) (fd : ℤ) (t : Tables) (e : PoolChip)
    (r : ℤ) (t' : Tables) (e' : PoolChip) : Prop :=
  (HandshakeDone cfg auto fd t e ∧ Reports cfg auto fd t r t' e') ∨
    (r = wiztoeErrWouldblock ∧ OnTheAir cfg auto fd t' e')

/-- A non-blocking poll takes a single turn. -/
theorem wiztoeAccept_heals (hfit : cfg.Fits) (hV : V ≤ poolChip auto) (hA : Addressed V)
    (hs : Shaped cfg t) (hl : IsListener cfg t fd) (hb : (t.desc fd).nonblocking = true)
    (hfree : (t.desc fd).sn < 0 → ∃ s, IsFree cfg t s) (e : PoolChip) :
    pre V (fun _ _ _ ↦ True) R (wiztoeAccept cfg fd) (Healed cfg auto fd t e) t e := by
  unfold wiztoeAccept
  refine pre_get_bind.mpr ?_
  rw [if_neg (by simpa [hl.2] using hl.1)]
  refine pre_perform_bind.mpr fun e₁ hd₁ ↦ ⟨trivial, fun started e₂ ha ↦ ?_⟩
  -- The clock is not the chip: no status changes while it is read.
  have hsr : ∀ sn, e₂.sr sn = e₁.sr sn := fun sn ↦ (hV.answer ha).2 sn (by simp [ChipOp.sock?])
  have hback : HandshakeDone cfg auto fd t e₂ → HandshakeDone cfg auto fd t e := by
    rintro ⟨hr, x, hx, hyx⟩
    obtain ⟨y, hy, hy'⟩ := SnSR.Since.drifts hV (P := (· = e.sr (t.desc fd).sn))
      ⟨_, rfl, .refl⟩ hd₁
    rw [hsr] at hyx
    exact ⟨hr, x, hx, (hy ▸ hy').trans hyx⟩
  refine pre_forever_once ?_
  unfold toeAcceptTurn
  refine pre.seq (toeAcceptPoll_heals hfit hV hA hs hl hb hfree e₂) ?_
  rintro (_ | r) t' e' h
  · unfold toeWaitTurn
    refine pre_get_bind.mpr ?_
    rw [if_pos h.1]
    exact fun _ hd ↦ ⟨_, rfl, fun _ hd' ↦ .inr ⟨rfl, h.2.drifts hV (hd.trans hd')⟩⟩
  · exact fun _ hd ↦ ⟨r, rfl, fun _ hd' ↦ .inl ⟨hback h.1, h.2.drifts hV (hd.trans hd')⟩⟩

/-! ## A deferred open -/

/-- Without a source address `listen` makes a listener that has not been opened. -/
theorem wiztoeListen_defers {E : Type} {U : Env Tables E ChipOp.Ans} {e : E}
    (hU : ∀ {t e a e'}, U.answer .getSIPR t e a e' → a = 0) (backlog : ℤ) :
    wlp U (fun _ _ _ ↦ True) (wiztoeListen cfg fd backlog)
      (fun r t' _ ↦ 0 ≤ r → IsListener cfg t' fd ∧ (t'.desc fd).opened = false) t e := by
  unfold wiztoeListen
  refine pre_get_bind.mpr (pre_ite (fun _ _ _ h ↦ absurd h (by decide)) fun hc ↦
    pre_modify_bind.mpr ?_)
  have hr : toeFdReady cfg t fd := by tauto
  refine pre.seq (M := fun r t' _ ↦ 0 ≤ r ∧ IsListener cfg t' fd ∧ (t'.desc fd).opened =
    false) ?_ ?_
  · unfold toeListenerReopen toeChipHasIp
    refine pre_get_bind.mpr (pre.seq (M := fun b t' _ ↦ b = false ∧ t'.desc = (t.upd fd fun d ↦
      { d with listening := true }).desc) ?_ ?_)
    · refine pre_perform_bind.mpr fun _ _ ↦ ⟨trivial, fun a _ ha _ _ ↦ ⟨?_, rfl⟩⟩
      exact decide_eq_false (not_not.mpr (hU ha))
    rintro _ t' e ⟨rfl, hd⟩
    rw [if_pos rfl]
    refine pre_modify_bind.mpr fun _ _ ↦
      ⟨by decide, ⟨⟨hr.1.1, hr.1.2.1, ?_⟩, ?_⟩, by simp⟩
    · simpa [hd] using hr.1.2.2
    · simp [hd]
  · rintro r t' e ⟨h₀, h⟩
    rw [if_neg (not_lt.mpr h₀)]
    exact fun _ _ _ ↦ h

/-- **One poll heals any listener.** From whatever tables the calls so far have led to and whatever
the status of its hardware socket, a non-blocking `accept` on a listener that has a hardware socket
or can get one, while the chip has a source address, returns; and it reports a completed handshake
or leaves the listener on the air. So does the first poll of a listener whose open was deferred, as
`listen` defers it while there is no address. -/
theorem poll_heals {E : Type} {W : Call → Env Tables E ChipOp.Ans} {ε₀ ε : E} (hfit : cfg.Fits)
    (h : AnyHistory cfg W ε₀ t ε) (hV : V ≤ poolChip auto) (hA : Addressed V)
    (hl : IsListener cfg t fd) (hb : (t.desc fd).nonblocking = true)
    (hfree : (t.desc fd).sn < 0 → ∃ s, IsFree cfg t s) (e : PoolChip) :
    (V.Calm → Halts V (wiztoeAccept cfg fd) t e) ∧
    (∀ r t' e', Returns V (wiztoeAccept cfg fd) t e r t' e' → Healed cfg auto fd t e r t' e') ∧
    (∀ (autos : Call → SnSR → SnSR → Prop) (e₀ : PoolChip),
      (∀ c x, ¬autos c .closed x) → (∀ x, ¬auto .closed x) →
      (∀ sn, e₀.sr sn = .closed) → TidyHistory cfg autos e₀ t e → (t.desc fd).opened =
      false →
      ∀ r t' e', Returns V (wiztoeAccept cfg fd) t e r t' e' → OnTheAir cfg auto fd t' e') ∧
    ∀ (U : Env Tables PoolChip ChipOp.Ans), (∀ {t e a e'}, U.answer .getSIPR t e a e' →
      a = 0) →
      ∀ backlog t₀ e₀ r t₁ e₁, Returns U
      (wiztoeListen cfg fd backlog) t₀ e₀ r t₁ e₁ → 0 ≤ r →
        IsListener cfg t₁ fd ∧ (t₁.desc fd).opened = false := by
  have hpoll : ∀ {R : ℕ → ℕ → Prop}, pre V (fun _ _ _ ↦ True) R (wiztoeAccept cfg fd)
      (Healed cfg auto fd t e) t e :=
    wiztoeAccept_heals hfit hV hA (.history hfit h) hl hb hfree e
  refine ⟨fun hcalm ↦ wp_halts hcalm hpoll, fun r t' e' hr ↦
    (hpoll (R := fun _ _ ↦ True)).returns hr, ?_, ?_⟩
  · intro autos e₀ hautos hauto h₀ htidy ho r t' e' hr
    rcases (hpoll (R := fun _ _ ↦ True)).returns hr with
      ⟨⟨hready, x, hx, hyx⟩, -⟩ | ⟨-, hair⟩
    · -- The hardware socket of an unopened descriptor is closed, and the chip does not open it.
      rw [(Clean.history hfit hautos h₀ htidy).idle trivial ⟨hready, ho⟩] at hyx
      rcases Relation.ReflTransGen.cases_head_iff.mp hyx with rfl | ⟨y, hy, -⟩
      · exact hx.elim
      · exact absurd hy (hauto y)
    · exact hair
  · exact fun U hU backlog t₀ e₀ r t₁ e₁ hr h₀ ↦
      (wiztoeListen_defers hU backlog).returns hr h₀

/-! ## A poll after the address has arrived -/

/-- A chip that grants everything, while it has an address. -/
def grantingChip : Env Tables PoolChip ChipOp.Ans :=
  (Env.script plainChip).restrict fun o _ e ↦ (∀ sn, o = .listen sn → e.sr sn ≠ .closed) ∧
    (o = .getSIPR → e.sipr ≠ 0)

theorem grantingChip_le (auto : SnSR → SnSR → Prop) : grantingChip ≤ poolChip auto := by
  refine ⟨fun h ↦ h.elim, ?_⟩
  rintro o t e _ _ ⟨-, rfl, rfl⟩
  exact poolChip_plainChip auto o t e

theorem grantingChip_addressed : Addressed grantingChip where
  socket h := h.2.1
  listen {sn _ e _ _} h := by
    obtain ⟨⟨hne, -⟩, rfl, -⟩ := h
    rw [plainChip, if_neg (hne sn rfl)]
  sipr {_ e _ _} h := by
    obtain ⟨⟨-, hip⟩, rfl, -⟩ := h
    exact hip rfl

namespace PoolState

/-- A listener that was created without a source address, made non-blocking. -/
def deferred : PoolState :=
  ((((start.address 0).after (.socket 2 1 0)).after (.listen 0 1)).after (.setNonblocking 0 true))

theorem deferred_history : AnyHistory w5500 (fun _ ↦ poolChip fun _ _ ↦ False) start.2 deferred.1
      deferred.2 := by
  have hstart : start.Reached fun _ _ ↦ False := .start
  have hsocket := (hstart.address 0).after (.socket 2 1 0) (by simp) (by decide)
  have hlisten := hsocket.after (.listen 0 1) (by simp) (by decide)
  have hmode : deferred.Reached fun _ _ ↦ False :=
    hlisten.after (.setNonblocking 0 true) (by simp) (by decide)
  exact hmode.mono (fun _ _ _ ↦ id) (fun _ _ _ _ ↦ trivial) fun _ _ _ _ _ ↦ id

end PoolState

/-- The first poll after the address has arrived. -/
theorem poll_heals_deferred :
    Halts grantingChip (wiztoeAccept w5500 0) PoolState.deferred.1
    { PoolState.deferred.2 with sipr := 1 } :=
  (poll_heals w5500_fits PoolState.deferred_history (grantingChip_le fun _ _ ↦ False)
    grantingChip_addressed
    ⟨by decide +kernel, by decide +kernel⟩ (by decide +kernel)
      (fun hn ↦ absurd hn (by decide +kernel)) _).1
    (.of_none fun _ _ hd ↦ hd)

end WsmDriver
