import WsmDriver.Effect.Execution
import WsmDriver.Spi.Bus

/-!
# Who drives the bus

Any number of tasks make their register accesses at once, each callback one step, each task in
ioLibrary's order. A task whose `wizchip_cs_select` failed makes its transfers all the same. That is
harmless as long as nobody has the chip selected, since a transfer without a selection takes the
lock for itself; when another task has, the flag lets the transfer through and lets the deselection
end what is not its own.
-/

namespace WsmDriver.Spi

open Effect Program

/-! ## Tasks -/

/-- Where a task is in the order in which ioLibrary makes the calls. -/
inductive Stage
  | outside
  | entered
  /-- `wizchip_cs_select` has returned, and it has or has not selected the chip. -/
  | selected (ok : Bool)
  | deselected
  deriving DecidableEq

/-- The calls. -/
inductive SpiCall
  | enter
  | select
  | transfer (tx : Option (List UInt8)) (len : ℕ)
  | deselect
  | exit

/-- The calls made between `wizchip_cs_select` and `wizchip_critical_exit`, if they do anything. -/
def SpiCall.Touches : SpiCall → Prop
  | .transfer _ len => len ≠ 0
  | .deselect => True
  | _ => False

variable {ι : Type} [DecidableEq ι]

/-- The call as `t` makes it. -/
def SpiCall.prog (t : ι) : SpiCall → Transport ι Unit
  | .enter => wizchipCriticalEnter
  | .select => wizchipCsSelect t
  | .transfer tx len => discard (spiTransferLocked tx len)
  | .deselect => wizchipCsDeselect
  | .exit => wizchipCriticalExit

/-- The next call of a task, and where the task is after it. `s'` is the context that the call
leaves. -/
inductive Next (t : ι) (s' : Context ι) : Stage → SpiCall → Stage → Prop
  | enter : Next t s' .outside .enter .entered
  | select : Next t s' .entered .select (.selected (decide (s'.cs = some t)))
  | transfer {ok : Bool} (tx : Option (List UInt8)) (len : ℕ) :
    Next t s' (.selected ok) (.transfer tx len) (.selected ok)
  | deselect {ok : Bool} : Next t s' (.selected ok) .deselect .deselected
  | exit : Next t s' .deselected .exit .outside

/-- The bus and the tasks. -/
structure Point (ι : Type) where
  ctx : Context ι
  mutex : RecMutex ι
  stage : ι → Stage

namespace Point

/-- `c` may be the next call of `t`. -/
def Allows (p : Point ι) (t : ι) (c : SpiCall) : Prop :=
  ∃ s' stage', Next t s' (p.stage t) c stage'

/-- `t` has not selected the chip and goes on as if it had, while another task has. -/
structure Trespasses (p : Point ι) (t : ι) (c : SpiCall) : Prop where
  stage : p.stage t = .selected false
  active : p.ctx.csActive = true
  touches : c.Touches

/-- The call leaves the chip to the task that selected it: it clocks no transfer while another has
selected it, does not raise its CS, and does not clear the flag. -/
structure Keeps (p : Point ι) (t : ι) (c : SpiCall) : Prop where
  drives : ∀ o s m, Performs (busOf t) (c.prog t) p.ctx p.mutex o s m → o.drives = true →
    s.Owner t
  clears : ∀ s' m', Returns (busOf t) (c.prog t) p.ctx p.mutex () s' m' →
    ∀ u, p.ctx.cs = some u → s'.cs = some u ∨ u = t

end Point

/-- The points that any number of tasks reach from a free bus, whatever the lock's timeout is. -/
inductive Run : Point ι → Prop
  | start (lockTimeoutMs : UInt32) :
      Run ⟨{ lockTimeoutMs := lockTimeoutMs }, .free, fun _ ↦ .outside⟩
  | call {p : Point ι} {s' : Context ι} {m' : RecMutex ι} {stage' : Stage} (t : ι) (c : SpiCall)
      (h : Run p)
      (hr : Returns (busOf t) (c.prog t) p.ctx p.mutex () s' m')
        (hs : Next t s' (p.stage t) c stage') :
      Run ⟨s', m', Function.update p.stage t stage'⟩

theorem transfer_spec (tx : Option (List UInt8)) (len : ℕ) {t : ι} {s : Context ι}
    {m : RecMutex ι} :
    wlp (busOf t) (Within (len ≠ 0 → s.Owner t) t) ((SpiCall.transfer tx len).prog t)
      (fun _ s' m' ↦ s' = s ∧ ∀ u, m'.depth u = m.depth u) s m :=
  (spiTransferLocked_spec tx len).seq fun _ _ _ h ↦ pre_pure_still busOf_still h

/-! ## The invariant -/

/-- Who has selected the chip holds the lock, until it deselects it. -/
structure Invariant (p : Point ι) : Prop where
  active : ∀ t, p.ctx.cs = some t → p.stage t = .selected true
  holds : ∀ t, p.stage t = .selected true → 0 < p.mutex.depth t

namespace Invariant

variable {p : Point ι} {t : ι} {c : SpiCall} {s' : Context ι} {m' : RecMutex ι} {stage' : Stage}

/-- A task that selected the chip finds it selected by nobody else. -/
theorem owner (h : Invariant p) (ht : p.stage t = .selected true) : p.ctx.Owner t := by
  intro u hu
  exact RecMutex.depth_unique (h.holds u (h.active u hu)) (h.holds t ht)

/-- A call that takes the lock from nobody and leaves the flag alone. -/
theorem idle (h : Invariant p) (hs : s' = p.ctx) (hm : Spares t p.mutex m')
    (hbefore : p.stage t ≠ .selected true) (hafter : stage' ≠ .selected true) :
    Invariant ⟨s', m', Function.update p.stage t stage'⟩ := by
  subst hs
  constructor
  · intro u hu
    have hsel := h.active u hu
    have hne : u ≠ t := by
      rintro rfl
      exact hbefore hsel
    exact (Function.update_of_ne hne _ _).trans hsel
  · intro u hu
    by_cases hut : u = t
    · subst hut
      exact absurd ((Function.update_self ..).symm.trans hu) hafter
    · rw [hm u hut]
      exact h.holds u ((Function.update_of_ne hut _ _).symm.trans hu)

theorem select (h : Invariant p) (ht : p.stage t = .entered)
    (hr : (s' = { p.ctx with cs := some t } ∧ p.mutex.take t = some m') ∨
      (s' = p.ctx ∧ ∀ u, m'.depth u = p.mutex.depth u)) :
    Invariant ⟨s', m', Function.update p.stage t (.selected (decide (s'.cs = some t)))⟩ := by
  obtain ⟨rfl, htake⟩ | ⟨rfl, hm⟩ := hr
  · constructor
    · rintro u hu
      obtain rfl : t = u := Option.some_inj.mp hu
      exact (Function.update_self ..).trans (by simp)
    · intro u hu
      rw [RecMutex.depth_take htake]
      split
      · exact Nat.succ_pos _
      · rename_i hut
        exact h.holds u ((Function.update_of_ne hut _ _).symm.trans hu)
  · have hnot : p.ctx.cs ≠ some t := by
      intro hcs
      cases ht.symm.trans (h.active t hcs)
    refine h.idle rfl (fun u _ ↦ hm u) (by simp [ht]) (by simp [hnot])

theorem transfer (h : Invariant p) {ok : Bool} (ht : p.stage t = .selected ok) (hs : s' = p.ctx)
    (hm : ∀ u, m'.depth u = p.mutex.depth u) :
    Invariant ⟨s', m', Function.update p.stage t (.selected ok)⟩ := by
  subst hs
  rw [← ht, Function.update_eq_self]
  exact ⟨h.active, fun u hu ↦ (hm u).symm ▸ h.holds u hu⟩

theorem deselect (h : Invariant p) (hs : s' = { p.ctx with cs := none })
    (hm : Spares t p.mutex m') : Invariant ⟨s', m', Function.update p.stage t .deselected⟩ := by
  subst hs
  constructor
  · exact fun u hu ↦ absurd hu (by simp)
  · intro u hu
    by_cases hut : u = t
    · subst hut
      cases (Function.update_self ..).symm.trans hu
    · rw [hm u hut]
      exact h.holds u ((Function.update_of_ne hut _ _).symm.trans hu)

theorem call (h : Invariant p) (hr : Returns (busOf t) (c.prog t) p.ctx p.mutex () s' m')
    (hs : Next t s' (p.stage t) c stage') :
    Invariant ⟨s', m', Function.update p.stage t stage'⟩ := by
  generalize hst : p.stage t = stage at hs
  cases hs with
  | enter =>
    obtain ⟨hs, hm, -⟩ := (wizchipCriticalEnter_spec (M := True)).returns hr
    exact h.idle hs hm (by simp [hst]) (by simp)
  | select => exact h.select hst ((wizchipCsSelect_spec (M := True)).returns hr)
  | transfer tx len =>
    obtain ⟨hs, hm⟩ := (transfer_spec tx len).returns hr
    exact h.transfer hst hs hm
  | deselect =>
    obtain ⟨hs, hm⟩ := wizchipCsDeselect_spec.returns hr
    exact h.deselect hs hm
  | exit =>
    obtain ⟨hs, hm⟩ := (wizchipCriticalExit_spec (M := True)).returns hr
    exact h.idle hs hm (by simp [hst]) (by simp)

end Invariant

theorem Run.invariant {p : Point ι} (h : Run p) : Invariant p := by
  induction h with
  | start => exact ⟨fun t ht ↦ absurd ht (by simp), fun t ht ↦ absurd ht (by simp)⟩
  | call t c _ hr hs ih => exact ih.call hr hs

/-! ## Keeping out of each other's way -/

section

variable {p : Point ι} {t : ι} {c : SpiCall}

/-- A call that does not touch the chip of another keeps it. -/
theorem Point.keeps_of_owner (hp : Invariant p) (h : c.Touches → p.ctx.Owner t) : p.Keeps t c := by
  cases c with
  | enter =>
    refine ⟨fun o s m ho hd ↦ wizchipCriticalEnter_spec.performs ho trivial hd,
      fun s' m' hr u hu ↦ ?_⟩
    obtain ⟨rfl, -⟩ := (wizchipCriticalEnter_spec (M := True)).returns hr
    exact .inl hu
  | select =>
    refine ⟨fun o s m ho hd ↦ wizchipCsSelect_spec.performs ho trivial hd,
      fun s' m' hr u hu ↦ ?_⟩
    obtain ⟨rfl, htake⟩ | ⟨rfl, -⟩ := (wizchipCsSelect_spec (M := True)).returns hr
    · -- Whoever had the chip selected would hold the lock.
      refine .inr (by_contra fun hne ↦ ?_)
      exact Nat.lt_irrefl 0 (RecMutex.depth_of_take htake hne ▸ hp.holds u (hp.active u hu))
    · exact .inl hu
  | transfer tx len =>
    refine ⟨fun o s m ho hd ↦ (transfer_spec tx len).performs ho h hd, fun s' m' hr u hu ↦ ?_⟩
    obtain ⟨rfl, -⟩ := (transfer_spec tx len).returns hr
    exact .inl hu
  | deselect =>
    refine ⟨fun o s m ho hd ↦ wizchipCsDeselect_spec.performs ho (h trivial) hd,
      fun s' m' hr u hu ↦ ?_⟩
    exact .inr (h trivial u hu)
  | exit =>
    refine ⟨fun o s m ho hd ↦ wizchipCriticalExit_spec.performs ho trivial hd,
      fun s' m' hr u hu ↦ ?_⟩
    obtain ⟨rfl, -⟩ := (wizchipCriticalExit_spec (M := True)).returns hr
    exact .inl hu

/-- A call that touches a selected chip drives it at once. -/
theorem drives_of_touches (hc : c.Touches) (ha : p.ctx.csActive = true) :
    ∃ o, o.drives = true ∧ Performs (busOf t) (c.prog t) p.ctx p.mutex o p.ctx p.mutex := by
  cases c with
  | transfer tx len =>
    refine ⟨.transmit tx len, rfl, Performs.bind (Performs.get_bind ?_) _⟩
    rw [if_neg hc, if_pos ha]
    exact .perform _ _
  | deselect =>
    refine ⟨.setCs true, rfl, Performs.get_bind ?_⟩
    rw [when, if_pos ha]
    exact Performs.bind (.perform _ _) _
  | _ => exact hc.elim

/-! ## Calls that return -/

section

variable {s : Context ι} {m m' : RecMutex ι}

theorem returns_enter (h : m.take t = some m') :
    Returns (busOf t) (SpiCall.enter.prog t) s m () s m' :=
  .get_bind (.perform_bind (.inl ⟨rfl, h⟩) (.pure _ _ _))

theorem returns_enter_timeout (h : m.depth t = 0) (hw : getWaitTicks s ≠ .maxDelay) :
    Returns (busOf t) (SpiCall.enter.prog t) s m () s m :=
  .get_bind (.perform_bind (.inr ⟨rfl, rfl, h, hw⟩) (.pure _ _ _))

theorem returns_select (h : m.take t = some m') :
    Returns (busOf t) (SpiCall.select.prog t) s m () { s with cs := some t } m' := by
  refine .get_bind (.perform_bind (a := true) (.inl ⟨rfl, h⟩) ?_)
  rw [when, if_pos rfl]
  refine .perform_bind (a := .ok ()) rfl (.perform_bind (a := ()) rfl ?_)
  exact (Reaches.step (.read _ _ _)).trans (.step (.write _ _ _ _))

theorem returns_select_timeout (h : m.depth t = 0) (hw : getWaitTicks s ≠ .maxDelay) :
    Returns (busOf t) (SpiCall.select.prog t) s m () s m :=
  .get_bind (.perform_bind (a := false) (.inr ⟨rfl, rfl, h, hw⟩) (.pure _ _ _))

end

/-- Two tasks: the one called `true` has selected the chip, the other has not tried yet. -/
def selectedByOne : Point Bool where
  ctx := { cs := some true }
  mutex := .held true 1
  stage := Function.update (Function.update (fun _ ↦ .outside) true .entered) true (.selected true)

/-- And the other has, in vain. -/
def contended : Point Bool where
  ctx := selectedByOne.ctx
  mutex := selectedByOne.mutex
  stage := Function.update (Function.update selectedByOne.stage false .entered) false
    (.selected false)

theorem run_selectedByOne : Run selectedByOne :=
  ((Run.start 1000).call true .enter (returns_enter rfl) .enter).call true .select
    (returns_select rfl) .select

theorem run_contended : Run contended :=
  (run_selectedByOne.call false .enter (returns_enter_timeout rfl (by decide)) .enter).call false
    .select (returns_select_timeout rfl (by decide)) .select

/-- **Who drives the bus.** While the chip is selected, the task that selected it holds the lock;
and a call leaves the chip to that task unless it is a transfer or a deselection by a task whose own
selection failed. -/
theorem chip_kept (h : Run p) : (∀ t, p.ctx.cs = some t → 0 < p.mutex.depth t) ∧
    ∀ t c, p.Allows t c → (p.Keeps t c ↔ ¬p.Trespasses t c) := by
  have hp := h.invariant
  refine ⟨fun t ht ↦ hp.holds t (hp.active t ht), fun t c ⟨s', stage', hnext⟩ ↦
    ⟨?_, fun hno ↦ ?_⟩⟩
  · rintro hkeeps ⟨hst, ha, htouches⟩
    obtain ⟨o, hd, ho⟩ := drives_of_touches (t := t) htouches ha
    obtain ⟨u, hu⟩ := Option.isSome_iff_exists.mp ha
    obtain rfl := hkeeps.drives o _ _ ho hd u hu
    cases hst.symm.trans (hp.active u hu)
  · refine Point.keeps_of_owner hp fun htouches u hu ↦ ?_
    generalize hst : p.stage t = stage at hnext
    have hsel : ∃ ok, stage = .selected ok := by
      cases hnext with
      | transfer tx len => exact ⟨_, rfl⟩
      | deselect => exact ⟨_, rfl⟩
      | _ => exact htouches.elim
    obtain ⟨ok, rfl⟩ := hsel
    cases ok with
    | true => exact hp.owner hst u hu
    | false => exact absurd ⟨hst, by rw [Context.csActive, hu]; rfl, htouches⟩ hno

/-- One task is at its transfers. -/
theorem chip_kept_selectedByOne :
    (∀ t, selectedByOne.ctx.cs = some t → 0 < selectedByOne.mutex.depth t) ∧
    ∀ t c, selectedByOne.Allows t c →
    (selectedByOne.Keeps t c ↔ ¬selectedByOne.Trespasses t c) :=
  chip_kept run_selectedByOne

/-- A task whose lock timed out transfers a byte into the access of another. -/
theorem chip_driven_by_another : ∃ (p : Point Bool) (t : Bool) (c : SpiCall),
    Run p ∧ p.Allows t c ∧ ¬p.Keeps t c := by
  refine ⟨contended, false, .transfer (some [0]) 1, run_contended,
    ⟨contended.ctx, _, .transfer _ _⟩, fun hkeeps ↦ ?_⟩
  obtain ⟨o, hd, ho⟩ :=
    drives_of_touches (p := contended) (t := false) (c := .transfer (some [0]) 1)
    Nat.one_ne_zero rfl
  cases hkeeps.drives o _ _ ho hd true rfl

/-! ## Without a timeout -/

/-- The task is between `wizchip_critical_enter` and `wizchip_cs_deselect`. -/
def Stage.Inside : Stage → Prop
  | .entered | .selected _ => True
  | _ => False

/-- No call gives what another task has taken, and none before the deselection gives more than it
takes. -/
theorem call_inside {s' : Context ι} {m' : RecMutex ι} {stage' : Stage}
    (hr : Returns (busOf t) (c.prog t) p.ctx p.mutex () s' m') (hs : Next t s' (p.stage t) c stage')
    (hin : getWaitTicks p.ctx = .maxDelay → (p.stage t).Inside → 0 < p.mutex.depth t) :
    getWaitTicks s' = getWaitTicks p.ctx ∧ Spares t p.mutex m' ∧
      (getWaitTicks p.ctx = .maxDelay → stage'.Inside → 0 < m'.depth t) := by
  generalize p.stage t = stage at hs hin
  cases hs with
  | enter =>
    obtain ⟨rfl, hm, hpos⟩ := (wizchipCriticalEnter_spec (M := True)).returns hr
    exact ⟨rfl, hm, fun hw _ ↦ hpos hw⟩
  | select =>
    obtain ⟨rfl, htake⟩ | ⟨rfl, hm⟩ := (wizchipCsSelect_spec (M := True)).returns hr
    · refine ⟨rfl, .take htake, fun _ _ ↦ ?_⟩
      rw [RecMutex.depth_take htake, if_pos rfl]
      exact Nat.succ_pos _
    · exact ⟨rfl, fun u _ ↦ hm u, fun hw _ ↦ hm t ▸ hin hw trivial⟩
  | transfer tx len =>
    obtain ⟨rfl, hm⟩ := (transfer_spec tx len).returns hr
    exact ⟨rfl, fun u _ ↦ hm u, fun hw _ ↦ hm t ▸ hin hw trivial⟩
  | deselect =>
    obtain ⟨rfl, hm⟩ := wizchipCsDeselect_spec.returns hr
    exact ⟨rfl, hm, fun _ hin' ↦ hin'.elim⟩
  | exit =>
    obtain ⟨rfl, hm⟩ := (wizchipCriticalExit_spec (M := True)).returns hr
    exact ⟨rfl, hm, fun _ hin' ↦ hin'.elim⟩

/-- Who waits for the lock without end has it. -/
theorem Run.holds_of_maxDelay (h : Run p) :
    getWaitTicks p.ctx = .maxDelay → ∀ t, (p.stage t).Inside → 0 < p.mutex.depth t := by
  induction h with
  | start => exact fun _ t ht ↦ ht.elim
  | @call p s' m' stage' t c _ hr hs ih =>
    intro (hw : getWaitTicks s' = _) u (hu : (Function.update p.stage t stage' u).Inside)
    obtain ⟨hwait, hspares, hpos⟩ := call_inside hr hs (ih · t)
    rw [hwait] at hw
    by_cases hut : u = t
    · subst hut
      rw [Function.update_self] at hu
      exact hpos hw hu
    · rw [Function.update_of_ne hut] at hu
      exact hspares u hut ▸ ih hw u hu

/-- With `lock_timeout_ms` at its largest value nobody gets in the way of another. -/
theorem not_trespasses_of_maxDelay (h : Run p) (hw : p.ctx.lockTimeoutMs = 0xffffffff) :
    ¬p.Trespasses t c := by
  rintro ⟨hst, ha, -⟩
  obtain ⟨u, hu⟩ := Option.isSome_iff_exists.mp ha
  have hselected := h.invariant.active u hu
  have htime : getWaitTicks p.ctx = .maxDelay := if_pos hw
  have hut := RecMutex.depth_unique (h.holds_of_maxDelay htime t (by rw [hst]; trivial))
    (h.invariant.holds u hselected)
  rw [← hut, hst] at hselected
  cases hselected

end

end WsmDriver.Spi
