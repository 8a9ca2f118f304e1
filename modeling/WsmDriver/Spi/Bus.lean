import WsmDriver.Effect.Logic
import WsmDriver.Effect.Mutex
import WsmDriver.W6300.Types

/-!
# The bus of the TOE transport

The callbacks of `wsm_driver_spi.c` that ioLibrary makes every register access of: enter the
critical section, select the chip, clock the transfers, deselect it, leave the critical section. One
recursive mutex guards the bus. A callback returns nothing, so a task whose lock timed out is not
told and goes on.
-/

namespace WsmDriver.Spi

open Effect Program
open W6300 (EspErr)

/-! ## The data -/

/-- How long a lock is waited for: `portMAX_DELAY`, or `pdMS_TO_TICKS`. -/
inductive TickType
  | maxDelay
  | ms (n : UInt32)
  deriving DecidableEq

/-- What the callbacks keep in `s_ctx`. -/
structure Context (ι : Type) where
  /-- `cs_active`, with the task that set it. The code only looks at whether it is set. -/
  cs : Option ι := none
  lockTimeoutMs : UInt32 := 1000
  deriving DecidableEq

/-- `cs_active`. -/
def Context.csActive {ι : Type} (s : Context ι) : Bool := s.cs.isSome

/-- If the chip is selected, then by `t`. -/
def Context.Owner {ι : Type} (s : Context ι) (t : ι) : Prop := ∀ u, s.cs = some u → u = t

/-- What the callbacks ask of the operating system and of the SPI driver. -/
inductive SpiOp
  /-- `xSemaphoreTakeRecursive`. -/
  | take (wait : TickType)
  /-- `xSemaphoreGiveRecursive`. -/
  | give
  | acquireBus (wait : TickType)
  | releaseBus
  /-- `gpio_set_level` of the CS pin. -/
  | setCs (high : Bool)
  /-- `spi_device_transmit`. The buffer to send may be `NULL`. -/
  | transmit (tx : Option (List UInt8)) (len : ℕ)
  deriving DecidableEq

/-- The answer to each operation: `pdTRUE`, or an `esp_err_t`, with what was received. -/
abbrev SpiOp.Ans : SpiOp → Type
  | .take _ | .give => Bool
  | .acquireBus _ => Except EspErr Unit
  | .releaseBus | .setCs _ => Unit
  | .transmit _ _ => Except EspErr (List UInt8)

/-- The operations that the task that selected the chip has for itself while it is selected. -/
def SpiOp.drives : SpiOp → Bool
  | .transmit _ _ | .setCs true => true
  | _ => false

/-- The programs of the transport. -/
abbrev Transport (ι : Type) := Program (Context ι) SpiOp.Ans

/-- Perform an operation. -/
abbrev ask {ι : Type} (o : SpiOp) : Transport ι o.Ans := perform o

/-! ## The functions -/

section

variable {ι : Type}

/-- `get_wait_ticks`. -/
def getWaitTicks (s : Context ι) : TickType :=
  if s.lockTimeoutMs = 0xffffffff then .maxDelay else .ms s.lockTimeoutMs

/-- What `spi_transfer_locked` does with the lock held. -/
def spiTransferAutoCs (tx : Option (List UInt8)) (len : ℕ) : Except EspErr Unit →
    Transport ι (Except EspErr (List UInt8))
  | .error err => do
    let _ ← ask .give
    return .error err
  | .ok _ => do
    ask (.setCs false)
    let ret ← ask (.transmit tx len)
    ask (.setCs true)
    ask .releaseBus
    let _ ← ask .give
    return ret

/-- `spi_transfer_locked`. -/
def spiTransferLocked (tx : Option (List UInt8)) (len : ℕ) :
    Transport ι (Except EspErr (List UInt8)) := do
  let s ← get
  if len = 0 then return .ok []
  -- The path of a selected chip: the lock is taken to be held already.
  else if s.csActive = true then ask (.transmit tx len)
  else
    let taken ← ask (.take (getWaitTicks s))
    if taken = true then
      let acquired ← ask (.acquireBus .maxDelay)
      spiTransferAutoCs tx len acquired
    else return .error .timeout

/-- What `wizchip_cs_select` does with the lock held. -/
def wizchipCsSelectLocked (t : ι) : Except EspErr Unit → Transport ι Unit
  | .error _ => discard (ask .give)
  | .ok _ => do
    ask (.setCs false)
    modify fun s ↦ { s with cs := some t }

/-- `wizchip_cs_select`, called by `t`. -/
def wizchipCsSelect (t : ι) : Transport ι Unit := do
  let s ← get
  let taken ← ask (.take (getWaitTicks s))
  when (taken = true) do
    let acquired ← ask (.acquireBus .maxDelay)
    wizchipCsSelectLocked t acquired

/-- `wizchip_cs_deselect`. -/
def wizchipCsDeselect : Transport ι Unit := do
  let s ← get
  when (s.csActive = true) do
    ask (.setCs true)
    modify fun s ↦ { s with cs := none }
    ask .releaseBus
    discard (ask .give)

/-- `wizchip_critical_enter`. -/
def wizchipCriticalEnter : Transport ι Unit := do
  let s ← get
  discard (ask (.take (getWaitTicks s)))

/-- `wizchip_critical_exit`. -/
def wizchipCriticalExit : Transport ι Unit := discard (ask .give)

end

/-! ## One task at a time -/

section

variable {ι : Type} [DecidableEq ι]

/-- The lock as the task `t` meets it. Waiting may end without it only if the wait has an end and
`t` does not hold it already. Nothing else that a callback asks for concerns it. -/
def busOf (t : ι) : Env (Context ι) (RecMutex ι) SpiOp.Ans where
  drift _ _ := False
  answer
    | .take wait, _, m, a, m' =>
      (a = true ∧ m.take t = some m') ∨ (a = false ∧ m' = m ∧ m.depth t = 0 ∧ wait ≠
        .maxDelay)
    | .give, _, m, a, m' => m' = m.give t ∧ (a = true ↔ 0 < m.depth t)
    | .acquireBus _, _, m, _, m' => m' = m
    | .releaseBus, _, m, _, m' => m' = m
    | .setCs _, _, m, _, m' => m' = m
    | .transmit _ _, _, m, _, m' => m' = m

/-- What a call of `t` leaves of the lock to the others. -/
def Spares (t : ι) (m m' : RecMutex ι) : Prop := ∀ u, u ≠ t → m'.depth u = m.depth u

variable {t : ι} {s : Context ι} {m m' : RecMutex ι} {M : Prop}

theorem busOf_still (m m' : RecMutex ι) : ¬(busOf t).drift m m' := id

theorem Spares.take (h : m.take t = some m') : Spares t m m' := by
  intro u hu
  rw [RecMutex.depth_take h, if_neg hu]

theorem Spares.give (m : RecMutex ι) (t : ι) : Spares t m (m.give t) := by
  intro u hu
  rw [RecMutex.depth_give, if_neg hu]

/-- The moments of a call of `t` that may only be while the chip is not selected by another, if the
call meets its condition. -/
abbrev Within (M : Prop) (t : ι) (o : SpiOp) (s : Context ι) (_ : RecMutex ι) : Prop :=
  M → o.drives = true → s.Owner t

omit [DecidableEq ι] in
theorem within_of_idle {o : SpiOp} (ho : o.drives = false) : Within M t o s m := by
  intro _ h
  exact absurd (ho.symm.trans h) Bool.false_ne_true

theorem spiTransferLocked_spec (tx : Option (List UInt8)) (len : ℕ) :
    wlp (busOf t) (Within (len ≠ 0 → s.Owner t) t) (spiTransferLocked tx len)
      (fun _ s' m' ↦ s' = s ∧ ∀ u, m'.depth u = m.depth u) s m := by
  unfold spiTransferLocked
  refine pre_get_bind.mpr (pre_ite ?_ fun hlen ↦ pre_ite ?_ fun hcs ↦ ?_)
  · exact fun _ ↦ pre_pure_still busOf_still ⟨rfl, fun _ ↦ rfl⟩
  · refine fun _ ↦ pre_perform_still busOf_still (fun hmet _ ↦ hmet hlen) ?_
    rintro a m₁ rfl
    exact ⟨rfl, fun _ ↦ rfl⟩
  -- Without a selection the call is a section of the lock by itself.
  have howner : s.Owner t := by
    intro u hu
    exact absurd (by rw [Context.csActive, hu]; rfl) hcs
  have within : ∀ {o : SpiOp} {m : RecMutex ι}, Within (len ≠ 0 → s.Owner t) t o s m :=
    fun _ _ ↦ howner
  refine pre_perform_bind_still busOf_still within fun taken m₁ htaken ↦
    pre_ite (fun hok ↦ ?_) fun hok ↦ ?_
  swap
  · obtain ⟨rfl, -⟩ | ⟨-, rfl, -⟩ := htaken
    · exact absurd rfl hok
    · exact pre_pure_still busOf_still ⟨rfl, fun _ ↦ rfl⟩
  obtain ⟨-, htake⟩ | ⟨rfl, -⟩ := htaken
  swap
  · exact absurd hok Bool.false_ne_true
  refine pre_perform_bind_still busOf_still within ?_
  rintro (err | _) m₂ rfl
  · refine pre_perform_bind_still busOf_still within ?_
    rintro _ m₃ ⟨rfl, -⟩
    exact pre_pure_still busOf_still ⟨rfl, RecMutex.depth_give_take htake⟩
  · refine pre_perform_bind_still busOf_still within ?_
    rintro _ m₃ rfl
    refine pre_perform_bind_still busOf_still within ?_
    rintro ret m₄ rfl
    refine pre_perform_bind_still busOf_still within ?_
    rintro _ m₅ rfl
    refine pre_perform_bind_still busOf_still within ?_
    rintro _ m₆ rfl
    refine pre_perform_bind_still busOf_still within ?_
    rintro _ m₇ ⟨rfl, -⟩
    exact pre_pure_still busOf_still ⟨rfl, RecMutex.depth_give_take htake⟩

/-- A selection succeeds, with the lock, or leaves everything as it was. -/
theorem wizchipCsSelect_spec :
    wlp (busOf t) (Within M t) (wizchipCsSelect t) (fun _ s' m' ↦
      (s' = { s with cs := some t } ∧ m.take t = some m') ∨
      (s' = s ∧ ∀ u, m'.depth u = m.depth u)) s m := by
  unfold wizchipCsSelect
  refine pre_get_bind.mpr (pre_perform_bind_still busOf_still (within_of_idle rfl)
    fun taken m₁ htaken ↦ ?_)
  refine pre_when (fun hok ↦ ?_) fun hok m' hm' ↦ ?_
  swap
  · obtain rfl := hm'.still busOf_still
    obtain ⟨rfl, -⟩ | ⟨-, rfl, -⟩ := htaken
    · exact absurd rfl hok
    · exact .inr ⟨rfl, fun _ ↦ rfl⟩
  obtain ⟨-, htake⟩ | ⟨rfl, -⟩ := htaken
  swap
  · exact absurd hok Bool.false_ne_true
  refine pre_perform_bind_still busOf_still (within_of_idle rfl) ?_
  rintro (err | _) m₂ rfl
  · unfold wizchipCsSelectLocked
    refine pre_perform_bind_still busOf_still (within_of_idle rfl) ?_
    rintro _ m₃ ⟨rfl, -⟩
    exact pre_pure_still busOf_still (.inr ⟨rfl, RecMutex.depth_give_take htake⟩)
  · unfold wizchipCsSelectLocked
    refine pre_perform_bind_still busOf_still (within_of_idle rfl) ?_
    rintro _ m₃ rfl
    exact pre_modify_still busOf_still (.inl ⟨rfl, htake⟩)

/-- A chip that is selected is deselected, whoever asks. -/
theorem wizchipCsDeselect_spec :
    wlp (busOf t) (Within (s.Owner t) t) wizchipCsDeselect
      (fun _ s' m' ↦ s' = { s with cs := none } ∧ Spares t m m') s m := by
  unfold wizchipCsDeselect
  refine pre_get_bind.mpr (pre_when (fun _ ↦ ?_) fun hcs m' hm' ↦ ?_)
  · refine pre_perform_bind_still busOf_still (fun hmet _ ↦ hmet) ?_
    rintro _ m₁ rfl
    refine pre_modify_bind.mpr (pre_perform_bind_still busOf_still (within_of_idle rfl) ?_)
    rintro _ m₂ rfl
    refine pre_perform_bind_still busOf_still (within_of_idle rfl) ?_
    rintro _ m₃ ⟨rfl, -⟩
    exact pre_pure_still busOf_still ⟨rfl, .give _ _⟩
  · obtain rfl := hm'.still busOf_still
    refine ⟨?_, fun _ _ ↦ rfl⟩
    obtain ⟨_ | u, timeout⟩ := s
    · rfl
    · exact absurd rfl hcs

theorem wizchipCriticalEnter_spec :
    wlp (busOf t) (Within M t) wizchipCriticalEnter
      (fun _ s' m' ↦ s' = s ∧ Spares t m m' ∧ (getWaitTicks s = .maxDelay → 0 < m'.depth t))
        s m := by
  unfold wizchipCriticalEnter
  refine pre_get_bind.mpr (pre_perform_bind_still busOf_still (within_of_idle rfl)
    fun taken m₁ htaken ↦ ?_)
  refine pre_pure_still busOf_still ⟨rfl, ?_⟩
  obtain ⟨-, htake⟩ | ⟨-, rfl, -, hw⟩ := htaken
  · refine ⟨.take htake, fun _ ↦ ?_⟩
    rw [RecMutex.depth_take htake, if_pos rfl]
    exact Nat.succ_pos _
  · exact ⟨fun _ _ ↦ rfl, fun hmax ↦ absurd hmax hw⟩

theorem wizchipCriticalExit_spec :
    wlp (busOf t) (Within M t) wizchipCriticalExit (fun _ s' m' ↦ s' = s ∧ Spares t m m') s m := by
  unfold wizchipCriticalExit
  refine pre_perform_bind_still busOf_still (within_of_idle rfl) ?_
  rintro _ m₁ ⟨rfl, -⟩
  exact pre_pure_still busOf_still ⟨rfl, .give _ _⟩

end

end WsmDriver.Spi
