import WsmDriver.Toe.Calls
import Mathlib.Data.Set.Insert

/-!
# The moves of the descriptor pool

What the component is for, without the chip: descriptors are created and closed, a descriptor holds
at most one hardware socket, a listener hands its socket to a connection, gives it up when it can no
longer listen on it, and takes a free one when there is one. `Move` lists these transitions, each
with the condition under which the code makes it.

The functions of `wiznet_toe.c` are analysed once, for an arbitrary condition `J` on the tables and
the chip. What they need of it is collected here: `Stable` for the accesses that cannot open a
hardware socket, `Keeps` for the moves that are harmless whatever the chip does, and one structure
for each step at which the tables and the chip have to agree (`Opens`, `Defers`, `Listens`,
`HandsOver`, `Frees`). A condition that only speaks about the tables has all of them as soon as the
moves keep it.
-/

namespace WsmDriver

open Effect

/-- Two descriptors that play the same part in the pool. -/
structure SameRole (d d' : Desc) : Prop where
  used : d'.used = d.used
  sn : d'.sn = d.sn
  isUdp : d'.isUdp = d.isUdp
  opened : d'.opened = d.opened
  listening : d'.listening = d.listening

namespace Tables

/-- The listener `fd` takes the free hardware socket `sn`. -/
def arm (fd sn : ℤ) (t : Tables) : Tables :=
  (t.setOwner sn fd).upd fd fun d ↦ { d with sn := sn }

/-- The flag of `fd` that says whether its hardware socket was opened. -/
def setOpened (fd : ℤ) (b : Bool) (t : Tables) : Tables :=
  t.upd fd fun d ↦ { d with opened := b }

/-- The connection made of the listener `l`'s hardware socket, as descriptor `c`. -/
def handover (l c : ℤ) (t : Tables) : Tables :=
  ((t.upd c fun _ ↦
      { used := true
        sn := (t.desc l).sn
        opened := true
        connected := true
        port := (t.desc l).port
        nodelay := (t.desc l).nodelay
        rcvTimeoutMs := (t.desc l).rcvTimeoutMs
        sndTimeoutMs := (t.desc l).sndTimeoutMs }).setOwner (t.desc l).sn c).upd l fun d ↦
    { d with sn := -1, opened := false }

/-- `fd` is closed: its hardware socket goes back to the pool. -/
def closed (cfg : ToeConfig) (fd : ℤ) (t : Tables) : Tables :=
  toeDescClear fd (if 0 ≤ (t.desc fd).sn then toeSnRelease cfg (t.desc fd).sn t else t)

end Tables

/-- The kinds of transitions of the pool. -/
inductive Kind
  /-- First touch of the tables. -/
  | init
  /-- Fields that play no part in who holds what. -/
  | tune
  | listening
  /-- A new descriptor with a hardware socket. -/
  | socket
  /-- An unused descriptor is cleared again. -/
  | scrub
  | reserve
  | release
  /-- A listener without a hardware socket takes a free one. -/
  | arm
  | opened
  | disarm
  /-- A listener hands its hardware socket to a new descriptor. -/
  | handover
  | close
  deriving DecidableEq

/-- The kinds that leave every hardware socket alone: none is opened, given up, handed on or set
aside. -/
def Kind.calm : Kind → Bool
  | .reserve | .release | .opened | .disarm | .handover | .close => false
  | _ => true

/-- The transitions of the pool. -/
inductive Move (cfg : ToeConfig) : Kind → Tables → Tables → Prop
  | init (t : Tables) : Move cfg .init t (toeTablesInit cfg t)
  | tune {t : Tables} {fd : ℤ} {f : Desc → Desc} (hv : toeFdValid cfg t fd)
      (hf : SameRole (t.desc fd) (f (t.desc fd))) : Move cfg .tune t (t.upd fd f)
  | listening {t : Tables} {fd : ℤ} (b : Bool) (hr : toeFdReady cfg t fd)
      (htcp : (t.desc fd).isUdp = false) :
      Move cfg .listening t (t.upd fd fun d ↦ { d with listening := b })
  | socket {t : Tables} {c sn : ℤ} (udp : Bool) (hi : t.tablesInit = true)
      (hc : IsUnused cfg t c) (hs : IsFree cfg t sn) :
      Move cfg .socket t ((t.setOwner sn c).upd c fun _ ↦ { used := true, sn := sn, isUdp := udp })
  | scrub {t : Tables} {c : ℤ} (hi : t.tablesInit = true) (hc : IsUnused cfg t c) :
      Move cfg .scrub t (toeDescClear c t)
  | reserve {t : Tables} {sn : ℤ} (hi : t.tablesInit = true) (hs : IsFree cfg t sn) :
      Move cfg .reserve t (t.setOwner sn toeSnRaw)
  | release {t : Tables} {sn : ℤ} (h₀ : 0 ≤ sn) (h₁ : sn < cfg.maxSock)
      (ho : t.owner sn = toeSnRaw) : Move cfg .release t (t.setOwner sn toeSnFree)
  | arm {t : Tables} {fd sn : ℤ} (hv : toeFdValid cfg t fd) (hl : (t.desc fd).listening = true)
      (hn : (t.desc fd).sn < 0) (hs : IsFree cfg t sn) : Move cfg .arm t (t.arm fd sn)
  | opened {t : Tables} {fd : ℤ} (b : Bool) (hr : toeFdReady cfg t fd) :
      Move cfg .opened t (t.setOpened fd b)
  | disarm {t : Tables} {fd : ℤ} (hr : toeFdReady cfg t fd) (hl : (t.desc fd).listening = true) :
      Move cfg .disarm t (toeListenerDisarm cfg fd t)
  | handover {t : Tables} {fd c : ℤ} (hr : toeFdReady cfg t fd)
      (hl : (t.desc fd).listening = true) (hc : IsUnused cfg t c) :
      Move cfg .handover t (t.handover fd c)
  | close {t : Tables} {fd : ℤ} (hv : toeFdValid cfg t fd) :
      Move cfg .close t (t.closed cfg fd)

/-- Every operation but the one that opens a hardware socket. -/
def ChipOp.quiet : ChipOp → Bool
  | .socket .. => false
  | _ => true

variable {cfg : ToeConfig} {E : Type} {V : Env Tables E ChipOp.Ans} {J I : Tables → E → Prop}
  {A : ℤ → Prop} {R : ℕ → ℕ → Prop} {α β : Type}

/-- A condition on the tables and the chip kept by the chip on its own and by every operation that
opens no socket. It knows that hardware socket numbers are in range, and that a descriptor without
one is not open. -/
structure Stable (cfg : ToeConfig) (V : Env Tables E ChipOp.Ans) (J : Tables → E → Prop) :
    Prop where
  range : ∀ {t e fd}, J t e → toeFdValid cfg t fd → (t.desc fd).sn < cfg.maxSock
  idle : ∀ {t e fd}, J t e → toeFdValid cfg t fd → (t.desc fd).sn < 0 →
    (t.desc fd).opened = false
  drift : ∀ {t e e'}, J t e → V.drift e e' → J t e'
  answer : ∀ {o t e a e'}, o.quiet = true → J t e → V.answer o t e a e' → J t e'

/-- The condition is also kept by the calm moves. -/
structure Keeps (cfg : ToeConfig) (V : Env Tables E ChipOp.Ans) (J : Tables → E → Prop) : Prop
    extends Stable cfg V J where
  move : ∀ {k t t' e}, k.calm = true → J t e → Move cfg k t t' → J t' e

/-- The condition is kept by the calm moves that do more than retune a descriptor. -/
structure Untuned (cfg : ToeConfig) (V : Env Tables E ChipOp.Ans) (J : Tables → E → Prop) : Prop
    extends Stable cfg V J where
  move : ∀ {k t t' e}, k.calm = true → k ≠ .tune → J t e → Move cfg k t t' → J t' e

theorem Keeps.untuned (h : Keeps cfg V J) : Untuned cfg V J :=
  { h.toStable with move := fun {_ _ _ _} hk _ hJ hm ↦ h.move hk hJ hm }

/-- The condition is kept by the retunings of `fd` that `P` licenses. -/
structure Retunes (cfg : ToeConfig) (V : Env Tables E ChipOp.Ans) (J : Tables → E → Prop)
    (P : Desc → Desc → Prop) (fd : ℤ) : Prop extends Stable cfg V J where
  tune : ∀ {t e f}, J t e → toeFdValid cfg t fd → SameRole (t.desc fd) (f (t.desc fd)) →
    P (t.desc fd) (f (t.desc fd)) → J (t.upd fd f) e

/-- Whatever leaves the port alone, and whatever is connected connected, is licensed. -/
def LicensesRest (P : Desc → Desc → Prop) : Prop :=
  ∀ d d' : Desc, d'.port = d.port → (d.connected = true → d'.connected = true) → P d d'

/-! ## Where the tables and the chip have to agree -/

/-- Opening the hardware socket of `fd`, and recording it if that went well. -/
structure Opens (cfg : ToeConfig) (V : Env Tables E ChipOp.Ans) (J : Tables → E → Prop)
    (fd : ℤ) : Prop where
  refused : ∀ {t e protocol port flag a e'}, J t e → toeFdReady cfg t fd →
    V.answer (.socket (toeSn t fd) protocol port flag) t e a e' → a ≠ toeSn t fd → J t e'
  granted : ∀ {t e protocol port flag e'}, J t e → toeFdReady cfg t fd →
    V.answer (.socket (toeSn t fd) protocol port flag) t e (toeSn t fd) e' →
    J (t.setOpened fd true) e'

/-- Recording that opening the hardware socket of `fd` waits for a source address. -/
def Defers (cfg : ToeConfig) (V : Env Tables E ChipOp.Ans) (J : Tables → E → Prop) (fd : ℤ) :
    Prop :=
  ∀ {t e e'}, J t e → toeFdReady cfg t fd → V.answer .getSIPR t e 0 e' →
    J (t.setOpened fd false) e'

/-- Giving up the hardware socket of a listener that could not be put back in `LISTEN`. -/
structure Listens (cfg : ToeConfig) (V : Env Tables E ChipOp.Ans) (J : Tables → E → Prop)
    (fd : ℤ) : Prop where
  unopened : ∀ {t e protocol port flag a e'}, J t e → toeFdReady cfg t fd →
    (t.desc fd).listening = true →
    V.answer (.socket (toeSn t fd) protocol port flag) t e a e' → a ≠ toeSn t fd →
    J (toeListenerDisarm cfg fd t) e'
  unlistened : ∀ {t e a e'}, J t e → toeFdReady cfg t fd → (t.desc fd).listening = true →
    V.answer (.listen (toeSn t fd)) t e a e' → a ≠ sockOk → J (toeListenerDisarm cfg fd t) e'

/-- After handing its hardware socket over, the listener takes a free one or there is none, which
leads to `K`. -/
structure HandsOver (cfg : ToeConfig) (J K : Tables → E → Prop) (fd : ℤ) : Prop where
  armed : ∀ {t e c sn}, J t e → toeFdReady cfg t fd → (t.desc fd).listening = true →
    IsUnused cfg t c → IsNextFree cfg (t.handover fd c) sn → K ((t.handover fd c).arm fd sn) e
  unarmed : ∀ {t e c}, J t e → toeFdReady cfg t fd → (t.desc fd).listening = true →
    IsUnused cfg t c → (∀ sn, ¬IsFree cfg (t.handover fd c) sn) → K (t.handover fd c) e

/-- From `t`, letting go of the hardware socket of `fd` leads to `I`, from which waiting listeners
are served. -/
structure Frees (cfg : ToeConfig) (V : Env Tables E ChipOp.Ans) (J I : Tables → E → Prop)
    (t : Tables) (fd : ℤ) : Prop where
  idle : ∀ {e}, J t e → toeFdValid cfg t fd → (t.desc fd).opened = false →
    I (t.closed cfg fd) e
  closed : ∀ {e a e'}, J t e → toeFdReady cfg t fd → V.answer (.close (toeSn t fd)) t e a e' →
    I (t.closed cfg fd) e'

/-- A listener that holds no hardware socket. -/
def Waiting (t : Tables) (fd : ℤ) : Prop :=
  (t.desc fd).used = true ∧ (t.desc fd).listening = true ∧ (t.desc fd).sn < 0

instance (t : Tables) (fd : ℤ) : Decidable (Waiting t fd) := by
  unfold Waiting; infer_instance

/-- A descriptor that holds a hardware socket and is not marked as having opened it. -/
def Unopened (cfg : ToeConfig) (t : Tables) (fd : ℤ) : Prop :=
  toeFdReady cfg t fd ∧ (t.desc fd).opened = false

/-- What the loop over the descriptors needs: `P l` is the condition with the descriptors of `l`
still to be visited. Each waiting listener takes a free hardware socket or there is none. -/
structure Serves (cfg : ToeConfig) (V : Env Tables E ChipOp.Ans)
    (P : List ℕ → Tables → E → Prop) : Prop where
  stable : ∀ l, Stable cfg V (P l)
  opens : ∀ {fd : ℕ} {l}, fd ∉ l → Opens cfg V (P l) fd
  listens : ∀ {fd : ℕ} {l t e}, fd ∉ l → P (fd :: l) t e → Waiting t fd →
    Listens cfg V (P l) fd
  skip : ∀ {fd : ℕ} {l t e}, P (fd :: l) t e → ¬Waiting t fd → P l t e
  arm : ∀ {fd : ℕ} {l t e sn}, fd ∉ l → P (fd :: l) t e → toeFdValid cfg t fd →
    Waiting t fd →
    IsNextFree cfg t sn → P l (t.arm fd sn) e
  none : ∀ {fd : ℕ} {l t e}, P (fd :: l) t e → Waiting t fd → (∀ sn, ¬IsFree cfg t sn) →
    P l t e

/-- ioLibrary grants every `socket` and every `listen`. -/
structure Grants (V : Env Tables E ChipOp.Ans) : Prop where
  socket : ∀ {sn protocol port flag t e a e'},
    V.answer (.socket sn protocol port flag) t e a e' → a = sn
  listen : ∀ {sn t e a e'}, V.answer (.listen sn) t e a e' → a = sockOk

/-! ## Which hardware socket an operation addresses -/

/-- The operation addresses no hardware socket, or the one held by a ready descriptor in `A`. -/
def Addresses (cfg : ToeConfig) (A : ℤ → Prop) (o : ChipOp) (t : Tables) : Prop :=
  ∀ sn, o.sock? = some sn → ∃ fd, A fd ∧ toeFdReady cfg t fd ∧ sn = toeSn t fd

/-- The guard under which every function is analysed: the condition holds at each operation, and the
operation addresses a descriptor in `A`. -/
def Touch (cfg : ToeConfig) (J : Tables → E → Prop) (A : ℤ → Prop) (o : ChipOp) (t : Tables)
    (e : E) : Prop := J t e ∧ Addresses cfg A o t

theorem Addresses.of_none {o : ChipOp} {t : Tables} (h : o.sock? = none) :
    Addresses cfg A o t := by
  intro sn hsn
  rw [h] at hsn
  exact absurd hsn (by simp)

theorem Addresses.of_ready {o : ChipOp} {t : Tables} {fd : ℤ} (hA : A fd)
    (hr : toeFdReady cfg t fd) (h : o.sock? = some (toeSn t fd)) : Addresses cfg A o t := by
  intro sn hsn
  rw [h, Option.some_inj] at hsn
  exact ⟨fd, hA, hr, hsn.symm⟩

theorem Addresses.mono {A' : ℤ → Prop} (hA : ∀ fd, A fd → A' fd) {o : ChipOp} {t : Tables}
    (h : Addresses cfg A o t) : Addresses cfg A' o t :=
  fun sn hsn ↦ let ⟨fd, hfd, hr⟩ := h sn hsn; ⟨fd, hA fd hfd, hr⟩

namespace Stable

theorem drifts (h : Stable cfg V J) {t : Tables} {e e' : E} (hJ : J t e)
    (hd : V.Drifts e e') : J t e' :=
  hd.induct (fun _ _ hde hJe ↦ h.drift hJe hde) hJ

/-! ## Stepping through a function -/

theorem ret (h : Stable cfg V J) {a : α} {Q : α → Tables → E → Prop} {t : Tables} {e : E}
    {G : ChipOp → Tables → E → Prop} (hJ : J t e) (hQ : ∀ e', J t e' → Q a t e') :
    pre V G R (pure a) Q t e :=
  fun _ he ↦ hQ _ (h.drifts hJ he)

theorem call (h : Stable cfg V J) {o : ChipOp} {f : o.Ans → Toe α}
    {Q : α → Tables → E → Prop} {t : Tables} {e : E} (hq : o.quiet = true) (hJ : J t e)
    (ha : Addresses cfg A o t) (hf : ∀ a e', J t e' → pre V (Touch cfg J A) R (f a) Q t e') :
    pre V (Touch cfg J A) R (chip o >>= f) Q t e := by
  intro e₁ he
  have hJ₁ := h.drifts hJ he
  exact ⟨⟨hJ₁, ha⟩, fun a e₂ hans ↦ hf a e₂ (h.answer hq hJ₁ hans)⟩

theorem call_last (h : Stable cfg V J) {o : ChipOp} {Q : o.Ans → Tables → E → Prop} {t : Tables}
    {e : E} (hq : o.quiet = true) (hJ : J t e) (ha : Addresses cfg A o t)
    (hQ : ∀ a e', J t e' → Q a t e') : pre V (Touch cfg J A) R (chip o) Q t e := by
  intro e₁ he
  have hJ₁ := h.drifts hJ he
  exact ⟨⟨hJ₁, ha⟩, fun a e₂ hans e' he' ↦ hQ a e'
    (h.drifts (h.answer hq hJ₁ hans) he')⟩

/-- Opening the hardware socket of `fd`: what follows is shown separately for a refusal and for a
success, where the flag is recorded at once. -/
theorem callSocket (h : Stable cfg V J) {fd : ℤ} (hO : Opens cfg V J fd) {protocol : SnMR}
    {port : UInt16} {flag : Bool} {f : ℤ → Toe α} {Q : α → Tables → E → Prop} {t : Tables}
    {e : E} (hA : A fd) (hr : toeFdReady cfg t fd) (hJ : J t e)
    (hno : ∀ a e₁ e', a ≠ toeSn t fd → J t e₁ →
      V.answer (.socket (toeSn t fd) protocol port flag) t e₁ a e' → J t e' →
      pre V (Touch cfg J A) R (f a) Q t e')
    (hyes : ∀ e', J (t.setOpened fd true) e' → pre V (Touch cfg J A) R (f (toeSn t fd)) Q t e') :
    pre V (Touch cfg J A) R (chip (.socket (toeSn t fd) protocol port flag) >>= f) Q t e := by
  intro e₁ he
  have hJ₁ := h.drifts hJ he
  refine ⟨⟨hJ₁, .of_ready hA hr rfl⟩, fun a e₂ hans ↦ ?_⟩
  by_cases ha : a = toeSn t fd
  · subst ha
    exact hyes e₂ (hO.granted hJ₁ hr hans)
  · exact hno a e₁ e₂ ha hJ₁ hans (hO.refused hJ₁ hr hans ha)

end Stable

end WsmDriver
