import WsmDriver.Toe.Ownership

/-!
# Which hardware socket a call may touch

Every access to a hardware socket is made on behalf of a descriptor that owns the socket at that
very moment: the call's own, or a listener that was waiting when `close` or `release` was called and
has just been given the socket. The only access outside of this is the `close` by which a reserved
socket is released.
-/

namespace WsmDriver

open Effect

variable {cfg : ToeConfig} {E : Type} {V : Call → Env Tables E ChipOp.Ans} {e₀ e e' : E}
  {t t' : Tables} {fd sn : ℤ} {c : Call} {o : ChipOp}

/-- The tables are well owned, the listeners that were waiting when the call started, with the
tables `t`, are listeners still, and of the descriptors in `l` only these wait. -/
structure Pending (cfg : ToeConfig) (t : Tables) (l : List ℕ) (t' : Tables) : Prop where
  owned : WellOwned cfg t'
  listening : ∀ fd, (t'.desc fd).used = true → Waiting t fd → (t'.desc fd).listening = true
  waiting : ∀ fd ∈ l, Waiting t' fd → Waiting t fd

/-- Two tables in which the same descriptors are in use and the same ones are listeners. -/
def SameListeners (t t' : Tables) : Prop :=
  ∀ fd, (t'.desc fd).used = (t.desc fd).used ∧ (t'.desc fd).listening = (t.desc fd).listening

theorem SameListeners.upd {f : Desc → Desc} (hu : (f (t.desc fd)).used = (t.desc fd).used)
    (hl : (f (t.desc fd)).listening = (t.desc fd).listening) : SameListeners t (t.upd fd f) := by
  intro x
  rw [Tables.upd_desc]
  split
  · rename_i heq
    rw [heq]
    exact ⟨hu, hl⟩
  · exact ⟨rfl, rfl⟩

theorem SameListeners.disarm : SameListeners t (toeListenerDisarm cfg fd t) := by
  rw [toeListenerDisarm]
  split
  · have h : SameListeners (toeSnRelease cfg (t.desc fd).sn t)
        ((toeSnRelease cfg (t.desc fd).sn t).upd fd fun d ↦ { d with sn := -1, opened := false }) :=
      .upd rfl rfl
    simpa [SameListeners] using h
  · exact .upd rfl rfl

theorem toeListenerDisarm_desc_ne (h : sn ≠ fd) :
    (toeListenerDisarm cfg fd t).desc sn = t.desc sn := by
  rw [toeListenerDisarm, Tables.upd_desc_ne _ _ h]
  split <;> simp

theorem closed_desc_ne (h : sn ≠ fd) : (t.closed cfg fd).desc sn = t.desc sn := by
  rw [Tables.closed, toeDescClear, Tables.upd_desc_ne _ _ h]
  split <;> simp

namespace Pending

/-- A listener that has been served is changed, the ones that have not are left alone. -/
theorem change {l : List ℕ} {t'' : Tables} {fd : ℕ} (h : Pending cfg t l t') (hfd : fd ∉ l)
    (hw : WellOwned cfg t'') (hs : SameListeners t' t'')
    (hd : ∀ x : ℤ, x ≠ fd → t''.desc x = t'.desc x) : Pending cfg t l t'' where
  owned := hw
  listening x hu hx := by
    rw [(hs x).2]
    exact h.listening x ((hs x).1 ▸ hu) hx
  waiting x hx hwait := by
    have hne : (x : ℤ) ≠ fd := fun heq ↦ hfd (Int.ofNat_inj.mp heq ▸ hx)
    rw [Waiting, hd x hne] at hwait
    exact h.waiting x hx hwait

theorem tail {l : List ℕ} {fd : ℕ} (h : Pending cfg t (fd :: l) t') : Pending cfg t l t' :=
  ⟨h.owned, h.listening, fun x hx ↦ h.waiting x (List.mem_cons_of_mem _ hx)⟩

theorem serves (U : Env Tables E ChipOp.Ans) (t : Tables) :
    Serves cfg U (fun l t' _ ↦ Pending cfg t l t') where
  stable _ := WellOwned.stable U fun _ h ↦ h.owned
  opens hfd :=
    { refused := fun h _ _ _ ↦ h
      granted := fun h hr _ ↦ h.change hfd (h.owned.move (.opened true hr)) (.upd rfl rfl)
        fun _ hne ↦ Tables.upd_desc_ne _ _ hne }
  listens hfd _ _ :=
    { unopened := fun h hr hl _ _ ↦ h.change hfd (h.owned.move (.disarm hr hl)) .disarm
        fun _ ↦ toeListenerDisarm_desc_ne
      unlistened := fun h hr hl _ _ ↦ h.change hfd (h.owned.move (.disarm hr hl)) .disarm
        fun _ ↦ toeListenerDisarm_desc_ne }
  skip h _ := h.tail
  arm hfd h hv hw hs := h.tail.change hfd (h.owned.move (.arm hv hw.2.1 hw.2.2 hs.free))
    (.upd rfl rfl) fun _ hne ↦ Tables.upd_desc_ne _ _ hne
  none h _ _ := h.tail

end Pending

/-- After a descriptor was closed, whoever waits was waiting before. -/
theorem WellOwned.pending_closed (h : WellOwned cfg t) (hv : toeFdValid cfg t fd) (l : List ℕ) :
    Pending cfg t l (t.closed cfg fd) := by
  have hunused : ((t.closed cfg fd).desc fd).used = false := by simp [Tables.closed, toeDescClear]
  refine ⟨h.move (.close hv), fun x hu hx ↦ ?_, fun x _ hx ↦ ?_⟩
  · have hne : x ≠ fd := by
      rintro rfl
      exact absurd hu (by simp [hunused])
    rw [closed_desc_ne hne]
    exact hx.2.1
  · have hne : (x : ℤ) ≠ fd := by
      intro heq
      rw [heq] at hx
      exact absurd hx.1 (by simp [hunused])
    rwa [Waiting, closed_desc_ne hne] at hx

theorem WellOwned.confines (hc : c.Disciplined cfg t) (U : Env Tables E ChipOp.Ans) :
    Maintains cfg U (fun t' _ ↦ WellOwned cfg t') (fun l t' _ ↦ Pending cfg t l t')
    (Waiting t) c t :=
  { (WellOwned.tablesInv cfg).maintains (V := U) (c := c) (t := t)
      (fun _ {_ _} hi hs hT ↦ hT.move (.reserve hi hs)) fun sn heq _ hT ↦ hT.release hc heq with
    serves := Pending.serves U t
    served := fun h ↦ h.owned
    serving := fun h hw ↦ h.waiting _ (List.mem_cons_self ..) hw
    frees := fun fd _ =>
      { idle := fun h hv _ ↦ h.pending_closed hv _
        closed := fun h hr _ ↦ h.pending_closed hr.1 _ }
    releases := fun heq _ _ _ _ h _ ↦
      { owned := h.release hc heq
        listening := fun x _ hx ↦ by rw [toeSnRelease_desc]; exact hx.2.1
        waiting := fun x _ hx ↦ by rwa [Waiting, toeSnRelease_desc] at hx } }

/-- The hardware socket an operation addresses on behalf of a descriptor is owned by it. -/
theorem Addresses.owner {A : ℤ → Prop} (h : Addresses cfg A o t) (hfit : cfg.Fits)
    (hw : WellOwned cfg t) (ho : o.sock? = some sn) :
    ∃ fd, A fd ∧ toeFdReady cfg t fd ∧ cfg.IsSock sn ∧ t.owner sn = fd := by
  obtain ⟨fd, hA, hr, rfl⟩ := h sn ho
  rw [hw.toeSn_eq hfit hr]
  exact ⟨fd, hA, hr, (hw.of_valid hr.1).2.owner_of_ready hr⟩

/-- The hardware socket `sn` is inside the table, and the operation `o` of the call `c` addresses it
with good reason: the call's descriptor owns it; or a listener that held none when the call was
made, with the tables `t`, has just claimed it; or it is the one being released. -/
def Confined (cfg : ToeConfig) (c : Call) (t : Tables) (o : ChipOp) (t' : Tables) (sn : ℤ) : Prop :=
  cfg.IsSock sn ∧
    ((∃ fd, c.fd? = some fd ∧ 0 ≤ fd ∧ t'.owner sn = fd) ∨
      (((∃ fd, c = .close fd) ∨ ∃ sn, c = .socketRelease sn) ∧
        ∃ fd, Waiting t fd ∧ IsListener cfg t' fd ∧ t'.owner sn = fd) ∨
      (c = .socketRelease sn ∧ o = .close sn))

/-- **Confinement.** At every operation of every call, including calls that never return, the
hardware socket addressed is confined to the descriptors the call is about. No call but its release
touches a reserved socket, and 255 is never addressed. -/
theorem confinement (hfit : cfg.Fits)
    (h : During V (fun c t _ ↦ c.Disciplined cfg t) (Call.prog cfg) .zero e₀ c t o t' e')
    (ho : o.sock? = some sn) :
    Confined cfg c t o t' sn ∧ (t'.owner sn = toeSnRaw → c = .socketRelease sn) ∧
    sn ≠ 255 := by
  have hsock := hfit.maxSock_le
  have hG : c.Guard cfg (fun t' _ ↦ WellOwned cfg t') (fun l t' _ ↦ Pending cfg t l t')
      (Waiting t) t o t' e' := by
    refine History.during (I := fun t _ ↦ WellOwned cfg t) (fun t e ↦ WellOwned.history hfit)
      (fun e hw hc ↦ ?_) h
    exact ((WellOwned.confines hc (V c)).prog hfit hw).imp fun _ _ _ _ ↦ trivial
  cases hG with
  | own hT =>
    obtain ⟨fd, hfd, hr, hs, hown⟩ := hT.2.owner hfit hT.1 ho
    have hfd₀ := hr.1.1
    have hs₁ := hs.2
    refine ⟨⟨hs, .inl ⟨fd, hfd, hfd₀, hown⟩⟩, fun hraw ↦ ?_, by omega⟩
    rw [hown, toeSnRaw] at hraw
    omega
  | serve hc hT =>
    obtain ⟨l, hP⟩ := hT.1
    obtain ⟨fd, hw, hr, hs, hown⟩ := hT.2.owner hfit hP.owned ho
    have hfd₀ := hr.1.1
    have hs₁ := hs.2
    refine ⟨⟨hs, .inr (.inl ⟨hc, fd, hw, ⟨hr.1, hP.listening fd hr.1.2.2 hw⟩, hown⟩)⟩,
      fun hraw ↦ ?_, by omega⟩
    rw [hown, toeSnRaw] at hraw
    omega
  | @release sn' _ hc hs hw =>
    obtain ⟨h₀, h₁⟩ := hs
    have heq : uint8 sn' = sn' := uint8_of_lt h₀ (by omega)
    obtain rfl : sn' = sn := by
      rw [heq] at ho
      exact Option.some_inj.mp ho
    exact ⟨⟨⟨h₀, h₁⟩, .inr (.inr ⟨hc, by rw [heq]⟩)⟩, fun _ ↦ hc, by omega⟩

/-- The first operation of closing a TCP socket reads the status of the hardware socket it owns. -/
theorem confinement_close :
    let t := afterCall w5500 .closed (.socket 2 1 0) .zero
    Confined w5500 (.close 0) t (.getSnSR 0) t 0 ∧
      (t.owner 0 = toeSnRaw → Call.close 0 = .socketRelease 0) ∧ (0 : ℤ) ≠ 255 := by
  intro t
  have hd : (Call.close 0).Disciplined w5500 t := fun sn heq ↦ by cases heq
  have hsocket : ToeHistory w5500 (fun _ ↦ .any) () t () :=
    ToeHistory.afterCall .start (fun _ heq ↦ by cases heq) (fun _ _ _ ↦ trivial)
      (by decide)
  have hperf := performs_runWith (V := Env.any) (h := placidChip .closed) (n := 3) (e := ())
    (p := (Call.close 0).prog w5500) (s := t) (.always fun _ _ _ ↦ trivial) (o := .getSnSR 0)
      trivial
    (by decide)
  exact confinement w5500_fits (V := fun _ ↦ .any) ⟨(), hsocket, hd, hperf⟩ rfl

end WsmDriver
