import WsmDriver.Effect.Interleave
import WsmDriver.Toe.Alphabet
import WsmDriver.Toe.Hygiene
import WsmDriver.Toe.Others

/-!
# Several tasks

The calls of several tasks interleave where a call executes `toe_yield_1ms`. What a call leaves to
the others between two yields is what `Leaves` says; what it may find when it goes on is not what it
left. Two calls depend on what they find. A suspended `accept` re-arms its descriptor without asking
whether it is still in use, and a suspended `close` lets go of the hardware socket it was called
with and clears the descriptor, whatever that holds by then. `Call.GoesOn` is what they have to find
for no harm to be done.
-/

namespace WsmDriver

open Effect Program

variable {cfg : ToeConfig} {E A : Type} {U : Env Tables E ChipOp.Ans} {t t₀ : Tables} {e : E}
  {fd : ℤ} {P : ChipOp → Prop}

/-! ## The terms of a call -/

/-- The hardware socket whose data an operation sends or receives. -/
def ChipOp.data? : ChipOp → Option ℤ
  | .send sn _ | .recv sn _ | .recvfrom sn _ => some sn
  | _ => none

/-- The descriptor on which a call may wait to send or receive. -/
def Call.transfers? : Call → Option ℤ
  | .send fd _ | .recv fd _ | .recvfrom fd _ => some fd
  | _ => none

/-- The descriptor from which a call may take the hardware socket. -/
def Call.TakesFrom (c : Call) (x : ℤ) : Prop := c = .close x ∨ c = .accept x

/-- What a call made with the tables `t₀` has to find when it goes on: `accept` a descriptor in use,
unless there is no hardware socket to take, and `close` the hardware socket it was called with where
it was, unless the descriptor holds none any more and nobody holds that one. -/
def Call.GoesOn (cfg : ToeConfig) (t₀ t : Tables) : Call → Prop
  | .accept fd => toeFdValid cfg t fd ∨ ((t.desc fd).sn < 0 ∧ ∀ sn, ¬IsFree cfg t sn)
  | .close fd => Holds cfg t fd (t₀.desc fd).sn ∨
      ((t.desc fd).sn < 0 ∧ t.owner (t₀.desc fd).sn < 0)
  | _ => True

/-- The terms on which a call shares the tables. A call that transfers data does so on the hardware
socket its descriptor held when the call was made. -/
def Call.terms (cfg : ToeConfig) (o : Origin Call Tables A) : Terms Tables E ChipOp where
  guard op t₀ t _ := ∀ fd sn, o.call.transfers? = some fd → op.data? = some sn →
    sn = toeSn o.store fd ∧ Leaves cfg o.call.TakesFrom t₀ t
  yields t₀ t _ := Leaves cfg o.call.TakesFrom t₀ t ∧
    ∀ fd, o.call.transfers? = some fd → toeFdReady cfg o.store fd
  returns t₀ t _ := Leaves cfg o.call.TakesFrom t₀ t
  finds t _ := WellOwned cfg t ∧ o.call.GoesOn cfg o.store t

/-! ## The waits write nothing -/

section

variable (hP : ∀ o : ChipOp, o.data? = none → P o)

include hP

theorem toeDeadlinePassed_silent (started timeoutMs : UInt32) :
    (toeDeadlinePassed started timeoutMs).Silent P :=
  .ite trivial ⟨hP _ rfl, fun _ ↦ trivial⟩

theorem toeWaitTurn_silent (fd : ℤ) (started : UInt32) (timeoutMs : Desc → UInt32)
    (expired : ℤ) : (toeWaitTurn fd started timeoutMs expired).Silent P := by
  unfold toeWaitTurn
  refine silent_get_bind.mpr fun t ↦
    .ite trivial (.seq (toeDeadlinePassed_silent hP _ _) fun passed ↦ ?_)
  exact .ite trivial ⟨hP _ rfl, fun _ ↦ trivial⟩

theorem toeSendTurn_silent (fd sn : ℤ) (started : UInt32) :
    (toeSendTurn fd sn started).Silent P := by
  unfold toeSendTurn
  refine silent_perform_bind.mpr
    ⟨hP _ rfl, fun sr ↦ .ite trivial (silent_perform_bind.mpr ⟨hP _ rfl, fun n ↦ ?_⟩)⟩
  exact .ite trivial (.seq (toeWaitTurn_silent hP fd started _ _) fun _ ↦ trivial)

theorem toeRecvTurn_silent (fd sn : ℤ) (started : UInt32) (live : SnSR) (gone : ℤ) :
    (toeRecvTurn fd sn started live gone).Silent P := by
  unfold toeRecvTurn
  refine silent_perform_bind.mpr
    ⟨hP _ rfl, fun n ↦ .ite trivial (silent_perform_bind.mpr ⟨hP _ rfl, fun sr ↦ ?_⟩)⟩
  exact .ite trivial (.seq (toeWaitTurn_silent hP fd started _ _) fun _ ↦ trivial)

theorem toeTcpDisconnectBounded_silent (fd : ℤ) : (toeTcpDisconnectBounded fd).Silent P := by
  have hlink : toeLinkIsUp.Silent P := ⟨hP _ rfl, fun _ ↦ trivial⟩
  have hturn : ∀ (sn : ℤ) (started : UInt32), (toeDisconnectTurn sn started).Silent P := by
    intro sn started
    unfold toeDisconnectTurn
    refine silent_perform_bind.mpr
      ⟨hP _ rfl, fun sr ↦ .ite trivial (silent_perform_bind.mpr ⟨hP _ rfl, fun _ ↦ ?_⟩)⟩
    refine .ite trivial
      (silent_perform_bind.mpr ⟨hP _ rfl, fun now ↦ .ite trivial (.seq hlink fun up ↦ ?_)⟩)
    exact .ite trivial ⟨hP _ rfl, fun _ ↦ trivial⟩
  have hlatch : ∀ sn : ℤ, (toeCommandLatch sn).Silent P :=
    fun sn ↦ ⟨⟨hP _ rfl, fun _ ↦ trivial⟩, fun _ ↦ trivial⟩
  unfold toeTcpDisconnectBounded
  refine silent_get_bind.mpr fun t ↦
    silent_perform_bind.mpr ⟨hP _ rfl, fun sr ↦ .ite trivial ?_⟩
  refine .seq hlink fun up ↦ .ite trivial (silent_perform_bind.mpr ⟨hP _ rfl, fun _ ↦ ?_⟩)
  refine .seq (hlatch _) fun _ ↦ silent_perform_bind.mpr ⟨hP _ rfl, fun started ↦ ?_⟩
  exact ⟨hturn _ _, fun _ ↦ trivial⟩

end

/-! ## Each call keeps to its terms -/

/-- An operation that transfers no data, or transfers it on the hardware socket the call is
about. -/
def Transfer (o : Origin Call Tables A) (op : ChipOp) : Prop :=
  ∀ fd sn, o.call.transfers? = some fd → op.data? = some sn → sn = toeSn o.store fd

theorem Transfer.of_none {o : Origin Call Tables A} {op : ChipOp} (h : op.data? = none) :
    Transfer o op :=
  fun _ _ _ hsn ↦ absurd hsn (by simp [h])

/-- A piece of a call that writes nothing. -/
theorem preY_silent_leaves {o : Origin Call Tables A} {α : Type} {p : Toe α}
    (hp : p.Silent (Transfer o))
    (hr : ∀ fd, o.call.transfers? = some fd → toeFdReady cfg o.store fd)
    (h : Leaves cfg o.call.TakesFrom t₀ t) :
    preY U .toeYield1ms (Call.terms cfg o) p (fun _ t₀ t _ ↦ Leaves cfg o.call.TakesFrom t₀ t)
      t₀ t e :=
  preY.silent (T := Call.terms cfg o) (I := fun t₀ t _ ↦ Leaves cfg o.call.TakesFrom t₀ t)
    (fun _ _ _ _ h _ ↦ h)
    (fun _ _ _ _ _ _ _ h _ ↦ h) (fun _ _ _ _ hop h fd sn hfd hsn ↦ ⟨hop fd sn hfd hsn, h⟩)
    (fun _ _ _ h ↦ ⟨h, hr⟩) (fun _ _ _ _ hf _ ↦ .refl hf.1) hp h

/-- A piece of a call that does not yield, of a call that transfers no data. -/
theorem preY_leaves {o : Origin Call Tables A} {α : Type} {p : Toe α}
    {Q : α → Tables → Tables → E → Prop} (ho : o.call.transfers? = none)
    (hp : p.Asks IsNoYield) (h : wlp U (fun _ _ _ ↦ True) p (fun a ↦ Q a t₀) t e) :
    preY U .toeYield1ms (Call.terms cfg o) p Q t₀ t e :=
  .of_wlp hp (h.guard fun _ _ _ _ fd _ hfd ↦ absurd hfd (by simp [ho]))

/-- The calls that wait to transfer data: on a ready descriptor they are silent, otherwise
refused. -/
theorem transfer_terms {c : Call} {a : A} {α : Type} {p : Toe α} (hw : WellOwned cfg t)
    (hc : c.transfers? = some fd) (hp : p.Silent (Transfer ⟨c, t, a⟩)) (hr : toeFdReady cfg t fd) :
    preY U .toeYield1ms (Call.terms cfg ⟨c, t, a⟩) p
    (fun _ t₀ t _ ↦ Leaves cfg c.TakesFrom t₀ t) t t e := by
  refine preY_silent_leaves hp (fun fd' hfd ↦ ?_) (.refl hw)
  obtain rfl := Option.some_inj.mp (hc.symm.trans hfd)
  exact hr

theorem wiztoeSend_terms {a : A} (hw : WellOwned cfg t) (buf : List UInt8) :
    preY U .toeYield1ms (Call.terms cfg ⟨.send fd buf, t, a⟩) (wiztoeSend cfg fd buf)
      (fun _ t₀ t _ ↦ Leaves cfg (Call.send fd buf).TakesFrom t₀ t) t t e := by
  unfold wiztoeSend
  refine preY_get_bind.mpr ?_
  split
  · exact fun _ _ ↦ .refl hw
  rename_i hc
  refine transfer_terms hw rfl ?_ (by tauto)
  refine silent_perform_bind.mpr ⟨.of_none rfl, fun started ↦ ?_⟩
  refine .seq ⟨toeSendTurn_silent (fun _ ↦ .of_none) fd _ started, fun _ ↦ trivial⟩
    fun w ↦ ?_
  cases w with
  | inl r => trivial
  | inr n =>
    refine ⟨?_, fun _ ↦ .ite trivial trivial⟩
    rintro _ _ ⟨⟩ ⟨⟩
    rfl

theorem wiztoeRecv_terms {a : A} (hw : WellOwned cfg t) (len : ℕ) :
    preY U .toeYield1ms (Call.terms cfg ⟨.recv fd len, t, a⟩) (wiztoeRecv cfg fd len)
      (fun _ t₀ t _ ↦ Leaves cfg (Call.recv fd len).TakesFrom t₀ t) t t e := by
  unfold wiztoeRecv
  refine preY_get_bind.mpr ?_
  split
  · exact fun _ _ ↦ .refl hw
  rename_i hc
  refine transfer_terms hw rfl (.ite trivial ?_) (by tauto)
  refine silent_perform_bind.mpr ⟨.of_none rfl, fun started ↦ ?_⟩
  refine .seq ⟨toeRecvTurn_silent (fun _ ↦ .of_none) fd _ started _ _, fun _ ↦ trivial⟩
    fun w ↦ ?_
  cases w with
  | some r => trivial
  | none =>
    refine ⟨?_, fun _ ↦ .ite trivial trivial⟩
    rintro _ _ ⟨⟩ ⟨⟩
    rfl

theorem wiztoeRecvfrom_terms {a : A} (hw : WellOwned cfg t) (len : ℕ) :
    preY U .toeYield1ms (Call.terms cfg ⟨.recvfrom fd len, t, a⟩) (wiztoeRecvfrom cfg fd len)
      (fun _ t₀ t _ ↦ Leaves cfg (Call.recvfrom fd len).TakesFrom t₀ t) t t e := by
  unfold wiztoeRecvfrom
  refine preY_get_bind.mpr ?_
  split
  · exact fun _ _ ↦ .refl hw
  rename_i hc
  refine transfer_terms hw rfl ?_ (by tauto)
  refine silent_perform_bind.mpr ⟨.of_none rfl, fun started ↦ ?_⟩
  refine .seq ⟨toeRecvTurn_silent (fun _ ↦ .of_none) fd _ started _ _, fun _ ↦ trivial⟩
    fun w ↦ ?_
  cases w with
  | some r => trivial
  | none =>
    refine ⟨?_, fun _ ↦ trivial⟩
    rintro _ _ ⟨⟩ ⟨⟩
    rfl

theorem wiztoeShutdown_terms {a : A} (hw : WellOwned cfg t) (shutRd shutWr : Bool) :
    preY U .toeYield1ms (Call.terms cfg ⟨.shutdown fd shutRd shutWr, t, a⟩)
    (wiztoeShutdown cfg fd shutRd shutWr)
      (fun _ t₀ t _ ↦ Leaves cfg (Call.shutdown fd shutRd shutWr).TakesFrom t₀ t) t t e := by
  unfold wiztoeShutdown
  refine preY_get_bind.mpr ?_
  split
  · exact fun _ _ ↦ .refl hw
  rename_i hv
  have hrest : ∀ {t'}, Leaves cfg (Call.shutdown fd shutRd shutWr).TakesFrom t t' →
      preY U .toeYield1ms (Call.terms cfg ⟨.shutdown fd shutRd shutWr, t, a⟩) (do
        let t ← get
        .when (shutWr = true ∧ (t.desc fd).isUdp = false ∧ toeFdReady cfg t fd)
          (toeTcpDisconnectBounded fd)
        return 0) (fun (_ : ℤ) t₀ t _ ↦
          Leaves cfg (Call.shutdown fd shutRd shutWr).TakesFrom t₀ t) t t' e := by
    intro t' h
    refine preY_silent_leaves (silent_get_bind.mpr fun t ↦ .seq ?_ fun _ ↦ trivial)
      (by simp [Call.transfers?]) h
    unfold Program.when
    exact .ite (toeTcpDisconnectBounded_silent (fun _ ↦ .of_none) fd) trivial
  refine preY_when_bind (fun _ ↦ preY_modify_bind.mpr ?_) fun _ ↦ hrest (.refl hw)
  exact hrest (.move hw (.tune (not_not.mp hv) ⟨rfl, rfl, rfl, rfl, rfl⟩) rfl)

theorem wiztoeAccept_terms {a : A} (hfit : cfg.Fits) (hw : WellOwned cfg t) :
    preY U .toeYield1ms (Call.terms cfg ⟨.accept fd, t, a⟩) (wiztoeAccept cfg fd)
      (fun _ t₀ t _ ↦ Leaves cfg (Call.accept fd).TakesFrom t₀ t) t t e := by
  have hplain : ∀ o : ChipOp, o.plain = true → IsNoYield o := fun _ ↦ ChipOp.plain.isNoYield
  unfold wiztoeAccept
  refine preY_get_bind.mpr ?_
  split
  · exact fun _ _ ↦ .refl hw
  rename_i hc
  have hv : toeFdValid cfg t fd := by tauto
  refine (preY_perform_bind (by simp)).mpr fun _ _ ↦
    ⟨fun _ _ hfd ↦ absurd hfd (by simp [Call.transfers?]), ?_⟩
  intro started e _
  -- A turn begins where a segment does: with the call, or after the yield.
  refine preY_forever (fun t₀ t' _ ↦ t₀ = t' ∧ WellOwned cfg t' ∧
    (Call.accept fd).GoesOn cfg t t') ⟨rfl, hw, .inl hv⟩ ?_
  rintro t₀ _ e ⟨rfl, hw, hgo⟩
  unfold toeAcceptTurn
  refine preY.seq (M := fun _ t₀ t _ ↦ Leaves cfg (Call.accept fd).TakesFrom t₀ t)
    (preY_leaves rfl
    (toeAcceptPoll_asks hplain (by simp [IsNoYield]) fd) (toeAcceptPoll_leaves hfit (.inr rfl) hgo
      (.refl hw))) ?_
  rintro (_ | r) t₀ t' e h
  · unfold toeWaitTurn
    refine preY_get_bind.mpr ?_
    split
    · exact fun _ _ _ _ ↦ h
    refine preY.seq (preY_silent_leaves (toeDeadlinePassed_silent (fun _ ↦ .of_none) _ _)
      (by simp [Call.transfers?]) h) ?_
    rintro passed t₀ t' e h
    split
    · exact fun _ _ _ _ ↦ h
    refine preY_yield_bind (fun _ _ ↦ ⟨fun _ _ hfd ↦ absurd hfd (by simp [Call.transfers?]), h,
      ?_⟩) ?_
    · simp [Call.transfers?]
    · exact fun t' _ _ _ hf _ _ _ ↦ ⟨rfl, hf⟩
  · exact fun _ _ _ _ ↦ h

/-- A suspended `close` that finds what it has to find lets go of nothing but its own. -/
theorem Leaves.closing {B : ℤ → Prop} {sn : ℤ} (hsn : cfg.IsSock sn) (hw : WellOwned cfg t)
    (hB : B fd) (h : Holds cfg t fd sn ∨ ((t.desc fd).sn < 0 ∧ t.owner sn < 0)) :
    Leaves cfg B t (toeDescClear fd (toeSnRelease cfg sn t)) := by
  rcases h with ⟨hr, rfl⟩ | ⟨hn, ho⟩
  · have hclose := Leaves.close (A := B) hw hB hr.1
    rwa [Tables.closed, if_pos hr.2] at hclose
  · rw [toeSnRelease_of_mem hsn.1 hsn.2]
    refine .of_desc ?_ fun x hx _ ↦ ?_
    · rcases hw with ⟨hi, hd⟩ | ⟨hi, hown⟩
      · refine .inl ⟨hi, fun x hx ↦ ?_⟩
        rw [toeDescClear, Tables.upd_desc, Tables.setOwner_desc, hd x hx]
        split
        · rename_i hx'
          rw [hx'] at hx
          exact absurd hn (by rw [hd fd hx]; decide)
        · rfl
      · exact .inr ⟨hi, (hown.relabel ho (by decide)).clear (by simpa using hn)⟩
    · refine (Tables.upd_desc_ne _ _ ?_).trans rfl
      rintro rfl
      exact hx hB

theorem wiztoeClose_terms {a : A} (hfit : cfg.Fits) (hw : WellOwned cfg t) :
    preY U .toeYield1ms (Call.terms cfg ⟨.close fd, t, a⟩) (wiztoeClose cfg fd)
      (fun _ t₀ t _ ↦ Leaves cfg (Call.close fd).TakesFrom t₀ t) t t e := by
  have hplain : ∀ o : ChipOp, o.plain = true → IsNoYield o := fun _ ↦ ChipOp.plain.isNoYield
  -- After the descriptor is cleared the waiting listeners are served, in the same segment.
  have hserve : ∀ {t₀ t' : Tables} {e : E},
      Leaves cfg (Call.close fd).TakesFrom t₀ (toeDescClear fd t') →
      preY U .toeYield1ms (Call.terms cfg ⟨.close fd, t, a⟩) (do
        modify (toeDescClear fd)
        toeRearmPendingListeners cfg
        return 0) (fun (_ : ℤ) t₀ t _ ↦ Leaves cfg (Call.close fd).TakesFrom t₀ t)
          t₀ t' e := by
    intro t₀ t' e h
    refine preY_modify_bind.mpr
      (preY.seq (M := fun _ t₀ t _ ↦ Leaves cfg (Call.close fd).TakesFrom t₀ t) ?_
      fun _ _ _ _ h _ _ ↦ h)
    refine preY_leaves rfl (toeRearmPendingListeners_asks hplain (by simp [IsNoYield])) ?_
    exact (toeRearmPendingListeners_keeps (A := fun _ ↦ True) hfit (Leaves.serves U _ t₀)
      (fun _ _ ↦ trivial) h).guard fun _ _ _ _ ↦ trivial
  unfold wiztoeClose
  refine preY_get_bind.mpr ?_
  split
  · exact fun _ _ ↦ .refl hw
  rename_i hv
  have hv := not_not.mp hv
  refine preY_when_bind (fun hn ↦ ?_) fun hn ↦ ?_
  · have hr : toeFdReady cfg t fd := ⟨hv, hn⟩
    have hsock : cfg.IsSock (t.desc fd).sn := ⟨hn, (WellOwned.tablesInv cfg).range hw hv⟩
    -- What the call has to find is all it knows of the tables once it has waited.
    refine preY.seq (M := fun _ t₀ t' _ ↦ Leaves cfg (Call.close fd).TakesFrom t₀
      (toeDescClear fd t')) ?_ fun _ _ _ _ h ↦ hserve h
    unfold toeCloseSocket
    refine preY_get_bind.mpr ?_
    dsimp only
    rw [hw.toeSn_eq hfit hr]
    refine preY.seq (M := fun _ t₀ t' _ ↦ t₀ = t' ∧ WellOwned cfg t' ∧
      (Call.close fd).GoesOn cfg t t') ?_ ?_
    · unfold Program.when
      split
      · refine preY.silent (T := Call.terms cfg ⟨.close fd, t, a⟩)
          (I := fun t₀ t' _ ↦ t₀ = t' ∧ WellOwned cfg t' ∧ (Call.close fd).GoesOn cfg t t')
          (fun _ _ _ _ h _ ↦ h) (fun _ _ _ _ _ _ _ h _ ↦ h)
          (fun _ _ _ _ _ _ _ _ hfd ↦ absurd hfd (by simp [Call.transfers?])) ?_
            (fun _ _ _ _ hf _ ↦ ⟨rfl, hf⟩)
          (toeTcpDisconnectBounded_silent (P := fun _ ↦ True) (fun _ _ ↦ trivial) fd)
            ⟨rfl, hw, .inl ⟨hr, rfl⟩⟩
        rintro _ _ _ ⟨rfl, hw, -⟩
        exact ⟨.refl hw, fun _ hfd ↦ absurd hfd (by simp [Call.transfers?])⟩
      · exact fun _ _ ↦ ⟨rfl, hw, .inl ⟨hr, rfl⟩⟩
    · rintro _ t₀ _ e ⟨rfl, hw', hgo⟩
      refine preY_get_bind.mpr (preY_when_bind (fun _ ↦ ?_) fun _ ↦ ?_)
      · refine (preY_perform_bind (by simp)).mpr fun _ _ ↦
          ⟨fun _ _ hfd ↦ absurd hfd (by simp [Call.transfers?]), fun _ _ _ _ _ ↦ ?_⟩
        exact .closing hsock hw' (.inl rfl) hgo
      · exact fun _ _ ↦ .closing hsock hw' (.inl rfl) hgo
  · refine hserve ?_
    have hclose := Leaves.close (A := (Call.close fd).TakesFrom) hw (.inl rfl) hv
    rwa [Tables.closed, if_neg hn] at hclose

/-- **Every call keeps to its terms** when it is made with tables that agree. -/
theorem Call.prog_terms {a : A} (hfit : cfg.Fits) (hw : WellOwned cfg t) {c : Call}
    (hc : c.ReleasesUnheld cfg t) : preY U .toeYield1ms (Call.terms cfg ⟨c, t, a⟩) (c.prog cfg)
      (fun _ ↦ (Call.terms cfg (⟨c, t, a⟩ : Origin Call Tables A)).returns) t t e := by
  have hdiscard : ∀ {α : Type} {p : Toe α}, preY U .toeYield1ms (Call.terms cfg ⟨c, t, a⟩) p
      (fun _ t₀ t _ ↦ Leaves cfg c.TakesFrom t₀ t) t t e →
      preY U .toeYield1ms (Call.terms cfg ⟨c, t, a⟩) (discard p)
        (fun _ ↦ (Call.terms cfg (⟨c, t, a⟩ : Origin Call Tables A)).returns) t t e :=
    fun h ↦ preY_discard (h.imp fun _ _ _ _ h _ _ ↦ h)
  by_cases hwait : c.waits = true
  · cases c with
    | shutdown fd shutRd shutWr => exact hdiscard (wiztoeShutdown_terms hw shutRd shutWr)
    | accept fd => exact hdiscard (wiztoeAccept_terms hfit hw)
    | send fd buf => exact hdiscard (wiztoeSend_terms hw buf)
    | recv fd len => exact hdiscard (wiztoeRecv_terms hw len)
    | recvfrom fd len => exact hdiscard (wiztoeRecvfrom_terms hw len)
    | close fd => exact hdiscard (wiztoeClose_terms hfit hw)
    | _ => exact absurd hwait (by simp [Call.waits])
  have hno : c.transfers? = none := by
    cases c with
    | send => exact absurd rfl hwait
    | recv => exact absurd rfl hwait
    | recvfrom => exact absurd rfl hwait
    | _ => rfl
  refine preY_leaves hno (Call.asks_noYield (by simpa using hwait)) ?_
  by_cases hset : c.settled = true
  · exact ((Leaves.settles U c.TakesFrom t c t).prog hset (.refl hw)).guard fun _ _ _ _ ↦ trivial
  cases c with
  | socket domain type protocol =>
    have hsocket := wiztoeSocket_keeps (A := fun _ ↦ True) (e := e) hfit
      (Leaves.keeps U (Call.socket domain type protocol).TakesFrom t).untuned domain type protocol
        (.refl hw)
    exact pre_discard ((hsocket.guard fun _ _ _ _ ↦ trivial).imp fun _ _ _ h _ _ ↦ h.1)
  | socketRelease sn =>
    have hS : Stable cfg U fun t' _ ↦ Leaves cfg (Call.socketRelease sn).TakesFrom t t' :=
      Leaves.stable U _ t
    by_cases hsn : 0 ≤ sn ∧ sn < cfg.maxSock
    · refine wiztoeSocketRelease_serves (A := fun _ ↦ True) hfit hS (Leaves.serves U _ t) ?_
        (fun _ _ ↦ trivial) (fun _ ↦ trivial) (fun _ ↦ trivial) hsn (.refl hw)
      rintro _ _ _ h -
      refine ⟨?_, fun hx hh ↦ (h.holds hx hh).to_desc (by rw [toeSnRelease_desc])⟩
      rw [toeSnRelease_of_mem hsn.1 hsn.2]
      exact hw.release_unheld hc rfl hsn
    · exact (wiztoeSocketRelease_invalid (G := fun _ _ _ ↦ True) hS hsn (.refl hw)).imp
        fun _ _ _ h ↦ h
  | accept fd => exact absurd rfl hwait
  | close fd => exact absurd rfl hwait
  | _ => exact absurd rfl hset

end WsmDriver
