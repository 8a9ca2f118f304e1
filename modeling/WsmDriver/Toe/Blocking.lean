import WsmDriver.Effect.Execution
import WsmDriver.Effect.Trace
import WsmDriver.Toe.Alphabet
import WsmDriver.Toe.Ownership

/-!
# The blocking contract

A descriptor is asked not to wait, or to wait for so long, or to wait for good, and `accept`, `recv`
and `recvfrom` should do as it says. The chip answers anything at all here; it does nothing by
itself, since nothing of what is shown depends on its state.

`recv` and `recvfrom` honour the contract. `accept` does not when the descriptor table is full: a
completed handshake that has no descriptor to go to is reported as `WIZTOE_ERR_WOULDBLOCK`, which a
blocking listener never asked for.
-/

namespace WsmDriver

open Effect

variable {cfg : ToeConfig} {t t' : Tables} {fd c sn : ℤ} {d : Desc} {R : ℕ → ℕ → Prop}

/-! ## The contract -/

/-- The time was read when the call started and again just now, and in between the deadline
passed. -/
def DeadlinePassed (l : ChipLog) (timeoutMs : UInt32) : Prop :=
  ∃ started now l', l = ⟨.toeTimeUs, now⟩ :: (l' ++ [⟨.toeTimeUs, started⟩]) ∧
    timeoutMs * 1000 ≤ now - started

/-- The timeout was reported, there was one, and its deadline passed. -/
def TimedOut (d : Desc) (r : ℤ) (l : ChipLog) : Prop :=
  r = wiztoeErrTimeout ∧ d.rcvTimeoutMs ≠ 0 ∧ DeadlinePassed l d.rcvTimeoutMs

/-- The call came back because of data, a connection or the end of the stream, because of an error,
or because the time it was given is over. -/
def Answered (d : Desc) (r : ℤ) (l : ChipLog) : Prop := 0 ≤ r ∨ r = -1 ∨ TimedOut d r l

/-- The call `p`, made with the tables `t` on the descriptor `d`, waits as the descriptor asks. -/
structure WaitsAsAsked {α : Type} (p : Toe α) (res : α → ℤ) (d : Desc) (t : Tables) : Prop where
  /-- Asked not to wait, it returns without yielding once. -/
  nonblocking : d.nonblocking = true →
    Halts .oracle p t () ∧ ∀ t', ¬Performs .oracle p t () .toeYield1ms t' ()
  /-- Otherwise it only comes back with an answer. -/
  blocking : d.nonblocking = false → ∀ a t' l,
    Returns Env.oracle.traced p t ((), []) a t' ((), l) → Answered d (res a) l

/-- The contract of the three waiting calls on a descriptor. -/
structure BlockingContract (cfg : ToeConfig) (t : Tables) (fd : ℤ) : Prop where
  accept : WaitsAsAsked (wiztoeAccept cfg fd) id (t.desc fd) t
  recv : ∀ len, WaitsAsAsked (wiztoeRecv cfg fd len) Prod.fst (t.desc fd) t
  recvfrom : ∀ len, WaitsAsAsked (wiztoeRecvfrom cfg fd len) Prod.fst (t.desc fd) t

/-! ## Not waiting -/

/-- The guard of a call that must not wait. -/
def NoYield (o : ChipOp) (_ : Tables) (_ : Unit) : Prop := o ≠ .toeYield1ms

theorem toeWaitTurn_nonblocking {E : Type} {V : Env Tables E ChipOp.Ans}
    {G : ChipOp → Tables → E → Prop} {e : E} (hn : (t.desc fd).nonblocking = true)
    (started : UInt32) (timeoutMs : Desc → UInt32) (expired : ℤ) :
    pre V G R (toeWaitTurn fd started timeoutMs expired)
      (fun r t' _ ↦ t = t' ∧ r = some wiztoeErrWouldblock) t e := by
  unfold toeWaitTurn
  refine pre_get_bind.mpr ?_
  rw [if_pos hn]
  exact fun _ _ ↦ ⟨rfl, rfl⟩

theorem toeRecvTurn_nonblocking (hn : (t.desc fd).nonblocking = true) (started : UInt32)
    (live : SnSR) (gone : ℤ) :
    wp .oracle NoYield (toeRecvTurn fd sn started live gone)
      (fun r t' _ ↦ t = t' ∧ r.isSome = true) t () := by
  unfold toeRecvTurn
  refine pre_perform_bind.mpr fun _ _ ↦ ⟨by simp [NoYield], fun n _ _ ↦ ?_⟩
  split
  · exact fun _ _ ↦ ⟨rfl, rfl⟩
  refine pre_perform_bind.mpr fun _ _ ↦ ⟨by simp [NoYield], fun sr _ _ ↦ ?_⟩
  split
  · exact fun _ _ ↦ ⟨rfl, rfl⟩
  refine pre.seq (toeWaitTurn_nonblocking hn started _ _) ?_
  rintro _ _ _ ⟨rfl, rfl⟩ _ _
  exact ⟨rfl, rfl⟩

/-- The wait of `recv` and `recvfrom` is one turn long. -/
theorem toeRecvWait_nonblocking (hn : (t.desc fd).nonblocking = true) (started : UInt32)
    (live : SnSR) (gone : ℤ) :
    wp .oracle NoYield (Program.forever (toeRecvTurn fd sn started live gone))
      (fun _ t' _ ↦ t = t') t () := by
  refine pre_forever_once ((toeRecvTurn_nonblocking hn started live gone).imp ?_)
  rintro r _ _ ⟨rfl, hr⟩
  obtain ⟨b, rfl⟩ := Option.isSome_iff_exists.mp hr
  exact ⟨b, rfl, fun _ _ ↦ rfl⟩

theorem wiztoeRecv_nonblocking (hn : (t.desc fd).nonblocking = true) (len : ℕ) :
    wp .oracle NoYield (wiztoeRecv cfg fd len) (fun _ _ _ ↦ True) t () := by
  unfold wiztoeRecv
  refine pre_get_bind.mpr ?_
  split
  · exact fun _ _ ↦ trivial
  split
  · exact fun _ _ ↦ trivial
  refine pre_perform_bind.mpr fun _ _ ↦ ⟨by simp [NoYield], fun started _ _ ↦ ?_⟩
  refine pre.seq (toeRecvWait_nonblocking hn started _ _) ?_
  rintro w _ _ rfl
  cases w with
  | some r => exact fun _ _ ↦ trivial
  | none =>
    refine pre_perform_bind.mpr fun _ _ ↦ ⟨by simp [NoYield], fun n _ _ ↦ ?_⟩
    dsimp only
    split
    · exact fun _ _ ↦ trivial
    · exact fun _ _ ↦ trivial

theorem wiztoeRecvfrom_nonblocking (hn : (t.desc fd).nonblocking = true) (len : ℕ) :
    wp .oracle NoYield (wiztoeRecvfrom cfg fd len) (fun _ _ _ ↦ True) t () := by
  unfold wiztoeRecvfrom
  refine pre_get_bind.mpr ?_
  split
  · exact fun _ _ ↦ trivial
  refine pre_perform_bind.mpr fun _ _ ↦ ⟨by simp [NoYield], fun started _ _ ↦ ?_⟩
  refine pre.seq (toeRecvWait_nonblocking hn started _ _) ?_
  rintro w _ _ rfl
  cases w with
  | some r => exact fun _ _ ↦ trivial
  | none =>
    refine pre_perform_bind.mpr fun _ _ ↦ ⟨by simp [NoYield], fun n _ _ ↦ ?_⟩
    exact fun _ _ ↦ trivial

/-! ## What a polled listener keeps -/

/-- Between two turns of `accept`: who is in use, and how the listener waits, is as it was. -/
structure SameTerms (fd : ℤ) (t t' : Tables) : Prop where
  used : ∀ x, (t'.desc x).used = (t.desc x).used
  nonblocking : (t'.desc fd).nonblocking = (t.desc fd).nonblocking
  rcvTimeoutMs : (t'.desc fd).rcvTimeoutMs = (t.desc fd).rcvTimeoutMs

namespace SameTerms

theorem refl (fd : ℤ) (t : Tables) : SameTerms fd t t := ⟨fun _ ↦ rfl, rfl, rfl⟩

theorem of_upd {t₀ : Tables} {f : Desc → Desc} (h : SameTerms fd t₀ t)
    (hu : (f (t.desc fd)).used = (t.desc fd).used)
    (hn : (f (t.desc fd)).nonblocking = (t.desc fd).nonblocking)
    (hr : (f (t.desc fd)).rcvTimeoutMs = (t.desc fd).rcvTimeoutMs) :
    SameTerms fd t₀ (t.upd fd f) where
  used x := by
    rw [← h.used x, Tables.upd_desc]
    split
    · rename_i hx
      rw [hx, hu]
    · rfl
  nonblocking := by rw [← h.nonblocking, Tables.upd_desc_self, hn]
  rcvTimeoutMs := by rw [← h.rcvTimeoutMs, Tables.upd_desc_self, hr]

theorem timedOut {r : ℤ} {l : ChipLog} (h : SameTerms fd t t') (ht : TimedOut (t'.desc fd) r l) :
    TimedOut (t.desc fd) r l := by
  rwa [TimedOut, ← h.rcvTimeoutMs]

theorem setOwner {t₀ : Tables} (h : SameTerms fd t₀ t) (sn v : ℤ) :
    SameTerms fd t₀ (t.setOwner sn v) := ⟨h.used, h.nonblocking, h.rcvTimeoutMs⟩

theorem disarm {t₀ : Tables} (h : SameTerms fd t₀ t) :
    SameTerms fd t₀ (toeListenerDisarm cfg fd t) := by
  rw [toeListenerDisarm]
  split
  · refine SameTerms.of_upd ?_ (by simp) (by simp) (by simp)
    exact ⟨by simpa using h.used, by simpa using h.nonblocking, by simpa using h.rcvTimeoutMs⟩
  · exact h.of_upd rfl rfl rfl

end SameTerms

/-- The live descriptors are well formed, and the terms are those of `t₀`. -/
def OnTerms (cfg : ToeConfig) (fd : ℤ) (t₀ t : Tables) (_ : Unit) : Prop :=
  Shaped cfg t ∧ SameTerms fd t₀ t

theorem OnTerms.accepts {V : Env Tables Unit ChipOp.Ans} (t₀ : Tables) :
    Accepts cfg V (OnTerms cfg fd t₀) (fun t _ ↦ Shaped cfg t) (fun t _ ↦ Shaped cfg t) fd where
  stable := (Shaped.tablesInv cfg).stable_of fun _ h ↦ h.1
  arm {_ _ sn} h hl hn hs :=
    ⟨h.1.move (.arm hl.1 hl.2 hn hs.free), (h.2.setOwner sn fd).of_upd rfl rfl rfl⟩
  opens :=
    { refused := fun h _ _ _ ↦ h
      granted := fun h hr _ ↦ ⟨h.1.move (.opened true hr), h.2.of_upd rfl rfl rfl⟩ }
  listens :=
    { unopened := fun h hr hl _ _ ↦ ⟨h.1.move (.disarm hr hl), h.2.disarm⟩
      unlistened := fun h hr hl _ _ ↦ ⟨h.1.move (.disarm hr hl), h.2.disarm⟩ }
  defers h hr _ := ⟨h.1.move (.opened false hr), h.2.of_upd rfl rfl rfl⟩
  handsOver :=
    { armed := fun h hr hl hc hs ↦
        ((Shaped.tablesInv cfg).handover fd (E := Unit)).armed (e := ()) h.1 hr hl hc hs
      unarmed := fun h hr hl hc hs ↦
        ((Shaped.tablesInv cfg).handover fd (E := Unit)).unarmed (e := ()) h.1 hr hl hc hs }
  stable' := (Shaped.tablesInv cfg).stable
  opens' := (Shaped.tablesInv cfg).opens fd
  listens' := (Shaped.tablesInv cfg).listens fd
  le h := h.1
  le' h := h

theorem wiztoeAccept_nonblocking (hfit : cfg.Fits) (hw : Shaped cfg t)
    (hn : (t.desc fd).nonblocking = true) :
    wp .oracle NoYield (wiztoeAccept cfg fd) (fun _ _ _ ↦ True) t () := by
  unfold wiztoeAccept
  refine pre_get_bind.mpr ?_
  split
  · exact fun _ _ ↦ trivial
  rename_i hc
  have hl : IsListener cfg t fd := by
    simp only [not_or, not_not, Bool.not_eq_false] at hc
    exact hc
  refine pre_perform_bind.mpr fun _ _ ↦ ⟨by simp [NoYield], fun started _ _ ↦ ?_⟩
  -- A descriptor that does not block leaves the loop in its first turn.
  refine pre_forever_once ?_
  unfold toeAcceptTurn
  have hpoll := toeAcceptPoll_keeps (R := (· < ·)) hfit (OnTerms.accepts (V := .oracle) t)
    (A := (· = fd)) rfl hl (e := ()) ⟨hw, .refl fd t⟩
  refine pre.seq ((hpoll.asks (toeAcceptPoll_asks (fun _ ↦ ChipOp.plain.isNoYield)
    (fun _ _ _ _ ↦ by simp [IsNoYield]) fd)).guard fun _ _ _ h ↦ h.2) ?_
  rintro (_ | r) t' e h
  · have hn' : (t'.desc fd).nonblocking = true := by rw [h.1.2.nonblocking, hn]
    refine (toeWaitTurn_nonblocking hn' started _ _).imp ?_
    rintro _ _ _ ⟨rfl, rfl⟩
    exact ⟨_, rfl, fun _ _ ↦ trivial⟩
  · exact fun _ _ ↦ ⟨r, rfl, fun _ _ ↦ trivial⟩

/-! ## Waiting

The log of a waiting call starts with the time it was made, and a wait that ends without an answer
has just read the time again. -/

/-- The call started by reading the time `started`. -/
def Since (started : UInt32) (l : ChipLog) : Prop := ∃ l', l = l' ++ [⟨.toeTimeUs, started⟩]

theorem Since.cons {started : UInt32} {l : ChipLog} (h : Since started l) (x : Sigma ChipOp.Ans) :
    Since started (x :: l) := by
  obtain ⟨l', rfl⟩ := h
  exact ⟨x :: l', rfl⟩

theorem Since.grown {started : UInt32} {l l' : ChipLog} {B : Sigma ChipOp.Ans → Prop}
    (h : Since started l) (hg : Grown B l l') : Since started l' := by
  obtain ⟨l₀, rfl⟩ := h
  obtain ⟨new, rfl, -⟩ := hg
  exact ⟨new ++ l₀, (List.append_assoc _ _ _).symm⟩

/-- The log of a call that goes on. -/
abbrev Logged (V : Env Tables Unit ChipOp.Ans) {α : Type} (p : Toe α)
    (Q : α → Tables → Unit × ChipLog → Prop) (t : Tables) (l : ChipLog) : Prop :=
  wlp V.traced (fun _ _ _ ↦ True) p Q t ((), l)

theorem logged_pure {α : Type} {a : α} {Q : α → Tables → Unit × ChipLog → Prop} {l : ChipLog}
    (h : Q a t ((), l)) : Logged .oracle (pure a) Q t l := by
  rintro ⟨⟨⟩, l'⟩ he
  obtain ⟨-, rfl⟩ := he.untraced
  exact h

theorem logged_perform {α : Type} {o : ChipOp} {f : o.Ans → Toe α}
    {Q : α → Tables → Unit × ChipLog → Prop} {l : ChipLog}
    (h : ∀ a, Logged .oracle (f a) Q t (⟨o, a⟩ :: l)) : Logged .oracle (chip o >>= f) Q t l := by
  refine pre_perform_bind.mpr ?_
  rintro ⟨⟨⟩, l₁⟩ he
  obtain ⟨-, rfl⟩ := he.untraced
  refine ⟨trivial, ?_⟩
  rintro a ⟨⟨⟩, l₂⟩ ⟨-, rfl⟩
  exact h a

/-- The timeout does not vanish in microseconds. -/
def Desc.CanWait (d : Desc) : Prop := d.rcvTimeoutMs = 0 ∨ d.rcvTimeoutMs * 1000 ≠ 0

/-- What a waiting turn leaves: it ends the wait because the time is over, and never goes on with a
timeout that vanishes. -/
structure WaitTurned (d : Desc) (started : UInt32) (r : Option ℤ) (l : ChipLog) : Prop where
  since : Since started l
  timedOut : ∀ x, r = some x → TimedOut d x l
  canWait : r = none → d.CanWait

theorem toeWaitTurn_blocking {l : ChipLog} (hn : (t.desc fd).nonblocking = false) {started : UInt32}
    (hl : Since started l) :
    Logged .oracle (toeWaitTurn fd started Desc.rcvTimeoutMs wiztoeErrTimeout)
      (fun r t' e ↦ t = t' ∧ WaitTurned (t.desc fd) started r e.2) t l := by
  have hpassed : Logged .oracle (toeDeadlinePassed started (t.desc fd).rcvTimeoutMs)
      (fun b t' e ↦ t = t' ∧ Since started e.2 ∧ (b = false → (t.desc fd).CanWait) ∧
        (b = true → (t.desc fd).rcvTimeoutMs ≠ 0 ∧ DeadlinePassed e.2 (t.desc fd).rcvTimeoutMs))
          t l := by
    unfold toeDeadlinePassed
    split
    · rename_i h₀
      exact logged_pure ⟨rfl, hl, fun _ ↦ .inl h₀, by simp⟩
    · rename_i h₀
      refine logged_perform fun now ↦
        logged_pure ⟨rfl, hl.cons _, fun hb ↦ ?_, fun hb ↦ ⟨h₀, ?_⟩⟩
      · refine .inr fun hz ↦ of_decide_eq_false hb ?_
        rw [hz]
        exact UInt32.zero_le
      · obtain ⟨l', rfl⟩ := hl
        exact ⟨started, now, l', rfl, of_decide_eq_true hb⟩
  unfold toeWaitTurn
  refine pre_get_bind.mpr ?_
  rw [if_neg (by simp [hn])]
  refine pre.seq hpassed ?_
  rintro passed _ ⟨⟨⟩, l'⟩ ⟨rfl, hl', hgo, hb⟩
  split
  · rename_i hp
    refine logged_pure ⟨rfl, hl', fun x hx ↦ ?_, by simp⟩
    obtain rfl := Option.some_inj.mp hx
    exact ⟨rfl, hb hp⟩
  · rename_i hp
    exact logged_perform fun _ ↦
      logged_pure ⟨rfl, hl'.cons _, by simp, fun _ ↦ hgo (by simpa using hp)⟩

/-- What ends the wait for data: there is some, or the connection is gone, or the time is over. -/
def Waited (d : Desc) (gone : ℤ) (w : Option ℤ) (l : ChipLog) : Prop :=
  ∀ r, w = some r → r = gone ∨ TimedOut d r l

theorem toeRecvWait_blocking {l : ChipLog} (hn : (t.desc fd).nonblocking = false) {started : UInt32}
    (hl : Since started l) (live : SnSR) (gone : ℤ) :
    Logged .oracle (Program.forever (toeRecvTurn fd sn started live gone))
      (fun w t' e ↦ t = t' ∧ Waited (t.desc fd) gone w e.2) t l := by
  refine wlp_forever (fun t' e ↦ t = t' ∧ Since started e.2) ⟨rfl, hl⟩ ?_
  rintro _ ⟨⟨⟩, l⟩ ⟨rfl, hl⟩
  have hstop : ∀ {w : Option ℤ} {l : ChipLog}, Waited (t.desc fd) gone w l →
      ∀ e' : Unit × ChipLog, Env.oracle.traced.Drifts (S := Tables) ((), l) e' →
        t = t ∧ Waited (t.desc fd) gone w e'.2 := by
    intro w l hw e' he
    exact ⟨rfl, he.untraced.2 ▸ hw⟩
  unfold toeRecvTurn
  refine logged_perform fun n ↦ ?_
  split
  · exact logged_pure (hstop fun r hr ↦ absurd hr (by simp))
  refine logged_perform fun sr ↦ ?_
  split
  · refine logged_pure (hstop fun r hr ↦ .inl ?_)
    exact (Option.some_inj.mp hr).symm
  refine pre.seq (toeWaitTurn_blocking hn ((hl.cons _).cons _)) ?_
  rintro (_ | x) _ ⟨⟨⟩, l'⟩ ⟨rfl, hx⟩
  · exact logged_pure ⟨rfl, hx.since⟩
  · refine logged_pure (hstop fun r hr ↦ .inr ?_)
    obtain rfl := Option.some_inj.mp hr
    exact hx.timedOut x rfl

theorem wiztoeRecv_blocking (hn : (t.desc fd).nonblocking = false) (len : ℕ) :
    Logged .oracle (wiztoeRecv cfg fd len) (fun r _ e ↦ Answered (t.desc fd) r.1 e.2) t [] := by
  unfold wiztoeRecv
  refine pre_get_bind.mpr ?_
  split
  · exact logged_pure (.inr (.inl rfl))
  split
  · exact logged_pure (.inl le_rfl)
  refine logged_perform fun started ↦ ?_
  refine pre.seq (toeRecvWait_blocking hn ⟨[], rfl⟩ _ _) ?_
  rintro (_ | r) _ ⟨⟨⟩, l⟩ ⟨rfl, hw⟩
  · refine logged_perform fun n ↦ ?_
    dsimp only
    split
    · exact logged_pure (.inl le_rfl)
    · refine logged_pure ?_
      split
      · exact .inr (.inl rfl)
      · exact .inl (by omega)
  · refine logged_pure ?_
    rcases hw r rfl with rfl | hr
    · exact .inl le_rfl
    · exact .inr (.inr hr)

theorem wiztoeRecvfrom_blocking (hn : (t.desc fd).nonblocking = false) (len : ℕ) :
    Logged .oracle (wiztoeRecvfrom cfg fd len) (fun r _ e ↦ Answered (t.desc fd) r.1 e.2) t [] := by
  unfold wiztoeRecvfrom
  refine pre_get_bind.mpr ?_
  split
  · exact logged_pure (.inr (.inl rfl))
  refine logged_perform fun started ↦ ?_
  refine pre.seq (toeRecvWait_blocking hn ⟨[], rfl⟩ _ _) ?_
  rintro (_ | r) _ ⟨⟨⟩, l⟩ ⟨rfl, hw⟩
  · refine logged_perform fun n ↦ logged_pure ?_
    split
    · exact .inr (.inl rfl)
    · exact .inl (by omega)
  · refine logged_pure ?_
    rcases hw r rfl with rfl | hr
    · exact .inr (.inl rfl)
    · exact .inr (.inr hr)

/-! ## `accept` on a blocking listener -/

section Waiting

variable {J K L : Tables → Unit → Prop}

/-- A poll that never finds the descriptor table full: the loop goes on, or there is a
connection. -/
theorem toeAcceptPoll_blocking (hfit : cfg.Fits) (hK : Accepts cfg .oracle J K L fd)
    (hroom : ∀ t e, J t e → toeFdReady cfg t fd → ∃ c, IsUnused cfg t c) {started : UInt32}
    {l : ChipLog} (hl : Since started l) (hlis : IsListener cfg t fd) (hJ : J t ()) :
    Logged .oracle (toeAcceptPoll cfg fd) (fun r t' e ↦ Since started e.2 ∧
      (∀ x, r = some x → 0 ≤ x) ∧ (r = none → J t' e.1 ∧ IsListener cfg t' fd)) t l := by
  have hpoll := toeAcceptPoll_keeps (R := fun _ _ ↦ True) (A := (· = fd)) hfit hK rfl hlis hJ
  refine ((hpoll.traced (B := fun _ ↦ True) (l := l) fun _ _ ↦ trivial).imp ?_).guard
    fun _ _ _ _ ↦ trivial
  rintro r t' ⟨e', l'⟩ ⟨h, hg⟩
  refine ⟨hl.grown hg, ?_⟩
  cases r with
  | none => exact ⟨fun x hx ↦ absurd hx (by simp), fun _ ↦ h⟩
  | some r =>
    refine ⟨fun x hx ↦ ?_, fun hr ↦ absurd hr (by simp)⟩
    obtain rfl := Option.some_inj.mp hx
    rcases h with ⟨h₀, -⟩ | ⟨-, hJ', hr, hfull⟩
    · exact h₀
    · obtain ⟨c, hc⟩ := hroom t' e' hJ' hr
      exact absurd hc (hfull c)

/-- The wait of `accept` where the table is never found full. -/
theorem wiztoeAccept_blocking (hfit : cfg.Fits) (hK : Accepts cfg .oracle J K L fd)
    (hterms : ∀ t' e, J t' e → SameTerms fd t t')
    (hroom : ∀ t e, J t e → toeFdReady cfg t fd → ∃ c, IsUnused cfg t c)
    (hn : (t.desc fd).nonblocking = false) (hJ : J t ()) :
    Logged .oracle (wiztoeAccept cfg fd) (fun r _ e ↦ Answered (t.desc fd) r e.2) t [] := by
  unfold wiztoeAccept
  refine pre_get_bind.mpr ?_
  split
  · exact logged_pure (.inr (.inl rfl))
  rename_i hc
  have hlis : IsListener cfg t fd := by
    simp only [not_or, not_not, Bool.not_eq_false] at hc
    exact hc
  refine logged_perform fun started ↦ ?_
  refine wlp_forever (fun t' e ↦ (J t' e.1 ∧ IsListener cfg t' fd) ∧ Since started e.2)
    ⟨⟨hJ, hlis⟩, [], rfl⟩ ?_
  rintro t' ⟨⟨⟩, l⟩ ⟨⟨hJ, hlis⟩, hl⟩
  unfold toeAcceptTurn
  refine pre.seq (toeAcceptPoll_blocking hfit hK hroom hl hlis hJ) ?_
  rintro (_ | r) t₁ ⟨⟨⟩, l₁⟩ ⟨hl₁, hsome, hnone⟩
  · have hgo := hnone rfl
    have hterm := hterms t₁ () hgo.1
    refine (toeWaitTurn_blocking (hterm.nonblocking.trans hn) hl₁).imp ?_
    rintro (_ | x) _ ⟨⟨⟩, l₂⟩ ⟨rfl, hx⟩
    · exact ⟨hgo, hx.since⟩
    · exact fun e' he ↦ .inr (.inr (he.untraced.2 ▸ hterm.timedOut (hx.timedOut x rfl)))
  · exact fun _ _ _ _ ↦ .inl (hsome r rfl)

end Waiting

/-- A listener that waits for a hardware socket while there is none stays as it is. -/
theorem Accepts.of_stuck (hs : Shaped cfg t) (hn : (t.desc fd).sn < 0)
    (hnone : ∀ sn, ¬IsFree cfg t sn) :
    Accepts cfg (Env.oracle : Env Tables Unit ChipOp.Ans) (fun t' _ ↦ t' = t) (fun _ _ ↦ False)
      (fun t' _ ↦ t' = t) fd := by
  have hready : ∀ {t'}, t' = t → ¬toeFdReady cfg t' fd := by
    rintro _ rfl hr
    exact absurd hr.2 (by omega)
  exact
    { stable :=
        { range := fun heq hv ↦ (Shaped.tablesInv cfg).range (heq ▸ hs) hv
          idle := fun heq hv ↦ (Shaped.tablesInv cfg).idle (heq ▸ hs) hv
          drift := fun h _ ↦ h
          answer := fun _ h _ ↦ h }
      arm := fun heq _ _ hfree ↦ absurd (heq ▸ hfree.free) (hnone _)
      opens := ⟨fun heq hr ↦ absurd hr (hready heq), fun heq hr ↦ absurd hr (hready heq)⟩
      listens := ⟨fun heq hr ↦ absurd hr (hready heq), fun heq hr ↦ absurd hr (hready heq)⟩
      defers := fun heq hr ↦ absurd hr (hready heq)
      handsOver := ⟨fun heq hr ↦ absurd hr (hready heq), fun heq hr ↦ absurd hr (hready heq)⟩
      stable' := ⟨False.elim, False.elim, False.elim, fun _ h ↦ h.elim⟩
      opens' := ⟨False.elim, False.elim⟩
      listens' := ⟨False.elim, False.elim⟩
      le := id
      le' := False.elim }

/-- A timeout that vanishes has passed as soon as it is looked at, which is before a listener
without a hardware socket sees a connection. -/
theorem wiztoeAccept_expires (hfit : cfg.Fits) (hs : Shaped cfg t) (hl : IsListener cfg t fd)
    (hn : (t.desc fd).nonblocking = false) (hsn : (t.desc fd).sn < 0) (hz : ¬(t.desc fd).CanWait) :
    Logged .oracle (wiztoeAccept cfg fd) (fun r _ e ↦ Answered (t.desc fd) r e.2) t [] := by
  have hK : Accepts cfg .oracle (OnTerms cfg fd t) (fun t _ ↦ Shaped cfg t)
      (fun t _ ↦ Shaped cfg t) fd :=
    OnTerms.accepts t
  have hrearm := discard_toeListenerRearm_keeps (R := fun _ _ ↦ True) hfit hK.stable hK.opens
    hK.listens (A := (· = fd)) rfl (hK.rearmable hl (e := ()) ⟨hs, .refl fd t⟩)
  unfold wiztoeAccept
  refine pre_get_bind.mpr ?_
  rw [if_neg (by simp [hl.1, hl.2])]
  refine logged_perform fun started ↦ pre_forever_once ?_
  unfold toeAcceptTurn toeAcceptPoll
  refine pre.seq (M := fun r t' e ↦ r = none ∧ SameTerms fd t t' ∧ Since started e.2) ?_ ?_
  · refine pre_get_bind.mpr ?_
    rw [if_pos hsn]
    refine pre.seq ((hrearm.traced (B := fun _ ↦ True) fun _ _ ↦ trivial).guard
      fun _ _ _ _ ↦ trivial) ?_
    rintro _ t' ⟨⟨⟩, l⟩ ⟨⟨⟨-, hterm⟩, -⟩, hg⟩
    exact logged_pure ⟨rfl, hterm, .grown ⟨[], rfl⟩ hg⟩
  rintro _ t' ⟨⟨⟩, l⟩ ⟨rfl, hterm, hl⟩
  refine (toeWaitTurn_blocking (hterm.nonblocking.trans hn) hl).imp ?_
  rintro (_ | x) _ ⟨⟨⟩, l'⟩ ⟨rfl, hx⟩
  · refine absurd (hx.canWait rfl) ?_
    rwa [Desc.CanWait, hterm.rcvTimeoutMs]
  · exact ⟨x, rfl,
      fun e' he ↦ .inr (.inr (he.untraced.2 ▸ hterm.timedOut (hx.timedOut x rfl)))⟩

/-! ## The table is full

A handshake completes on a blocking listener while every descriptor is in use. -/

/-- The listener is blocking, every descriptor is in use, and the listener has a hardware socket or
can still get one. -/
structure FullExit (cfg : ToeConfig) (t : Tables) (fd : ℤ) : Prop where
  nonblocking : (t.desc fd).nonblocking = false
  listening : (t.desc fd).listening = true
  full : ∀ c, ¬IsUnused cfg t c
  socket : 0 ≤ (t.desc fd).sn ∨ (∃ sn, IsFree cfg t sn) ∧ (t.desc fd).CanWait

/-- The turn in which the listener sees the completed handshake. -/
theorem toeAcceptTurn_full (hfull : ∀ c, ¬IsUnused cfg t c) (hsn : 0 ≤ (t.desc fd).sn)
    (started : UInt32) :
    Returns .oracle (toeAcceptTurn cfg fd started) t () (some wiztoeErrWouldblock) t () := by
  have heq : toeDescAlloc cfg t = (-1, t) := by
    rcases toeDescAlloc_cases cfg t with ⟨c, hc, -⟩ | ⟨heq, -⟩
    · exact absurd hc (hfull c)
    · exact heq
  have hest : Returns .oracle (toeAcceptEstablished cfg fd) t () wiztoeErrWouldblock t () := by
    unfold toeAcceptEstablished
    refine .get_bind (.modifyGet_bind ?_)
    rw [heq]
    exact .pure _ _ _
  have hstatus : Returns .oracle (toeAcceptStatus cfg fd .established) t ()
      (some wiztoeErrWouldblock) t () := Returns.seq hest (.pure _ _ _)
  have hpoll : Returns .oracle (toeAcceptPoll cfg fd) t () (some wiztoeErrWouldblock) t () := by
    unfold toeAcceptPoll
    refine .get_bind ?_
    rw [if_neg (by omega)]
    exact .oracle_bind SnSR.established hstatus
  exact .seq hpoll (.pure _ _ _)

/-- The chip has an address and opens the hardware socket. -/
theorem toeListenerReopen_grants (t : Tables) (fd : ℤ) :
    Returns .oracle (toeListenerReopen fd) t () 0 (t.setOpened fd true) () := by
  have hip : Returns .oracle toeChipHasIp t () true t () := .oracle_bind (1 : UInt32) (.pure _ _ _)
  unfold toeListenerReopen
  refine .get_bind (.seq hip ?_)
  rw [if_neg (by simp)]
  refine .get_bind (.oracle_bind (toeSn t fd) ?_)
  rw [if_neg (by simp)]
  refine .modify_bind (.oracle_bind sockOk ?_)
  rw [if_neg (by simp)]
  exact .pure _ _ _

/-- The listener takes the free hardware socket `sn`. -/
theorem toeListenerRearm_grants (hfit : cfg.Fits) (hv : toeFdValid cfg t fd)
    (hn : (t.desc fd).sn < 0) (hfree : ∃ sn, IsFree cfg t sn) :
    ∃ sn, 0 ≤ sn ∧ Returns .oracle (toeListenerRearm cfg fd) t () 0
      ((t.arm fd sn).setOpened fd true) () := by
  rcases toeSnAlloc_cases cfg fd t with ⟨sn, hs, heq⟩ | ⟨-, hnone⟩
  · have hsock := hfit.maxSock_le
    have hdesc := hfit.maxDesc_le
    obtain ⟨hs₀, hs₁, -⟩ := id hs
    obtain ⟨hfd₀, hfd₁, -⟩ := id hv
    have hreopen := toeListenerReopen_grants (t.arm fd sn) fd
    refine ⟨sn, hs₀, ?_⟩
    unfold toeListenerRearm
    refine .get_bind ?_
    rw [if_neg (by omega)]
    refine .modifyGet_bind ?_
    rw [heq]
    dsimp only
    rw [if_neg (by omega), int8_of_lt hfd₀ (by omega)]
    refine .modify_bind ?_
    rw [int8_of_lt hs₀ (by omega)]
    refine .seq hreopen ?_
    rw [if_neg (by omega)]
    exact .pure _ _ _
  · obtain ⟨sn, hs⟩ := hfree
    exact absurd hs (hnone sn)

/-- No time has passed, and the caller waits. -/
theorem toeWaitTurn_goes_on (hn : (t.desc fd).nonblocking = false) (hw : (t.desc fd).CanWait)
    (started : UInt32) :
    Returns .oracle (toeWaitTurn fd started Desc.rcvTimeoutMs wiztoeErrTimeout) t () none t () := by
  have hpassed : Returns .oracle (toeDeadlinePassed started (t.desc fd).rcvTimeoutMs) t () false t
      () := by
    unfold toeDeadlinePassed
    split
    · exact .pure _ _ _
    · rename_i h₀
      have hlt : decide ((t.desc fd).rcvTimeoutMs * 1000 ≤ started - started) = false := by
        rw [UInt32.sub_self, decide_eq_false_iff_not]
        exact fun hle ↦ hw.resolve_left h₀ (UInt32.le_antisymm hle UInt32.zero_le)
      refine .oracle_bind started ?_
      rw [hlt]
      exact .pure _ _ _
  unfold toeWaitTurn
  refine .get_bind ?_
  rw [if_neg (by simp [hn])]
  refine .seq hpassed ?_
  rw [if_neg (by simp)]
  exact .oracle_bind () (.pure _ _ _)

theorem FullExit.returns (hfit : cfg.Fits) (h : FullExit cfg t fd) (hv : toeFdValid cfg t fd) :
    ∃ t', Returns .oracle (wiztoeAccept cfg fd) t () wiztoeErrWouldblock t' () := by
  have hstart : ∀ {t'}, Returns .oracle (Program.forever (toeAcceptTurn cfg fd 0)) t ()
      wiztoeErrWouldblock t' () → Returns .oracle (wiztoeAccept cfg fd) t () wiztoeErrWouldblock t'
        () := by
    intro t' hrun
    unfold wiztoeAccept
    refine .get_bind ?_
    rw [if_neg (by simp [hv, h.listening])]
    exact .oracle_bind (0 : UInt32) hrun
  rcases lt_or_ge (t.desc fd).sn 0 with hsn | hsn
  · obtain ⟨hfree, hw⟩ := h.socket.resolve_left (by omega)
    obtain ⟨sn, hs, hrearm⟩ := toeListenerRearm_grants hfit hv hsn hfree
    have harmed : SameTerms fd t ((t.arm fd sn).setOpened fd true) :=
      (((SameTerms.refl fd t).setOwner sn fd).of_upd rfl rfl rfl).of_upd rfl rfl rfl
    have hw' : (((t.arm fd sn).setOpened fd true).desc fd).CanWait := by
      rwa [Desc.CanWait, harmed.rcvTimeoutMs]
    have hwait := toeWaitTurn_goes_on (harmed.nonblocking.trans h.nonblocking) hw' 0
    have hpoll : Returns .oracle (toeAcceptPoll cfg fd) t () none ((t.arm fd sn).setOpened fd true)
        () := by
      unfold toeAcceptPoll
      refine .get_bind ?_
      rw [if_pos hsn]
      exact .seq (.seq hrearm (.pure _ _ _)) (.pure _ _ _)
    have hfull : ∀ c, ¬IsUnused cfg ((t.arm fd sn).setOpened fd true) c :=
      fun c hc ↦ h.full c ⟨hc.1, hc.2.1, (harmed.used c).symm.trans hc.2.2⟩
    have hs' : 0 ≤ (((t.arm fd sn).setOpened fd true).desc fd).sn := by
      simpa [Tables.arm, Tables.setOpened] using hs
    have hexit := toeAcceptTurn_full hfull hs' 0
    exact ⟨_, hstart (.forever_none (.seq hpoll hwait) (.forever_some hexit))⟩
  · exact ⟨t, hstart (.forever_some (toeAcceptTurn_full h.full hsn 0))⟩

theorem FullExit.not_contract (hfit : cfg.Fits) (h : FullExit cfg t fd) (hv : toeFdValid cfg t fd) :
    ¬BlockingContract cfg t fd := by
  intro hc
  obtain ⟨t', hrun⟩ := h.returns hfit hv
  obtain ⟨l, hrun⟩ := hrun.traced
  rcases hc.accept.blocking h.nonblocking _ _ _ hrun with h₀ | h₁ | h₂
  · exact absurd h₀ (by decide)
  · exact absurd h₁ (by decide)
  · exact absurd h₂.1 (by decide)

/-- Where the table has room, or the listener cannot come by a connection, `accept` waits as
asked. -/
theorem wiztoeAccept_waits (hfit : cfg.Fits) (hs : Shaped cfg t) (hv : toeFdValid cfg t fd)
    (h : ¬FullExit cfg t fd) (hn : (t.desc fd).nonblocking = false) :
    Logged .oracle (wiztoeAccept cfg fd) (fun r _ e ↦ Answered (t.desc fd) r e.2) t [] := by
  by_cases hl : (t.desc fd).listening = true
  · by_cases hfull : ∀ c, ¬IsUnused cfg t c
    · have hsocket : ¬(0 ≤ (t.desc fd).sn ∨ (∃ sn, IsFree cfg t sn) ∧ (t.desc fd).CanWait) :=
        fun hsock ↦ h ⟨hn, hl, hfull, hsock⟩
      obtain ⟨hsn, hnone⟩ := not_or.mp hsocket
      by_cases hfree : ∃ sn, IsFree cfg t sn
      · exact wiztoeAccept_expires hfit hs ⟨hv, hl⟩ hn (by omega) fun hw ↦ hnone ⟨hfree, hw⟩
      · refine wiztoeAccept_blocking hfit (.of_stuck hs (by omega) (not_exists.mp hfree)) ?_ ?_
          hn rfl
        · rintro t' - rfl
          exact .refl fd t'
        · rintro t' - rfl hr
          exact absurd hr.2 hsn
    · obtain ⟨c, hc⟩ := not_forall.mp hfull
      have hc := not_not.mp hc
      refine wiztoeAccept_blocking hfit (OnTerms.accepts t) (fun _ _ hJ ↦ hJ.2) ?_ hn
        ⟨hs, .refl fd t⟩
      -- Polling leaves the free descriptor alone.
      exact fun t' _ hJ _ ↦ ⟨c, hc.1, hc.2.1, (hJ.2.used c).trans hc.2.2⟩
  · unfold wiztoeAccept
    refine pre_get_bind.mpr ?_
    rw [if_pos (.inr (by simpa using hl))]
    exact logged_pure (.inr (.inl rfl))

/-- The two analyses of a waiting call. -/
theorem WaitsAsAsked.of_pre {α : Type} {p : Toe α} {res : α → ℤ}
    {Q : α → Tables → Unit → Prop} (hno : d.nonblocking = true → wp .oracle NoYield p Q t ())
    (hwait : d.nonblocking = false → Logged .oracle p (fun a _ e ↦ Answered d (res a) e.2) t []) :
    WaitsAsAsked p res d t where
  nonblocking hn :=
    ⟨wp_halts (.of_none fun _ _ hd ↦ hd) (hno hn), fun _ hp ↦ (hno hn).performs hp rfl⟩
  blocking hn _ _ _ hrun := (hwait hn).returns hrun

/-- **The blocking contract.** In every state reached, whatever the chip answers and whatever the
time is, the waiting calls on a live descriptor wait as it asks exactly if it is not a blocking
listener that can meet a full descriptor table. -/
theorem blocking_contract {E : Type} {V : Call → Env Tables E ChipOp.Ans} {e₀ e : E}
    (hfit : cfg.Fits) (h : AnyHistory cfg V e₀ t e) (hv : toeFdValid cfg t fd) :
    BlockingContract cfg t fd ↔ ¬FullExit cfg t fd := by
  have hs := Shaped.history hfit h
  refine ⟨fun hc hfull ↦ hfull.not_contract hfit hv hc,
    fun hfull ↦ ⟨?_, fun len ↦ ?_, fun len ↦ ?_⟩⟩
  · exact .of_pre (wiztoeAccept_nonblocking hfit hs) (wiztoeAccept_waits hfit hs hv hfull)
  · exact .of_pre (fun hn ↦ wiztoeRecv_nonblocking hn len) fun hn ↦ wiztoeRecv_blocking hn len
  · exact .of_pre (fun hn ↦ wiztoeRecvfrom_nonblocking hn len) fun hn ↦
      wiztoeRecvfrom_blocking hn len

/-! ## A full table -/

/-- `n` TCP sockets. -/
def withSockets : ℕ → Tables
  | 0 => .zero
  | n + 1 => afterCall w5500 .closed (.socket 2 1 0) (withSockets n)

/-- `n` TCP sockets, the first of which listens. -/
def withListener (n : ℕ) : Tables := afterCall w5500 .closed (.listen 0 1) (withSockets n)

theorem withSockets_history :
    ∀ n ≤ 8, AnyHistory w5500 (fun _ ↦ Env.any (E := Unit)) () (withSockets n) ()
  | 0, _ => .start
  | n + 1, hn => by
    have hall : ∀ n < 8, (runWith (placidChip .closed) 30
        ⟨(Call.socket 2 1 0).prog w5500, withSockets n, ()⟩).prog.result? = some () := by
          decide
    exact (withSockets_history n (by omega)).call _ trivial
      (afterCall_returns (fun _ _ _ ↦ trivial) (hall n (by omega)))

theorem withListener_history {n : ℕ} (hn : n ≤ 8) :
    AnyHistory w5500 (fun _ ↦ Env.any (E := Unit)) () (withListener n) () := by
  have hall : ∀ n < 9, (runWith (placidChip .closed) 30
      ⟨(Call.listen 0 1).prog w5500, withSockets n, ()⟩).prog.result? = some () := by
        decide
  exact (withSockets_history n hn).call _ trivial
    (afterCall_returns (fun _ _ _ ↦ trivial) (hall n (by omega)))

/-- One listener, and room for its connections. -/
theorem blocking_contract_listener : BlockingContract w5500 (withListener 1) 0 := by
  refine (blocking_contract w5500_fits (withListener_history (by omega)) (by decide)).mpr ?_
  exact fun hfull ↦ hfull.full 1 ⟨by decide, by decide, by decide⟩

/-- Eight sockets, one of which listens: its next completed handshake is a `WIZTOE_ERR_WOULDBLOCK`
on a blocking descriptor. -/
theorem not_blocking_contract_full :
    ¬∀ t e fd, AnyHistory w5500 (fun _ ↦ Env.any (E := Unit)) () t e → toeFdValid w5500 t fd →
      BlockingContract w5500 t fd := by
  intro h
  have hv : toeFdValid w5500 (withListener 8) 0 := by decide +kernel
  have hused : ∀ i : Fin 8, ((withListener 8).desc (i.val : ℤ)).used = true := by decide +kernel
  have hfull : FullExit w5500 (withListener 8) 0 := by
    refine ⟨by decide +kernel, by decide +kernel, ?_, .inl (by decide +kernel)⟩
    rintro c ⟨h₀, h₁, hu⟩
    have hlt : c < 8 := h₁
    have hi := hused ⟨c.toNat, by omega⟩
    simp only [Int.toNat_of_nonneg h₀] at hi
    exact absurd hi (by simp [hu])
  exact hfull.not_contract w5500_fits hv (h _ _ 0 (withListener_history le_rfl) hv)

end WsmDriver
