import WsmDriver.Effect.Execution
import WsmDriver.Toe.Calls

/-!
# Receiving on a connection

What arrives on a connection, and what ioLibrary's `recv` takes of it, is not decided by the
backend. `Receiver` says what is known of both. `wiztoe_recv` then returns what it has taken, waits
only while nothing is there, and never takes without returning.
-/

namespace WsmDriver

open Effect

variable {cfg : ToeConfig} {E : Type} {V : Env Tables E ChipOp.Ans} {t t' : Tables} {e e' : E}
    {fd sn : ℤ}

/-- The bytes received on a hardware socket: those that `recv` has taken, and those that wait in the
RX buffer. More may arrive at any time, `RX_RSR` tells whether any are there, and only `recv` takes
them, from the front, and says how many. -/
structure Receiver (V : Env Tables E ChipOp.Ans) (sn : ℤ) (taken waiting : E → List UInt8) :
    Prop where
  drift : ∀ {e e'}, V.drift e e' → taken e' = taken e ∧ waiting e <+: waiting e'
  answer : ∀ {o t e a e'}, (∀ sn len, o ≠ .recv sn len) → V.answer o t e a e' →
    taken e' = taken e ∧ waiting e <+: waiting e'
  rsr : ∀ {t e a e'}, V.answer (.getSnRxRsr sn) t e a e' → (0 < a ↔ waiting e ≠ [])
  recv : ∀ {len t e a e'}, V.answer (.recv sn len) t e a e' →
    (a.1 ≤ 0 ∧ a.2 = [] ∧ taken e' = taken e ∧ waiting e <+: waiting e') ∨
      (0 < a.1 ∧ a.1 ≤ len ∧ a.2.length = a.1.toNat ∧ taken e' = taken e ++ a.2 ∧
        waiting e <+: a.2 ++ waiting e')

/-- Taking the first `len` bytes is one way to answer. -/
theorem take_received (before now : List UInt8) (len : ℕ) :
    (((now.take len).length : ℤ) ≤ 0 ∧ now.take len = [] ∧ before ++ now.take len = before ∧
      now <+: now.drop len) ∨
      (0 < ((now.take len).length : ℤ) ∧ ((now.take len).length : ℤ) ≤ len ∧
        (now.take len).length = ((now.take len).length : ℤ).toNat ∧
        before ++ now.take len = before ++ now.take len ∧ now <+: now.take len ++
        now.drop len) := by
  have happend := List.take_append_drop len now
  by_cases hnone : now.take len = []
  · rw [hnone, List.nil_append] at happend
    refine .inl ⟨?_, hnone, ?_, ?_⟩
    · rw [hnone]
      exact le_rfl
    · rw [hnone, List.append_nil]
    · exact happend.symm ▸ List.prefix_rfl
  · refine .inr ⟨?_, Int.ofNat_le.mpr (List.length_take_le _ _), (Int.toNat_natCast _).symm,
      rfl, ?_⟩
    · exact Int.natCast_pos.mpr (List.length_pos_iff.mpr hnone)
    · exact happend.symm ▸ List.prefix_rfl

variable {taken waiting : E → List UInt8}

/-- Nothing has been taken since `e`; more may have arrived. -/
def Untaken (taken waiting : E → List UInt8) (e e' : E) : Prop :=
  taken e' = taken e ∧ waiting e <+: waiting e'

theorem Untaken.refl (e : E) : Untaken taken waiting e e := ⟨rfl, List.prefix_rfl⟩

theorem Untaken.trans {e₁ e₂ e₃ : E} (h : Untaken taken waiting e₁ e₂)
    (h' : Untaken taken waiting e₂ e₃) :
    Untaken taken waiting e₁ e₃ := ⟨h'.1.trans h.1, h.2.trans h'.2⟩

/-- What waits is not taken away. -/
theorem Untaken.waiting_ne (h : Untaken taken waiting e e') (hwaits : waiting e ≠ []) :
    waiting e' ≠ [] :=
  fun hnone ↦ hwaits (List.prefix_nil.mp (hnone ▸ h.2))

/-- What has been received, whether taken or not, has been received since; more may have arrived. -/
def Received (taken waiting : E → List UInt8) (e e' : E) : Prop :=
  taken e ++ waiting e <+: taken e' ++ waiting e'

theorem Received.trans {e₁ e₂ e₃ : E} (h : Received taken waiting e₁ e₂)
    (h' : Received taken waiting e₂ e₃) :
    Received taken waiting e₁ e₃ := List.IsPrefix.trans h h'

theorem Untaken.received (h : Untaken taken waiting e e') : Received taken waiting e e' := by
  rw [Received, h.1]
  exact (List.prefix_append_right_inj _).mpr h.2

theorem Receiver.drifts (hV : Receiver V sn taken waiting) (hd : V.Drifts e e') :
    Untaken taken waiting e e' :=
  hd.induct (P := Untaken taken waiting e) (fun _ _ hd he ↦ he.trans (hV.drift hd)) (.refl e)

/-! ## One buffer -/

/-- What is yielded for while a call that started in `e` receives: only bytes that were not
there. -/
def WaitsFor (taken waiting : E → List UInt8) (e : E) (o : ChipOp) (_ : Tables) (e' : E) : Prop :=
  o = .toeYield1ms → taken e' = taken e ∧ waiting e = []

section Recv

variable {α : Type} {Q : α → Tables → E → Prop} {e₀ : E}

theorem Receiver.ret (hV : Receiver V sn taken waiting) (he : Untaken taken waiting e₀ e) {r : α}
    (h : ∀ e', Untaken taken waiting e₀ e' → Q r t e') {G : ChipOp → Tables → E → Prop}
    {R : ℕ → ℕ → Prop} :
    pre V G R (pure r) Q t e := fun e' hd ↦ h e' (he.trans (hV.drifts hd))

theorem Receiver.call (hV : Receiver V sn taken waiting) {o : ChipOp} {k : o.Ans → Toe α}
    (he : Untaken taken waiting e₀ e) (ho : ∀ sn len, o ≠ .recv sn len)
    (hyield : o ≠ .toeYield1ms)
    (hk : ∀ a e', Untaken taken waiting e₀ e' →
      wlp V (WaitsFor taken waiting e₀) (k a) Q t e') :
    wlp V (WaitsFor taken waiting e₀) (chip o >>= k) Q t e := by
  refine pre_perform_bind.mpr fun e₁ hd ↦
    ⟨fun h ↦ absurd h hyield, fun a e₂ ha ↦ hk a e₂ ?_⟩
  exact (he.trans (hV.drifts hd)).trans (hV.answer ho ha)

/-- The tail of a turn, with nothing there. -/
theorem toeWaitTurn_untaken (hV : Receiver V sn taken waiting) (he : Untaken taken waiting e₀ e)
    (hnone : waiting e₀ = []) (started : UInt32) (timeoutMs : Desc → UInt32) :
    wlp V (WaitsFor taken waiting e₀) (toeWaitTurn fd started timeoutMs wiztoeErrTimeout)
      (fun r t' e' ↦ t = t' ∧ Untaken taken waiting e₀ e' ∧ ∀ x, r = some x → x ≤ 0)
        t e := by
  have hneg : ∀ r : ℤ, r = wiztoeErrWouldblock ∨ r = wiztoeErrTimeout → ∀ x, some r =
      some x → x ≤ 0 := by
    rintro _ (rfl | rfl) _ ⟨⟩ <;> decide
  unfold toeWaitTurn
  refine pre_get_bind.mpr
    (pre_ite (fun _ ↦ hV.ret he fun e' he' ↦ ⟨rfl, he', hneg _ (.inl rfl)⟩) fun _ ↦ ?_)
  refine .seq (M := fun _ t' e' ↦ t = t' ∧ Untaken taken waiting e₀ e') ?_ ?_
  · unfold toeDeadlinePassed
    refine pre_ite (fun _ ↦ hV.ret he fun e' he' ↦ ⟨rfl, he'⟩) fun _ ↦ ?_
    exact hV.call he (by simp) (by simp) fun _ _ he₁ ↦ hV.ret he₁ fun e' he' ↦ ⟨rfl, he'⟩
  rintro passed _ e₁ ⟨rfl, he₁⟩
  refine pre_ite (fun _ ↦ hV.ret he₁ fun e' he' ↦ ⟨rfl, he', hneg _ (.inr rfl)⟩) fun _ ↦ ?_
  refine pre_perform_bind.mpr fun e₂ hd ↦
    ⟨fun _ ↦ ⟨(he₁.trans (hV.drifts hd)).1, hnone⟩, fun _ e₃ ha ↦ ?_⟩
  exact hV.ret ((he₁.trans (hV.drifts hd)).trans (hV.answer (by simp) ha)) fun e' he' ↦
    ⟨rfl, he', by simp⟩

/-- A turn takes nothing, and waits only if nothing was there at the call. -/
theorem toeRecvTurn_untaken (hV : Receiver V sn taken waiting) (he : Untaken taken waiting e₀ e)
    (started : UInt32) (live : SnSR) :
    wlp V (WaitsFor taken waiting e₀) (toeRecvTurn fd sn started live 0)
      (fun r t' e' ↦ t = t' ∧ Untaken taken waiting e₀ e' ∧ ∀ x, r = some (some x) →
        x ≤ 0) t e := by
  unfold toeRecvTurn
  refine pre_perform_bind.mpr fun e₁ hd ↦ ⟨fun h ↦ (nomatch h), fun n e₂ ha ↦ ?_⟩
  have he₁ := he.trans (hV.drifts hd)
  have he₂ := he₁.trans (hV.answer (by simp) ha)
  refine pre_ite (fun _ ↦ hV.ret he₂ fun e' he' ↦ ⟨rfl, he', by simp⟩) fun hn ↦ ?_
  -- Nothing waited when the turn looked, so nothing did when the call began.
  have hnone : waiting e₀ = [] := by
    have hnow : waiting e₁ = [] := not_not.mp ((not_congr (hV.rsr ha)).mp hn)
    exact List.prefix_nil.mp (hnow ▸ he₁.2)
  have heof : ∀ x : ℤ, some (some 0) = some (some x) → x ≤ 0 := by
    rintro _ ⟨⟩
    exact le_rfl
  refine hV.call he₂ (by simp) (by simp) fun sr e₃ he₃ ↦ ?_
  refine pre_ite (fun _ ↦ hV.ret he₃ fun e' he' ↦ ⟨rfl, he', heof⟩) fun _ ↦ ?_
  refine (toeWaitTurn_untaken hV he₃ hnone started _).seq ?_
  rintro r _ e₄ ⟨rfl, he₄, hr⟩
  refine hV.ret he₄ fun e' he' ↦ ⟨rfl, he', ?_⟩
  intro x hx
  obtain ⟨y, rfl, hy⟩ := Option.map_eq_some_iff.mp hx
  exact Option.some.inj hy ▸ hr y rfl

/-- What `wiztoe_recv` into a buffer of `len` bytes may return when `before` had been taken: bytes
that have been taken now, or nothing has. -/
inductive Receiving (before : List UInt8) (len : ℕ) : ℤ × List UInt8 → List UInt8 → Prop
  | part {n : ℕ} {bytes : List UInt8} (hpos : 0 < n) (hle : n ≤ len) (hlen : bytes.length = n) :
      Receiving before len (n, bytes) (before ++ bytes)
  | nothing {n : ℤ} (hn : n ≤ 0) : Receiving before len (n, []) before

theorem wiztoeRecv_receives (hV : Receiver V (toeSn t fd) taken waiting) (len : ℕ) :
    wlp V (WaitsFor taken waiting e) (wiztoeRecv cfg fd len)
      (fun r t' e' ↦ t = t' ∧ Received taken waiting e e' ∧ Receiving (taken e) len r (taken e'))
        t e := by
  have hnothing : ∀ {n : ℤ} {e₁ : E}, n ≤ 0 → Untaken taken waiting e e₁ →
      wlp V (WaitsFor taken waiting e) (pure (n, []))
        (fun r t' e' ↦ t = t' ∧ Received taken waiting e e' ∧
          Receiving (taken e) len r (taken e')) t e₁ := by
    intro n e₁ hn he₁
    refine hV.ret he₁ fun e' he' ↦ ⟨rfl, he'.received, ?_⟩
    rw [he'.1]
    exact .nothing hn
  unfold wiztoeRecv
  refine pre_get_bind.mpr (pre_ite (fun _ ↦ hnothing (by decide) (.refl e)) fun _ ↦ ?_)
  refine pre_ite (fun _ ↦ hnothing le_rfl (.refl e)) fun _ ↦ ?_
  refine hV.call (.refl e) (by simp) (by simp) fun started e₁ he₁ ↦ ?_
  refine .seq (M := fun r t' e' ↦ t = t' ∧ Untaken taken waiting e e' ∧ ∀ x, r = some x →
    x ≤ 0) ?_ ?_
  · refine wlp_forever (fun t' e' ↦ t = t' ∧ Untaken taken waiting e e') ⟨rfl, he₁⟩ ?_
    rintro _ e₂ ⟨rfl, he₂⟩
    refine (toeRecvTurn_untaken hV he₂ started _).imp ?_
    rintro (_ | r) _ e₃ ⟨rfl, he₃, hr⟩
    · exact ⟨rfl, he₃⟩
    · exact fun e' hd ↦ ⟨rfl, he₃.trans (hV.drifts hd), fun x hx ↦ hr x (congrArg some hx)⟩
  rintro (_ | r) _ e₂ ⟨rfl, he₂, hr⟩
  swap
  · exact hnothing (hr r rfl) he₂
  refine pre_perform_bind.mpr fun e₃ hd ↦ ⟨fun h ↦ (nomatch h), fun a e₄ ha ↦ ?_⟩
  have he₃ := he₂.trans (hV.drifts hd)
  obtain ⟨n, bytes⟩ := a
  change wlp V (WaitsFor taken waiting e) (if n = sockerrSockstatus ∨ n = sockerrSockclosed then
      pure (0, [])
    else pure (if n < 0 then (-1, []) else (n, bytes))) _ t e₄
  rcases hV.recv ha with ⟨hle, hbytes, he₄⟩ | ⟨hpos, hle, hlen, he₄, hwaiting⟩
  · -- A refusal takes nothing, whatever it is reported as.
    obtain rfl : bytes = [] := hbytes
    refine pre_ite (fun _ ↦ hnothing le_rfl (he₃.trans he₄)) fun _ ↦ ?_
    split
    · exact hnothing (by decide) (he₃.trans he₄)
    · exact hnothing hle (he₃.trans he₄)
  · have hpos : 0 < n := hpos
    have hok : ¬(n = sockerrSockstatus ∨ n = sockerrSockclosed) := by
      rintro (rfl | rfl) <;> exact absurd hpos (by decide)
    rw [if_neg hok, if_neg (not_lt_of_gt hpos)]
    obtain ⟨m, rfl⟩ := Int.eq_ofNat_of_zero_le (Int.le_of_lt hpos)
    have hreceived : Received taken waiting e₃ e₄ := by
      rw [Received, he₄, List.append_assoc]
      exact (List.prefix_append_right_inj _).mpr hwaiting
    refine hV.ret (.refl e₄) fun e' he' ↦
      ⟨rfl, (he₃.received.trans hreceived).trans he'.received, ?_⟩
    rw [he'.1, he₄, he₃.1]
    have hle : (m : ℤ) ≤ (min len 0xFFFF : ℕ) := hle
    exact .part (Int.ofNat_lt.mp hpos) (by omega) hlen

theorem wiztoeAvailable_waiting (hV : Receiver V (toeSn t fd) taken waiting) :
    wlp V (fun o _ _ ↦ o ≠ .toeYield1ms) (wiztoeAvailable cfg fd)
      (fun n t' e' ↦ t = t' ∧ Untaken taken waiting e e' ∧ (0 < n → waiting e' ≠ []))
        t e := by
  unfold wiztoeAvailable
  have hnone : ∀ {n : ℤ}, n ≤ 0 → wlp V (fun o _ _ ↦ o ≠ .toeYield1ms) (pure n)
      (fun n t' e' ↦ t = t' ∧ Untaken taken waiting e e' ∧ (0 < n → waiting e' ≠ [])) t e :=
    fun hn ↦ hV.ret (.refl e) fun e' he' ↦ ⟨rfl, he', fun h ↦ absurd h (not_lt.mpr hn)⟩
  refine pre_get_bind.mpr (pre_ite (fun _ ↦ hnone (by decide)) fun _ ↦ pre_ite
    (fun _ ↦ hnone le_rfl) fun _ ↦ ?_)
  refine pre_perform_bind.mpr fun e₁ hd ↦ ⟨by simp, fun n e₂ ha ↦ ?_⟩
  have he₂ := hV.answer (by simp) ha
  refine hV.ret he₂ fun e' he' ↦ ⟨rfl, (hV.drifts hd).trans he', fun hn hnone ↦ ?_⟩
  exact (hV.rsr ha).mp (Int.ofNat_lt.mp hn) (List.prefix_nil.mp (hnone ▸ he'.2))

end Recv

/-! ## Reading from a connection -/

/-- The descriptor has the hardware socket it had, and its read side is as open as it was. -/
structure SameReader (fd : ℤ) (t t' : Tables) : Prop where
  used : (t'.desc fd).used = (t.desc fd).used
  sn : (t'.desc fd).sn = (t.desc fd).sn
  isUdp : (t'.desc fd).isUdp = (t.desc fd).isUdp
  rdShutdown : (t'.desc fd).rdShutdown = (t.desc fd).rdShutdown

/-- Calls of `wiztoe_recv` on one descriptor with what they returned, each into a buffer that is not
empty. In between, the surroundings move, and the application may do everything that leaves the
descriptor its hardware socket and does not shut down its read side. -/
inductive Reading (cfg : ToeConfig) (V : Env Tables E ChipOp.Ans) (fd : ℤ) (t₀ : Tables)
    (e₀ : E) : List (Event ℕ E (ℤ × List UInt8)) → Tables → E → Prop
  | start : Reading cfg V fd t₀ e₀ [] t₀ e₀
  | drift {log : List (Event ℕ E (ℤ × List UInt8))} {t : Tables} {e e' : E}
      (h : Reading cfg V fd t₀ e₀ log t e)
      (hd : V.drift e e') : Reading cfg V fd t₀ e₀ log t e'
  | aside {log : List (Event ℕ E (ℤ × List UInt8))} {t t' : Tables} {e : E}
      (h : Reading cfg V fd t₀ e₀ log t e)
      (hsame : SameReader fd t t') : Reading cfg V fd t₀ e₀ log t' e
  | recv {log : List (Event ℕ E (ℤ × List UInt8))} {t t' : Tables} {e e' : E} {len : ℕ}
      {r : ℤ × List UInt8}
      (h : Reading cfg V fd t₀ e₀ log t e) (hlen : 0 < len)
        (hr : Returns V (wiztoeRecv cfg fd len) t e r t' e') :
      Reading cfg V fd t₀ e₀ (log ++ [⟨len, e, r, e'⟩]) t' e'

/-- A call answered by a script that the environment allows. -/
theorem Reading.recvWith {t₀ : Tables} {e₀ : E} {log : List (Event ℕ E (ℤ × List UInt8))}
    {I : E → Prop} {chip : (o : ChipOp) → E → o.Ans × E} (len n : ℕ) (r : ℤ × List UInt8)
    (h : Reading cfg V fd t₀ e₀ log t e) (hlen : 0 < len) (hV : V.Follows I chip) (he : I e)
    (hn : (runWith chip n ⟨wiztoeRecv cfg fd len, t, e⟩).prog.result? = some r) :
    Reading cfg V fd t₀ e₀
    (log ++ [⟨len, e, r, (runWith chip n ⟨wiztoeRecv cfg fd len, t, e⟩).env⟩])
      (runWith chip n ⟨wiztoeRecv cfg fd len, t, e⟩).store
      (runWith chip n ⟨wiztoeRecv cfg fd len, t, e⟩).env :=
  h.recv hlen (returns_runWith hV he hn)

/-- The bytes that the calls have returned. -/
def returned (log : List (Event ℕ E (ℤ × List UInt8))) : List UInt8 :=
  log.flatMap fun x ↦ x.result.2

theorem returned_concat (log : List (Event ℕ E (ℤ × List UInt8)))
    (x : Event ℕ E (ℤ × List UInt8)) : returned (log ++ [x]) = returned log ++ x.result.2 := by
  rw [returned, List.flatMap_append, List.flatMap_singleton, returned]

end WsmDriver
