import WsmDriver.Effect.Trace
import WsmDriver.Toe.Calls

/-!
# Sending without ioLibrary's wait

ioLibrary's `send` waits, without a bound and without a yield, for room for what it is given.
`wiztoe_send` waits itself, and then gives `send` no more than there is room for. What ioLibrary and
the chip have to do with it is a parameter, `Sender`: how much room there is, and how much has been
accepted.
-/

namespace WsmDriver

open Effect

variable {cfg : ToeConfig} {E : Type} {V : Env Tables E ChipOp.Ans} {t t' : Tables} {e e' : E}
    {fd sn : ℤ}

/-- ioLibrary's `send` operation. -/
def ChipOp.isSend : ChipOp → Bool
  | .send .. => true
  | _ => false

/-- What is assumed of the chip and of ioLibrary's `send`, for the room in the TX buffer of a
hardware socket and the number of bytes accepted so far: between a reading of the room and the next
operation the room does not shrink, and `send` accepts as many bytes as it answers, or none if it
answers `SOCK_BUSY` or an error. -/
structure Sender (V : Env Tables E ChipOp.Ans) (room : E → ℤ → ℕ) (accepted : E → ℕ) :
    Prop where
  room : ∀ {sn t e a e' e₁}, V.answer (.getSnTxFsr sn) t e a e' → V.Drifts e' e₁ →
    a ≤ room e₁ sn
  drift : ∀ {e e'}, V.drift e e' → accepted e' = accepted e
  answer : ∀ {o t e a e'}, o.isSend = false → V.answer o t e a e' → accepted e' = accepted e
  send : ∀ {sn buf t e a e'}, V.answer (.send sn buf) t e a e' →
    (a ≤ 0 ∧ accepted e' = accepted e) ∨
      (0 < a ∧ a ≤ buf.length ∧ accepted e' = accepted e + a.toNat)

variable {room : E → ℤ → ℕ} {accepted : E → ℕ} {l : ChipLog}

/-- Nothing was sent so far: no byte was accepted since `e₀`, and the log holds no `send`. -/
def Unsent (accepted : E → ℕ) (e₀ : E) (e : E × ChipLog) : Prop :=
  accepted e.1 = accepted e₀ ∧ ∀ x ∈ e.2, x.1.isSend = false

/-- The last operations were a look at the status and at the room, in this order; `k` is the
room. -/
def SawRoom (sn : ℤ) (k : ℕ) (l : ChipLog) : Prop :=
  0 < k ∧ ∃ sr rest, (sr = .established ∨ sr = .closeWait) ∧
    l = (⟨.getSnTxFsr sn, k⟩ : Sigma ChipOp.Ans) :: ⟨.getSnSR sn, sr⟩ :: rest

namespace Sender

variable {e₀ : E} {ε ε' : E × ChipLog}

theorem unsent_drifts (hS : Sender V room accepted) (h : Unsent accepted e₀ ε)
    (hd : V.traced.Drifts ε ε') : Unsent accepted e₀ ε' := by
  obtain ⟨hd, hl⟩ := hd.untraced
  have hacc : accepted ε'.1 = accepted e₀ :=
    hd.induct (P := fun e ↦ accepted e = accepted e₀) (fun _ _ hd h ↦ (hS.drift hd).trans h) h.1
  exact ⟨hacc, by rw [hl]; exact h.2⟩

theorem unsent_answer (hS : Sender V room accepted) (h : Unsent accepted e₀ ε) {o : ChipOp}
    {a : o.Ans} (ho : o.isSend = false) (ha : V.traced.answer o t ε a ε') :
    Unsent accepted e₀ ε' := by
  refine ⟨(hS.answer ho ha.1).trans h.1, ?_⟩
  rw [ha.2]
  exact List.forall_mem_cons.mpr ⟨ho, h.2⟩

end Sender

/-- What a `send` looks like when `wiztoe_send` of `buf` performs it. -/
structure Bounded (room : E → ℤ → ℕ) (sn : ℤ) (buf b : List UInt8) (e : E × ChipLog) :
    Prop where
  part : b <+: buf
  pos : 1 ≤ b.length
  le : b.length ≤ min buf.length 0xFFFF
  room : b.length ≤ room e.1 sn
  seen : ∃ k, SawRoom sn k e.2
  first : ∀ x ∈ e.2, x.1.isSend = false

section Wait

variable {e₀ : E} {G : ChipOp → Tables → E × ChipLog → Prop} {ε : E × ChipLog}
    {R : ℕ → ℕ → Prop}

theorem toeDeadlinePassed_unsent (hS : Sender V room accepted)
    (hG : ∀ o t ε, o.isSend = false → G o t ε) (started timeoutMs : UInt32)
    (h : Unsent accepted e₀ ε) :
    pre V.traced G R (toeDeadlinePassed started timeoutMs)
    (fun _ t' ε' ↦ t = t' ∧ Unsent accepted e₀ ε') t ε := by
  unfold toeDeadlinePassed
  refine pre_ite (fun _ ε' hd ↦ ⟨rfl, hS.unsent_drifts h hd⟩) fun _ ↦
    pre_perform_bind.mpr fun ε₁ hd ↦ ?_
  refine ⟨hG _ _ _ rfl, fun now ε₂ ha ε' hd' ↦ ⟨rfl, ?_⟩⟩
  exact hS.unsent_drifts (hS.unsent_answer (hS.unsent_drifts h hd) rfl ha) hd'

/-- What ends the wait is an error, or room. -/
def RoomAwaited (room : E → ℤ → ℕ) (accepted : E → ℕ) (e₀ : E) (t : Tables) (sn : ℤ) :
    Option (ℤ ⊕ ℕ) → Tables → E × ChipLog → Prop
  | none => fun t' ε ↦ t = t' ∧ Unsent accepted e₀ ε
  | some (.inl r) => fun _ ε ↦ r < 0 ∧ Unsent accepted e₀ ε
  | some (.inr k) => fun _ ε ↦ k ≤ room ε.1 sn ∧ SawRoom sn k ε.2 ∧ Unsent accepted e₀ ε

theorem toeSendTurn_waits (hS : Sender V room accepted)
    (hG : ∀ o t ε, o.isSend = false → G o t ε) (fd sn : ℤ)
    (started : UInt32) (h : Unsent accepted e₀ ε) :
    pre V.traced G R (toeSendTurn fd sn started)
      (fun w t' ε' ↦ ∀ ε'', V.traced.Drifts ε' ε'' →
        RoomAwaited room accepted e₀ t sn w t' ε'') t ε := by
  unfold toeSendTurn
  refine pre_perform_bind.mpr fun ε₁ hd₁ ↦ ⟨hG _ _ _ rfl, fun sr ε₂ ha₁ ↦ ?_⟩
  have h₁ := hS.unsent_answer (hS.unsent_drifts h hd₁) rfl ha₁
  refine pre_ite
    (fun _ ε₃ hd₂ ε₄ hd₃ ↦ ⟨by decide, hS.unsent_drifts h₁ (hd₂.trans hd₃)⟩)
    fun hsr ↦ ?_
  refine pre_perform_bind.mpr fun ε₃ hd₂ ↦ ⟨hG _ _ _ rfl, fun k ε₄ ha₂ ↦ ?_⟩
  have h₂ := hS.unsent_answer (hS.unsent_drifts h₁ hd₂) rfl ha₂
  refine pre_ite (fun hk ε₅ hd₃ ε₆ hd₄ ↦ ?_) fun _ ↦ ?_
  · obtain ⟨hd, hl⟩ := (hd₃.trans hd₄).untraced
    refine ⟨hS.room ha₂.1 hd, ⟨hk, sr, ε₁.2, by tauto, ?_⟩,
      hS.unsent_drifts h₂ (hd₃.trans hd₄)⟩
    rw [hl, ha₂.2, hd₂.untraced.2, ha₁.2]
  · -- No room: the turn waits, or gives up with an error.
    refine pre.seq (M := fun r t' ε' ↦ t = t' ∧ (∀ x, r = some x → x < 0) ∧
      Unsent accepted e₀ ε') ?_ ?_
    · unfold toeWaitTurn
      refine pre_get_bind.mpr (pre_ite (fun _ ε' hd ↦ ⟨rfl, ?_, hS.unsent_drifts h₂ hd⟩)
        fun _ ↦ ?_)
      · rintro _ ⟨⟩
        decide
      refine pre.seq (toeDeadlinePassed_unsent hS hG started _ h₂) ?_
      rintro passed _ ε₅ ⟨rfl, h₃⟩
      refine pre_ite (fun _ ε' hd ↦ ⟨rfl, ?_, hS.unsent_drifts h₃ hd⟩) fun _ ↦ ?_
      · rintro _ ⟨⟩
        decide
      refine pre_perform_bind.mpr fun ε₆ hd ↦
        ⟨hG _ _ _ rfl, fun _ ε₇ ha ε' hd' ↦ ⟨rfl, by simp, ?_⟩⟩
      exact hS.unsent_drifts (hS.unsent_answer (hS.unsent_drifts h₃ hd) rfl ha) hd'
    · rintro (_ | r) _ ε₅ ⟨rfl, hr, h₃⟩
      · exact fun ε' hd ε'' hd' ↦ ⟨rfl, hS.unsent_drifts h₃ (hd.trans hd')⟩
      · exact fun ε' hd ε'' hd' ↦ ⟨hr r rfl, hS.unsent_drifts h₃ (hd.trans hd')⟩

end Wait

/-- What `wiztoe_send` returns when `l` is the log of the call: what ioLibrary accepted, in at most
one `send`, or an error with nothing accepted. -/
structure Reported (accepted : E → ℕ) (e₀ : E) (r : ℤ) (e : E × ChipLog) : Prop where
  ne_zero : r ≠ 0
  negative : r < 0 → accepted e.1 = accepted e₀
  positive : 0 < r → accepted e.1 = accepted e₀ + r.toNat
  exact : ∀ a : ℤ, 0 < a →
    (r = a ↔ ∃ sn b, (⟨.send sn b, a⟩ : Sigma ChipOp.Ans) ∈ e.2 ∧ a ≤ b.length)
  once : (e.2.filter fun x ↦ x.1.isSend).length ≤ 1

theorem Unsent.reported {e₀ : E} {ε : E × ChipLog} {r : ℤ} (h : Unsent accepted e₀ ε)
    (hr : r < 0) : Reported accepted e₀ r ε where
  ne_zero := by omega
  negative _ := h.1
  positive h₀ := absurd h₀ (by omega)
  exact a ha := by
    refine ⟨fun heq ↦ absurd ha (by omega), ?_⟩
    rintro ⟨sn, b, hmem, -⟩
    exact absurd (h.2 _ hmem) (by simp [ChipOp.isSend])
  once := by
    rw [List.filter_eq_nil_iff.mpr fun x hx ↦ by simp [h.2 x hx]]
    exact Nat.zero_le 1

/-- The one `send` of a call decides what is returned. -/
theorem Unsent.sent {e₀ : E} {ε ε' : E × ChipLog} {b : List UInt8} {a : ℤ}
    (hS : Sender V room accepted) (h : Unsent accepted e₀ ε)
    (ha : V.traced.answer (.send sn b) t ε a ε') :
    Reported accepted e₀ (if a = sockBusy then wiztoeErrWouldblock else if a < 0 then -1 else a)
      ε' := by
  obtain ⟨hans, hl⟩ := ha
  -- Nothing was sent before, so the log holds this one `send`.
  have honly : ∀ sn' b' a', (⟨.send sn' b', a'⟩ : Sigma ChipOp.Ans) ∈ ε'.2 →
      (⟨.send sn' b', a'⟩ : Sigma ChipOp.Ans) = ⟨.send sn b, a⟩ := by
    intro sn' b' a' hmem
    rw [hl] at hmem
    refine (List.mem_cons.mp hmem).resolve_right fun hmem ↦ ?_
    exact absurd (h.2 _ hmem) (by simp [ChipOp.isSend])
  have honce : (ε'.2.filter fun x ↦ x.1.isSend).length ≤ 1 := by
    rw [hl, List.filter_cons_of_pos rfl, List.filter_eq_nil_iff.mpr fun x hx ↦ by simp [h.2 x hx]]
    exact Nat.le_refl 1
  have hans : (a ≤ 0 ∧ accepted ε'.1 = accepted ε.1) ∨
      (0 < a ∧ a ≤ b.length ∧ accepted ε'.1 = accepted ε.1 + a.toNat) := hS.send hans
  rcases hans with ⟨hle, hacc⟩ | ⟨hpos, hlen, hacc⟩
  · have hneg : (if a = sockBusy then wiztoeErrWouldblock else if a < 0 then -1 else a) < 0 := by
      split
      · decide
      · rename_i hne
        rw [if_pos (lt_of_le_of_ne hle hne)]
        decide
    refine ⟨Int.ne_of_lt hneg, fun _ ↦ hacc.trans h.1,
      fun h₀ ↦ absurd h₀ (not_lt_of_gt hneg), fun a' ha' ↦ ⟨?_, ?_⟩, honce⟩
    · rintro rfl
      exact absurd ha' (not_lt_of_gt hneg)
    · rintro ⟨sn', b', hmem, -⟩
      obtain rfl : a' = a := eq_of_heq (Sigma.mk.inj (honly _ _ _ hmem)).2
      exact absurd ha' (not_lt_of_ge hle)
  · have hbusy : a ≠ sockBusy := Int.ne_of_gt hpos
    rw [if_neg hbusy, if_neg (not_lt_of_gt hpos)]
    refine ⟨(Int.ne_of_gt hpos), fun h₀ ↦ absurd h₀ (not_lt_of_gt hpos), fun _ ↦ by
      rw [hacc, h.1], fun a' ha' ↦ ⟨?_, ?_⟩, honce⟩
    · rintro rfl
      exact ⟨sn, b, hl ▸ List.mem_cons_self, hlen⟩
    · rintro ⟨sn', b', hmem, -⟩
      exact (eq_of_heq (Sigma.mk.inj (honly _ _ _ hmem)).2).symm

theorem Reported.drifts {e₀ : E} {ε ε' : E × ChipLog} {r : ℤ} (hS : Sender V room accepted)
    (h : Reported accepted e₀ r ε) (hd : V.traced.Drifts ε ε') :
    Reported accepted e₀ r ε' := by
  obtain ⟨hd, hl⟩ := hd.untraced
  have hacc : accepted ε'.1 = accepted ε.1 :=
    hd.induct (P := fun e ↦ accepted e = accepted ε.1) (fun _ _ hd h ↦ (hS.drift hd).trans h) rfl
  exact ⟨h.ne_zero, fun h₀ ↦ hacc.trans (h.negative h₀),
    fun h₀ ↦ hacc.trans (h.positive h₀), by rw [hl]; exact h.exact, by rw [hl]; exact h.once⟩

/-- The guard of `wiztoe_send`: its `send` is bounded. -/
def SendsBounded (room : E → ℤ → ℕ) (sn : ℤ) (buf : List UInt8) (o : ChipOp) (_ : Tables)
    (ε : E × ChipLog) : Prop :=
  ∀ sn' b, o = .send sn' b → sn' = sn ∧ Bounded room sn buf b ε

theorem wiztoeSend_bounded (hS : Sender V room accepted) {buf : List UInt8} (hbuf : buf ≠ [])
    (e : E) :
    wlp V.traced (SendsBounded room (toeSn t fd) buf) (wiztoeSend cfg fd buf)
    (fun r _ ↦ Reported accepted e r) t
      (e, []) := by
  have hG : ∀ (o : ChipOp) (t' : Tables) (ε : E × ChipLog), o.isSend = false →
      SendsBounded room (toeSn t fd) buf o t' ε := by
    rintro _ t' ε ho sn' b rfl
    exact absurd ho (by simp [ChipOp.isSend])
  have h₀ : Unsent accepted e (e, []) := ⟨rfl, by simp⟩
  unfold wiztoeSend
  refine pre_get_bind.mpr (pre_ite (fun _ ε hd ↦ (hS.unsent_drifts h₀ hd).reported (by decide))
    fun _ ↦ ?_)
  refine pre_perform_bind.mpr fun ε₁ hd₁ ↦ ⟨hG _ _ _ rfl, fun started ε₂ ha ↦ ?_⟩
  have h₁ := hS.unsent_answer (hS.unsent_drifts h₀ hd₁) rfl ha
  refine pre.seq (M := fun w t' ε ↦ ∀ ε', V.traced.Drifts ε ε' →
    RoomAwaited room accepted e t (toeSn t fd) (some w) t' ε')
    (wlp_forever (fun t' ε ↦ t = t' ∧ Unsent accepted e ε) ⟨rfl, h₁⟩ ?_) ?_
  · rintro _ ε ⟨rfl, h⟩
    refine (toeSendTurn_waits hS hG fd (toeSn t fd) started h).imp ?_
    rintro (_ | w) t' ε' hw
    · exact hw ε' (.refl _ _)
    · exact fun ε₁ hd₁ ε₂ hd₂ ↦ hw ε₂ (hd₁.trans hd₂)
  rintro (r | k) t' ε hw
  · exact fun ε' hd ↦ (hw ε' hd).2.reported (hw ε' hd).1
  · refine pre_perform_bind.mpr fun ε₃ hd ↦ ?_
    obtain ⟨hroom, hsaw, hun⟩ := hw ε₃ hd
    have hlen : (buf.take (min (min buf.length 0xFFFF) k)).length =
        min (min buf.length 0xFFFF) k := by
      rw [List.length_take]
      omega
    have hpos := List.length_pos_iff.mpr hbuf
    have hk := hsaw.1
    refine ⟨?_, fun a ε₄ ha ↦ ?_⟩
    · rintro _ _ ⟨⟩
      exact ⟨rfl, List.take_prefix _ _, by omega, by omega, by omega, ⟨k, hsaw⟩, hun.2⟩
    · have hrep := hun.sent hS ha
      refine pre_ite (fun hb ε' hd ↦ ?_) fun hb ε' hd ↦ ?_
      · rw [if_pos hb] at hrep
        exact hrep.drifts hS hd
      · rw [if_neg hb] at hrep
        exact hrep.drifts hS hd

/-- **`wiztoe_send` never enters ioLibrary's wait.** Every `send` it performs is at most what there
is room for, as seen in the same turn together with the status, and is the only one; and what it
returns is what was accepted, which is never nothing, or an error with nothing accepted. -/
theorem send_bounded (hS : Sender V room accepted) {buf : List UInt8} (hbuf : buf ≠ []) (e : E) :
    (∀ sn b t' e' l, Performs V.traced (wiztoeSend cfg fd buf) t (e, []) (.send sn b) t' (e', l) →
      sn = toeSn t fd ∧ Bounded room sn buf b (e', l)) ∧
    ∀ r t' e' l, Returns V.traced (wiztoeSend cfg fd buf) t (e, []) r t' (e', l) →
      Reported accepted e r (e', l) := by
  have h : wlp V.traced _ (wiztoeSend cfg fd buf) _ t (e, []) := wiztoeSend_bounded hS hbuf e
  refine ⟨fun sn b t' e' l hp ↦ ?_, fun r t' e' l hr ↦ h.returns hr⟩
  obtain ⟨rfl, hb⟩ := h.performs hp sn b rfl
  exact ⟨rfl, hb⟩

/-- A chip with a connection whose TX buffer has room for the first number of bytes, and that has
accepted the second. -/
def txChip : (o : ChipOp) → ℕ × ℕ → o.Ans × (ℕ × ℕ)
  | .getSnTxFsr _, e => (e.1, e)
  | .send _ buf, e =>
    ((↑(min buf.length e.1) : ℤ), (e.1 - min buf.length e.1, e.2 + min buf.length e.1))
  | o, e => ((placidChip .established o ()).1, e)

theorem txChip_sender : Sender (Env.script txChip) (fun e _ ↦ e.1) Prod.snd where
  room h hd := by
    obtain ⟨rfl, rfl⟩ := h
    rw [Env.script_drifts hd]
    exact Nat.le_refl _
  drift h := h.elim
  answer {o t e a e'} ho h := by
    obtain ⟨-, rfl⟩ := h
    cases o with
    | send => exact absurd ho (by simp [ChipOp.isSend])
    | _ => rfl
  send {sn buf t e a e'} h := by
    obtain ⟨rfl, rfl⟩ := h
    change ((min buf.length e.1 : ℕ) : ℤ) ≤ 0 ∧ _ ∨ (0 : ℤ) <
      (min buf.length e.1 : ℕ) ∧ _
    rcases Nat.eq_zero_or_pos (min buf.length e.1) with h | h
    · exact .inl ⟨by omega, by simp [txChip, h]⟩
    · exact .inr ⟨by omega, Int.ofNat_le.mpr (Nat.min_le_left _ _), rfl⟩

/-- There is room for two of three bytes. -/
theorem send_bounded_short :
    ∃ l, Reported Prod.snd (2, 0) 2
    ((runWith txChip 30 ⟨wiztoeSend w5500 0 [1, 2, 3], oneTcpSocket, (2, 0)⟩).env, l) := by
  have hrun := returns_runWith (V := .script txChip) (h := txChip) (n := 30) (s := oneTcpSocket)
    (a := 2)
    (p := wiztoeSend w5500 0 [1, 2, 3]) (.always fun _ _ _ ↦ ⟨rfl, rfl⟩) (e := (2, 0)) trivial
      (by decide)
  obtain ⟨l, hrun⟩ := hrun.traced
  exact ⟨l, (send_bounded txChip_sender (by decide) (2, 0)).2 _ _ _ _ hrun⟩

end WsmDriver
