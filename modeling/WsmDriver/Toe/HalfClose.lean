import WsmDriver.Effect.Termination
import WsmDriver.Toe.Receiving
import WsmDriver.Toe.Tasks

/-!
# The end of reading

`wiztoe_shutdown` sends the FIN and leaves the descriptor where it is: a half-closed socket must
still be readable. But with its FIN the chip leaves `ESTABLISHED`, and of all other statuses
`wiztoe_recv` thinks that they mean the end of the stream. Nor does ioLibrary's `recv` hand out what
waits in them.

So nothing can be read any more, whether or not the peer goes on sending: every `wiztoe_recv`
returns at once and says that the stream has ended.
-/

namespace WsmDriver

open Effect Program

variable {cfg : ToeConfig} {E : Type} {V : Env Tables E ChipOp.Ans} {R : ℕ → ℕ → Prop}
  {sn fd : ℤ} {status : E → SnSR} {sent : E → Prop} {t t' : Tables} {e e' : E}

/-- A hardware socket that is half-closed by `DISCON`. From the FIN on, until it is opened anew, it
is in no status in which both sides can talk or only the peer has stopped; in the other ones
ioLibrary's `recv` refuses. -/
structure HalfCloses (V : Env Tables E ChipOp.Ans) (sn : ℤ) (status : E → SnSR)
    (sent : E → Prop) : Prop where
  drift : ∀ {e e'}, sent e → V.drift e e' → sent e'
  answer : ∀ {o t e a e'}, (∀ sn protocol port flag, o ≠ .socket sn protocol port flag) →
    sent e →
    V.answer o t e a e' → sent e'
  sr : ∀ {t e a e'}, V.answer (.getSnSR sn) t e a e' → a = status e
  discon : ∀ {t e a e'}, status e = .established → V.answer (.setSnCrDiscon sn) t e a e' →
    sent e'
  left : ∀ {e}, sent e → status e ≠ .established ∧ status e ≠ .closeWait
  recv : ∀ {len t e a e'}, status e ≠ .established ∧ status e ≠ .closeWait →
    V.answer (.recv sn len) t e a e' →
    a.1 = sockerrSockstatus

namespace HalfCloses

variable (hV : HalfCloses V sn status sent) {α : Type} {Q : α → Tables → E → Prop}

include hV

theorem drifts (h : sent e) (hd : V.Drifts e e') : sent e' :=
  hd.induct (fun _ _ hd he ↦ hV.drift he hd) h

theorem ret {G : ChipOp → Tables → E → Prop} (h : sent e) {a : α}
    (hQ : ∀ e', sent e' → Q a t e') :
    pre V G R (pure a) Q t e := fun e' hd ↦ hQ e' (hV.drifts h hd)

end HalfCloses

/-- The operation is not the wait of a millisecond. -/
abbrev Unhesitating (o : ChipOp) (_ : Tables) (_ : E) : Prop := o ≠ .toeYield1ms

/-- **One call.** There is only one turn, whatever waits. -/
theorem wiztoeRecv_ended (hV : HalfCloses V (toeSn t fd) status sent) (hr : toeFdReady cfg t fd)
    (htcp : (t.desc fd).isUdp = false) (len : ℕ) (h : sent e) :
    pre V Unhesitating R (wiztoeRecv cfg fd len) (fun r t' e' ↦ t = t' ∧ r = (0, []) ∧ sent e')
      t e := by
  unfold wiztoeRecv
  refine pre_get_bind.mpr ?_
  rw [if_neg (by simp [hr, htcp])]
  refine pre_ite (fun _ ↦ hV.ret h fun e' h' ↦ ⟨rfl, rfl, h'⟩) fun _ ↦ ?_
  refine pre_perform_bind.mpr fun e₁ hd ↦ ⟨by simp, fun started e₂ ha ↦ ?_⟩
  have h₂ : sent e₂ := hV.answer (by simp) (hV.drifts h hd) ha
  refine pre.seq (M := fun w t' e' ↦ t = t' ∧ sent e' ∧ (w = none ∨ w = some 0)) ?_ ?_
  · -- The first turn ends the loop: bytes wait, or the status is one in which none can come.
    refine pre_forever_once ?_
    unfold toeRecvTurn
    refine pre_perform_bind.mpr fun e₃ hd ↦ ⟨by simp, fun n e₄ ha ↦ ?_⟩
    have h₄ : sent e₄ := hV.answer (by simp) (hV.drifts h₂ hd) ha
    refine pre_ite (fun _ ↦ hV.ret h₄ fun e' h' ↦
      ⟨_, rfl, fun e'' hd ↦ ⟨rfl, hV.drifts h' hd, .inl rfl⟩⟩) fun _ ↦ ?_
    refine pre_perform_bind.mpr fun e₅ hd ↦ ⟨by simp, fun sr e₆ ha ↦ ?_⟩
    have h₅ := hV.drifts h₄ hd
    have hsr : sr ≠ .established := by
      rw [hV.sr ha]
      exact (hV.left h₅).1
    rw [if_pos hsr]
    refine hV.ret (hV.answer (by simp) h₅ ha) fun e' h' ↦
      ⟨_, rfl, fun e'' hd ↦ ⟨rfl, hV.drifts h' hd, .inr rfl⟩⟩
  rintro w _ e₃ ⟨rfl, h₃, rfl | rfl⟩
  · -- The chip refuses to give out what waits.
    refine pre_perform_bind.mpr fun e₄ hd ↦ ⟨by simp, fun a e₅ ha ↦ ?_⟩
    have h₄ := hV.drifts h₃ hd
    obtain ⟨n, bytes⟩ := a
    obtain rfl : n = sockerrSockstatus := hV.recv (hV.left h₄) ha
    exact hV.ret (hV.answer (by simp) h₄ ha) fun e' h' ↦ ⟨rfl, rfl, h'⟩
  · exact hV.ret h₃ fun e' h' ↦ ⟨rfl, rfl, h'⟩

/-- `SHUT_WR` alone changes nothing in the tables. -/
theorem wiztoeShutdown_tables :
    wlp V (fun _ _ _ ↦ True) (wiztoeShutdown cfg fd false true) (fun _ t' _ ↦ t' = t) t e := by
  unfold wiztoeShutdown
  refine pre_get_bind.mpr (pre_ite (fun _ _ _ ↦ rfl) fun _ ↦ ?_)
  refine pre_when_bind (fun h ↦ absurd h (by decide)) fun _ ↦
    pre_get_bind.mpr (pre_when_bind (fun _ ↦ ?_) fun _ _ _ ↦ rfl)
  refine ((toeTcpDisconnectBounded_silent (P := fun _ ↦ True) (fun _ _ ↦ trivial) fd).wlp.guard
    fun _ _ _ _ ↦ trivial).seq ?_
  exact fun _ _ _ h _ _ ↦ h

/-- From the FIN on, there is nothing to be read. -/
theorem Reading.ended {t₀ : Tables} {e₀ : E} {log : List (Event ℕ E (ℤ × List UInt8))}
    (hV : HalfCloses V (toeSn t₀ fd) status sent) (hr : toeFdReady cfg t₀ fd)
    (htcp : (t₀.desc fd).isUdp = false) (hsent : sent e₀)
    (h : Reading cfg V fd t₀ e₀ log t e) :
    toeSn t fd = toeSn t₀ fd ∧ toeFdReady cfg t fd ∧ (t.desc fd).isUdp = false ∧ sent e ∧
      ∀ x ∈ log, x.result = (0, []) := by
  induction h with
  | start => exact ⟨rfl, hr, htcp, hsent, by simp⟩
  | drift _ hd ih => exact ⟨ih.1, ih.2.1, ih.2.2.1, hV.drift ih.2.2.2.1 hd, ih.2.2.2.2⟩
  | aside _ hsame ih =>
    obtain ⟨hsn, hr, htcp, hsent, hlog⟩ := ih
    refine ⟨?_, ?_, hsame.isUdp.trans htcp, hsent, hlog⟩
    · rw [← hsn, toeSn, toeSn, hsame.sn]
    · obtain ⟨⟨h₀, h₁, hu⟩, hs⟩ := hr
      exact ⟨⟨h₀, h₁, hsame.used.trans hu⟩, hsame.sn ▸ hs⟩
  | @recv log t _ _ _ len r _ hlen hret ih =>
    obtain ⟨hsn, hr, htcp, hsent, hlog⟩ := ih
    rw [← hsn] at hV
    obtain ⟨rfl, rfl, hsent⟩ :=
      (wiztoeRecv_ended (R := fun _ _ ↦ True) hV hr htcp len hsent).returns hret
    refine ⟨hsn, hr, htcp, hsent, fun x hx ↦ ?_⟩
    obtain hx | rfl := (List.mem_append.mp hx).imp_right List.mem_singleton.mp
    · exact hlog x hx
    · rfl

/-! ## A peer that goes on -/

/-- A connection over which the peer goes on sending: its status, and the bytes that wait. -/
def talkingChip : (o : ChipOp) → SnSR × List UInt8 → o.Ans × (SnSR × List UInt8)
  | .getSnSR _, e => (e.1, e)
  | .getSnRxRsr _, e => (e.2.length, (e.1, e.2 ++ [42]))
  | .setSnCrDiscon _, e => ((), (.finWait, e.2))
  | .recv _ len, e =>
    if e.1 = .established then (((e.2.take len).length, e.2.take len), (e.1, e.2.drop len))
    else ((sockerrSockstatus, []), (.closed, []))
  | .getSnIrTimeout _, e => (true, e)
  | o, e => ((placidChip .established o ()).1, e)

/-- The FIN has been sent. -/
def TalkingSent (e : SnSR × List UInt8) : Prop := e.1 = .finWait ∨ e.1 = .closed

theorem talkingChip_halfCloses (sn : ℤ) :
    HalfCloses (Env.script talkingChip) sn Prod.fst TalkingSent where
  drift _ hd := hd.elim
  answer {o t e a e'} ho hsent ha := by
    obtain ⟨-, rfl⟩ := ha
    cases o with
    | socket sn protocol port flag => exact absurd rfl (ho sn protocol port flag)
    | setSnCrDiscon => exact .inl rfl
    | recv sn len =>
      change TalkingSent (if e.1 = .established then _ else _ : (_ × _) × _).2
      rw [if_neg (by rcases hsent with h | h <;> simp [h])]
      exact .inr rfl
    | _ => exact hsent
  sr ha := ha.1
  discon _ ha := .inl (congrArg Prod.fst ha.2)
  left hsent := by rcases hsent with h | h <;> simp [h]
  recv {len t e a e'} hleft ha := by
    obtain ⟨rfl, -⟩ := ha
    change (if e.1 = .established then _ else _ : (ℤ × List UInt8) × _).1.1 = sockerrSockstatus
    rw [if_neg hleft.1]

/-- A connection to a server that has much to say. -/
def talkingConnection : Tables :=
  afterCall w5500 .closed (.connect 0 #v[192, 168, 0, 4] 80) oneTcpSocket

/-! ## Half-closing -/

/-- The call does not report the end of the stream before the peer has stopped. -/
def KeepsReading (stopped : E → Prop) (x : Event ℕ E (ℤ × List UInt8)) : Prop :=
  x.result.1 = 0 → stopped x.after

/-- **A half-closed socket cannot be read.** After `wiztoe_shutdown` has sent the FIN, every
`wiztoe_recv` reports the end of the stream, at once and whatever the peer does: it is right only
where the peer has stopped by then. -/
theorem half_close_ends_reading {t₀ t₁ : Tables} {e₀ e₁ : E} {r : ℤ}
    {log : List (Event ℕ E (ℤ × List UInt8))} (hV : HalfCloses V (toeSn t₀ fd) status sent)
    (hr : toeFdReady cfg t₀ fd) (htcp : (t₀.desc fd).isUdp = false)
    (hshut : Returns V (wiztoeShutdown cfg fd false true) t₀ e₀ r t₁ e₁) (hsent : sent e₁)
    (h : Reading cfg V fd t₁ e₁ log t e) (stopped : E → Prop) :
    (∀ x ∈ log, x.result = (0, []) ∧ (KeepsReading stopped x ↔ stopped x.after)) ∧
      ∀ len, Halts V.bundled (wiztoeRecv cfg fd len) t e ∧
        ∀ t' e', ¬Performs V (wiztoeRecv cfg fd len) t e .toeYield1ms t' e' := by
  obtain rfl := wiztoeShutdown_tables.returns hshut
  obtain ⟨hsn, hr', htcp', hsent', hlog⟩ := h.ended hV hr htcp hsent
  rw [← hsn] at hV
  refine ⟨fun x hx ↦ ⟨hlog x hx, fun hkeeps ↦ hkeeps ?_, fun hstop _ ↦ hstop⟩,
    fun len ↦ ⟨?_, fun t' e' hp ↦ ?_⟩⟩
  · rw [hlog x hx]
  · exact wp_halts_bundled (wiztoeRecv_ended hV hr' htcp' len hsent')
  · exact (wiztoeRecv_ended (R := fun _ _ ↦ True) hV hr' htcp' len hsent').performs hp rfl

theorem talkingConnection_shutdown :
    Returns (.script talkingChip) (wiztoeShutdown w5500 0 false true) talkingConnection
    (.established, []) 0
      talkingConnection (.finWait, []) := by
  have hshut := returns_runWith (V := .script talkingChip) (h := talkingChip) (n := 40)
    (p := wiztoeShutdown w5500 0 false true) (s := talkingConnection) (a := 0)
      (.always fun _ _ _ ↦ ⟨rfl, rfl⟩)
    (e := (.established, [])) trivial (by decide +kernel)
  have henv : (runWith talkingChip 40 ⟨wiztoeShutdown w5500 0 false true, talkingConnection,
      (.established, [])⟩).env = (.finWait, []) := by decide +kernel
  rwa [wiztoeShutdown_tables.returns hshut, henv] at hshut

/-- Two calls, the first with nothing to be read and the second with a byte. -/
theorem talkingConnection_reading : ∃ log t e,
    Reading w5500 (.script talkingChip) 0 talkingConnection (.finWait, []) log t e ∧ log.length =
    2 := by
  have hfollows : (Env.script talkingChip : Env Tables _ ChipOp.Ans).Follows (fun _ ↦ True)
      talkingChip :=
    .always fun _ _ _ ↦ ⟨rfl, rfl⟩
  have hstart : Reading w5500 (.script talkingChip) 0 talkingConnection (.finWait, [])
    [] talkingConnection (.finWait, []) := .start
  have hfirst := hstart.recvWith 8 20 (0, []) (by decide) hfollows trivial (by decide)
  exact ⟨_, _, _, hfirst.recvWith 8 20 (0, []) (by decide) hfollows trivial
    (by decide), rfl⟩

/-- Once without and once with something to be read. -/
theorem half_close_ends_reading_twice : ∃ t₁ e₁ log t e,
    Returns (.script talkingChip) (wiztoeShutdown w5500 0 false true) talkingConnection
    (.established, []) 0 t₁ e₁ ∧
      Reading w5500 (.script talkingChip) 0 t₁ e₁ log t e ∧ log.length = 2 ∧
      (∀ x ∈ log, x.result = (0, []) ∧ (KeepsReading (fun _ ↦ False) x ↔ False)) ∧
      ∀ len, Halts (Env.bundled (.script talkingChip)) (wiztoeRecv w5500 0 len) t e ∧
        ∀ t' e', ¬Performs (.script talkingChip) (wiztoeRecv w5500 0 len) t e .toeYield1ms t'
          e' := by
  obtain ⟨log, t, e, hreading, hlength⟩ := talkingConnection_reading
  refine ⟨_, _, log, t, e, talkingConnection_shutdown, hreading, hlength, ?_⟩
  exact half_close_ends_reading (talkingChip_halfCloses _) (by decide) (by decide)
    talkingConnection_shutdown (.inl rfl) hreading fun _ ↦ False

/-- The peer has not stopped when the end of the stream is reported. -/
theorem not_half_close_keeps_reading :
    ¬∀ (E : Type) (V : Env Tables E ChipOp.Ans) (status : E → SnSR)
    (sent stopped : E → Prop) (fd : ℤ) (t₀ t₁ t : Tables) (e₀ e₁ e : E) (r : ℤ)
    (log : List (Event ℕ E (ℤ × List UInt8))), HalfCloses V (toeSn t₀ fd) status sent →
    toeFdReady w5500 t₀ fd →
      (t₀.desc fd).isUdp = false → (t₀.desc fd).rdShutdown = false → status e₀ =
      .established →
      Returns V (wiztoeShutdown w5500 fd false true) t₀ e₀ r t₁ e₁ → sent e₁ →
      Reading w5500 V fd t₁ e₁ log t e →
      ∀ x ∈ log, KeepsReading stopped x := by
  intro h
  obtain ⟨log, t, e, hreading, hlength⟩ := talkingConnection_reading
  have hkeeps := h _ _ _ _ (fun _ ↦ False) _ _ _ _ _ _ _ _ _ (talkingChip_halfCloses _)
    (by decide)
    (by decide) (by decide) rfl talkingConnection_shutdown (.inl rfl) hreading
  have hended :=
    (hreading.ended (talkingChip_halfCloses _) (by decide) (by decide) (.inl rfl)).2.2.2.2
  obtain ⟨x, hx⟩ := List.exists_mem_of_length_pos (by omega : 0 < log.length)
  exact hkeeps x hx (congrArg Prod.fst (hended x hx))

end WsmDriver
