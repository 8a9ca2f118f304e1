import WsmDriver.Effect.Execution
import WsmDriver.Toe.Calls
import WsmDriver.Wrap.Api

/-!
# Writing from several buffers

`__wrap_lwip_writev` sends the buffers one after the other and stops at the first that is not sent
completely. What ioLibrary makes of each `send` is a parameter: it accepts a part of what it is
given, and says how much.
-/

namespace WsmDriver

open Effect

variable {w : WrapConfig} {cfg : ToeConfig} {E : Type} {V : Env Tables E ChipOp.Ans} {t t' : Tables}
    {e e' : E} {fd s : ℤ}

/-- The bytes that ioLibrary has accepted so far: each `send` adds as many as it answers, from the
front of what it was given, and nothing else adds any. -/
structure Acceptor (V : Env Tables E ChipOp.Ans) (accepted : E → List UInt8) : Prop where
  drift : ∀ {e e'}, V.drift e e' → accepted e' = accepted e
  answer : ∀ {o t e a e'}, (∀ sn buf, o ≠ .send sn buf) → V.answer o t e a e' → accepted e' =
    accepted e
  send : ∀ {sn buf t e a e'}, V.answer (.send sn buf) t e a e' →
    (a ≤ 0 ∧ accepted e' = accepted e) ∨
      (0 < a ∧ a ≤ buf.length ∧ accepted e' = accepted e ++ buf.take a.toNat)

/-- What `wiztoe_send` of `buf` may return, `before` having been accepted when it was called: how
much of `buf` has been accepted now, or an error and nothing has. -/
inductive Accepting (before buf : List UInt8) : ℤ → List UInt8 → Prop
  | part {n : ℕ} (hpos : 0 < n) (hle : n ≤ buf.length) :
      Accepting before buf n (before ++ buf.take n)
  | error {r : ℤ} (hneg : r < 0) : Accepting before buf r before

section Send

variable {accepted : E → List UInt8} {α : Type} {Q : α → Tables → E → Prop}

theorem Acceptor.drifts (hA : Acceptor V accepted) (hd : V.Drifts e e') :
    accepted e' = accepted e :=
  hd.induct (P := fun e' ↦ accepted e' = accepted e) (fun _ _ hd he ↦ (hA.drift hd).trans he) rfl

theorem Acceptor.ret (hA : Acceptor V accepted) {r : α}
    (h : ∀ e', accepted e' = accepted e → Q r t e') :
    wlp V (fun _ _ _ ↦ True) (pure r) Q t e := fun e' hd ↦ h e' (hA.drifts hd)

theorem Acceptor.call (hA : Acceptor V accepted) {o : ChipOp} {k : o.Ans → Toe α}
    (ho : ∀ sn buf, o ≠ .send sn buf)
    (hk : ∀ a e', accepted e' = accepted e → wlp V (fun _ _ _ ↦ True) (k a) Q t e') :
    wlp V (fun _ _ _ ↦ True) (chip o >>= k) Q t e := by
  refine pre_perform_bind.mpr fun e₁ hd ↦ ⟨trivial, fun a e₂ ha ↦ hk a e₂ ?_⟩
  exact (hA.answer ho ha).trans (hA.drifts hd)

theorem toeWaitTurn_accepts (hA : Acceptor V accepted) (started : UInt32)
    (timeoutMs : Desc → UInt32) :
    wlp V (fun _ _ _ ↦ True) (toeWaitTurn fd started timeoutMs wiztoeErrWouldblock)
      (fun r _ e' ↦ accepted e' = accepted e ∧ ∀ x, r = some x → x < 0) t e := by
  unfold toeWaitTurn
  refine pre_get_bind.mpr (pre_ite (fun _ ↦ hA.ret fun e' he ↦ ⟨he, ?_⟩) fun _ ↦ ?_)
  · rintro _ ⟨⟩
    decide
  refine .seq (M := fun _ _ e' ↦ accepted e' = accepted e) ?_ ?_
  · unfold toeDeadlinePassed
    exact pre_ite (fun _ ↦ hA.ret fun _ he ↦ he) fun _ ↦ hA.call (by simp) fun _ _ he ↦
      hA.ret fun _ he' ↦ he'.trans he
  intro passed t' e₁ he₁
  refine pre_ite (fun _ ↦ hA.ret fun e' he ↦ ⟨he.trans he₁, ?_⟩) fun _ ↦ ?_
  · rintro _ ⟨⟩
    decide
  · exact hA.call (by simp) fun _ _ he ↦ hA.ret fun _ he' ↦
      ⟨he'.trans (he.trans he₁), by simp⟩

/-- Waiting for room adds nothing. -/
theorem toeSendTurn_accepts (hA : Acceptor V accepted) (fd sn : ℤ) (started : UInt32) :
    wlp V (fun _ _ _ ↦ True) (toeSendTurn fd sn started)
      (fun r _ e' ↦ accepted e' = accepted e ∧ ∀ x, r = some (.inl x) → x < 0) t e := by
  unfold toeSendTurn
  refine hA.call (by simp) fun sr e₁ he₁ ↦
    pre_ite (fun _ ↦ hA.ret fun e' he ↦ ⟨he.trans he₁, ?_⟩) fun _ ↦ ?_
  · rintro _ ⟨⟩
    decide
  refine hA.call (by simp) fun k e₂ he₂ ↦
    pre_ite (fun _ ↦ hA.ret fun e' he ↦ ⟨?_, by simp⟩) fun _ ↦ ?_
  · exact he.trans (he₂.trans he₁)
  refine (toeWaitTurn_accepts hA started _).seq ?_
  rintro r t' e₃ ⟨he₃, hr⟩
  refine hA.ret fun e' he ↦ ⟨he.trans (he₃.trans (he₂.trans he₁)), ?_⟩
  intro x hx
  obtain ⟨y, rfl, hy⟩ := Option.map_eq_some_iff.mp hx
  exact Sum.inl.inj hy ▸ hr y rfl

theorem wiztoeSend_accepts (hA : Acceptor V accepted) (buf : List UInt8) :
    wlp V (fun _ _ _ ↦ True) (wiztoeSend cfg fd buf)
    (fun r _ e' ↦ Accepting (accepted e) buf r (accepted e')) t e := by
  have hfail : ∀ {r : ℤ} {e₁ : E} {t'}, r < 0 → accepted e₁ = accepted e →
      wlp V (fun _ _ _ ↦ True) (pure r) (fun r _ e' ↦ Accepting (accepted e) buf r (accepted e'))
        t' e₁ := by
    intro r e₁ t' hr he₁
    refine hA.ret fun e' he ↦ ?_
    rw [he.trans he₁]
    exact .error hr
  unfold wiztoeSend
  refine pre_get_bind.mpr (pre_ite (fun _ ↦ hfail (by decide) rfl) fun _ ↦ hA.call
    (by simp) fun started e₁ he₁ ↦ ?_)
  -- The wait for room hands nothing over, and ends early with an error only.
  refine .seq (M := fun x _ e' ↦ accepted e' = accepted e ∧ ∀ r, x = .inl r → r < 0) ?_ ?_
  · refine wlp_forever (fun _ e' ↦ accepted e' = accepted e) he₁ fun t' e₂ he₂ ↦ ?_
    refine (toeSendTurn_accepts hA fd _ started).imp ?_
    rintro (_ | x) t'' e₃ ⟨he₃, hx⟩
    · exact he₃.trans he₂
    · exact fun e' hd ↦
        ⟨(hA.drifts hd).trans (he₃.trans he₂), fun r hr ↦ hx r (congrArg some hr)⟩
  rintro (r | k) t' e₂ ⟨he₂, hr⟩
  · exact hfail (hr r rfl) he₂
  refine pre_perform_bind.mpr fun e₃ hd ↦ ⟨trivial, fun n e₄ ha ↦ ?_⟩
  have hacc : accepted e₃ = accepted e := (hA.drifts hd).trans he₂
  rcases hA.send ha with ⟨hle, he₄⟩ | ⟨hpos, hle, he₄⟩
  · refine pre_ite (fun _ ↦ hfail (by decide) (he₄.trans hacc)) fun hbusy ↦ ?_
    rw [if_pos (lt_of_le_of_ne hle hbusy)]
    exact hfail (by decide) (he₄.trans hacc)
  · have hbusy : n ≠ sockBusy := Int.ne_of_gt hpos
    rw [if_neg hbusy, if_neg (not_lt_of_gt hpos)]
    refine hA.ret fun e' he ↦ ?_
    obtain ⟨m, rfl⟩ := Int.eq_ofNat_of_zero_le (Int.le_of_lt hpos)
    -- What ioLibrary took is a prefix of the clamped buffer, hence of the caller's.
    rw [List.length_take, Int.ofNat_le] at hle
    have htake : (buf.take (min (min buf.length 0xFFFF) k)).take m = buf.take m := by
      rw [List.take_take, Nat.min_eq_left (by omega)]
    rw [he, he₄, hacc, Int.toNat_natCast, htake]
    exact .part (Int.ofNat_lt.mp hpos) (by omega)

end Send

/-! ## The loop -/

/-- What `__wrap_lwip_writev` may return with `bufs` left to send and `total` bytes accepted
already, `before` being what was accepted before these buffers: how much has been accepted in all,
or an error and nothing has. -/
inductive Gathered (before bufs : List UInt8) (total : ℤ) : Except Errno ℤ → List UInt8 → Prop
  | part {n : ℕ} (hle : n ≤ bufs.length) (hrest : 0 < total ∨ 0 < n ∨ bufs = []) :
      Gathered before bufs total (.ok (total + n)) (before ++ bufs.take n)
  | error {err : Errno} (htotal : total ≤ 0) (herr : err = .ewouldblock ∨ err = .eio)
      (hne : bufs ≠ []) : Gathered before bufs total (.error err) before

/-- The backend fails with `total` bytes accepted before. -/
theorem Gathered.partially {before bufs : List UInt8} {total : ℤ} {err : Errno}
    (herr : err = .ewouldblock ∨ err = .eio) (hne : bufs ≠ []) :
    Gathered before bufs total (partially total total err) before := by
  unfold WsmDriver.partially
  split
  next h =>
    have hnone : Gathered before bufs total (.ok (total + (0 : ℕ))) (before ++ bufs.take 0) :=
      .part (Nat.zero_le _) (.inl h)
    simpa using hnone
  next h => exact .error (not_lt.mp h) herr hne

/-- The first buffer has been accepted completely. -/
theorem Gathered.cons {before buf bufs after : List UInt8} {total : ℤ} {r : Except Errno ℤ}
    (htotal : 0 ≤ total) (hbuf : buf ≠ [])
    (h : Gathered (before ++ buf) bufs (total + buf.length) r after) :
    Gathered before (buf ++ bufs) total r after := by
  have hpos := List.length_pos_iff.mpr hbuf
  cases h with
  | @part n hle hrest =>
    have htake : before ++ buf ++ bufs.take n = before ++ (buf ++ bufs).take (buf.length + n) := by
      rw [List.append_assoc, List.take_length_add_append]
    have htotal : total + buf.length + n = total + ((buf.length + n : ℕ) : ℤ) := by
      rw [Int.natCast_add, Int.add_assoc]
    rw [htake, htotal]
    exact .part (by rw [List.length_append]; omega) (.inr (.inl (by omega)))
  | error hle => omega

variable {accepted : E → List UInt8}

theorem writevLoop_gathers (hA : Acceptor V accepted) (fd : ℤ) :
    ∀ (iov : List (List UInt8)) {total : ℤ} {t : Tables} {e : E}, 0 ≤ total →
      total + iov.flatten.length ≤ ssizeMax → wlp V (fun _ _ _ ↦ True)
      (writevLoop w fd iov total)
        (fun r _ e' ↦ Gathered (accepted e) iov.flatten total r (accepted e')) t e := by
  intro iov
  induction iov with
  | nil =>
    intro total t e _ _
    refine hA.ret fun e' he ↦ ?_
    have hnil : Gathered (accepted e) [] total (.ok (total + (0 : ℕ))) (accepted e ++ [].take 0) :=
      .part (Nat.zero_le _) (.inr (.inr rfl))
    rw [he]
    simpa using hnil
  | cons buf iov ih =>
    intro total t e htotal hmax
    unfold writevLoop
    refine pre_ite (fun hempty ↦ ?_) fun hne ↦ ?_
    · rw [List.flatten_cons, List.length_eq_zero_iff.mp hempty, List.nil_append] at hmax ⊢
      exact ih htotal hmax
    rw [List.flatten_cons, List.length_append, Int.natCast_add] at hmax
    have hbuf : buf ≠ [] := fun h ↦ hne (List.length_eq_zero_iff.mpr h)
    refine (wiztoeSend_accepts hA buf).seq ?_
    rintro n t' e₁ hn
    generalize hacc : accepted e₁ = after at hn
    cases hn with
    | error hneg =>
      refine pre_ite (fun _ ↦ hA.ret fun e' he ↦ ?_) fun _ ↦
        pre_ite (fun _ ↦ hA.ret fun e' he ↦ ?_) fun hnot ↦ ?_
      · rw [he, hacc]
        exact .partially (.inl rfl) (by simp [hbuf])
      · rw [he, hacc]
        exact .partially (.inr rfl) (by simp [hbuf])
      · exact absurd hneg hnot
    | @part n hpos hle =>
      have hsum : ssizeT (total + n) = total + n := ssizeT_of_le (by omega) (by omega)
      rw [if_neg fun h ↦ absurd h.neg (by omega), if_neg (by omega), hsum]
      refine pre_ite (fun hshort ↦ hA.ret fun e' he ↦ ?_) fun hfull ↦ ?_
      · have htake : accepted e ++ buf.take n = accepted e ++ (buf ++ iov.flatten).take n := by
          rw [List.take_append_of_le_length hle]
        rw [he, hacc, htake]
        exact .part (by rw [List.flatten_cons, List.length_append]; omega) (.inr (.inl hpos))
      · -- Only a buffer that was taken whole is followed by the next one.
        obtain rfl : n = buf.length := by omega
        rw [List.take_length] at hacc
        refine (ih (by omega) (by omega)).imp fun r _ e' h ↦ ?_
        rw [hacc] at h
        exact h.cons htotal hbuf

/-- **A gathered write is a prefix.** Of the concatenation of the buffers the first bytes have been
accepted, in order and without gaps, and their number is what is returned; unless it is zero, and
then there was something to send and the call has failed. The buffers are no longer than a result
can say. -/
theorem writev_prefix (hA : Acceptor V accepted) {iov : List (List UInt8)} (hiov : iov ≠ [])
    (hmax : iov.flatten.length ≤ ssizeMax) {r : Except Errno ℤ}
    (hr : Returns V (wrapLwipWritev w s (some iov)) t e r t' e') :
    ∃ n, n ≤ iov.flatten.length ∧ accepted e' = accepted e ++ iov.flatten.take n ∧
      (r = .ok (n : ℤ) ∨ n = 0 ∧ iov.flatten ≠ [] ∧
        (r = .error .ewouldblock ∨ r = .error .eio)) := by
  obtain ⟨buf, iov, rfl⟩ := List.exists_cons_of_ne_nil hiov
  have hloop : Gathered (accepted e) (buf :: iov).flatten 0 r (accepted e') :=
    (writevLoop_gathers hA (w.toeFd s) (buf :: iov) le_rfl (by omega)).returns hr
  generalize accepted e' = after at hloop
  cases hloop with
  | @part n hle => exact ⟨n, hle, rfl, .inl (by rw [Int.zero_add])⟩
  | error _ herr hne =>
    exact ⟨0, Nat.zero_le _, by simp, .inr ⟨rfl, hne, herr.imp (congrArg _) (congrArg _)⟩⟩

/-- A connection with room for four bytes in all, which accepts what fits. -/
def gatherChip : (o : ChipOp) → List UInt8 → o.Ans × List UInt8
  | .getSnTxFsr _, e => (4 - e.length, e)
  | .send _ buf, e => ((buf.length : ℤ), e ++ buf)
  | o, e => ((placidChip .established o ()).1, e)

theorem gatherChip_acceptor : Acceptor (Env.script gatherChip) id where
  drift h := h.elim
  answer {o t e a e'} ho h := by
    obtain ⟨-, rfl⟩ := h
    cases o with
    | send sn buf => exact absurd rfl (ho sn buf)
    | _ => rfl
  send {sn buf t e a e'} h := by
    obtain ⟨rfl, rfl⟩ := h
    change (buf.length : ℤ) ≤ 0 ∧ e ++ buf = e ∨
      (0 : ℤ) < buf.length ∧ (buf.length : ℤ) ≤ buf.length ∧ e ++ buf = e ++
        buf.take (buf.length : ℤ).toNat
    rcases buf with _ | ⟨b, buf⟩
    · exact .inl ⟨le_rfl, List.append_nil e⟩
    · exact .inr ⟨Int.natCast_pos.mpr (Nat.succ_pos _), le_rfl,
        by rw [Int.toNat_natCast, List.take_length]⟩

/-- The last buffer is sent in part. -/
theorem writev_prefix_short : ∃ n, n ≤ 5 ∧ ([1, 2, 3, 4] : List UInt8) = [] ++
    [1, 2, 3, 4, 5].take n ∧
    ((.ok 4 : Except Errno ℤ) = .ok (n : ℤ) ∨ n = 0 ∧ ([1, 2, 3, 4, 5] : List UInt8) ≠ [] ∧
      ((.ok 4 : Except Errno ℤ) = .error .ewouldblock ∨ (.ok 4 : Except Errno ℤ) =
        .error .eio)) := by
  have hrun := returns_runWith (V := .script gatherChip) (h := gatherChip) (n := 60)
    (s := oneTcpSocket) (a := .ok 4)
    (p := wrapLwipWritev wrapW5500 54 (some [[1, 2], [], [3, 4, 5]]))
      (.always fun _ _ _ ↦ ⟨rfl, rfl⟩) (e := [])
    trivial (by decide)
  have henv : (runWith gatherChip 60 ⟨wrapLwipWritev wrapW5500 54 (some [[1, 2], [], [3, 4, 5]]),
      oneTcpSocket, []⟩).env = [1, 2, 3, 4] := by decide
  rw [henv] at hrun
  exact writev_prefix gatherChip_acceptor (by decide) (by decide) hrun

/-! ## Past the greatest result -/

/-- A connection with the buffers of the default build, which accepts whatever fits and is empty
again at once. -/
def ampleChip : (o : ChipOp) → List UInt8 → o.Ans × List UInt8
  | .getSnTxFsr _, e => (2048, e)
  | o, e => gatherChip o e

theorem ampleChip_acceptor : Acceptor (Env.script ampleChip) id where
  drift h := h.elim
  answer {o t e a e'} ho h := by
    obtain ⟨-, rfl⟩ := h
    cases o with
    | send sn buf => exact absurd rfl (ho sn buf)
    | _ => rfl
  send {sn buf t e a e'} h := gatherChip_acceptor.send (t := t) h

theorem wiztoeSend_ample {buf : List UInt8} (hbuf : buf.length = 2048) (e : List UInt8) :
    Returns (Env.script ampleChip) (wiztoeSend w5500 0 buf) oneTcpSocket e 2048 oneTcpSocket
    (e ++ buf) := by
  have hready : ¬(¬toeFdReady w5500 oneTcpSocket 0 ∨ (oneTcpSocket.desc 0).isUdp = true) := by
    decide
  have htake : buf.take (min (min buf.length 0xFFFF) 2048) = buf := by
    rw [hbuf]
    exact List.take_of_length_le (Nat.le_of_eq hbuf)
  have hroom : Returns (Env.script ampleChip) (.forever (toeSendTurn 0 (toeSn oneTcpSocket 0) 1))
      oneTcpSocket e (.inr 2048) oneTcpSocket e := by
    refine .forever_some (.perform_bind ⟨rfl, rfl⟩ (.perform_bind ⟨rfl, rfl⟩ ?_))
    exact .pure _ _ _
  unfold wiztoeSend
  refine .get_bind ?_
  rw [if_neg hready]
  refine .perform_bind ⟨rfl, rfl⟩ (.seq hroom ?_)
  dsimp only
  rw [htake]
  refine .perform_bind (a := 2048) ⟨?_, rfl⟩ (.pure _ _ _)
  exact congrArg Nat.cast hbuf.symm

/-- Every buffer is sent, and the total is what a `ssize_t` keeps of the sum. -/
theorem writevLoop_ample {buf : List UInt8} (hbuf : buf.length = 2048) (k : ℕ) (total : ℤ)
    (e : List UInt8) :
    Returns (Env.script ampleChip) (writevLoop wrapW5500 0 (List.replicate k buf) (ssizeT total))
      oneTcpSocket e
      (.ok (ssizeT (total + 2048 * k))) oneTcpSocket (e ++ (List.replicate k buf).flatten) := by
  induction k generalizing total e with
  | zero =>
    rw [List.replicate_zero, List.flatten_nil, List.append_nil, Int.natCast_zero, Int.mul_zero,
      Int.add_zero]
    exact .pure _ _ _
  | succ k ih =>
    have htotal : total + 2048 * ((k + 1 : ℕ) : ℤ) = total + 2048 + 2048 * k := by omega
    rw [List.replicate_succ, List.flatten_cons, ← List.append_assoc, htotal, writevLoop, hbuf]
    refine .seq (wiztoeSend_ample hbuf e) ?_
    rw [ssizeT_add]
    exact ih (total + 2048) (e ++ buf)

theorem writev_ample {buf : List UInt8} (hbuf : buf.length = 2048) (k : ℕ) :
    Returns (Env.script ampleChip) (wrapLwipWritev wrapW5500 54 (some (List.replicate (k + 1) buf)))
      oneTcpSocket []
      (.ok (ssizeT (2048 * (k + 1 : ℕ)))) oneTcpSocket (List.replicate (k + 1) buf).flatten := by
  have hrun := writevLoop_ample hbuf (k + 1) 0 []
  rw [Int.zero_add, List.nil_append] at hrun
  exact hrun

/-- **No buffers are an error, and too many end below zero.** Of 2³¹ bytes in buffers of 2048 every
one is sent, and the result is the least number there is. -/
theorem writev_exceptions : Acceptor (Env.script ampleChip) id ∧
    Returns (Env.script ampleChip) (wrapLwipWritev wrapW5500 54 (some [])) oneTcpSocket []
    (.error .einval)
      oneTcpSocket [] ∧
    Returns (Env.script ampleChip)
    (wrapLwipWritev wrapW5500 54 (some (.replicate 1048576 (.replicate 2048 0))))
      oneTcpSocket [] (.ok (-2147483648)) oneTcpSocket
      (List.replicate 1048576 (.replicate 2048 0)).flatten := by
  refine ⟨ampleChip_acceptor, .pure _ _ _, ?_⟩
  have hsum : ssizeT (2048 * (1048575 + 1 : ℕ)) = -2147483648 := by decide
  rw [← hsum]
  exact writev_ample List.length_replicate 1048575

end WsmDriver
