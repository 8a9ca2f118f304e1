import Mathlib.Algebra.GroupWithZero.Nat
import WsmDriver.Toe.Receiving
import WsmDriver.Wrap.Api

/-!
# Reading into several buffers

`__wrap_lwip_readv` fills the buffers one after the other. Only the first byte may be waited for:
once there is one in hand, a buffer is filled from what the chip has already.
-/

namespace WsmDriver

open Effect

variable {w : WrapConfig} {cfg : ToeConfig} {E : Type} {V : Env Tables E ChipOp.Ans} {t t' : Tables}
  {e e' : E} {fd s sn : ℤ} {taken waiting : E → List UInt8}

/-- The bytes laid out over buffers of the given lengths. -/
def scatter : List ℕ → List UInt8 → List (List UInt8)
  | [], _ => []
  | len :: iov, bytes => bytes.take len :: scatter iov (bytes.drop len)

theorem scatter_nil (iov : List ℕ) : scatter iov [] = untouched iov := by
  induction iov with
  | nil => rfl
  | cons len iov ih =>
    rw [scatter, List.take_nil, List.drop_nil, ih, untouched, untouched, List.map_cons]

theorem scatter_short {len : ℕ} {iov : List ℕ} {bytes : List UInt8} (h : bytes.length ≤ len) :
    scatter (len :: iov) bytes = bytes :: untouched iov := by
  rw [scatter, List.take_of_length_le h, List.drop_eq_nil_of_le h, scatter_nil]

theorem scatter_full {len : ℕ} {iov : List ℕ} {bytes rest : List UInt8} (h : bytes.length = len) :
    scatter (len :: iov) (bytes ++ rest) = bytes :: scatter iov rest := by
  rw [scatter, List.take_left' h, List.drop_left' h]

/-- What `__wrap_lwip_readv` may return with buffers of the lengths `iov` left to fill, `total`
bytes stored already in the others, and `before` taken before these: the bytes that have been taken
now, laid out over the buffers, or an error and nothing has been taken at all. -/
inductive Scattered (before : List UInt8) (iov : List ℕ) (total : ℤ) (stored : List (List UInt8)) :
    Except Errno (ℤ × List (List UInt8)) → List UInt8 → Prop
  | part {bytes : List UInt8} (hle : bytes.length ≤ iov.sum) :
      Scattered before iov total stored (.ok (total + bytes.length, stored ++ scatter iov bytes))
        (before ++ bytes)
  | error {err : Errno} (htotal : total ≤ 0) : Scattered before iov total stored (.error err) before

/-- Nothing has been taken. -/
theorem Scattered.none (total : ℤ) (iov : List ℕ) (stored : List (List UInt8))
    (before : List UInt8) :
    Scattered before iov total stored (.ok (total, stored ++ untouched iov)) before := by
  have hnone : Scattered before iov total stored
    (.ok (total + ([] : List UInt8).length, stored ++ scatter iov []))
    (before ++ []) := .part (Nat.zero_le _)
  rw [scatter_nil, List.append_nil] at hnone
  simpa using hnone

/-- The backend fails with `total` bytes stored before. -/
theorem Scattered.partially {before : List UInt8} {iov : List ℕ} {total : ℤ}
    {stored : List (List UInt8)} {err : Errno} :
    Scattered before iov total stored (partially total (total, stored ++ untouched iov) err)
      before := by
  unfold WsmDriver.partially
  split
  next => exact .none total iov stored before
  next h => exact .error (not_lt.mp h)

/-- The first buffer has been filled completely. -/
theorem Scattered.cons {before bytes after : List UInt8} {iov : List ℕ} {total : ℤ}
    {stored : List (List UInt8)} {r : Except Errno (ℤ × List (List UInt8))} (htotal : 0 ≤ total)
    (hbytes : bytes ≠ [])
    (h : Scattered (before ++ bytes) iov (total + bytes.length) (stored ++ [bytes]) r after) :
    Scattered before (bytes.length :: iov) total stored r after := by
  have hpos := List.length_pos_iff.mpr hbytes
  cases h with
  | @part rest hle =>
    have htotal : total + bytes.length + rest.length = total + (bytes ++ rest).length := by
      rw [List.length_append, Int.natCast_add, Int.add_assoc]
    rw [htotal, List.append_assoc, List.append_assoc, List.singleton_append, ← scatter_full rfl]
    exact .part (by rw [List.length_append, List.sum_cons]; omega)
  | error hle => omega

/-- A buffer of length zero is passed over. -/
theorem Scattered.cons_zero {before after : List UInt8} {iov : List ℕ} {total : ℤ}
    {stored : List (List UInt8)} {r : Except Errno (ℤ × List (List UInt8))}
    (h : Scattered before iov total (stored ++ [[]]) r after) :
    Scattered before (0 :: iov) total stored r after := by
  cases h with
  | @part bytes hle =>
    have hscatter : stored ++ [[]] ++ scatter iov bytes = stored ++ scatter (0 :: iov) bytes := by
      rw [List.append_assoc, List.singleton_append, ← scatter_full List.length_nil, List.nil_append]
    rw [hscatter]
    exact .part (by rwa [List.sum_cons, Nat.zero_add])
  | error htotal => exact .error htotal

theorem toeMayRead_waiting (hV : Receiver V (toeSn t fd) taken waiting) (total : ℤ) :
    wlp V (fun o _ _ ↦ o ≠ .toeYield1ms) (toeMayRead w fd total)
      (fun may t' e' ↦ t = t' ∧ Untaken taken waiting e e' ∧
        (may = true → total ≤ 0 ∨ waiting e' ≠ [])) t e := by
  unfold toeMayRead
  refine pre_ite (fun htotal ↦ hV.ret (.refl e) fun e' he' ↦ ⟨rfl, he', fun _ ↦ .inl htotal⟩)
    fun _ ↦ ?_
  refine (wiztoeAvailable_waiting hV).seq ?_
  rintro n _ e₁ ⟨rfl, he₁, hn⟩
  refine hV.ret (.refl e₁) fun e' he' ↦
    ⟨rfl, he₁.trans he', fun hmay ↦ .inr fun hnone ↦ ?_⟩
  exact hn (of_decide_eq_true hmay) (List.prefix_nil.mp (hnone ▸ he'.2))

theorem readvLoop_scatters (hV : Receiver V (toeSn t fd) taken waiting) :
    ∀ (iov : List ℕ) {total : ℤ}
    {stored : List (List UInt8)} {e : E}, 0 ≤ total → total + iov.sum ≤ ssizeMax →
    wlp V (fun o _ e' ↦ o = .toeYield1ms → total = 0 ∧ taken e' = taken e)
    (readvLoop w fd iov total stored)
      (fun r _ e' ↦ Received taken waiting e e' ∧
        Scattered (taken e) iov total stored r (taken e')) t e := by
  intro iov
  induction iov with
  | nil =>
    intro total stored e _ _
    refine hV.ret (.refl e) fun e' he' ↦ ⟨he'.received, ?_⟩
    rw [he'.1]
    simpa [untouched] using Scattered.none total [] stored (taken e)
  | cons len iov ih =>
    intro total stored e htotal hmax
    rw [List.sum_cons, Int.natCast_add] at hmax
    unfold readvLoop
    refine pre_ite (fun hempty ↦ ?_) fun hlen ↦ ?_
    · subst hempty
      exact (ih htotal (by omega)).imp fun r _ e' h ↦ ⟨h.1, h.2.cons_zero⟩
    refine ((toeMayRead_waiting hV total).guard fun o t e ho h ↦ absurd h ho).seq ?_
    rintro may _ e₁ ⟨rfl, he₁, hmay⟩
    refine pre_ite (fun _ ↦ ?_) fun hgo ↦ ?_
    · refine hV.ret he₁ fun e' he' ↦ ⟨he'.received, ?_⟩
      rw [he'.1]
      exact .none total (len :: iov) stored _
    -- With something in hand there is something waiting, and no need to.
    have hguard : ∀ (o : ChipOp) (t' : Tables) (e' : E), WaitsFor taken waiting e₁ o t' e' →
        o = .toeYield1ms → total = 0 ∧ taken e' = taken e := by
      intro o t' e' h ho
      obtain ⟨htaken, hnone⟩ := h ho
      have hle := (hmay (Bool.not_eq_false _ ▸ hgo)).resolve_right (not_not.mpr hnone)
      exact ⟨le_antisymm hle htotal, htaken.trans he₁.1⟩
    refine ((wiztoeRecv_receives hV len).guard hguard).seq ?_
    rintro ⟨n, bytes⟩ _ e₂ ⟨rfl, hreceived, hr⟩
    rw [he₁.1] at hr
    replace hreceived := he₁.received.trans hreceived
    generalize hafter : taken e₂ = after at hr
    cases hr with
    | nothing hn =>
      have hfail : ∀ err, pre V (fun o _ e' ↦ o = .toeYield1ms → total = 0 ∧ taken e' =
          taken e) (fun _ _ ↦ True)
          (pure (partially total (total, stored ++ untouched (len :: iov)) err)) (fun r _ e' ↦
            Received taken waiting e e' ∧
              Scattered (taken e) (len :: iov) total stored r (taken e')) t e₂ := by
        intro err
        refine hV.ret (.refl e₂) fun e' he' ↦ ⟨hreceived.trans he'.received, ?_⟩
        rw [he'.1, hafter]
        exact .partially
      refine pre_ite (fun _ ↦ hfail _) fun _ ↦ pre_ite (fun _ ↦ hfail _) fun hneg ↦ ?_
      obtain rfl : n = 0 := le_antisymm hn (not_lt.mp hneg)
      rw [if_pos (by omega)]
      refine hV.ret (.refl e₂) fun e' he' ↦ ⟨hreceived.trans he'.received, ?_⟩
      rw [he'.1, hafter, Int.add_zero, ssizeT_of_le htotal (by omega)]
      exact .none total (len :: iov) stored _
    | @part n _ hpos hle hlen' =>
      have hsum : ssizeT (total + n) = total + n := ssizeT_of_le (by omega) (by omega)
      dsimp only
      rw [if_neg fun h ↦ absurd h.neg (by omega), if_neg (by omega), hsum]
      refine pre_ite (fun hshort ↦ ?_) fun hfull ↦ ?_
      · refine hV.ret (.refl e₂) fun e' he' ↦ ⟨hreceived.trans he'.received, ?_⟩
        rw [he'.1, hafter, ← scatter_short (by omega : bytes.length ≤ len), ← hlen']
        exact .part (by rw [List.sum_cons]; omega)
      · obtain rfl : len = bytes.length := by omega
        obtain rfl : n = bytes.length := hlen'.symm
        have hbytes : bytes ≠ [] := List.length_pos_iff.mp hpos
        refine ((ih (by omega) (by omega)).guard fun o t' e' h ho ↦ ?_).imp fun r _ e' h ↦
          ⟨hreceived.trans h.1, ?_⟩
        · have hzero := (h ho).1
          omega
        · rw [hafter] at h
          exact h.2.cons htotal hbytes

/-- **A scattered read loses nothing.** What it has taken from the stream is laid out over the
buffers in order, and the number of these bytes is what it returns; if it fails, it has taken
nothing. It yields only as long as it has taken nothing. The buffers are no longer than a result can
say. -/
theorem readv_lossless (hV : Receiver V (toeSn t (w.toeFd s)) taken waiting) {iov : List ℕ}
    (hmax : iov.sum ≤ ssizeMax) (e : E) :
    (∀ r t' e', Returns V (wrapLwipReadv w s (some iov)) t e r t' e' → ∃ bytes, taken e' =
      taken e ++ bytes ∧
      taken e ++ waiting e <+: taken e' ++ waiting e' ∧ bytes.length ≤ iov.sum ∧
      (r = .ok ((bytes.length : ℤ), scatter iov bytes) ∨ bytes = [] ∧ ∃ err, r =
        .error err)) ∧
    ∀ t' e', Performs V (wrapLwipReadv w s (some iov)) t e .toeYield1ms t' e' → taken e' =
    taken e := by
  have hrun : wlp V (fun o _ e' ↦ o = .toeYield1ms → taken e' = taken e)
      (wrapLwipReadv w s (some iov))
      (fun r _ e' ↦ Received taken waiting e e' ∧ Scattered (taken e) iov 0 [] r (taken e'))
        t e := by
    cases iov with
    | nil =>
      refine hV.ret (.refl e) fun e' he' ↦ ⟨he'.received, ?_⟩
      rw [he'.1]
      exact .error le_rfl
    | cons len iov =>
      exact (readvLoop_scatters hV (len :: iov) le_rfl (by omega)).guard fun _ _ _ h ho ↦ (h ho).2
  refine ⟨fun r t' e' hr ↦ ?_, fun t' e' hp ↦ hrun.performs hp rfl⟩
  obtain ⟨hreceived, hs⟩ := hrun.returns hr
  unfold Received at hreceived
  generalize taken e' = after at hs hreceived
  cases hs with
  | @part bytes hle =>
    exact ⟨bytes, rfl, hreceived, hle, .inl (by rw [Int.zero_add, List.nil_append])⟩
  | error => exact ⟨[], (List.append_nil _).symm, hreceived, Nat.zero_le _, .inr ⟨rfl, _, rfl⟩⟩

/-- A connection on which everything has arrived: the bytes taken and those that wait. -/
def scatterChip : (o : ChipOp) → List UInt8 × List UInt8 → o.Ans × (List UInt8 × List UInt8)
  | .getSnRxRsr _, e => (e.2.length, e)
  | .recv _ len, e => (((e.2.take len).length, e.2.take len), (e.1 ++ e.2.take len, e.2.drop len))
  | o, e => ((placidChip .established o ()).1, e)

theorem scatterChip_receiver (sn : ℤ) : Receiver (Env.script scatterChip) sn Prod.fst Prod.snd where
  drift h := h.elim
  answer {o t e a e'} ho h := by
    obtain ⟨-, rfl⟩ := h
    cases o with
    | recv sn len => exact absurd rfl (ho sn len)
    | _ => exact ⟨rfl, List.prefix_rfl⟩
  rsr {t e a e'} h := by
    obtain ⟨rfl, rfl⟩ := h
    exact List.length_pos_iff
  recv {len t e a e'} h := by
    obtain ⟨rfl, rfl⟩ := h
    exact take_received e.1 e.2 len

/-- A connection to a server. -/
def oneConnection : Tables :=
  afterCall w5500 .closed (.connect 0 #v[192, 168, 0, 1] 80) oneTcpSocket

/-- Four of five bytes fit. -/
theorem readv_lossless_four : ∃ bytes : List UInt8, [1, 2, 3, 4] = [] ++ bytes ∧
    ([] : List UInt8) ++ [1, 2, 3, 4, 5] <+: [1, 2, 3, 4] ++ [5] ∧ bytes.length ≤ [2, 0, 2].sum ∧
    ((.ok (4, [[1, 2], [], [3, 4]]) : Except Errno (ℤ × List (List UInt8))) =
      .ok ((bytes.length : ℤ), scatter [2, 0, 2] bytes) ∨
      bytes = [] ∧ ∃ err,
      (.ok (4, [[1, 2], [], [3, 4]]) : Except Errno (ℤ × List (List UInt8))) = .error err) := by
  have hrun := returns_runWith (V := .script scatterChip) (h := scatterChip) (n := 60)
    (s := oneConnection)
    (a := .ok (4, [[1, 2], [], [3, 4]])) (p := wrapLwipReadv wrapW5500 54 (some [2, 0, 2]))
    (.always fun _ _ _ ↦ ⟨rfl, rfl⟩) (e := ([], [1, 2, 3, 4, 5])) trivial (by decide +kernel)
  have henv : (runWith scatterChip 60
      ⟨wrapLwipReadv wrapW5500 54 (some [2, 0, 2]), oneConnection, ([], [1, 2, 3, 4, 5])⟩).env =
        ([1, 2, 3, 4], [5]) := by
    decide +kernel
  rw [henv] at hrun
  exact (readv_lossless (scatterChip_receiver _) (by decide) ([], [1, 2, 3, 4, 5])).1 _ _ _ hrun

/-! ## Past the greatest result -/

/-- A connection on which what has been taken arrives anew. -/
def refillChip : (o : ChipOp) → List UInt8 × List UInt8 → o.Ans × (List UInt8 × List UInt8)
  | .recv _ len, e =>
    (((e.2.take len).length, e.2.take len), (e.1 ++ e.2.take len, e.2.drop len ++ e.2.take len))
  | o, e => scatterChip o e

theorem refillChip_receiver (sn : ℤ) : Receiver (Env.script refillChip) sn Prod.fst Prod.snd where
  drift h := h.elim
  answer {o t e a e'} ho h := by
    obtain ⟨-, rfl⟩ := h
    cases o with
    | recv sn len => exact absurd rfl (ho sn len)
    | _ => exact ⟨rfl, List.prefix_rfl⟩
  rsr {t e a e'} h := by
    obtain ⟨rfl, rfl⟩ := h
    exact List.length_pos_iff
  recv {len t e a e'} h := by
    obtain ⟨rfl, rfl⟩ := h
    have hmore : e.2 <+: e.2.take len ++ (e.2.drop len ++ e.2.take len) := by
      rw [← List.append_assoc, List.take_append_drop]
      exact List.prefix_append _ _
    obtain ⟨hle, hnone, htaken, hrest⟩ | ⟨hpos, hle, hlen, htaken, -⟩ :=
      take_received e.1 e.2 len
    · exact .inl ⟨hle, hnone, htaken, hrest.trans (List.prefix_append _ _)⟩
    · exact .inr ⟨hpos, hle, hlen, htaken, hmore⟩

section Refill

variable {piece : List UInt8}

theorem toeMayRead_refill (hpiece : piece.length = 2048) (total : ℤ) (before : List UInt8) :
    Returns (Env.script refillChip) (toeMayRead wrapW5500 0 total) oneConnection
    (before, piece) true oneConnection
      (before, piece) := by
  have hvalid : ¬¬toeFdValid w5500 oneConnection 0 := by decide
  have hopened : ¬(¬toeFdReady w5500 oneConnection 0 ∨ (oneConnection.desc 0).opened = false) := by
    decide
  have havailable : Returns (Env.script refillChip) (wiztoeAvailable w5500 0) oneConnection
      (before, piece) (2048 : ℕ) oneConnection (before, piece) := by
    unfold wiztoeAvailable
    refine .get_bind ?_
    rw [if_neg hvalid, if_neg hopened]
    refine .perform_bind ⟨?_, rfl⟩ (.pure _ _ _)
    exact hpiece.symm
  unfold toeMayRead
  split
  · exact .pure _ _ _
  · exact .seq havailable (.pure _ _ _)

theorem wiztoeRecv_refill (hpiece : piece.length = 2048) (before : List UInt8) :
    Returns (Env.script refillChip) (wiztoeRecv w5500 0 2048) oneConnection (before, piece)
    (2048, piece) oneConnection
      (before ++ piece, piece) := by
  have hready : ¬(¬toeFdReady w5500 oneConnection 0 ∨ (oneConnection.desc 0).isUdp = true) := by
    decide
  have hopen : ¬(oneConnection.desc 0).rdShutdown = true := by decide
  have hdata : Returns (Env.script refillChip)
      (.forever (toeRecvTurn 0 (toeSn oneConnection 0) 1 .established 0))
      oneConnection (before, piece) none oneConnection (before, piece) := by
    refine .forever_some (.perform_bind (a := (2048 : ℕ)) ⟨hpiece.symm, rfl⟩ ?_)
    exact .pure _ _ _
  unfold wiztoeRecv
  refine .get_bind ?_
  rw [if_neg hready, if_neg hopen]
  refine .perform_bind ⟨rfl, rfl⟩ (.seq hdata ?_)
  refine .perform_bind (a := (2048, piece)) ?_ (.pure _ _ _)
  have htake : piece.take 2048 = piece := List.take_of_length_le (Nat.le_of_eq hpiece)
  have hdrop : piece.drop 2048 = [] := List.drop_eq_nil_of_le (Nat.le_of_eq hpiece)
  change ((2048 : ℤ), piece) = (((piece.take 2048).length : ℤ), piece.take 2048) ∧
    (before ++ piece, piece) = (before ++ piece.take 2048, piece.drop 2048 ++ piece.take 2048)
  rw [htake, hdrop, hpiece, List.nil_append]
  exact ⟨rfl, rfl⟩

/-- Every buffer is filled, and the total is what a `ssize_t` keeps of the sum. -/
theorem readvLoop_refill (hpiece : piece.length = 2048) (k : ℕ) (total : ℤ)
    (stored : List (List UInt8)) (before : List UInt8) : Returns (Env.script refillChip)
      (readvLoop wrapW5500 0 (List.replicate k 2048) (ssizeT total) stored) oneConnection
      (before, piece)
      (.ok (ssizeT (total + 2048 * k), stored ++ List.replicate k piece)) oneConnection
      (before ++ (List.replicate k piece).flatten, piece) := by
  induction k generalizing total stored before with
  | zero =>
    rw [List.replicate_zero, List.replicate_zero, List.flatten_nil, List.append_nil,
      List.append_nil, Int.natCast_zero, Int.mul_zero, Int.add_zero]
    exact .pure _ _ _
  | succ k ih =>
    have htotal : total + 2048 * ((k + 1 : ℕ) : ℤ) = total + 2048 + 2048 * k := by omega
    have hstored : stored ++ piece :: List.replicate k piece = stored ++ [piece] ++
        List.replicate k piece := by
      rw [List.append_assoc, List.singleton_append]
    rw [List.replicate_succ, List.replicate_succ, List.flatten_cons, ← List.append_assoc, hstored,
      htotal, readvLoop]
    refine .seq (toeMayRead_refill hpiece _ before) (.seq (wiztoeRecv_refill hpiece before) ?_)
    dsimp only
    rw [ssizeT_add]
    exact ih (total + 2048) (stored ++ [piece]) (before ++ piece)

theorem readv_refill (hpiece : piece.length = 2048) (k : ℕ) : Returns (Env.script refillChip)
    (wrapLwipReadv wrapW5500 54 (some (List.replicate (k + 1) 2048))) oneConnection ([], piece)
    (.ok (ssizeT (2048 * (k + 1 : ℕ)), List.replicate (k + 1) piece)) oneConnection
    ((List.replicate (k + 1) piece).flatten, piece) := by
  have hrun := readvLoop_refill hpiece (k + 1) 0 [] []
  rw [Int.zero_add, List.nil_append, List.nil_append] at hrun
  exact hrun

end Refill

/-- **Too many bytes end below zero.** Of 2³¹ bytes that have been taken and stored the result is
the least number there is. -/
theorem readv_below_zero :
    Receiver (Env.script refillChip) (toeSn oneConnection (wrapW5500.toeFd 54)) Prod.fst Prod.snd ∧
    Returns (Env.script refillChip) (wrapLwipReadv wrapW5500 54 (some (.replicate 1048576 2048)))
      oneConnection
      ([], .replicate 2048 0) (.ok (-2147483648, .replicate 1048576 (.replicate 2048 0)))
        oneConnection
      ((List.replicate 1048576 (.replicate 2048 0)).flatten, .replicate 2048 0) := by
  refine ⟨refillChip_receiver _, ?_⟩
  have hsum : ssizeT (2048 * (1048575 + 1 : ℕ)) = -2147483648 := by decide
  rw [← hsum]
  exact readv_refill List.length_replicate 1048575

end WsmDriver
