import WsmDriver.Effect.Trace
import WsmDriver.Toe.Receiving

/-!
# The end of the stream

`wiztoe_recv` reads how many bytes wait and, if there are none, the status of the hardware socket.
Between these two reads the peer can send its last bytes and its FIN. Then the first one finds
nothing, the second one finds the connection closed, and the caller is told that the stream has
ended while there is something left of it.

Nothing else can go wrong. `Env.filmed` shows in which states the registers were read, so that a
film of all the reads on a connection tells whether this has happened.
-/

namespace WsmDriver

open Effect

variable {cfg : ToeConfig} {E : Type} {V : Env Tables E ChipOp.Ans} {sn fd : ℤ}
  {taken waiting : E → List UInt8} {finished : E → Prop} {t t' : Tables}

/-- A connection that the peer closes with a FIN, if at all. Nothing arrives after it, the status
tells whether it has come, and ioLibrary's `recv` hands out what waits, before and after. -/
structure Conversation (V : Env Tables E ChipOp.Ans) (sn : ℤ) (taken waiting : E → List UInt8)
    (finished : E → Prop) : Prop extends Receiver V sn taken waiting where
  driftEnd : ∀ {e e'}, finished e → V.drift e e' → finished e' ∧ waiting e' = waiting e
  answerEnd : ∀ {o t e a e'}, (∀ sn len, o ≠ .recv sn len) → finished e →
    V.answer o t e a e' →
    finished e' ∧ waiting e' = waiting e
  status : ∀ {t e a e'}, V.answer (.getSnSR sn) t e a e' → (a = .established ↔ ¬finished e)
  delivers : ∀ {len t e a e'}, 0 < len → waiting e ≠ [] → V.answer (.recv sn len) t e a e' →
    0 < a.1

/-- What was asked and answered, and in which states, newest first. -/
abbrev Film (E : Type) := List (Sigma ChipOp.Ans × E)

/-- The last bytes and the FIN have overtaken a reader: it had found nothing, and then, when it read
the status, both were there. -/
def Overtaken (sn : ℤ) (waiting : E → List UInt8) (finished : E → Prop) (film : Film E) : Prop :=
  ∃ (later earlier : Film E) (sr : SnSR) (e e' : E),
    film = later ++ (⟨.getSnSR sn, sr⟩, e') :: (⟨.getSnRxRsr sn, (0 : ℕ)⟩, e) :: earlier ∧
      finished e' ∧ waiting e' ≠ []

namespace Overtaken

variable {x y : Sigma ChipOp.Ans × E} {film : Film E}

theorem cons (h : Overtaken sn waiting finished film) :
    Overtaken sn waiting finished (x :: film) := by
  obtain ⟨later, earlier, sr, e, e', rfl, h⟩ := h
  exact ⟨x :: later, earlier, sr, e, e', rfl, h⟩

theorem cons_iff (hx : ∀ sr, x.1 ≠ ⟨.getSnSR sn, sr⟩) :
    Overtaken sn waiting finished (x :: film) ↔ Overtaken sn waiting finished film := by
  refine ⟨fun h ↦ ?_, cons⟩
  obtain ⟨later, earlier, sr, e, e', heq, h⟩ := h
  cases later with
  | nil => exact absurd (congrArg Prod.fst (List.cons.inj heq).1) (hx sr)
  | cons y later => exact ⟨later, earlier, sr, e, e', (List.cons.inj heq).2, h⟩

/-- The status is read after nothing was found. -/
theorem status_iff {sr : SnSR} {e e' : E} :
    Overtaken sn waiting finished
    ((⟨.getSnSR sn, sr⟩, e') :: (⟨.getSnRxRsr sn, (0 : ℕ)⟩, e) :: film) ↔
      Overtaken sn waiting finished film ∨ finished e' ∧ waiting e' ≠ [] := by
  constructor
  · rintro ⟨later, earlier, sr, e, e', heq, h⟩
    cases later with
    | nil =>
      obtain ⟨-, rfl⟩ := Prod.mk.inj (List.cons.inj heq).1
      exact .inr h
    | cons y later =>
      have hrest : Overtaken sn waiting finished ((⟨.getSnRxRsr sn, (0 : ℕ)⟩, _) :: film) :=
        ⟨later, earlier, sr, e, e', (List.cons.inj heq).2, h⟩
      exact .inl ((cons_iff (by simp)).mp hrest)
  · rintro (h | h)
    · exact h.cons.cons
    · exact ⟨[], film, sr, e, e', rfl, h⟩

end Overtaken

/-! ## One call -/

section Call

variable {ε₀ ε ε' : E × Film E} {α : Type} {Q : α → Tables → E × Film E → Prop}

/-- Nothing has been taken since `ε₀`, and nobody has been overtaken. -/
structure Unread (sn : ℤ) (taken waiting : E → List UInt8) (finished : E → Prop)
    (ε₀ ε : E × Film E) : Prop where
  untaken : Untaken taken waiting ε₀.1 ε.1
  overtaken : Overtaken sn waiting finished ε.2 ↔ Overtaken sn waiting finished ε₀.2

theorem Unread.refl : Unread sn taken waiting finished ε ε := ⟨.refl _, Iff.rfl⟩

/-- A call that started in `ε₀` and returns `r`. If it reports the end of the stream, the FIN is
there, and it has been overtaken exactly if bytes are left. -/
structure HasRead (sn : ℤ) (taken waiting : E → List UInt8) (finished : E → Prop)
    (ε₀ : E × Film E) (r : ℤ × List UInt8) (ε : E × Film E) : Prop where
  bytes : taken ε.1 = taken ε₀.1 ++ r.2
  eof : r.1 = 0 → r.2 = [] ∧ finished ε.1
  overtaken : Overtaken sn waiting finished ε.2 ↔
    Overtaken sn waiting finished ε₀.2 ∨ r.1 = 0 ∧ waiting ε.1 ≠ []

theorem Unread.hasRead {n : ℤ} (h : Unread sn taken waiting finished ε₀ ε) (hn : n ≠ 0) :
    HasRead sn taken waiting finished ε₀ (n, []) ε where
  bytes := by rw [h.untaken.1, List.append_nil]
  eof h₀ := absurd h₀ hn
  overtaken := by
    rw [h.overtaken]
    exact ⟨.inl, fun h ↦ h.resolve_right fun h₀ ↦ hn h₀.1⟩

namespace Conversation

variable (hV : Conversation V sn taken waiting finished)

include hV

theorem drifts_end {e e' : E} (h : finished e) (hd : V.Drifts e e') : finished e' ∧ waiting e' =
    waiting e :=
  hd.induct (P := fun e' ↦ finished e' ∧ waiting e' = waiting e)
    (fun _ _ hd he ↦ ⟨(hV.driftEnd he.1 hd).1, (hV.driftEnd he.1 hd).2.trans he.2⟩) ⟨h, rfl⟩

theorem unread_drifts (h : Unread sn taken waiting finished ε₀ ε) (hd : V.filmed.Drifts ε ε') :
    Unread sn taken waiting finished ε₀ ε' where
  untaken := h.untaken.trans (hV.drifts hd.unrecorded.1)
  overtaken := by rw [hd.unrecorded.2, h.overtaken]

theorem hasRead_drifts {r : ℤ × List UInt8} (h : HasRead sn taken waiting finished ε₀ r ε)
    (hd : V.filmed.Drifts ε ε') : HasRead sn taken waiting finished ε₀ r ε' where
  bytes := by rw [(hV.drifts hd.unrecorded.1).1, h.bytes]
  eof h₀ := ⟨(h.eof h₀).1, (hV.drifts_end (h.eof h₀).2 hd.unrecorded.1).1⟩
  overtaken := by
    rw [hd.unrecorded.2, h.overtaken]
    refine or_congr_right (and_congr_right fun h₀ ↦ ?_)
    rw [(hV.drifts_end (h.eof h₀).2 hd.unrecorded.1).2]

theorem ret (h : Unread sn taken waiting finished ε₀ ε) {a : α}
    (hQ : ∀ ε', Unread sn taken waiting finished ε₀ ε' → Q a t ε') :
    wlp V.filmed (fun _ _ _ ↦ True) (pure a) Q t ε := fun ε' hd ↦ hQ ε' (hV.unread_drifts h hd)

/-- An operation that neither takes anything nor reads the status. -/
theorem call {o : ChipOp} {k : o.Ans → Toe α} (h : Unread sn taken waiting finished ε₀ ε)
    (hrecv : ∀ sn len, o ≠ .recv sn len) (hstatus : ∀ sn, o ≠ .getSnSR sn)
    (hk : ∀ a ε', Unread sn taken waiting finished ε₀ ε' →
      wlp V.filmed (fun _ _ _ ↦ True) (k a) Q t ε') :
    wlp V.filmed (fun _ _ _ ↦ True) (chip o >>= k) Q t ε := by
  refine pre_perform_bind.mpr fun ε₁ hd ↦ ⟨trivial, fun a ε₂ ha ↦ hk a ε₂ ?_⟩
  have h₁ := hV.unread_drifts h hd
  refine ⟨h₁.untaken.trans (hV.answer hrecv ha.1), ?_⟩
  rw [ha.2, Overtaken.cons_iff fun sr heq ↦ hstatus sn (congrArg Sigma.fst heq), h₁.overtaken]

end Conversation

/-- The tail of a turn. -/
theorem toeWaitTurn_unread (hV : Conversation V sn taken waiting finished)
    (h : Unread sn taken waiting finished ε₀ ε) (started : UInt32) (timeoutMs : Desc → UInt32) :
    wlp V.filmed (fun _ _ _ ↦ True) (toeWaitTurn fd started timeoutMs wiztoeErrTimeout)
      (fun r t' ε' ↦ t = t' ∧ Unread sn taken waiting finished ε₀ ε' ∧ ∀ x, r = some x →
        x ≠ 0) t ε := by
  unfold toeWaitTurn
  refine pre_get_bind.mpr (pre_ite (fun _ ↦ hV.ret h fun ε' h' ↦ ⟨rfl, h', ?_⟩) fun _ ↦ ?_)
  · rintro _ ⟨⟩
    decide
  refine .seq (M := fun _ t' ε' ↦ t = t' ∧ Unread sn taken waiting finished ε₀ ε') ?_ ?_
  · unfold toeDeadlinePassed
    refine pre_ite (fun _ ↦ hV.ret h fun ε' h' ↦ ⟨rfl, h'⟩) fun _ ↦ ?_
    exact hV.call h (by simp) (by simp) fun _ _ h₁ ↦ hV.ret h₁ fun ε' h' ↦ ⟨rfl, h'⟩
  rintro passed _ ε₁ ⟨rfl, h₁⟩
  refine pre_ite (fun _ ↦ hV.ret h₁ fun ε' h' ↦ ⟨rfl, h', ?_⟩) fun _ ↦ ?_
  · rintro _ ⟨⟩
    decide
  exact hV.call h₁ (by simp) (by simp) fun _ _ h₂ ↦ hV.ret h₂ fun ε' h' ↦
    ⟨rfl, h', by simp⟩

/-- A turn: it goes on, there is something to take, or it is the last one. -/
theorem toeRecvTurn_unread (hV : Conversation V sn taken waiting finished)
    (h : Unread sn taken waiting finished ε₀ ε) (started : UInt32) :
    wlp V.filmed (fun _ _ _ ↦ True) (toeRecvTurn fd sn started .established 0)
      (fun r t' ε' ↦ t = t' ∧
        (r = none → Unread sn taken waiting finished ε₀ ε') ∧
        (r = some none → Unread sn taken waiting finished ε₀ ε' ∧ waiting ε'.1 ≠ []) ∧
        ∀ n, r = some (some n) → HasRead sn taken waiting finished ε₀ (n, []) ε') t ε := by
  unfold toeRecvTurn
  refine pre_perform_bind.mpr fun ε₁ hd ↦ ⟨trivial, fun n ε₂ ha ↦ ?_⟩
  have h₁ := hV.unread_drifts h hd
  have hwaits := hV.rsr ha.1
  have h₂ : Unread sn taken waiting finished ε₀ ε₂ := by
    refine ⟨h₁.untaken.trans (hV.answer (by simp) ha.1), ?_⟩
    rw [ha.2, Overtaken.cons_iff (by simp), h₁.overtaken]
  refine pre_ite (fun hn ε₃ hd ↦ ⟨rfl, by simp, fun _ ↦ ⟨hV.unread_drifts h₂ hd, ?_⟩,
    by simp⟩) fun hn ↦ ?_
  · -- Bytes wait, and nobody else takes them.
    have hrest : Untaken taken waiting ε₁.1 ε₂.1 := hV.answer (by simp) ha.1
    exact (hrest.trans (hV.drifts hd.unrecorded.1)).waiting_ne (hwaits.mp hn)
  obtain rfl : n = 0 := Nat.eq_zero_of_not_pos hn
  -- The status is read after the size, and what has come in between is overtaken by the FIN.
  refine pre_perform_bind.mpr fun ε₃ hd ↦ ⟨trivial, fun sr ε₄ ha' ↦ ?_⟩
  have h₃ := hV.unread_drifts h₂ hd
  have hstatus := hV.status ha'.1
  have hfilm : Overtaken sn waiting finished ε₄.2 ↔
      Overtaken sn waiting finished ε₀.2 ∨ finished ε₃.1 ∧ waiting ε₃.1 ≠ [] := by
    rw [ha'.2, hd.unrecorded.2, ha.2, Overtaken.status_iff, h₁.overtaken]
  have hrest := hV.answer (by simp) ha'.1
  refine pre_ite (fun hsr ε₅ hd' ↦ ⟨rfl, by simp, by simp, ?_⟩) fun hsr ↦ ?_
  · -- The FIN is there, and nothing comes after it.
    rintro _ ⟨⟩
    have hfin : finished ε₃.1 := not_not.mp (hstatus.not.mp hsr)
    obtain ⟨hfin₄, hwaiting⟩ := hV.answerEnd (by simp) hfin ha'.1
    refine hV.hasRead_drifts ⟨?_, fun _ ↦ ⟨rfl, hfin₄⟩, ?_⟩ hd'
    · rw [(h₃.untaken.trans hrest).1, List.append_nil]
    · rw [hfilm, hwaiting]
      exact or_congr_right ⟨fun h ↦ ⟨rfl, h.2⟩, fun h ↦ ⟨hfin, h.2⟩⟩
  · -- No FIN yet: the turn waits, and whether somebody is overtaken is decided by a later one.
    have hopen : ¬finished ε₃.1 := hstatus.mp (not_not.mp hsr)
    have h₄ : Unread sn taken waiting finished ε₀ ε₄ :=
      ⟨h₃.untaken.trans hrest, hfilm.trans (or_iff_left fun h ↦ hopen h.1)⟩
    refine (toeWaitTurn_unread hV h₄ started _).seq ?_
    rintro r _ ε₅ ⟨rfl, h₅, hr⟩ ε₆ hd'
    have h₆ := hV.unread_drifts h₅ hd'
    refine ⟨rfl, fun _ ↦ h₆, fun hnone ↦ ?_, fun n hn ↦ ?_⟩
    · cases r with
      | none => exact absurd hnone (by simp)
      | some r => exact absurd hnone (by simp)
    · obtain ⟨m, hm, heq⟩ := Option.map_eq_some_iff.mp hn
      exact h₆.hasRead (hr n (hm.trans heq))

/-- **One call.** Whatever `recv` returns is what it has taken. If it says that the stream has
ended, the FIN is there, and bytes are left exactly if it has been overtaken. -/
theorem wiztoeRecv_hasRead (hV : Conversation V (toeSn t fd) taken waiting finished)
    (hrd : (t.desc fd).rdShutdown = false) {len : ℕ} (hlen : 0 < len) :
    wlp V.filmed (fun _ _ _ ↦ True) (wiztoeRecv cfg fd len)
      (fun r t' ε' ↦ t = t' ∧ HasRead (toeSn t fd) taken waiting finished ε r ε') t ε := by
  have hfail : ∀ {n : ℤ} {ε₁}, n ≠ 0 →
      Unread (toeSn t fd) taken waiting finished ε ε₁ →
      wlp V.filmed (fun _ _ _ ↦ True) (pure (n, []))
        (fun r t' ε' ↦ t = t' ∧ HasRead (toeSn t fd) taken waiting finished ε r ε') t ε₁ :=
    fun hn h₁ ↦ hV.ret h₁ fun ε' h' ↦ ⟨rfl, h'.hasRead hn⟩
  unfold wiztoeRecv
  refine pre_get_bind.mpr (pre_ite (fun _ ↦ hfail (by decide) .refl) fun _ ↦ ?_)
  rw [if_neg (by simp [hrd])]
  refine hV.call .refl (by simp) (by simp) fun started ε₁ h₁ ↦ ?_
  refine .seq (M := fun r t' ε' ↦ t = t' ∧
    (r = none → Unread (toeSn t fd) taken waiting finished ε ε' ∧ waiting ε'.1 ≠ []) ∧
    ∀ n, r = some n → HasRead (toeSn t fd) taken waiting finished ε (n, []) ε') ?_ ?_
  · refine wlp_forever (fun t' ε' ↦ t = t' ∧ Unread (toeSn t fd) taken waiting finished ε ε')
      ⟨rfl, h₁⟩ ?_
    rintro _ ε₂ ⟨rfl, h₂⟩
    refine (toeRecvTurn_unread hV h₂ started).imp ?_
    rintro (_ | r) _ ε₃ ⟨rfl, hgo, htake, hend⟩
    · exact ⟨rfl, hgo rfl⟩
    · refine fun ε₄ hd ↦ ⟨rfl, fun hr ↦ ?_, fun n hr ↦ ?_⟩
      · obtain ⟨h₃, hwaits⟩ := htake (by rw [hr])
        exact ⟨hV.unread_drifts h₃ hd, (hV.drifts hd.unrecorded.1).waiting_ne hwaits⟩
      · exact hV.hasRead_drifts (hend n (by rw [hr])) hd
  rintro (_ | r) _ ε₂ ⟨rfl, htake, hend⟩
  swap
  · exact fun ε₃ hd ↦ ⟨rfl, hV.hasRead_drifts (hend r rfl) hd⟩
  obtain ⟨h₂, hwaits⟩ := htake rfl
  -- Where bytes wait the chip's `recv` cannot fail.
  refine pre_perform_bind.mpr fun ε₃ hd ↦ ⟨trivial, fun a ε₄ ha ↦ ?_⟩
  have h₃ := hV.unread_drifts h₂ hd
  have hwaits₃ : waiting ε₃.1 ≠ [] := (hV.drifts hd.unrecorded.1).waiting_ne hwaits
  obtain ⟨n, bytes⟩ := a
  have hpos : 0 < n := hV.delivers (by omega) hwaits₃ ha.1
  change wlp V.filmed (fun _ _ _ ↦ True) (if n = sockerrSockstatus ∨ n = sockerrSockclosed then
      pure (0, [])
    else pure (if n < 0 then (-1, []) else (n, bytes))) _ t ε₄
  have hok : ¬(n = sockerrSockstatus ∨ n = sockerrSockclosed) := by
    rintro (rfl | rfl) <;> exact absurd hpos (by decide)
  have hne : n ≠ 0 := Int.ne_of_gt hpos
  rw [if_neg hok, if_neg (not_lt_of_gt hpos)]
  obtain ⟨-, -, -, htaken, -⟩ := (hV.recv ha.1).resolve_left fun h ↦ absurd h.1 (not_le.mpr hpos)
  refine fun ε₅ hd' ↦ ⟨rfl, hV.hasRead_drifts ⟨?_, fun h ↦ absurd h hne, ?_⟩ hd'⟩
  · rw [htaken, h₃.untaken.1]
  · rw [ha.2, Overtaken.cons_iff (by simp), h₃.overtaken]
    exact ⟨.inl, fun h ↦ h.resolve_right fun h ↦ hne h.1⟩

end Call

/-! ## All calls -/

/-- A call without its film. -/
def withoutFilm (x : Event ℕ (E × Film E) (ℤ × List UInt8)) : Event ℕ E (ℤ × List UInt8) :=
  ⟨x.call, x.before.1, x.result, x.after.1⟩

/-- Whatever is read from a connection can be filmed. -/
theorem Reading.filmed {t₀ : Tables} {e₀ e : E} {log : List (Event ℕ E (ℤ × List UInt8))}
    (h : Reading cfg V fd t₀ e₀ log t e) :
    ∃ log' film, Reading cfg V.filmed fd t₀ (e₀, []) log' t (e, film) ∧ log'.map withoutFilm =
    log := by
  induction h with
  | start => exact ⟨[], [], .start, rfl⟩
  | drift _ hd ih =>
    obtain ⟨log', film, hread, hlog⟩ := ih
    exact ⟨log', film, hread.drift ⟨hd, rfl⟩, hlog⟩
  | aside _ hsame ih =>
    obtain ⟨log', film, hread, hlog⟩ := ih
    exact ⟨log', film, hread.aside hsame, hlog⟩
  | recv _ hlen hr ih =>
    obtain ⟨log', film, hread, rfl⟩ := ih
    obtain ⟨film', hr'⟩ := hr.recorded film
    exact ⟨_, film', hread.recv hlen hr', by rw [List.map_append]; rfl⟩

/-- A reader is told that the stream has ended only when the FIN is there and the calls before have
returned all the bytes that the peer has sent. -/
def EofLast (taken waiting : E → List UInt8) (finished : E → Prop)
    (log : List (Event ℕ E (ℤ × List UInt8))) : Prop :=
  ∀ earlier x later, log = earlier ++ x :: later → x.result.1 = 0 →
    finished x.after ∧ returned earlier = taken x.after ++ waiting x.after

theorem eofLast_concat {log : List (Event ℕ E (ℤ × List UInt8))}
    {x : Event ℕ E (ℤ × List UInt8)} :
    EofLast taken waiting finished (log ++ [x]) ↔ EofLast taken waiting finished log ∧
      (x.result.1 = 0 → finished x.after ∧ returned log = taken x.after ++ waiting x.after) := by
  refine ⟨fun h ↦ ⟨fun earlier y later heq ↦ ?_, h log x [] rfl⟩,
    fun ⟨h, hx⟩ earlier y later heq ↦ ?_⟩
  · exact h earlier y (later ++ [x]) (by rw [heq, List.append_assoc, List.cons_append])
  · rcases List.eq_nil_or_concat later with rfl | ⟨later, z, rfl⟩
    · obtain ⟨rfl, hone⟩ := List.append_inj' heq rfl
      obtain rfl := List.singleton_inj.mp hone
      exact hx
    · rw [List.concat_eq_append, ← List.cons_append, ← List.append_assoc] at heq
      exact h earlier y later (List.append_inj' heq rfl).1

/-- What holds while the descriptor is being read. -/
structure Reader (t₀ : Tables) (fd : ℤ) (taken waiting : E → List UInt8) (finished : E → Prop)
    (log : List (Event ℕ (E × Film E) (ℤ × List UInt8))) (t : Tables) (ε : E × Film E) :
    Prop where
  sn : toeSn t fd = toeSn t₀ fd
  rdShutdown : (t.desc fd).rdShutdown = false
  bytes : taken ε.1 = returned log
  eof : EofLast (taken ·.1) (waiting ·.1) (finished ·.1) log ↔
    ¬Overtaken (toeSn t₀ fd) waiting finished ε.2

theorem Reading.reader {t₀ : Tables} {e₀ : E}
    {log : List (Event ℕ (E × Film E) (ℤ × List UInt8))} {ε : E × Film E}
    (hV : Conversation V (toeSn t₀ fd) taken waiting finished)
    (hrd : (t₀.desc fd).rdShutdown = false) (h₀ : taken e₀ = [])
    (h : Reading cfg V.filmed fd t₀ (e₀, []) log t ε) :
    Reader t₀ fd taken waiting finished log t ε := by
  induction h with
  | start =>
    refine ⟨rfl, hrd, h₀, fun _ hover ↦ ?_, fun _ earlier x later heq ↦ ?_⟩
    · obtain ⟨later, earlier, sr, e, e', heq, -⟩ := hover
      exact absurd heq (by simp)
    · exact absurd heq (by simp)
  | drift _ hd ih =>
    refine ⟨ih.sn, ih.rdShutdown, ?_, ?_⟩
    · rw [(hV.drift hd.1).1, ih.bytes]
    · rw [hd.2, ih.eof]
  | aside _ hsame ih =>
    -- Other calls may change the tables, but not what `recv` looks at.
    refine ⟨?_, hsame.rdShutdown.trans ih.rdShutdown, ih.bytes, ih.eof⟩
    rw [← ih.sn, toeSn, toeSn, hsame.sn]
  | recv _ hlen hr ih =>
    rw [← ih.sn] at hV
    obtain ⟨rfl, hread⟩ := (wiztoeRecv_hasRead hV ih.rdShutdown hlen).returns hr
    have htaken := hread.bytes
    rw [ih.bytes] at htaken
    have hover := hread.overtaken
    rw [ih.sn] at hover
    refine ⟨ih.sn, ih.rdShutdown, by rw [htaken, returned_concat], ?_⟩
    rw [eofLast_concat, ih.eof, hover, not_or, not_and_not_right]
    refine and_congr_right fun _ ↦ forall_congr' fun hzero ↦ ?_
    obtain ⟨hnone, hfin⟩ := hread.eof hzero
    dsimp only
    rw [htaken, hnone, List.append_nil, List.self_eq_append_right]
    exact and_iff_right hfin

/-! ## Last words -/

/-- A connection: the bytes taken, those that wait, and, until the FIN has come, those that come
with it. -/
structure Peer where
  taken : List UInt8
  waiting : List UInt8
  lastWords : Option (List UInt8)
  deriving DecidableEq

/-- The peer says its last words as soon as it has been asked how much there is. -/
def lastWordsChip : (o : ChipOp) → Peer → o.Ans × Peer
  | .getSnRxRsr _, p =>
    (p.waiting.length, { p with waiting := p.waiting ++ p.lastWords.getD [], lastWords := none })
  | .getSnSR _, p => (if p.lastWords = none then .closeWait else .established, p)
  | .recv _ len, p =>
    (((p.waiting.take len).length, p.waiting.take len),
      { p with taken := p.taken ++ p.waiting.take len, waiting := p.waiting.drop len })
  | o, p => ((placidChip .established o ()).1, p)

theorem lastWordsChip_conversation (sn : ℤ) :
    Conversation (Env.script lastWordsChip) sn Peer.taken Peer.waiting
    (fun p ↦ p.lastWords = none) where
  drift hd := hd.elim
  answer {o t p a p'} ho ha := by
    obtain ⟨-, rfl⟩ := ha
    cases o with
    | recv sn len => exact absurd rfl (ho sn len)
    | getSnRxRsr sn => exact ⟨rfl, List.prefix_append _ _⟩
    | _ => exact ⟨rfl, List.prefix_rfl⟩
  rsr {t p a p'} ha := by
    obtain ⟨rfl, rfl⟩ := ha
    exact List.length_pos_iff
  recv {len t p a p'} ha := by
    obtain ⟨rfl, rfl⟩ := ha
    exact take_received p.taken p.waiting len
  driftEnd _ hd := hd.elim
  answerEnd {o t p a p'} ho hfin ha := by
    obtain ⟨-, rfl⟩ := ha
    cases o with
    | recv sn len => exact absurd rfl (ho sn len)
    | getSnRxRsr sn =>
      refine ⟨rfl, ?_⟩
      change p.waiting ++ p.lastWords.getD [] = p.waiting
      rw [hfin, Option.getD_none, List.append_nil]
    | _ => exact ⟨hfin, rfl⟩
  status {t p a p'} ha := by
    obtain ⟨rfl, -⟩ := ha
    change (if p.lastWords = none then SnSR.closeWait else .established) = .established ↔ _
    split
    next h => simp [h]
    next h => simp [h]
  delivers {len t p a p'} hlen hwaits ha := by
    obtain ⟨rfl, -⟩ := ha
    change 0 < ((p.waiting.take len).length : ℤ)
    have hpos := List.length_pos_iff.mpr hwaits
    rw [List.length_take]
    omega

/-- The chip with a film of what it is asked. -/
def filmedChip : (o : ChipOp) → Peer × Film Peer → o.Ans × (Peer × Film Peer)
  | o, (p, film) =>
    ((lastWordsChip o p).1, (lastWordsChip o p).2, (⟨o, (lastWordsChip o p).1⟩, p) :: film)

/-- A connection to a server that closes it. -/
def closingConnection : Tables :=
  afterCall w5500 .closed (.connect 0 #v[192, 168, 0, 2] 80) oneTcpSocket

/-! ## The end of the stream -/

/-- **The end of the stream comes last, unless it overtakes a reader.** Over all calls on a
connection, the end of the stream is reported only after all bytes have been returned, if and only
if it has never happened that the last bytes and the FIN arrived between the two reads of a turn. -/
theorem end_of_stream_last {t₀ : Tables} {e₀ : E}
    {log : List (Event ℕ (E × Film E) (ℤ × List UInt8))} {ε : E × Film E}
    (hV : Conversation V (toeSn t₀ fd) taken waiting finished)
    (hrd : (t₀.desc fd).rdShutdown = false) (h₀ : taken e₀ = [])
    (h : Reading cfg V.filmed fd t₀ (e₀, []) log t ε) :
    EofLast (taken ·.1) (waiting ·.1) (finished ·.1) log ↔ ¬Overtaken
    (toeSn t₀ fd) waiting finished ε.2 := (h.reader hV hrd h₀).eof

/-- Three bytes and the FIN are there already. -/
theorem end_of_stream_last_prompt : ∃ log t ε,
    Reading w5500 (Env.filmed (.script lastWordsChip)) 0 closingConnection
    (⟨[], [1, 2, 3], none⟩, []) log t ε ∧
      (log.map fun x ↦ x.result) = [(3, [1, 2, 3]), (0, [])] ∧
      (EofLast (fun ε ↦ ε.1.taken) (fun ε ↦ ε.1.waiting) (fun ε ↦ ε.1.lastWords =
        none) log ↔
        ¬Overtaken (toeSn closingConnection 0) Peer.waiting (fun p ↦ p.lastWords = none) ε.2) := by
  have hfollows : (Env.filmed (.script lastWordsChip) : Env Tables _ ChipOp.Ans).Follows
      (fun _ ↦ True) filmedChip :=
    .always fun _ _ _ ↦ ⟨⟨rfl, rfl⟩, rfl⟩
  have hstart : Reading w5500 (Env.filmed (.script lastWordsChip)) 0 closingConnection
    (⟨[], [1, 2, 3], none⟩, []) [] closingConnection (⟨[], [1, 2, 3], none⟩, []) := .start
  have hfirst :=
    hstart.recvWith 4 20 (3, [1, 2, 3]) (by decide) hfollows trivial (by decide)
  have hsecond := hfirst.recvWith 4 20 (0, []) (by decide) hfollows trivial (by decide)
  exact ⟨_, _, _, hsecond, rfl, end_of_stream_last (lastWordsChip_conversation _)
    (by decide) rfl hsecond⟩

/-- The last byte and the FIN come while nothing has been found and the status has not been read. -/
theorem not_end_of_stream_last : ¬∀ (E : Type) (V : Env Tables E ChipOp.Ans)
    (taken waiting : E → List UInt8)
    (finished : E → Prop) (fd : ℤ) (t₀ t : Tables) (e₀ e : E)
    (log : List (Event ℕ E (ℤ × List UInt8))),
    Conversation V (toeSn t₀ fd) taken waiting finished → (t₀.desc fd).rdShutdown = false →
    taken e₀ = [] →
      Reading w5500 V fd t₀ e₀ log t e → EofLast taken waiting finished log := by
  intro h
  have hstart : Reading w5500 (.script lastWordsChip) 0 closingConnection ⟨[], [], some [42]⟩
    [] closingConnection ⟨[], [], some [42]⟩ := .start
  have hread :=
    hstart.recvWith 4 20 (0, []) (by decide) (.always fun _ _ _ ↦ ⟨rfl, rfl⟩) trivial (by decide)
  have hlast :=
    h _ _ _ _ _ _ _ _ _ _ _ (lastWordsChip_conversation _) (by decide) rfl hread [] _ [] rfl rfl
  exact absurd hlast.2 (by decide)

end WsmDriver
