import WsmDriver.Effect.Logic

/-!
# Logging what was asked and answered

A statement about a whole execution, rather than about one moment of it, is a statement about the
log of its operations. `Env.traced` adds the log to the state of the surroundings, so that a
postcondition can speak about it. The executions are the same (`Returns.traced`), and what a guard
says about every operation is what the log says about every entry (`pre.traced`).
-/

namespace Effect

variable {S E Op N : Type} {Ans : Op → Type} {α β : Type}

/-- The surroundings together with a record to which every answer adds what it likes of the moment
it is given. -/
def Env.recorded (V : Env S E Ans) (f : (o : Op) → S → E → Ans o → N → N) :
    Env S (E × N) Ans where
  drift e e' := V.drift e.1 e'.1 ∧ e'.2 = e.2
  answer o s e a e' := V.answer o s e.1 a e'.1 ∧ e'.2 = f o s e.1 a e.2

/-- The surroundings together with a record that every answer adds to. -/
def Env.noted (V : Env S E Ans) (f : (o : Op) → S → Ans o → N → N) : Env S (E × N) Ans where
  drift e e' := V.drift e.1 e'.1 ∧ e'.2 = e.2
  answer o s e a e' := V.answer o s e.1 a e'.1 ∧ e'.2 = f o s a e.2

/-- The surroundings together with the log of the operations answered so far, newest first. -/
def Env.traced (V : Env S E Ans) : Env S (E × List (Sigma Ans)) Ans where
  drift e e' := V.drift e.1 e'.1 ∧ e'.2 = e.2
  answer o s e a e' := V.answer o s e.1 a e'.1 ∧ e'.2 = ⟨o, a⟩ :: e.2

/-- The surroundings together with the operations answered so far and the stores they were asked
from, newest first. -/
abbrev Env.observed (V : Env S E Ans) : Env S (E × List (S × Sigma Ans)) Ans :=
  V.noted fun o s a l ↦ (s, ⟨o, a⟩) :: l

/-- The surroundings together with the operations answered so far and the states they were answered
in, newest first. -/
abbrev Env.filmed (V : Env S E Ans) : Env S (E × List (Sigma Ans × E)) Ans :=
  V.recorded fun o _ e a l ↦ (⟨o, a⟩, e) :: l

variable {V : Env S E Ans} {G : Op → S → E → Prop} {R : ℕ → ℕ → Prop}
  {f : (o : Op) → S → Ans o → N → N} {g : (o : Op) → S → E → Ans o → N → N}

theorem Env.Drifts.unrecorded {e e' : E × N} (h : (V.recorded g).Drifts e e') : V.Drifts e.1 e'.1 ∧
    e'.2 = e.2 := by
  induction h with
  | refl => exact ⟨.refl _ _, rfl⟩
  | tail _ hd ih => exact ⟨ih.1.trans (Relation.ReflTransGen.single hd.1), hd.2.trans ih.2⟩

theorem Env.Drifts.unnoted {e e' : E × N} (h : (V.noted f).Drifts e e') : V.Drifts e.1 e'.1 ∧ e'.2 =
    e.2 :=
  Env.Drifts.unrecorded (g := fun o s _ a ↦ f o s a) h

theorem Env.Drifts.untraced {e e' : E × List (Sigma Ans)} (h : V.traced.Drifts e e') :
    V.Drifts e.1 e'.1 ∧ e'.2 = e.2 :=
  Env.Drifts.unnoted (N := List (Sigma Ans)) (f := fun o _ a l ↦ ⟨o, a⟩ :: l) h

/-- Every execution has a record. -/
theorem Reaches.recorded {c c' : Config S E Ans α} (h : Reaches V c c') (n : N) :
    ∃ n', Reaches (V.recorded g) ⟨c.prog, c.store, c.env, n⟩ ⟨c'.prog, c'.store, c'.env,
      n'⟩ := by
  induction h with
  | refl => exact ⟨n, .refl _⟩
  | tail _ hs ih =>
    obtain ⟨n', ih⟩ := ih
    cases hs with
    | read k s e => exact ⟨n', ih.trans (.step (.read k s (e, n')))⟩
    | write s' p s e => exact ⟨n', ih.trans (.step (.write s' p s (e, n')))⟩
    | @call o a s e e' k ha =>
      have hans : (V.recorded g).answer o s (e, n') a (e', g o s e a n') := ⟨ha, rfl⟩
      exact ⟨g o s e a n', ih.trans (.step (.call k hans))⟩
    | turn body k s e => exact ⟨n', ih.trans (.step (.turn body k s (e, n')))⟩
    | @drift p s e e' hd =>
      have hdrift : (V.recorded g).drift (e, n') (e', n') := ⟨hd, rfl⟩
      exact ⟨n', ih.trans (.step (.drift hdrift))⟩

theorem Reaches.noted {c c' : Config S E Ans α} (h : Reaches V c c') (n : N) :
    ∃ n', Reaches (V.noted f) ⟨c.prog, c.store, c.env, n⟩ ⟨c'.prog, c'.store, c'.env, n'⟩ :=
  h.recorded (g := fun o s _ a ↦ f o s a) n

theorem Reaches.traced {c c' : Config S E Ans α} (h : Reaches V c c') (l : List (Sigma Ans)) :
    ∃ l', Reaches V.traced ⟨c.prog, c.store, c.env, l⟩ ⟨c'.prog, c'.store, c'.env, l'⟩ :=
  h.noted (N := List (Sigma Ans)) (f := fun o _ a l ↦ ⟨o, a⟩ :: l) l

theorem Returns.recorded {p : Program S Ans α} {s s' : S} {e e' : E} {a : α}
    (h : Returns V p s e a s' e') (n : N) : ∃ n', Returns (V.recorded g) p s (e, n) a s' (e', n') :=
  Reaches.recorded h n

theorem Returns.noted {p : Program S Ans α} {s s' : S} {e e' : E} {a : α}
    (h : Returns V p s e a s' e') (n : N) : ∃ n', Returns (V.noted f) p s (e, n) a s' (e', n') :=
  Reaches.noted h n

theorem Returns.traced {p : Program S Ans α} {s s' : S} {e e' : E} {a : α}
    (h : Returns V p s e a s' e') : ∃ l, Returns V.traced p s (e, []) a s' (e', l) :=
  Reaches.traced h []

theorem Performs.traced {p : Program S Ans α} {s s' : S} {e e' : E} {o : Op}
    (h : Performs V p s e o s' e') : ∃ l, Performs V.traced p s (e, []) o s' (e', l) := by
  obtain ⟨k, hk⟩ := h
  obtain ⟨l, hl⟩ := Reaches.traced hk []
  exact ⟨l, k, hl⟩

/-! ## Answers that the record vouches for -/

/-- The surroundings, as far as their answers satisfy `P`. -/
def Env.whose (V : Env S E Ans) (P : (o : Op) → S → Ans o → Prop) : Env S E Ans where
  drift := V.drift
  answer o s e a e' := V.answer o s e a e' ∧ P o s a

section

variable {P : (o : Op) → S → Ans o → Prop} {good : N → Prop}

/-- If the record, once bad, stays so, and is bad after every answer that does not satisfy `P`, then
with a good record in the end all the answers have satisfied it. -/
theorem Reaches.noted_whose (hgood : ∀ o s a n, good (f o s a n) → good n ∧ P o s a)
    {c c' : Config S (E × N) Ans α} (h : Reaches (V.noted f) c c') (hc : good c'.env.2) :
    Reaches ((V.whose P).noted f) c c' := by
  induction h with
  | refl => exact .refl _
  | tail _ hs ih =>
    cases hs with
    | read k s e => exact (ih hc).trans (.step (.read k s e))
    | write s' p s e => exact (ih hc).trans (.step (.write s' p s e))
    | @call o a s e e' k ha =>
      obtain ⟨ha, hn⟩ := ha
      have hg := hgood o s a e.2 (hn ▸ hc)
      exact (ih hg.1).trans (.step (.call k ⟨⟨ha, hg.2⟩, hn⟩))
    | turn body k s e => exact (ih hc).trans (.step (.turn body k s e))
    | @drift p s e e' hd =>
      have hg : good e.2 := hd.2 ▸ hc
      exact (ih hg).trans (.step (.drift hd))

theorem Performs.noted_whose (hgood : ∀ o s a n, good (f o s a n) → good n ∧ P o s a)
    {p : Program S Ans α} {s s' : S} {e e' : E × N} {o : Op}
    (h : Performs (V.noted f) p s e o s' e') (he : good e'.2) :
    Performs ((V.whose P).noted f) p s e o s' e' := by
  obtain ⟨k, hk⟩ := h
  exact ⟨k, Reaches.noted_whose hgood hk he⟩

end

/-! ## Recording a run against a script -/

/-- One step against a handler, recorded. -/
def stepNoted (h : (o : Op) → E → Ans o × E) (f : (o : Op) → S → Ans o → N → N)
    (c : Config S (E × N) Ans α) : Config S (E × N) Ans α :=
  stepWith (fun o e ↦ ((h o e.1).1, (h o e.1).2, f o c.store (h o e.1).1 e.2)) c

/-- `n` steps against a handler, recorded. -/
def runNoted (h : (o : Op) → E → Ans o × E) (f : (o : Op) → S → Ans o → N → N) :
    ℕ → Config S (E × N) Ans α → Config S (E × N) Ans α
  | 0, c => c
  | n + 1, c => runNoted h f n (stepNoted h f c)

section

variable {h : (o : Op) → E → Ans o × E} (hV : ∀ o s e, V.answer o s e (h o e).1 (h o e).2)

include hV

theorem reaches_runNoted : ∀ (n : ℕ) (c : Config S (E × N) Ans α),
    Reaches (V.noted f) c (runNoted h f n c)
  | 0, c => .refl c
  | n + 1, c => by
    refine Reaches.trans ?_ (reaches_runNoted n (stepNoted h f c))
    obtain ⟨p, s, e⟩ := c
    cases p with
    | done a => exact .refl _
    | read k => exact .step (.read k s e)
    | write s' p => exact .step (.write s' p s e)
    | call o k => exact .step (.call k ⟨hV o s e.1, rfl⟩)
    | loop body k => exact .step (.turn body k s e)

theorem returns_runNoted {n : ℕ} {p : Program S Ans α} {s : S} {e : E × N} {a : α}
    (hn : (runNoted h f n ⟨p, s, e⟩).prog.result? = some a) :
    Returns (V.noted f) p s e a (runNoted h f n ⟨p, s, e⟩).store
    (runNoted h f n ⟨p, s, e⟩).env := by
  have hr := reaches_runNoted (f := f) hV n ⟨p, s, e⟩
  replace hn := Program.eq_done_of_result? hn
  generalize runNoted h f n ⟨p, s, e⟩ = c at hn hr
  obtain ⟨_, s', e'⟩ := c
  subst hn
  exact hr

theorem performs_runNoted {n : ℕ} {p : Program S Ans α} {s : S} {e : E × N} {o : Op}
    (hn : (runNoted h f n ⟨p, s, e⟩).prog.asks? = some o) :
    Performs (V.noted f) p s e o (runNoted h f n ⟨p, s, e⟩).store
    (runNoted h f n ⟨p, s, e⟩).env := by
  have hr := reaches_runNoted (f := f) hV n ⟨p, s, e⟩
  obtain ⟨k, hk⟩ := Program.eq_call_of_asks? hn
  generalize runNoted h f n ⟨p, s, e⟩ = c at hk hr
  obtain ⟨_, s', e'⟩ := c
  subst hk
  exact ⟨k, hr⟩

end

/-! ## Conditions on the record alone

Where guard and postcondition look at nothing of the surroundings but the record, drift goes
unnoticed, and every answer has to be reckoned with. -/

/-- The precondition of `p`, in surroundings with a record, for a guard and a postcondition that
look at the record only. -/
def Recorded (V : Env S E Ans) (f : (o : Op) → S → Ans o → N → N) (G : Op → S → N → Prop)
    (p : Program S Ans α) (Q : α → S → N → Prop) (s : S) (n : N) : Prop :=
  ∀ ε : E, wlp (V.noted f) (fun o s e ↦ G o s e.2) p (fun a s e ↦ Q a s e.2) s (ε, n)

namespace Recorded

variable {G : Op → S → N → Prop} {Q : α → S → N → Prop} {s : S} {n : N}

theorem imp {Q' : α → S → N → Prop} {p : Program S Ans α} (h : Recorded V f G p Q s n)
    (hQ : ∀ a s n, Q a s n → Q' a s n) : Recorded V f G p Q' s n :=
  fun ε ↦ (h ε).imp fun a s e ↦ hQ a s e.2

theorem guard {G' : Op → S → N → Prop} {p : Program S Ans α} (h : Recorded V f G p Q s n)
    (hG : ∀ o s n, G o s n → G' o s n) : Recorded V f G' p Q s n :=
  fun ε ↦ pre.guard (h ε) fun o s e ↦ hG o s e.2

theorem pure {a : α} (h : Q a s n) : Recorded V f G (Pure.pure a) Q s n := by
  intro ε e' hd
  rw [hd.unnoted.2]
  exact h

theorem bind {p : Program S Ans α} {k : α → Program S Ans β} {Q : β → S → N → Prop}
    (h : Recorded V f G p (fun a ↦ Recorded V f G (k a) Q) s n) : Recorded V f G (p >>= k) Q s n :=
  fun ε ↦ (h ε).seq fun _ _ e he ↦ he e.1

theorem seq {p : Program S Ans α} {k : α → Program S Ans β} {M : α → S → N → Prop}
    {Q : β → S → N → Prop} (h : Recorded V f G p M s n)
    (hk : ∀ a s n, M a s n → Recorded V f G (k a) Q s n) :
    Recorded V f G (p >>= k) Q s n := bind (h.imp hk)

theorem get_bind {k : S → Program S Ans α} (h : Recorded V f G (k s) Q s n) :
    Recorded V f G (get >>= k) Q s n := h

theorem set_bind {s' : S} {k : PUnit → Program S Ans α} (h : Recorded V f G (k ⟨⟩) Q s' n) :
    Recorded V f G (set s' >>= k) Q s n := h

theorem modify_bind {g : S → S} {k : PUnit → Program S Ans α}
    (h : Recorded V f G (k ⟨⟩) Q (g s) n) : Recorded V f G (modify g >>= k) Q s n := h

theorem modifyGet_bind {g : S → β × S} {k : β → Program S Ans α}
    (h : Recorded V f G (k (g s).1) Q (g s).2 n) : Recorded V f G (modifyGet g >>= k) Q s n := h

theorem update {g : S → S} {Q : PUnit → S → N → Prop} (h : Q ⟨⟩ (g s) n) :
    Recorded V f G (modify g) Q s n := by
  intro ε e' hd
  rw [hd.unnoted.2]
  exact h

/-- The surroundings decide which answers are possible. -/
theorem answer_bind {o : Op} {k : Ans o → Program S Ans α} (hG : G o s n)
    (hk : ∀ ε a ε', V.answer o s ε a ε' → Recorded V f G (k a) Q s (f o s a n)) :
    Recorded V f G (.perform o >>= k) Q s n := by
  rintro ε ⟨ε₁, n₁⟩ hd
  obtain rfl : n₁ = n := hd.unnoted.2
  refine ⟨hG, ?_⟩
  rintro a ⟨ε₂, n₂⟩ ⟨ha, rfl⟩
  exact hk _ a _ ha ε₂

theorem perform_bind {o : Op} {k : Ans o → Program S Ans α} (hG : G o s n)
    (hk : ∀ a, Recorded V f G (k a) Q s (f o s a n)) : Recorded V f G (.perform o >>= k) Q s n :=
  answer_bind hG fun _ a _ _ ↦ hk a

theorem perform {o : Op} {Q : Ans o → S → N → Prop} (hG : G o s n)
    (hQ : ∀ a, Q a s (f o s a n)) : Recorded V f G (.perform o) Q s n :=
  perform_bind hG fun a ↦ pure (hQ a)

theorem discard_perform {o : Op} {Q : PUnit → S → N → Prop} (hG : G o s n)
    (hQ : ∀ a, Q ⟨⟩ s (f o s a n)) : Recorded V f G (discard (.perform o)) Q s n :=
  perform_bind hG fun a ↦ pure (hQ a)

theorem ite {c : Prop} [Decidable c] {p q : Program S Ans α} (hp : c → Recorded V f G p Q s n)
    (hq : ¬c → Recorded V f G q Q s n) : Recorded V f G (if c then p else q) Q s n :=
  fun ε ↦ pre_ite (fun hc ↦ hp hc ε) fun hc ↦ hq hc ε

theorem when {c : Prop} [Decidable c] {p : Program S Ans Unit} {Q : Unit → S → N → Prop}
    (hp : c → Recorded V f G p Q s n) (hq : ¬c → Q () s n) : Recorded V f G (.when c p) Q s n :=
  ite hp fun hc ↦ pure (hq hc)

theorem when_bind {c : Prop} [Decidable c] {p : Program S Ans Unit} {k : Unit → Program S Ans α}
    (hp : c → Recorded V f G (p >>= k) Q s n) (hq : ¬c → Recorded V f G (k ()) Q s n) :
    Recorded V f G (.when c p >>= k) Q s n :=
  fun ε ↦ pre_when_bind (fun hc ↦ hp hc ε) fun hc ↦ hq hc ε

/-- The loop rule. -/
theorem forever {body : Program S Ans (Option β)} {Q : β → S → N → Prop} (J : S → N → Prop)
    (h : J s n) (hbody : ∀ s n, J s n → Recorded V f G body (fun r s n ↦ match r with
      | none => J s n
      | some b => Q b s n) s n) : Recorded V f G (.forever body) Q s n := by
  intro ε
  refine wlp_forever (fun s e ↦ J s e.2) h fun s e hJ ↦ (hbody s e.2 hJ e.1).imp ?_
  rintro (_ | b) s e hr
  · exact hr
  · intro e' hd
    rw [hd.unnoted.2]
    exact hr

/-- What is recorded holds at every return. -/
theorem returns {p : Program S Ans α} (h : Recorded V f G p Q s n) {a : α} {s' : S} {e : E}
    {e' : E × N} (hr : Returns (V.noted f) p s (e, n) a s' e') : Q a s' e'.2 := (h e).returns hr

/-- And the guard at every operation. -/
theorem performs {p : Program S Ans α} (h : Recorded V f G p Q s n) {o : Op} {s' : S} {e : E}
    {e' : E × N} (hp : Performs (V.noted f) p s (e, n) o s' e') : G o s' e'.2 := (h e).performs hp

end Recorded

/-- The log `l'` extends `l` by entries satisfying `B`. -/
def Grown (B : Sigma Ans → Prop) (l l' : List (Sigma Ans)) : Prop :=
  ∃ new, l' = new ++ l ∧ ∀ x ∈ new, B x

namespace Grown

variable {B : Sigma Ans → Prop} {l l₁ l₂ : List (Sigma Ans)}

theorem refl (B : Sigma Ans → Prop) (l : List (Sigma Ans)) : Grown B l l := ⟨[], rfl, by simp⟩

theorem trans (h₁ : Grown B l l₁) (h₂ : Grown B l₁ l₂) : Grown B l l₂ := by
  obtain ⟨new₁, rfl, hB₁⟩ := h₁
  obtain ⟨new₂, rfl, hB₂⟩ := h₂
  refine ⟨new₂ ++ new₁, (List.append_assoc _ _ _).symm, fun x hx ↦ ?_⟩
  exact (List.mem_append.mp hx).elim (hB₂ x) (hB₁ x)

theorem cons {x : Sigma Ans} (hx : B x) (l : List (Sigma Ans)) : Grown B l (x :: l) :=
  ⟨[x], rfl, by simpa using hx⟩

/-- An entry of the longer log is new or was there before. -/
theorem mem {x : Sigma Ans} (h : Grown B l l₁) (hx : x ∈ l₁) : B x ∨ x ∈ l := by
  obtain ⟨new, rfl, hB⟩ := h
  exact (List.mem_append.mp hx).imp (hB x) id

end Grown

/-- What the guard says about every operation, the log says about every entry. -/
theorem pre.traced {B : Sigma Ans → Prop}
    (hB : ∀ {o s e a e'}, G o s e → V.answer o s e a e' → B ⟨o, a⟩) {p : Program S Ans α} :
    ∀ {Q : α → S → E → Prop} {s : S} {e : E} {l : List (Sigma Ans)}, pre V G R p Q s e →
      pre V.traced (fun o s e ↦ G o s e.1) R p (fun a s e ↦ Q a s e.1 ∧ Grown B l e.2) s
      (e, l) := by
  induction p with
  | done a =>
    intro Q s e l h e' he
    obtain ⟨hd, hl⟩ := he.untraced
    exact ⟨h _ hd, hl ▸ .refl B _⟩
  | read k ih => intro Q s e l h; exact ih _ h
  | write s' p ih => intro Q s e l h; exact ih h
  | call o k ih =>
    rintro Q s e l h ⟨e₁, l₁⟩ he
    obtain ⟨hd, rfl⟩ := he.untraced
    obtain ⟨hg, hk⟩ := h _ hd
    refine ⟨hg, ?_⟩
    rintro a ⟨e₂, l₂⟩ ⟨ha, rfl⟩
    refine (ih a (hk a e₂ ha)).imp fun a s e hq ↦ ⟨hq.1, ?_⟩
    exact (Grown.cons (hB hg ha) _).trans hq.2
  | loop body k ihb ihk =>
    rintro Q s e l ⟨J, ⟨n, hn⟩, hstep⟩
    refine ⟨fun n s e ↦ J n s e.1 ∧ Grown B l e.2, ⟨n, hn, .refl B l⟩, ?_⟩
    rintro n s ⟨e, l₁⟩ ⟨hJ, hl⟩
    refine (ihb (l := l₁) (hstep n s e hJ)).imp ?_
    rintro (_ | b) s ⟨e, l₂⟩ ⟨hr, hl₂⟩
    · obtain ⟨m, hm, hJm⟩ := hr
      exact ⟨m, hm, hJm, hl.trans hl₂⟩
    · exact (ihk b hr).imp fun a s e hq ↦ ⟨hq.1, (hl.trans hl₂).trans hq.2⟩

end Effect
