import WsmDriver.Effect.Program

/-!
# Preconditions of effectful programs

`pre V G R p Q s e` is a condition on the starting point `(s, e)` under which every execution of
`p` in the environment `V` performs each operation `o` only at a moment where the guard `G o` holds
and, if it returns, returns into `Q`. It is computed by recursion on the program: an operation
quantifies over the answers of the environment, a loop asks for an invariant.

The relation `R` between the values of a loop's variant on consecutive turns separates the two
usual readings. With no demand on it the condition says nothing about termination (`wlp`); with
`<` every execution is finite (`wp`). Both share every structural rule.

Guards are what makes the condition speak about programs that never return: a guard is checked at
every operation any execution reaches, whether or not that execution is ever completed.

## Drift

The surroundings may move between any two steps. Only two places notice: an operation, which is
answered in the state reached by then, and the return. Store accesses commute with drift, which is
why `read` and `write` do not mention it.
-/

namespace Effect

variable {S E Op : Type} {Ans : Op → Type} {α β γ : Type}

/-- The precondition of `p` for the guard `G`, the variant relation `R` and the postcondition. -/
def pre (V : Env S E Ans) (G : Op → S → E → Prop) (R : ℕ → ℕ → Prop) :
    {α : Type} → Program S Ans α → (α → S → E → Prop) → S → E → Prop
  | _, .done a, Q, s, e => ∀ e', V.Drifts e e' → Q a s e'
  | _, .read k, Q, s, e => pre V G R (k s) Q s e
  | _, .write s' p, Q, _, e => pre V G R p Q s' e
  | _, .call o k, Q, s, e => ∀ e₁, V.Drifts e e₁ →
      G o s e₁ ∧ ∀ a e₂, V.answer o s e₁ a e₂ → pre V G R (k a) Q s e₂
  | _, .loop body k, Q, s, e => ∃ J : ℕ → S → E → Prop, (∃ n, J n s e) ∧
      ∀ n s e, J n s e → pre V G R body (fun r s e ↦ match r with
        | none => ∃ m, R m n ∧ J m s e
        | some b => pre V G R (k b) Q s e) s e

/-- Partial correctness: nothing is asked of the variants. -/
abbrev wlp (V : Env S E Ans) (G : Op → S → E → Prop) (p : Program S Ans α)
    (Q : α → S → E → Prop) : S → E → Prop := pre V G (fun _ _ ↦ True) p Q

/-- Total correctness: every loop decreases its variant. -/
abbrev wp (V : Env S E Ans) (G : Op → S → E → Prop) (p : Program S Ans α)
    (Q : α → S → E → Prop) : S → E → Prop := pre V G (· < ·) p Q

variable {V : Env S E Ans} {G : Op → S → E → Prop} {R : ℕ → ℕ → Prop}

/-! ## Structural rules -/

theorem pre_mono {G' : Op → S → E → Prop} (hG : ∀ o s e, G o s e → G' o s e)
    {p : Program S Ans α} :
    ∀ {Q Q' : α → S → E → Prop} {s : S} {e : E}, (∀ a s e, Q a s e → Q' a s e) →
      pre V G R p Q s e → pre V G' R p Q' s e := by
  induction p with
  | done a => intro Q Q' s e hQ h e' he; exact hQ _ _ _ (h e' he)
  | read k ih => intro Q Q' s e hQ h; exact ih _ hQ h
  | write s' p ih => intro Q Q' s e hQ h; exact ih hQ h
  | call o k ih =>
    intro Q Q' s e hQ h e₁ he
    exact ⟨hG _ _ _ (h e₁ he).1, fun a e₂ ha ↦ ih _ hQ ((h e₁ he).2 a e₂ ha)⟩
  | loop body k ihb ihk =>
    rintro Q Q' s e hQ ⟨J, hJ, hstep⟩
    refine ⟨J, hJ, fun n s e hn ↦ ihb ?_ (hstep n s e hn)⟩
    rintro (_ | b) s e h
    · exact h
    · exact ihk b hQ h

/-- The postcondition may be weakened. -/
theorem pre.imp {p : Program S Ans α} {Q Q' : α → S → E → Prop} {s : S} {e : E}
    (h : pre V G R p Q s e) (hQ : ∀ a s e, Q a s e → Q' a s e) : pre V G R p Q' s e :=
  pre_mono (fun _ _ _ hg ↦ hg) hQ h

/-- The guard may be weakened. -/
theorem pre.guard {G' : Op → S → E → Prop} {p : Program S Ans α} {Q : α → S → E → Prop}
    {s : S} {e : E} (h : pre V G R p Q s e) (hG : ∀ o s e, G o s e → G' o s e) :
    pre V G' R p Q s e :=
  pre_mono hG (fun _ _ _ hq ↦ hq) h

/-- What is shown of all surroundings is shown of some. -/
theorem pre.antitone {V' : Env S E Ans} (hV : V' ≤ V) {p : Program S Ans α} :
    ∀ {Q : α → S → E → Prop} {s : S} {e : E}, pre V G R p Q s e → pre V' G R p Q s e := by
  induction p with
  | done a => intro Q s e h e' he; exact h e' (he.mono hV)
  | read k ih => intro Q s e h; exact ih _ h
  | write s' p ih => intro Q s e h; exact ih h
  | call o k ih =>
    intro Q s e h e₁ he
    obtain ⟨hG, hk⟩ := h e₁ (he.mono hV)
    exact ⟨hG, fun a e₂ ha ↦ ih a (hk a e₂ (hV.answer ha))⟩
  | loop body k ihb ihk =>
    rintro Q s e ⟨J, hJ, hstep⟩
    refine ⟨J, hJ, fun n s e hn ↦ (ihb (hstep n s e hn)).imp ?_⟩
    rintro (_ | b) s e h
    · exact h
    · exact ihk b h

/-- A totally correct program is partially correct. -/
theorem wp.wlp {p : Program S Ans α} : ∀ {Q : α → S → E → Prop} {s : S} {e : E},
    wp V G p Q s e → Effect.wlp V G p Q s e := by
  induction p with
  | done a => intro Q s e h; exact h
  | read k ih => intro Q s e h; exact ih _ h
  | write s' p ih => intro Q s e h; exact ih h
  | call o k ih =>
    intro Q s e h e₁ he; exact ⟨(h e₁ he).1, fun a e₂ ha ↦ ih a ((h e₁ he).2 a e₂ ha)⟩
  | loop body k ihb ihk =>
    rintro Q s e ⟨J, hJ, hstep⟩
    refine ⟨J, hJ, fun n s e hn ↦ (ihb (hstep n s e hn)).imp ?_⟩
    rintro (_ | b) s e h
    · obtain ⟨m, -, hm⟩ := h
      exact ⟨m, trivial, hm⟩
    · exact ihk b h

/-- A precondition survives a move of the surroundings. -/
theorem pre.drifts {p : Program S Ans α} :
    ∀ {Q : α → S → E → Prop} {s : S} {e e' : E}, pre V G R p Q s e → V.Drifts e e' →
      pre V G R p Q s e' := by
  induction p with
  | done a => intro Q s e e' h he e'' he'; exact h e'' (he.trans he')
  | read k ih => intro Q s e e' h he; exact ih _ h he
  | write s' p ih => intro Q s e e' h he; exact ih h he
  | call o k _ => intro Q s e e' h he e₁ he₁; exact h e₁ (he.trans he₁)
  | loop body k ihb _ =>
    rintro Q s e e' ⟨J, ⟨n, hn⟩, hstep⟩ he
    -- The invariant need not be stable, so it is closed under drift first.
    refine ⟨fun n s e ↦ ∃ e₀, J n s e₀ ∧ V.Drifts e₀ e, ⟨n, e, hn, he⟩, ?_⟩
    rintro n s e ⟨e₀, hJ, hd⟩
    refine pre.imp (ihb (hstep n s e₀ hJ) hd) ?_
    rintro (_ | b) s e h
    · obtain ⟨m, hm, hJm⟩ := h
      exact ⟨m, hm, e, hJm, .refl _ _⟩
    · exact h

theorem pre_bind {p : Program S Ans α} {f : α → Program S Ans β} :
    ∀ {Q : β → S → E → Prop} {s : S} {e : E},
      pre V G R p (fun a s e ↦ pre V G R (f a) Q s e) s e → pre V G R (p >>= f) Q s e := by
  induction p with
  | done a => intro Q s e h; exact h e (.refl _ _)
  | read k ih => intro Q s e h; exact ih _ h
  | write s' p ih => intro Q s e h; exact ih h
  | call o k ih =>
    intro Q s e h e₁ he
    exact ⟨(h e₁ he).1, fun a e₂ ha ↦ ih a ((h e₁ he).2 a e₂ ha)⟩
  | loop body k _ ihk =>
    rintro Q s e ⟨J, hJ, hstep⟩
    refine ⟨J, hJ, fun n s e hn ↦ (hstep n s e hn).imp ?_⟩
    rintro (_ | b) s e h
    · exact h
    · exact ihk b h

/-- Sequencing through a named intermediate condition. -/
theorem pre.seq {p : Program S Ans α} {f : α → Program S Ans β} {M : α → S → E → Prop}
    {Q : β → S → E → Prop} {s : S} {e : E} (h : pre V G R p M s e)
    (hf : ∀ a s e, M a s e → pre V G R (f a) Q s e) : pre V G R (p >>= f) Q s e :=
  pre_bind (h.imp hf)

/-! ## Rules for the monad operations

Each of them strips one operation from the front of a program. -/

@[simp] theorem pre_done {a : α} {Q : α → S → E → Prop} {s : S} {e : E} :
    pre V G R (.done a) Q s e ↔ ∀ e', V.Drifts e e' → Q a s e' := Iff.rfl

@[simp] theorem pre_pure {a : α} {Q : α → S → E → Prop} {s : S} {e : E} :
    pre V G R (pure a) Q s e ↔ ∀ e', V.Drifts e e' → Q a s e' := Iff.rfl

@[simp] theorem pre_get_bind {f : S → Program S Ans α} {Q : α → S → E → Prop} {s : S}
    {e : E} : pre V G R (get >>= f) Q s e ↔ pre V G R (f s) Q s e := Iff.rfl

@[simp] theorem pre_set_bind {s' : S} {f : PUnit → Program S Ans α} {Q : α → S → E → Prop}
    {s : S} {e : E} :
    pre V G R (set s' >>= f) Q s e ↔ pre V G R (f ⟨⟩) Q s' e := Iff.rfl

@[simp] theorem pre_modify_bind {g : S → S} {f : PUnit → Program S Ans α}
    {Q : α → S → E → Prop} {s : S} {e : E} :
    pre V G R (modify g >>= f) Q s e ↔ pre V G R (f ⟨⟩) Q (g s) e := Iff.rfl

@[simp] theorem pre_modify {g : S → S} {Q : PUnit → S → E → Prop} {s : S} {e : E} :
    pre V G R (modify g : Program S Ans PUnit) Q s e ↔ ∀ e', V.Drifts e e' → Q ⟨⟩ (g s) e' :=
  Iff.rfl

@[simp] theorem pre_modifyGet_bind {g : S → α × S} {f : α → Program S Ans β}
    {Q : β → S → E → Prop} {s : S} {e : E} :
    pre V G R (modifyGet g >>= f) Q s e ↔ pre V G R (f (g s).1) Q (g s).2 e := Iff.rfl

@[simp] theorem pre_perform_bind {o : Op} {f : Ans o → Program S Ans α}
    {Q : α → S → E → Prop} {s : S} {e : E} :
    pre V G R (.perform o >>= f) Q s e ↔ ∀ e₁, V.Drifts e e₁ →
      G o s e₁ ∧ ∀ a e₂, V.answer o s e₁ a e₂ → pre V G R (f a) Q s e₂ := Iff.rfl

theorem pre_ite {c : Prop} [Decidable c] {p q : Program S Ans α} {Q : α → S → E → Prop}
    {s : S} {e : E} (hp : c → pre V G R p Q s e) (hq : ¬c → pre V G R q Q s e) :
    pre V G R (if c then p else q) Q s e := by
  split
  · exact hp ‹_›
  · exact hq ‹_›

theorem pre_when_bind {c : Prop} [Decidable c] {p : Program S Ans Unit}
    {f : Unit → Program S Ans α} {Q : α → S → E → Prop} {s : S} {e : E}
    (hp : c → pre V G R (p >>= f) Q s e) (hf : ¬c → pre V G R (f ()) Q s e) :
    pre V G R (.when c p >>= f) Q s e := by
  unfold Program.when
  split
  · exact hp ‹_›
  · exact hf ‹_›

theorem pre_when {c : Prop} [Decidable c] {p : Program S Ans Unit} {Q : Unit → S → E → Prop}
    {s : S} {e : E} (hp : c → pre V G R p Q s e) (hq : ¬c → ∀ e', V.Drifts e e' → Q () s e') :
    pre V G R (.when c p) Q s e := by
  unfold Program.when
  split
  · exact hp ‹_›
  · exact hq ‹_›

/-- A discarded result is a result the postcondition does not look at. -/
theorem pre_discard {p : Program S Ans α} {Q : PUnit → S → E → Prop} {s : S} {e : E}
    (h : pre V G R p (fun _ s e ↦ ∀ e', V.Drifts e e' → Q ⟨⟩ s e') s e) :
    pre V G R (discard p) Q s e := pre_bind h

/-! ### Surroundings that do nothing by themselves -/

section Still

variable (hV : ∀ e e', ¬V.drift e e')

include hV

theorem Env.Drifts.still {e e' : E} (h : V.Drifts e e') : e' = e :=
  h.induct (P := fun e' ↦ e' = e) (fun _ _ hd _ ↦ absurd hd (hV _ _)) rfl

theorem pre_pure_still {a : α} {Q : α → S → E → Prop} {s : S} {e : E} (h : Q a s e) :
    pre V G R (pure a) Q s e := by
  intro e' he
  exact he.still hV ▸ h

theorem pre_modify_still {g : S → S} {Q : PUnit → S → E → Prop} {s : S} {e : E}
    (h : Q ⟨⟩ (g s) e) : pre V G R (modify g) Q s e := by
  intro e' he
  exact he.still hV ▸ h

theorem pre_perform_bind_still {o : Op} {f : Ans o → Program S Ans α} {Q : α → S → E → Prop}
    {s : S} {e : E} (hG : G o s e) (h : ∀ a e', V.answer o s e a e' → pre V G R (f a) Q s e') :
    pre V G R (.perform o >>= f) Q s e := by
  intro e₁ he
  obtain rfl := he.still hV
  exact ⟨hG, h⟩

theorem pre_perform_still {o : Op} {Q : Ans o → S → E → Prop} {s : S} {e : E} (hG : G o s e)
    (h : ∀ a e', V.answer o s e a e' → Q a s e') : pre V G R (.perform o) Q s e :=
  pre_perform_bind_still hV hG fun a e' ha ↦ pre_pure_still hV (h a e' ha)

end Still

/-- The loop rule without a variant. -/
theorem wlp_forever {body : Program S Ans (Option β)} {Q : β → S → E → Prop} {s : S} {e : E}
    (J : S → E → Prop) (h : J s e)
    (hbody : ∀ s e, J s e → wlp V G body (fun r s e ↦ match r with
      | none => J s e
      | some b => ∀ e', V.Drifts e e' → Q b s e') s e) :
    wlp V G (.forever body) Q s e := by
  refine ⟨fun _ ↦ J, ⟨0, h⟩, fun _ s e hJ ↦ (hbody s e hJ).imp ?_⟩
  rintro (_ | b) s e hr
  · exact ⟨0, trivial, hr⟩
  · exact hr

/-- A loop whose body always yields a value runs it once, whatever is asked of the variants. -/
theorem pre_forever_once {body : Program S Ans (Option β)} {Q : β → S → E → Prop} {s : S}
    {e : E}
    (hbody : pre V G R body (fun r s e ↦ ∃ b, r = some b ∧ ∀ e', V.Drifts e e' → Q b s e')
      s e) :
    pre V G R (.forever body) Q s e := by
  refine ⟨fun _ s' e' ↦ s' = s ∧ e' = e, ⟨0, rfl, rfl⟩, ?_⟩
  rintro n _ _ ⟨rfl, rfl⟩
  refine hbody.imp ?_
  rintro _ s e ⟨b, rfl, hr⟩
  exact hr

/-- A `for` loop over a list keeps an invariant indexed by what is left of the list. -/
theorem pre_forM {f : γ → Program S Ans PUnit} (J : List γ → S → E → Prop)
    (hdrift : ∀ s e e', V.Drifts e e' → J [] s e → J [] s e')
    (hstep : ∀ x l s e, J (x :: l) s e → pre V G R (f x) (fun _ ↦ J l) s e) :
    ∀ (l : List γ) {s : S} {e : E}, J l s e → pre V G R (l.forM f) (fun _ ↦ J []) s e := by
  intro l
  induction l with
  | nil => intro s e h e' he; exact hdrift s e e' he h
  | cons x l ih => intro s e h; exact (hstep x l s e h).seq fun _ s e hJ ↦ ih hJ

/-- Two analyses of a program, put together. -/
theorem wlp_and {G' : Op → S → E → Prop} {p : Program S Ans α} :
    ∀ {Q Q' : α → S → E → Prop} {s : S} {e : E}, wlp V G p Q s e → wlp V G' p Q' s e →
      wlp V (fun o s e ↦ G o s e ∧ G' o s e) p (fun a s e ↦ Q a s e ∧ Q' a s e) s e := by
  induction p with
  | done a => intro Q Q' s e h h' e' he; exact ⟨h e' he, h' e' he⟩
  | read k ih => intro Q Q' s e h h'; exact ih _ h h'
  | write s' p ih => intro Q Q' s e h h'; exact ih h h'
  | call o k ih =>
    intro Q Q' s e h h' e₁ he
    obtain ⟨hg, hk⟩ := h e₁ he
    obtain ⟨hg', hk'⟩ := h' e₁ he
    exact ⟨⟨hg, hg'⟩, fun a e₂ ha ↦ ih a (hk a e₂ ha) (hk' a e₂ ha)⟩
  | loop body k ihb ihk =>
    rintro Q Q' s e ⟨J, hJ, hstep⟩ ⟨J', hJ', hstep'⟩
    refine ⟨fun _ s e ↦ (∃ n, J n s e) ∧ ∃ n, J' n s e, ⟨0, hJ, hJ'⟩, ?_⟩
    rintro - s e ⟨⟨n, hn⟩, n', hn'⟩
    refine (ihb (hstep n s e hn) (hstep' n' s e hn')).imp ?_
    rintro (_ | b) s e ⟨hr, hr'⟩
    · obtain ⟨m, -, hm⟩ := hr
      obtain ⟨m', -, hm'⟩ := hr'
      exact ⟨0, trivial, ⟨m, hm⟩, m', hm'⟩
    · exact ihk b hr hr'

/-! ## Adequacy

The precondition is kept by every step, hence holds of every configuration an execution reaches.
Read off at an operation it is the guard, read off at a return it is the postcondition. -/

theorem pre_step {c c' : Config S E Ans α} {Q : α → S → E → Prop} (hs : Step V c c')
    (h : pre V G R c.prog Q c.store c.env) : pre V G R c'.prog Q c'.store c'.env := by
  cases hs with
  | read k s e => exact h
  | write s' p s e => exact h
  | call k ha => exact (h _ (.refl _ _)).2 _ _ ha
  | turn body k s e =>
    obtain ⟨J, ⟨n, hn⟩, hstep⟩ := h
    refine (hstep n s e hn).seq ?_
    rintro (_ | b) s e hr
    · obtain ⟨m, -, hm⟩ := hr
      exact ⟨J, ⟨m, hm⟩, hstep⟩
    · exact hr
  | drift hd => exact h.drifts (Relation.ReflTransGen.single hd)

theorem pre_reaches {c c' : Config S E Ans α} {Q : α → S → E → Prop} (hr : Reaches V c c')
    (h : pre V G R c.prog Q c.store c.env) : pre V G R c'.prog Q c'.store c'.env := by
  induction hr with
  | refl => exact h
  | tail _ hs ih => exact pre_step hs ih

theorem pre.returns {p : Program S Ans α} {Q : α → S → E → Prop} {s s' : S} {e e' : E} {a : α}
    (h : pre V G R p Q s e) (hr : Returns V p s e a s' e') : Q a s' e' :=
  pre_reaches (Q := Q) hr h e' (.refl _ _)

/-- A program that performs no operation has one result. -/
theorem pre_of_exec? {p : Program S Ans α} {Q : α → S → E → Prop} {s s' : S} {e : E} {a : α}
    (h : p.exec? s = some (a, s')) (hQ : ∀ e', V.Drifts e e' → Q a s' e') : pre V G R p Q s e := by
  induction p generalizing s with
  | done b =>
    obtain ⟨rfl, rfl⟩ := Prod.mk.inj (Option.some_inj.mp h)
    exact hQ
  | read k ih => exact ih s h hQ
  | write s₁ p ih => exact ih h hQ
  | call o k => exact absurd h (by simp [Program.exec?])
  | loop body k => exact absurd h (by simp [Program.exec?])

theorem Returns.iff_of_exec? {p : Program S Ans α} {s s' s₁ : S} {e e' : E} {a b : α}
    (h : p.exec? s = some (a, s')) : Returns V p s e b s₁ e' ↔ b = a ∧ s₁ = s' ∧
    V.Drifts e e' := by
  constructor
  · have hpre : Effect.wlp V (fun _ _ _ ↦ True) p (fun b s₁ e' ↦ b = a ∧ s₁ = s' ∧
        V.Drifts e e') s e :=
      pre_of_exec? h fun _ hd ↦ ⟨rfl, rfl, hd⟩
    exact hpre.returns
  · rintro ⟨rfl, rfl, hd⟩
    exact Reaches.trans (returns_of_exec? h) (.drifts hd)

theorem pre.performs {p : Program S Ans α} {Q : α → S → E → Prop} {s s' : S} {e e' : E}
    {o : Op} (h : pre V G R p Q s e) (hr : Performs V p s e o s' e') : G o s' e' := by
  obtain ⟨k, hk⟩ := hr
  exact (pre_reaches (Q := Q) hk h e' (.refl _ _)).1

/-- Every execution from here is finite. -/
def Halts (V : Env S E Ans) (p : Program S Ans α) (s : S) (e : E) : Prop :=
  Acc (fun c' c ↦ Step V c c') (⟨p, s, e⟩ : Config S E Ans α)

/-- Surroundings that cannot move by themselves forever. -/
def Env.Calm (V : Env S E Ans) : Prop := WellFounded fun e' e ↦ V.drift e e'

theorem Env.Calm.of_none (hV : ∀ e e', ¬V.drift e e') : V.Calm :=
  ⟨fun e ↦ Acc.intro e fun e' hd ↦ absurd hd (hV e e')⟩

/-- The continuation form of termination: a totally correct program followed by anything that
halts from its postcondition halts. Surroundings that move by themselves could move forever, so
they are assumed to be calm. -/
theorem wp_halts_bind (hV : V.Calm) {p : Program S Ans α} :
    ∀ {Q : α → S → E → Prop} {f : α → Program S Ans β} {s : S} {e : E}, wp V G p Q s e →
      (∀ a s e, Q a s e → Halts V (f a) s e) → Halts V (p.bind f) s e := by
  induction p with
  | done a => intro Q f s e h hf; exact hf a s e (h e (.refl _ _))
  | read k ih =>
    intro Q f s e h hf
    induction e using hV.induction with
    | h e ihe =>
      refine Acc.intro _ fun c hs ↦ ?_
      cases hs with
      | read _ _ _ => exact ih s h hf
      | drift hd => exact ihe _ hd (pre.drifts (p := .read k) h (.single hd))
  | write s' p ih =>
    intro Q f s e h hf
    induction e using hV.induction with
    | h e ihe =>
      refine Acc.intro _ fun c hs ↦ ?_
      cases hs with
      | write _ _ _ _ => exact ih h hf
      | drift hd => exact ihe _ hd (pre.drifts (p := .write s' p) (s := s) h (.single hd))
  | call o k ih =>
    intro Q f s e h hf
    induction e using hV.induction with
    | h e ihe =>
      refine Acc.intro _ fun c hs ↦ ?_
      cases hs with
      | call _ ha => exact ih _ ((h e (.refl _ _)).2 _ _ ha) hf
      | drift hd => exact ihe _ hd (pre.drifts (p := .call o k) h (.single hd))
  | loop body k ihb ihk =>
    rintro Q f s e ⟨J, ⟨n, hn⟩, hstep⟩ hf
    -- Induction on the variant, around the moves of the surroundings and the structure of the body.
    -- The invariant need not be stable, so it is closed under drift first.
    replace hn : ∃ e₀, J n s e₀ ∧ V.Drifts e₀ e := ⟨e, hn, .refl _ _⟩
    induction n using Nat.strongRecOn generalizing s e with
    | ind n ihn =>
      induction e using hV.induction with
      | h e ihe =>
        obtain ⟨e₀, hJ, he₀⟩ := hn
        refine Acc.intro _ fun c hs ↦ ?_
        cases hs with
        | turn _ _ _ _ =>
          refine ihb ((hstep n s e₀ hJ).drifts he₀) ?_
          rintro (_ | b) s e hr
          · obtain ⟨m, hm, hJ⟩ := hr
            exact ihn m hm ⟨e, hJ, .refl _ _⟩
          · exact ihk b hr hf
        | drift hd => exact ihe _ hd ⟨e₀, hJ, he₀.trans (.single hd)⟩

theorem wp_halts (hV : V.Calm) {p : Program S Ans α} {Q : α → S → E → Prop}
    {s : S} {e : E} (h : wp V G p Q s e) : Halts V p s e := by
  have hdone : ∀ a s e, Q a s e → Halts V (.done a : Program S Ans α) s e := by
    intro a s e ha
    clear ha
    induction e using hV.induction with
    | h e ihe =>
      refine Acc.intro _ fun c hs ↦ ?_
      cases hs with
      | drift hd => exact ihe _ hd
  simpa using wp_halts_bind hV h hdone

end Effect
