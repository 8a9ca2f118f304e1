import WsmDriver.Effect.Execution

/-!
# Finite executions

Surroundings that move by themselves can do so forever, and then no execution is finite although the
program does nothing in it. `Env.bundled` counts such moves as part of the answer that follows them,
so that a run has the steps of the program only. A program that halts in these surroundings takes
finitely many steps whatever the surroundings do, and if they always answer, it returns.

A variant in `ℕ` is not enough for a loop that waits for something that comes, but not within any
number of turns fixed beforehand. `halts_forever` asks for a well-founded relation instead.
-/

namespace Effect

variable {S E Op : Type} {Ans : Op → Type} {α β : Type} {V : Env S E Ans}
    {G : Op → S → E → Prop}

/-- The surroundings whose moves by themselves are part of their answers, and nothing else. -/
def Env.bundled (V : Env S E Ans) : Env S E Ans := ⟨fun _ _ ↦ False, V.eager.answer⟩

theorem Env.bundled_drift (V : Env S E Ans) (e e' : E) : ¬V.bundled.drift e e' := id

theorem Env.bundled_le (V : Env S E Ans) : V.bundled ≤ V.eager := ⟨False.elim, id⟩

theorem Env.bundled_drifts {e e' : E} (h : V.bundled.Drifts e e') : e' = e :=
  h.induct (P := fun e' ↦ e' = e) (fun _ _ hd _ ↦ False.elim hd) rfl

theorem Reaches.of_bundled {c c' : Config S E Ans α} (h : Reaches V.bundled c c') :
    Reaches V c c' :=
  .of_eager (h.mono V.bundled_le)

/-- What is shown of all surroundings holds where their moves are part of their answers. -/
theorem pre.bundled {R : ℕ → ℕ → Prop} {p : Program S Ans α} :
    ∀ {Q : α → S → E → Prop} {s : S} {e : E}, pre V G R p Q s e → pre V.bundled
    (fun _ _ _ ↦ True) R p Q s e := by
  induction p with
  | done a =>
    intro Q s e h e' hd
    rw [Env.bundled_drifts hd]
    exact h e (.refl _ _)
  | read k ih => intro Q s e h; exact ih _ h
  | write s' p ih => intro Q s e h; exact ih h
  | call o k ih =>
    intro Q s e h e₁ hd
    refine ⟨trivial, fun a e₂ ⟨e₃, hd', ha⟩ ↦ ih a ?_⟩
    rw [Env.bundled_drifts hd] at hd'
    exact (h e₃ hd').2 a e₂ ha
  | loop body k ihb ihk =>
    rintro Q s e ⟨J, hJ, hstep⟩
    refine ⟨J, hJ, fun n s e hn ↦ (ihb (hstep n s e hn)).imp ?_⟩
    rintro (_ | b) s e h
    · exact h
    · exact ihk b h

theorem wp_halts_bundled {p : Program S Ans α} {Q : α → S → E → Prop} {s : S} {e : E}
    (h : wp V G p Q s e) : Halts V.bundled p s e := wp_halts (.of_none V.bundled_drift) h.bundled

/-! ## Sequences -/

/-- A step of a sequence is a step of its first program, if that has not returned. -/
theorem Step.of_bind {p : Program S Ans α} {f : α → Program S Ans β} {s : S} {e : E}
    {c : Config S E Ans β} (h : Step V ⟨p.bind f, s, e⟩ c) :
    (∃ a, p = .done a) ∨ ∃ c₁ : Config S E Ans α, Step V ⟨p, s, e⟩ c₁ ∧ c =
    ⟨c₁.prog.bind f, c₁.store, c₁.env⟩ := by
  cases p with
  | done a => exact .inl ⟨a, rfl⟩
  | read k =>
    refine .inr ?_
    cases h with
    | read => exact ⟨_, .read k s e, rfl⟩
    | drift hd => exact ⟨_, .drift hd, rfl⟩
  | write s' p =>
    refine .inr ?_
    cases h with
    | write => exact ⟨_, .write s' p s e, rfl⟩
    | drift hd => exact ⟨_, .drift hd, rfl⟩
  | call o k =>
    refine .inr ?_
    cases h with
    | call _ ha => exact ⟨_, .call k ha, rfl⟩
    | drift hd => exact ⟨_, .drift hd, rfl⟩
  | loop body k =>
    refine .inr ?_
    cases h with
    | turn =>
      refine ⟨_, .turn body k s e, ?_⟩
      dsimp only
      rw [Program.bind_assoc]
      congr 2
      funext r
      cases r <;> rfl
    | drift hd => exact ⟨_, .drift hd, rfl⟩

/-- If a program halts, and so does what follows each of its returns, the sequence halts. -/
theorem Halts.seq {p : Program S Ans α} {f : α → Program S Ans β} {s : S} {e : E}
    (hp : Halts V p s e) (hf : ∀ a s' e', Returns V p s e a s' e' → Halts V (f a) s' e') :
    Halts V (p >>= f) s e := by
  have hall : ∀ c : Config S E Ans α, Acc (fun c' c ↦ Step V c c') c →
      (∀ a s' e', Reaches V c ⟨.done a, s', e'⟩ → Halts V (f a) s' e') →
      Halts V (c.prog.bind f) c.store c.env := by
    intro c hacc
    induction hacc with
    | intro c _ ih =>
      intro hf
      by_cases hdone : ∃ a, c.prog = .done a
      · obtain ⟨p, s, e⟩ := c
        obtain ⟨a, rfl⟩ := hdone
        exact hf a s e (.refl _)
      · refine Acc.intro _ fun c' hs ↦ ?_
        obtain ⟨c₁, hs₁, rfl⟩ := hs.of_bind.resolve_left hdone
        exact ih c₁ hs₁ fun a s' e' hr ↦ hf a s' e' ((Reaches.step hs₁).trans hr)
  exact hall _ hp hf

/-! ## Surroundings that do not move by themselves -/

section

variable (hV : ∀ e e', ¬V.drift e e')

include hV

theorem Halts.done (a : α) (s : S) (e : E) : Halts V (.done a : Program S Ans α) s e :=
  Acc.intro _ fun c hs ↦ by
    cases hs with
    | drift hd => exact absurd hd (hV _ _)

theorem Halts.get_bind {f : S → Program S Ans α} {s : S} {e : E} (h : Halts V (f s) s e) :
    Halts V (get >>= f) s e :=
  Acc.intro _ fun c hs ↦ by
    cases hs with
    | read => exact h
    | drift hd => exact absurd hd (hV _ _)

theorem Halts.perform_bind {o : Op} {f : Ans o → Program S Ans α} {s : S} {e : E}
    (h : ∀ a e', V.answer o s e a e' → Halts V (f a) s e') : Halts V (.perform o >>= f) s e :=
  Acc.intro _ fun c hs ↦ by
    cases hs with
    | call _ ha => exact h _ _ ha
    | drift hd => exact absurd hd (hV _ _)

/-- A loop halts if each of its turns does and the turns after which it goes on go down in a
well-founded relation. -/
theorem halts_forever {r : S × E → S × E → Prop} (hr : WellFounded r) {I : S → E → Prop}
    {body : Program S Ans (Option β)}
    (hbody : ∀ s e, I s e → wp V G body (fun b s' e' ↦ b = none → I s' e' ∧
      r (s', e') (s, e)) s e)
    {s : S} {e : E} (h : I s e) : Halts V (.forever body) s e := by
  have hcalm : V.Calm := .of_none hV
  have hall : ∀ x : S × E, I x.1 x.2 → Halts V (.forever body) x.1 x.2 := by
    intro x
    induction x using hr.induction with
    | h x ih =>
      intro hI
      refine Acc.intro _ fun c hs ↦ ?_
      cases hs with
      | drift hd => exact absurd hd (hV _ _)
      | turn =>
        refine wp_halts_bind hcalm (hbody _ _ hI) ?_
        rintro (_ | b) s e hgo
        · obtain ⟨hI', hrel⟩ := hgo rfl
          exact ih (s, e) hrel hI'
        · exact .done hV b s e
  exact hall (s, e) h

end

/-! ## Returning -/

/-- Surroundings that always answer let a program go on until it has returned. -/
theorem Env.Responsive.step (hV : V.Responsive) (c : Config S E Ans α) :
    (∃ a, c.prog = .done a) ∨ ∃ c', Step V.bundled c c' := by
  obtain ⟨p, s, e⟩ := c
  cases p with
  | done a => exact .inl ⟨a, rfl⟩
  | read k => exact .inr ⟨_, .read k s e⟩
  | write s' p => exact .inr ⟨_, .write s' p s e⟩
  | call o k =>
    obtain ⟨e₁, a, e', hd, ha⟩ := hV o s e
    have hans : V.bundled.answer o s e a e' := ⟨e₁, hd, ha⟩
    exact .inr ⟨_, .call k hans⟩
  | loop body k => exact .inr ⟨_, .turn body k s e⟩

theorem Halts.returns (hV : V.Responsive) {p : Program S Ans α} {s : S} {e : E}
    (h : Halts V.bundled p s e) : ∃ a s' e', Returns V p s e a s' e' := by
  have hall : ∀ c : Config S E Ans α, Acc (fun c' c ↦ Step V.bundled c c') c →
      ∃ a s' e', Reaches V c ⟨.done a, s', e'⟩ := by
    intro c hacc
    induction hacc with
    | intro c _ ih =>
      rcases hV.step c with ⟨a, ha⟩ | ⟨c', hs⟩
      · obtain ⟨p, s, e⟩ := c
        obtain rfl := ha
        exact ⟨a, s, e, .refl _⟩
      · obtain ⟨a, s', e', hr⟩ := ih c' hs
        exact ⟨a, s', e', (Reaches.of_bundled (.step hs)).trans hr⟩
  exact hall _ h

end Effect
