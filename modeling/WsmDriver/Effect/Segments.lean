import WsmDriver.Effect.Execution

/-!
# Programs that share their store

A program that yields lets others at its store. What it finds when it goes on need not be what it
left, so its executions fall into segments, from one yield to the next, and only a segment is
undisturbed.

`preY` is the precondition of a program that yields by performing the operation `y`. It is taken on
`Terms` agreed with the others: what a segment may have made of the store it began with, and what
the next one may count on. The conditions of a segment are relations, between the store the segment
began with and the present one, because what the others count on is what a segment leaves as it was.

A program that never performs `y` is a single segment, and its partial correctness is all there is
to show (`preY.of_wlp`). One that never writes its store leaves whatever it finds (`preY.silent`).
-/

namespace Effect

variable {S E Op : Type} {Ans : Op → Type} {α β γ : Type}

/-- The terms on which a program shares its store. -/
structure Terms (S E Op : Type) where
  /-- What holds at an operation, of the store its segment began with and the present one. -/
  guard : Op → S → S → E → Prop
  /-- What a segment that ends with a yield may have made of the store it began with. -/
  yields : S → S → E → Prop
  /-- What the last segment may have made of it. -/
  returns : S → S → E → Prop
  /-- What a program that goes on finds. -/
  finds : S → E → Prop

/-- The precondition of a program that yields at `y`. The first store is the one the segment began
with. -/
def preY (V : Env S E Ans) (y : Op) (T : Terms S E Op) :
    {α : Type} → Program S Ans α → (α → S → S → E → Prop) → S → S → E → Prop
  | _, .done a, Q, s₀, s, e => ∀ e', V.Drifts e e' → Q a s₀ s e'
  | _, .read k, Q, s₀, s, e => preY V y T (k s) Q s₀ s e
  | _, .write s' p, Q, s₀, _, e => preY V y T p Q s₀ s' e
  | _, .call o k, Q, s₀, s, e => ∀ e₁, V.Drifts e e₁ → T.guard o s₀ s e₁ ∧
      (o ≠ y → ∀ a e₂, V.answer o s e₁ a e₂ → preY V y T (k a) Q s₀ s e₂) ∧
      (o = y → T.yields s₀ s e₁ ∧ ∀ s' e' a e₂, T.finds s' e' →
        V.answer o s' e' a e₂ →
        preY V y T (k a) Q s' s' e₂)
  | _, .loop body k, Q, s₀, s, e => ∃ J : S → S → E → Prop, J s₀ s e ∧
      ∀ s₀ s e, J s₀ s e → preY V y T body (fun r s₀ s e ↦ match r with
        | none => J s₀ s e
        | some b => preY V y T (k b) Q s₀ s e) s₀ s e

variable {V : Env S E Ans} {y : Op} {T : Terms S E Op} {s₀ s : S} {e : E}

/-! ## Rules -/

/-- The postcondition may be weakened. -/
theorem preY.imp {p : Program S Ans α} :
    ∀ {Q Q' : α → S → S → E → Prop} {s₀ s : S} {e : E}, preY V y T p Q s₀ s e →
      (∀ a s₀ s e, Q a s₀ s e → Q' a s₀ s e) → preY V y T p Q' s₀ s e := by
  induction p with
  | done a => intro Q Q' s₀ s e h hQ e' he; exact hQ _ _ _ _ (h e' he)
  | read k ih => intro Q Q' s₀ s e h hQ; exact ih _ h hQ
  | write s' p ih => intro Q Q' s₀ s e h hQ; exact ih h hQ
  | call o k ih =>
    intro Q Q' s₀ s e h hQ e₁ he
    obtain ⟨hg, hne, hy⟩ := h e₁ he
    exact ⟨hg, fun ho a e₂ ha ↦ ih a (hne ho a e₂ ha) hQ,
      fun ho ↦ ⟨(hy ho).1, fun s' e' a e₂ hf ha ↦ ih a ((hy ho).2 s' e' a e₂ hf ha) hQ⟩⟩
  | loop body k ihb ihk =>
    rintro Q Q' s₀ s e ⟨J, hJ, hstep⟩ hQ
    refine ⟨J, hJ, fun s₀ s e hJ ↦ ihb (hstep s₀ s e hJ) ?_⟩
    rintro (_ | b) s₀ s e h
    · exact h
    · exact ihk b h hQ

/-- A precondition survives a move of the surroundings. -/
theorem preY.drifts {p : Program S Ans α} :
    ∀ {Q : α → S → S → E → Prop} {s₀ s : S} {e e' : E}, preY V y T p Q s₀ s e →
    V.Drifts e e' →
      preY V y T p Q s₀ s e' := by
  induction p with
  | done a => intro Q s₀ s e e' h he e'' he'; exact h e'' (he.trans he')
  | read k ih => intro Q s₀ s e e' h he; exact ih _ h he
  | write s' p ih => intro Q s₀ s e e' h he; exact ih h he
  | call o k _ => intro Q s₀ s e e' h he e₁ he₁; exact h e₁ (he.trans he₁)
  | loop body k ihb _ =>
    rintro Q s₀ s e e' ⟨J, hJ, hstep⟩ he
    -- The loop's invariant, weakened by what the environment may do before a turn.
    refine ⟨fun s₀ s e ↦ ∃ e₀, J s₀ s e₀ ∧ V.Drifts e₀ e, ⟨e, hJ, he⟩, ?_⟩
    rintro s₀ s e ⟨e₀, hJ, hd⟩
    refine preY.imp (ihb (hstep s₀ s e₀ hJ) hd) ?_
    rintro (_ | b) s₀ s e h
    · exact ⟨e, h, .refl _ _⟩
    · exact h

/-- Sequencing through a named intermediate condition. -/
theorem preY.seq {p : Program S Ans α} {f : α → Program S Ans β}
    {Q : β → S → S → E → Prop} :
    ∀ {M : α → S → S → E → Prop} {s₀ s : S} {e : E}, preY V y T p M s₀ s e →
      (∀ a s₀ s e, M a s₀ s e → preY V y T (f a) Q s₀ s e) → preY V y T
      (p >>= f) Q s₀ s e := by
  induction p with
  | done a => intro M s₀ s e h hf; exact hf a s₀ s e (h e (.refl _ _))
  | read k ih => intro M s₀ s e h hf; exact ih s h hf
  | write s' p ih => intro M s₀ s e h hf; exact ih h hf
  | call o k ih =>
    intro M s₀ s e h hf e₁ he
    obtain ⟨hg, hne, hy⟩ := h e₁ he
    exact ⟨hg, fun ho a e₂ ha ↦ ih a (hne ho a e₂ ha) hf,
      fun ho ↦ ⟨(hy ho).1, fun s' e' a e₂ hs ha ↦ ih a ((hy ho).2 s' e' a e₂ hs ha) hf⟩⟩
  | loop body k _ ihk =>
    rintro M s₀ s e ⟨J, hJ, hstep⟩ hf
    refine ⟨J, hJ, fun s₀ s e hJ ↦ (hstep s₀ s e hJ).imp ?_⟩
    rintro (_ | b) s₀ s e h
    · exact h
    · exact ihk b h hf

theorem preY_get_bind {f : S → Program S Ans α} {Q : α → S → S → E → Prop} :
    preY V y T (get >>= f) Q s₀ s e ↔ preY V y T (f s) Q s₀ s e := Iff.rfl

theorem preY_modify_bind {g : S → S} {f : PUnit → Program S Ans α}
    {Q : α → S → S → E → Prop} :
    preY V y T (modify g >>= f) Q s₀ s e ↔ preY V y T (f ⟨⟩) Q s₀ (g s) e := Iff.rfl

theorem preY_perform_bind {o : Op} (ho : o ≠ y) {f : Ans o → Program S Ans α}
    {Q : α → S → S → E → Prop} :
    preY V y T (.perform o >>= f) Q s₀ s e ↔ ∀ e₁, V.Drifts e e₁ →
      T.guard o s₀ s e₁ ∧ ∀ a e₂, V.answer o s e₁ a e₂ → preY V y T
      (f a) Q s₀ s e₂ := by
  refine forall_congr' fun e₁ ↦ forall_congr' fun _ ↦ and_congr_right fun _ ↦ ?_
  exact ⟨fun h ↦ h.1 ho, fun h ↦ ⟨fun _ ↦ h, fun hy ↦ absurd hy ho⟩⟩

/-- At a yield the segment ends, and the next one begins. -/
theorem preY_yield_bind {f : Ans y → Program S Ans α} {Q : α → S → S → E → Prop}
    (h : ∀ e₁, V.Drifts e e₁ → T.guard y s₀ s e₁ ∧ T.yields s₀ s e₁)
    (hf : ∀ s' e' a e₂, T.finds s' e' → V.answer y s' e' a e₂ →
      preY V y T (f a) Q s' s' e₂) :
    preY V y T (.perform y >>= f) Q s₀ s e := fun e₁ he ↦
  ⟨(h e₁ he).1, fun ho ↦ absurd rfl ho, fun _ ↦ ⟨(h e₁ he).2, hf⟩⟩

theorem preY_when_bind {c : Prop} [Decidable c] {p : Program S Ans Unit}
    {f : Unit → Program S Ans α} {Q : α → S → S → E → Prop}
    (hp : c → preY V y T (p >>= f) Q s₀ s e) (hf : ¬c → preY V y T (f ()) Q s₀ s e) :
    preY V y T (.when c p >>= f) Q s₀ s e := by
  unfold Program.when
  split
  · exact hp ‹_›
  · exact hf ‹_›

theorem preY_discard {p : Program S Ans α} {Q : S → S → E → Prop}
    (h : preY V y T p (fun _ s₀ s e ↦ ∀ e', V.Drifts e e' → Q s₀ s e') s₀ s e) :
    preY V y T (discard p) (fun _ ↦ Q) s₀ s e := preY.seq h fun _ _ _ _ h ↦ h

/-- The loop rule. -/
theorem preY_forever {body : Program S Ans (Option β)} {Q : β → S → S → E → Prop}
    (J : S → S → E → Prop) (h : J s₀ s e)
    (hbody : ∀ s₀ s e, J s₀ s e → preY V y T body (fun r s₀ s e ↦ match r with
      | none => J s₀ s e
      | some b => ∀ e', V.Drifts e e' → Q b s₀ s e') s₀ s e) :
    preY V y T (.forever body) Q s₀ s e := by
  refine ⟨J, h, fun s₀ s e hJ ↦ (hbody s₀ s e hJ).imp ?_⟩
  rintro (_ | b) s₀ s e hr
  · exact hr
  · exact hr

/-- A program that never yields is a single segment. -/
theorem preY.of_wlp {p : Program S Ans α} :
    ∀ {Q : α → S → S → E → Prop} {s : S} {e : E}, p.Asks (· ≠ y) →
      wlp V (fun o ↦ T.guard o s₀) p (fun a ↦ Q a s₀) s e → preY V y T p Q s₀ s e := by
  induction p with
  | done a => intro Q s e _ h; exact h
  | read k ih => intro Q s e hp h; exact ih s (hp s) h
  | write s' p ih => intro Q s e hp h; exact ih hp h
  | call o k ih =>
    intro Q s e hp h e₁ he
    exact ⟨(h e₁ he).1, fun _ a e₂ ha ↦ ih a (hp.2 a) ((h e₁ he).2 a e₂ ha),
      fun ho ↦ absurd ho hp.1⟩
  | loop body k ihb ihk =>
    rintro Q s e hp ⟨J, hJ, hstep⟩
    -- The program never yields, so the segment it is in began where it did itself.
    refine ⟨fun s₁ s e ↦ s₁ = s₀ ∧ ∃ n, J n s e, ⟨rfl, hJ⟩, ?_⟩
    rintro _ s e ⟨rfl, n, hn⟩
    refine ihb hp.1 ((hstep n s e hn).imp ?_)
    rintro (_ | b) s e h
    · obtain ⟨m, -, hm⟩ := h
      exact ⟨rfl, m, hm⟩
    · exact ihk b (hp.2 b) h

/-! ## Programs that write nothing -/

namespace Program

/-- The program writes nothing, and every operation in its text satisfies `P`. -/
def Silent (P : Op → Prop) : {α : Type} → Program S Ans α → Prop
  | _, .done _ => True
  | _, .read k => ∀ s, (k s).Silent P
  | _, .write _ _ => False
  | _, .call o k => P o ∧ ∀ a, (k a).Silent P
  | _, .loop body k => body.Silent P ∧ ∀ b, (k b).Silent P

variable {P : Op → Prop}

theorem Silent.seq {p : Program S Ans α} {f : α → Program S Ans β} (hp : p.Silent P)
    (hf : ∀ a, (f a).Silent P) : (p >>= f).Silent P := by
  induction p with
  | done a => exact hf a
  | read k ih => exact fun s ↦ ih s (hp s) hf
  | write s p => exact hp.elim
  | call o k ih => exact ⟨hp.1, fun a ↦ ih a (hp.2 a) hf⟩
  | loop body k _ ihk => exact ⟨hp.1, fun b ↦ ihk b (hp.2 b) hf⟩

theorem silent_get_bind {f : S → Program S Ans α} : (get >>= f).Silent P ↔ ∀ s,
    (f s).Silent P := Iff.rfl

theorem silent_perform_bind {o : Op} {f : Ans o → Program S Ans α} :
    (perform o >>= f).Silent P ↔ P o ∧ ∀ a, (f a).Silent P := Iff.rfl

theorem Silent.ite {c : Prop} [Decidable c] {p q : Program S Ans α} (hp : p.Silent P)
    (hq : q.Silent P) : (if c then p else q).Silent P := by
  split
  · exact hp
  · exact hq

end Program

/-- A program that writes nothing returns with the store it was started with. -/
theorem Program.Silent.wlp {P : Op → Prop} {p : Program S Ans α} :
    ∀ {s : S} {e : E}, p.Silent P → Effect.wlp V (fun o s' _ ↦ P o ∧ s' = s) p
    (fun _ s' _ ↦ s' = s) s e := by
  induction p with
  | done a => exact fun _ _ _ ↦ rfl
  | read k ih => exact fun hp ↦ ih _ (hp _)
  | write s' p => exact fun hp ↦ hp.elim
  | call o k ih => exact fun hp _ _ ↦ ⟨⟨hp.1, rfl⟩, fun a _ _ ↦ ih a (hp.2 a)⟩
  | loop body k ihb ihk =>
    intro s e hp
    refine ⟨fun _ s' _ ↦ s' = s, ⟨0, rfl⟩, ?_⟩
    rintro _ s' e rfl
    refine (ihb hp.1).imp ?_
    rintro (_ | b) _ e rfl
    · exact ⟨0, trivial, rfl⟩
    · exact ihk b (hp.2 b)

/-- What the others and the surroundings keep, a program that writes nothing keeps. -/
theorem preY.silent {P : Op → Prop} {I : S → S → E → Prop}
    (hdrift : ∀ s₀ s e e', I s₀ s e → V.drift e e' → I s₀ s e')
    (hanswer : ∀ o s₀ s e a e', o ≠ y → I s₀ s e → V.answer o s e a e' → I s₀ s e')
    (hguard : ∀ o s₀ s e, P o → I s₀ s e → T.guard o s₀ s e)
    (hyields : ∀ s₀ s e, I s₀ s e → T.yields s₀ s e)
    (hfinds : ∀ s e a e', T.finds s e → V.answer y s e a e' → I s s e') {p : Program S Ans α} :
    ∀ {s₀ s : S} {e : E}, p.Silent P → I s₀ s e → preY V y T p (fun _ ↦ I) s₀ s e := by
  have hdrifts : ∀ {s₀ s e e'}, I s₀ s e → V.Drifts e e' → I s₀ s e' :=
    fun h hd ↦ hd.induct (fun _ _ hd h ↦ hdrift _ _ _ _ h hd) h
  induction p with
  | done a => intro s₀ s e _ h e' hd; exact hdrifts h hd
  | read k ih => intro s₀ s e hp h; exact ih s (hp s) h
  | write s' p => intro s₀ s e hp; exact hp.elim
  | call o k ih =>
    intro s₀ s e hp h e₁ hd
    have h₁ := hdrifts h hd
    refine ⟨hguard o s₀ s e₁ hp.1 h₁, fun ho a e₂ ha ↦ ?_, ?_⟩
    · exact ih a (hp.2 a) (hanswer o s₀ s e₁ a e₂ ho h₁ ha)
    · rintro rfl
      exact ⟨hyields s₀ s e₁ h₁, fun s' e' a e₂ hf ha ↦ ih a (hp.2 a)
        (hfinds s' e' a e₂ hf ha)⟩
  | loop body k ihb ihk =>
    intro s₀ s e hp h
    refine ⟨I, h, fun s₀ s e h ↦ (ihb hp.1 h).imp ?_⟩
    rintro (_ | b) s₀ s e h
    · exact h
    · exact ihk b (hp.2 b) h

/-! ## Adequacy

The steps of a segment are those in which `y` is not performed. -/

/-- The surroundings that never answer `y`. -/
abbrev Env.without (V : Env S E Ans) (y : Op) : Env S E Ans := V.restrict fun o _ _ ↦ o ≠ y

theorem preY_step {c c' : Config S E Ans α} {Q : α → S → S → E → Prop}
    (hs : Step (V.without y) c c') (h : preY V y T c.prog Q s₀ c.store c.env) :
    preY V y T c'.prog Q s₀ c'.store c'.env := by
  cases hs with
  | read k s e => exact h
  | write s' p s e => exact h
  | call k ha => exact (h _ (.refl _ _)).2.1 ha.1 _ _ ha.2
  | turn body k s e =>
    obtain ⟨J, hJ, hstep⟩ := h
    refine (hstep s₀ s e hJ).seq ?_
    rintro (_ | b) s₀ s e hr
    · exact ⟨J, hr, hstep⟩
    · exact hr
  | drift hd => exact h.drifts (Relation.ReflTransGen.single hd)

theorem preY_reaches {c c' : Config S E Ans α} {Q : α → S → S → E → Prop}
    (hr : Reaches (V.without y) c c') (h : preY V y T c.prog Q s₀ c.store c.env) :
    preY V y T c'.prog Q s₀ c'.store c'.env := by
  induction hr with
  | refl => exact h
  | tail _ hs ih => exact preY_step hs ih

theorem preY.performs {p : Program S Ans α} {Q : α → S → S → E → Prop} {s' : S} {e' : E}
    {o : Op} (h : preY V y T p Q s₀ s e) (hr : Performs (V.without y) p s e o s' e') :
    T.guard o s₀ s' e' := by
  obtain ⟨k, hk⟩ := hr
  exact (preY_reaches (Q := Q) hk h e' (.refl _ _)).1

end Effect
