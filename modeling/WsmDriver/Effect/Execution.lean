import WsmDriver.Effect.Except

/-!
# Building executions

Preconditions speak about every execution. To show that some execution exists one builds it, and
these are the rules for it: one for each monad operation, one for sequencing, and two for a loop,
whose turn either ends it or goes on.

The other part is about the text of a program. Which operations a program can perform at all does
not depend on its store or on its surroundings, and `Asks` bounds them by looking at the text only.
-/

namespace Effect

variable {S E Op : Type} {Ans : Op → Type} {α β : Type} {V : Env S E Ans}

/-! ## Executions -/

/-- The first program of a sequence runs as it does alone. -/
theorem Step.bind {c c' : Config S E Ans α} (f : α → Program S Ans β) (h : Step V c c') :
    Step V ⟨c.prog.bind f, c.store, c.env⟩ ⟨c'.prog.bind f, c'.store, c'.env⟩ := by
  cases h with
  | read k s e => exact .read (fun s ↦ (k s).bind f) s e
  | write s' p s e => exact .write s' (p.bind f) s e
  | call k ha => exact .call (fun a ↦ (k a).bind f) ha
  | turn body k s e =>
    have hturn := Step.turn (V := V) body (fun b ↦ (k b).bind f) s e
    change Step V ⟨.loop body fun b ↦ (k b).bind f, s, e⟩ _
    dsimp only
    rw [Program.bind_assoc]
    convert hturn using 2
    refine congrArg body.bind (funext fun r ↦ ?_)
    cases r <;> rfl
  | drift hd => exact .drift hd

theorem Reaches.bind {c c' : Config S E Ans α} (f : α → Program S Ans β) (h : Reaches V c c') :
    Reaches V ⟨c.prog.bind f, c.store, c.env⟩ ⟨c'.prog.bind f, c'.store, c'.env⟩ := by
  induction h with
  | refl => exact .refl _
  | tail _ hs ih => exact ih.trans (.step (hs.bind f))

namespace Returns

variable {s s₁ s' : S} {e e₁ e' : E}

theorem pure (a : α) (s : S) (e : E) : Returns V (Pure.pure a) s e a s e := .refl _

theorem seq {p : Program S Ans α} {f : α → Program S Ans β} {a : α} {b : β}
    (hp : Returns V p s e a s₁ e₁) (hf : Returns V (f a) s₁ e₁ b s' e') :
    Returns V (p >>= f) s e b s' e' :=
  (Reaches.bind f hp).trans hf

theorem get_bind {f : S → Program S Ans α} {a : α} (h : Returns V (f s) s e a s' e') :
    Returns V (get >>= f) s e a s' e' :=
  (Reaches.step (.read _ s e)).trans h

theorem modify_bind {g : S → S} {f : PUnit → Program S Ans α} {a : α}
    (h : Returns V (f ⟨⟩) (g s) e a s' e') : Returns V (modify g >>= f) s e a s' e' :=
  (Reaches.step (.read _ s e)).trans ((Reaches.step (.write _ _ s e)).trans h)

theorem modify (g : S → S) (s : S) (e : E) :
    Returns V (modify g : Program S Ans PUnit) s e ⟨⟩ (g s) e :=
  (Reaches.step (.read _ s e)).trans (.step (.write _ _ s e))

theorem modifyGet_bind {g : S → α × S} {f : α → Program S Ans β} {b : β}
    (h : Returns V (f (g s).1) (g s).2 e b s' e') : Returns V (modifyGet g >>= f) s e b s' e' :=
  (Reaches.step (.read _ s e)).trans ((Reaches.step (.write _ _ s e)).trans h)

theorem perform_bind {o : Op} {f : Ans o → Program S Ans α} {a : Ans o} {b : α}
    (ha : V.answer o s e a e₁) (h : Returns V (f a) s e₁ b s' e') :
    Returns V (.perform o >>= f) s e b s' e' :=
  (Reaches.step (.call _ ha)).trans h

/-- An answer chosen freely. -/
theorem oracle_bind {o : Op} {f : Ans o → Program S Ans α} {s s' : S} {e' : Unit} {b : α}
    (a : Ans o) (h : Returns .oracle (f a) s () b s' e') :
    Returns .oracle (.perform o >>= f) s () b s' e' :=
  perform_bind (V := .oracle) trivial h

/-- The last turn of a loop. -/
theorem forever_some {body : Program S Ans (Option β)} {b : β}
    (h : Returns V body s e (some b) s' e') : Returns V (.forever body) s e b s' e' :=
  (Reaches.step (.turn body _ s e)).trans (Returns.seq h (.refl _))

/-- A turn after which the loop goes on. -/
theorem forever_none {body : Program S Ans (Option β)} {b : β}
    (h : Returns V body s e none s₁ e₁) (hrest : Returns V (.forever body) s₁ e₁ b s' e') :
    Returns V (.forever body) s e b s' e' :=
  (Reaches.step (.turn body _ s e)).trans (Returns.seq h hrest)

end Returns

namespace Performs

variable {s s' : S} {e e' : E} {o : Op}

theorem bind {p : Program S Ans α} (h : Performs V p s e o s' e') (f : α → Program S Ans β) :
    Performs V (p >>= f) s e o s' e' := by
  obtain ⟨k, hk⟩ := h
  exact ⟨fun a ↦ (k a).bind f, Reaches.bind f hk⟩

theorem get_bind {f : S → Program S Ans α} (h : Performs V (f s) s e o s' e') :
    Performs V (get >>= f) s e o s' e' := by
  obtain ⟨k, hk⟩ := h
  exact ⟨k, (Reaches.step (.read _ s e)).trans hk⟩

theorem perform (s : S) (e : E) : Performs V (.perform o) s e o s e := ⟨.done, .refl _⟩

/-- An operation of the second program of a sequence. -/
theorem seq {p : Program S Ans α} {f : α → Program S Ans β} {a : α} {s₁ : S} {e₁ : E}
    (hp : Returns V p s e a s₁ e₁) (hf : Performs V (f a) s₁ e₁ o s' e') :
    Performs V (p >>= f) s e o s' e' := by
  obtain ⟨k, hk⟩ := hf
  exact ⟨k, (Reaches.bind f hp).trans hk⟩

end Performs

/-! ## Executions that exist -/

/-- Surroundings that can always answer, if only after moving by themselves. -/
def Env.Responsive (V : Env S E Ans) : Prop :=
  ∀ o s e, ∃ e₁ a e', V.Drifts e e₁ ∧ V.answer o s e₁ a e'

theorem Env.Follows.responsive {h : (o : Op) → E → Ans o × E}
    (hV : V.eager.Follows (fun _ ↦ True) h) : V.Responsive := fun o s e ↦
  have ⟨e₁, hd, ha⟩ := hV.answer o s e trivial
  ⟨e₁, _, _, hd, ha⟩

theorem Env.script_responsive {h : (o : Op) → E → Ans o × E} :
    (Env.script h : Env S E Ans).Responsive := fun _ _ e ↦ ⟨e, _, _, .refl _ _, rfl, rfl⟩

/-- The continuation form: a totally correct program can be run up to its postcondition. -/
theorem wp_returns_bind {G : Op → S → E → Prop} (hV : V.Responsive) {p : Program S Ans α} :
    ∀ {Q : α → S → E → Prop} {Q' : β → S → E → Prop} {f : α → Program S Ans β}
    {s : S} {e : E},
      wp V G p Q s e →
      (∀ a s e, Q a s e → ∃ b s' e', Returns V (f a) s e b s' e' ∧ Q' b s' e') →
      ∃ b s' e', Returns V (p.bind f) s e b s' e' ∧ Q' b s' e' := by
  induction p with
  | done a => intro Q Q' f s e h hf; exact hf a s e (h e (.refl _ _))
  | read k ih =>
    intro Q Q' f s e h hf
    obtain ⟨b, s', e', hr, hq⟩ := ih s h hf
    exact ⟨b, s', e', (Reaches.step (.read _ s e)).trans hr, hq⟩
  | write s₁ p ih =>
    intro Q Q' f s e h hf
    obtain ⟨b, s', e', hr, hq⟩ := ih h hf
    exact ⟨b, s', e', (Reaches.step (.write _ _ s e)).trans hr, hq⟩
  | call o k ih =>
    intro Q Q' f s e h hf
    obtain ⟨e₁, a, e₂, hd, ha⟩ := hV o s e
    obtain ⟨b, s', e', hr, hq⟩ := ih a ((h e₁ hd).2 a e₂ ha) hf
    exact ⟨b, s', e', (Reaches.drifts hd).trans ((Reaches.step (.call _ ha)).trans hr), hq⟩
  | loop body k ihb ihk =>
    rintro Q Q' f s e ⟨J, ⟨n, hn⟩, hstep⟩ hf
    -- One turn of the body leads to a smaller variant or out of the loop.
    induction n using Nat.strongRecOn generalizing s e with
    | ind n ihn =>
      have hbody : ∀ g : Option _ → Program S Ans β,
          (∀ m, m < n → ∀ s e, J m s e → ∃ b s' e',
          Returns V (g none) s e b s' e' ∧ Q' b s' e') → (∀ b, g (some b) = (k b).bind f) →
          ∃ b s' e', Returns V (body.bind g) s e b s' e' ∧ Q' b s' e' := by
        intro g hnone hsome
        refine ihb (hstep n s e hn) ?_
        rintro (_ | b) s e hr
        · obtain ⟨m, hm, hJ⟩ := hr
          exact hnone m hm s e hJ
        · rw [hsome]
          exact ihk b hr hf
      refine (hbody _ ?_ ?_).imp fun b ↦ .imp fun s' ↦ .imp fun e' h ↦
        ⟨(Reaches.step (.turn body _ s e)).trans h.1, h.2⟩
      · exact fun m hm s e hJ ↦ ihn m hm hJ
      · exact fun b ↦ rfl

/-- A totally correct program has an execution. -/
theorem wp_returns {G : Op → S → E → Prop} {p : Program S Ans α} {Q : α → S → E → Prop}
    {s : S} {e : E} (hV : V.Responsive) (h : wp V G p Q s e) :
    ∃ a s' e', Returns V p s e a s' e' ∧ Q a s' e' := by
  have hdone : ∀ a s e, Q a s e → ∃ b s' e',
      Returns V (.done a : Program S Ans α) s e b s' e' ∧ Q b s' e' :=
    fun a s e hq ↦ ⟨a, s, e, .refl _, hq⟩
  simpa using wp_returns_bind hV h hdone

/-- A failing program that is totally correct has an execution with one of its two ends. -/
theorem wpE_returns {ε : Type} {G : Op → S → E → Prop} {p : Failing ε S Ans α}
    {Q : α → S → E → Prop} {F : ε → S → E → Prop} {s : S} {e : E} (hV : V.Responsive)
    (h : preE V G (· < ·) p Q F s e) :
    (∃ a s' e', Returns V p.run s e (.ok a) s' e' ∧ Q a s' e') ∨
      ∃ err s' e', Returns V p.run s e (.error err) s' e' ∧ F err s' e' := by
  obtain ⟨r, s', e', hr, hq⟩ := wp_returns hV h
  cases r with
  | ok a => exact .inl ⟨a, s', e', hr, hq⟩
  | error err => exact .inr ⟨err, s', e', hr, hq⟩

/-! ## Partial correctness is about executions -/

/-- What holds at the end of every execution and of every operation in one can be shown. -/
theorem wlp_complete {p : Program S Ans α} :
    ∀ {G : Op → S → E → Prop} {Q : α → S → E → Prop} {s : S} {e : E},
    (∀ a s' e', Returns V p s e a s' e' → Q a s' e') → (∀ o s' e', Performs V p s e o s' e' →
      G o s' e') →
      wlp V G p Q s e := by
  induction p with
  | done a =>
    intro G Q s e hQ _ e' hd
    exact hQ a s e' (.drifts hd)
  | read k ih =>
    intro G Q s e hQ hG
    have hread := Reaches.step (.read (V := V) k s e)
    refine ih s (fun a s' e' h ↦ hQ a s' e' (hread.trans h)) fun o s' e' ⟨k, h⟩ ↦ ?_
    exact hG o s' e' ⟨k, hread.trans h⟩
  | write s₁ p ih =>
    intro G Q s e hQ hG
    have hwrite := Reaches.step (.write (V := V) s₁ p s e)
    refine ih (fun a s' e' h ↦ hQ a s' e' (hwrite.trans h)) fun o s' e' ⟨k, h⟩ ↦ ?_
    exact hG o s' e' ⟨k, hwrite.trans h⟩
  | call o k ih =>
    intro G Q s e hQ hG e₁ hd
    refine ⟨hG o s e₁ ⟨k, .drifts hd⟩, fun a e₂ ha ↦ ?_⟩
    have hcall := (Reaches.drifts (p := .call o k) (s := s) hd).trans (.step (.call k ha))
    refine ih a (fun a s' e' h ↦ hQ a s' e' (hcall.trans h)) fun o s' e' ⟨k, h⟩ ↦ ?_
    exact hG o s' e' ⟨k, hcall.trans h⟩
  | loop body k ihb ihk =>
    intro G Q s e hQ hG
    -- The invariant is that the beginning of a turn can be reached.
    refine ⟨fun _ s' e' ↦ Reaches V ⟨.loop body k, s, e⟩ ⟨.loop body k, s', e'⟩,
      ⟨0, .refl _⟩, fun _ s₁ e₁ h ↦ ?_⟩
    replace h := h.trans (.step (.turn body k s₁ e₁))
    refine ihb (fun r s₂ e₂ hr ↦ ?_) fun o s₂ e₂ ⟨k', hk⟩ ↦
      hG o s₂ e₂ ⟨_, h.trans (Reaches.bind _ hk)⟩
    have hturn := h.trans (Reaches.bind _ hr)
    cases r with
    | none => exact ⟨0, trivial, hturn⟩
    | some b =>
      refine ihk b (fun a s' e' h' ↦ hQ a s' e' (hturn.trans h')) fun o s' e' ⟨k', h'⟩ ↦ ?_
      exact hG o s' e' ⟨k', hturn.trans h'⟩

/-! ## Executions that do not end -/

theorem Halts.reaches {c c' : Config S E Ans α} (h : Halts V c.prog c.store c.env)
    (hr : Reaches V c c') : Halts V c'.prog c'.store c'.env := by
  induction hr with
  | refl => exact h
  | tail _ hs ih => exact Acc.inv ih hs

/-- A loop that can always go round once more. -/
theorem not_halts_forever {body : Program S Ans (Option β)} {I : S → E → Prop}
    (hturn : ∀ s e, I s e → ∃ s' e', Returns V body s e none s' e' ∧ I s' e') {s : S} {e : E}
    (h : I s e) : ¬Halts V (.forever body) s e := by
  intro hacc
  -- Any configuration from which the loop is reached by a step or more will do.
  have hall : ∀ c : Config S E Ans β, Acc (fun c' c ↦ Step V c c') c → ∀ s e, I s e →
      Reaches V c ⟨.forever body, s, e⟩ → False := by
    intro c hacc
    induction hacc with
    | intro c _ ih =>
      intro s e h hr
      obtain ⟨s', e', hbody, h'⟩ := hturn s e h
      have hround : Relation.TransGen (Step V) c ⟨.forever body, s', e'⟩ :=
        Relation.TransGen.trans_right hr (Relation.TransGen.head' (.turn body _ s e)
          (Reaches.bind _ hbody))
      obtain ⟨c₁, hs, hrest⟩ := Relation.TransGen.head'_iff.mp hround
      exact ih c₁ hs s' e' h' hrest
  exact hall _ hacc s e h (.refl _)

/-! ## The operations in the text of a program -/

namespace Program

/-- Every operation in the text of the program satisfies `P`. -/
def Asks (P : Op → Prop) : {α : Type} → Program S Ans α → Prop
  | _, .done _ => True
  | _, .read k => ∀ s, (k s).Asks P
  | _, .write _ p => p.Asks P
  | _, .call o k => P o ∧ ∀ a, (k a).Asks P
  | _, .loop body k => body.Asks P ∧ ∀ b, (k b).Asks P

variable {P : Op → Prop}

@[simp] theorem asks_pure (a : α) : (pure a : Program S Ans α).Asks P := trivial

theorem Asks.seq {p : Program S Ans α} {f : α → Program S Ans β} (hp : p.Asks P)
    (hf : ∀ a, (f a).Asks P) : (p >>= f).Asks P := by
  induction p with
  | done a => exact hf a
  | read k ih => exact fun s ↦ ih s (hp s) hf
  | write s p ih => exact ih hp hf
  | call o k ih => exact ⟨hp.1, fun a ↦ ih a (hp.2 a) hf⟩
  | loop body k _ ihk => exact ⟨hp.1, fun b ↦ ihk b (hp.2 b) hf⟩

@[simp] theorem asks_get_bind {f : S → Program S Ans α} :
    (get >>= f).Asks P ↔ ∀ s, (f s).Asks P := Iff.rfl

theorem Asks.modify_bind {g : S → S} {f : PUnit → Program S Ans α} (hf : (f ⟨⟩).Asks P) :
    (modify g >>= f).Asks P := fun _ ↦ hf

@[simp] theorem asks_modify {g : S → S} : (modify g : Program S Ans PUnit).Asks P :=
  fun _ ↦ trivial

@[simp] theorem asks_modifyGet_bind {g : S → α × S} {f : α → Program S Ans β} :
    (modifyGet g >>= f).Asks P ↔ ∀ s, (f (g s).1).Asks P := Iff.rfl

@[simp] theorem asks_perform_bind {o : Op} {f : Ans o → Program S Ans α} :
    (perform o >>= f).Asks P ↔ P o ∧ ∀ a, (f a).Asks P := Iff.rfl

theorem Asks.ite {c : Prop} [Decidable c] {p q : Program S Ans α} (hp : p.Asks P) (hq : q.Asks P) :
    (if c then p else q).Asks P := by
  split
  · exact hp
  · exact hq

theorem Asks.when_bind {c : Prop} [Decidable c] {p : Program S Ans Unit}
    {f : Unit → Program S Ans α} (hp : p.Asks P) (hf : (f ()).Asks P) :
    (Program.when c p >>= f).Asks P := by
  refine Asks.seq ?_ fun _ ↦ hf
  unfold Program.when
  exact .ite hp trivial

end Program

/-- Nothing is shown of any program whatever. -/
theorem wlp_true {p : Program S Ans α} :
    ∀ {s : S} {e : E}, wlp V (fun _ _ _ ↦ True) p (fun _ _ _ ↦ True) s e := by
  induction p with
  | done a => intro s e e' _; trivial
  | read k ih => intro s e; exact ih s
  | write s' p ih => intro s e; exact ih
  | call o k ih => intro s e e₁ _; exact ⟨trivial, fun a e₂ _ ↦ ih a⟩
  | loop body k ihb ihk =>
    intro s e
    refine ⟨fun _ _ _ ↦ True, ⟨0, trivial⟩, fun _ s e _ ↦ ihb.imp ?_⟩
    rintro (_ | b) s e -
    · exact ⟨0, trivial, trivial⟩
    · exact ihk b

/-- What the surroundings keep under the operations in the text of a program, the program keeps. -/
theorem Program.Asks.wlp_env {P : Op → Prop} {F : E → Prop}
    (hdrift : ∀ e e', F e → V.drift e e' → F e')
    (hanswer : ∀ o s e a e', P o → F e → V.answer o s e a e' → F e') {p : Program S Ans α} :
    ∀ {s : S} {e : E}, p.Asks P → F e → wlp V (fun _ _ _ ↦ True) p
    (fun _ _ e ↦ F e) s e := by
  have hdrifts : ∀ {e e'}, F e → V.Drifts e e' → F e' :=
    fun he hd ↦ hd.induct (fun _ _ hd he ↦ hdrift _ _ he hd) he
  induction p with
  | done a => intro s e _ he e' hd; exact hdrifts he hd
  | read k ih => intro s e hp he; exact ih s (hp s) he
  | write s' p ih => intro s e hp he; exact ih hp he
  | call o k ih =>
    intro s e hp he e₁ hd
    exact ⟨trivial, fun a e₂ ha ↦ ih a (hp.2 a)
      (hanswer o s e₁ a e₂ hp.1 (hdrifts he hd) ha)⟩
  | loop body k ihb ihk =>
    intro s e hp he
    refine ⟨fun _ _ e ↦ F e, ⟨0, he⟩, fun _ s e he ↦ (ihb hp.1 he).imp ?_⟩
    rintro (_ | b) s e he
    · exact ⟨0, trivial, he⟩
    · exact ihk b (hp.2 b) he

/-- What the text says about the operations may be added to any guard. -/
theorem pre.asks {G : Op → S → E → Prop} {R : ℕ → ℕ → Prop} {P : Op → Prop}
    {p : Program S Ans α} :
    ∀ {Q : α → S → E → Prop} {s : S} {e : E}, pre V G R p Q s e → p.Asks P →
      pre V (fun o s e ↦ G o s e ∧ P o) R p Q s e := by
  induction p with
  | done a => intro Q s e h _; exact h
  | read k ih => intro Q s e h hp; exact ih s h (hp s)
  | write s' p ih => intro Q s e h hp; exact ih h hp
  | call o k ih =>
    intro Q s e h hp e₁ he
    exact ⟨⟨(h e₁ he).1, hp.1⟩, fun a e₂ ha ↦ ih a ((h e₁ he).2 a e₂ ha) (hp.2 a)⟩
  | loop body k ihb ihk =>
    rintro Q s e ⟨J, hJ, hstep⟩ hp
    refine ⟨J, hJ, fun n s e hn ↦ (ihb (hstep n s e hn) hp.1).imp ?_⟩
    rintro (_ | b) s e h
    · exact h
    · exact ihk b h (hp.2 b)

end Effect
