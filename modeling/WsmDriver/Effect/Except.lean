import WsmDriver.Effect.Logic

/-!
# Programs that fail

A program that may fail is an `ExceptT` over the programs: an error ends it and leaves its store and
its surroundings as they are. `preE` is the precondition with one postcondition for each way out.
Its rules are those of `pre`, with one more for the program that looks at how another one ended.
-/

namespace Effect

variable {S E Op ε : Type} {Ans : Op → Type} {α β : Type}

/-- Programs that may fail with an error of type `ε`. -/
abbrev Failing (ε S : Type) {Op : Type} (Ans : Op → Type) (α : Type) :=
  ExceptT ε (Program S Ans) α

namespace Failing

/-- Perform an operation. -/
def perform (ε : Type) (o : Op) : Failing ε S Ans (Ans o) := ExceptT.lift (.perform o)

/-- Fail with `err` unless `c` holds. -/
def ensure (c : Prop) [Decidable c] (err : ε) : Failing ε S Ans Unit :=
  if c then pure () else throw err

/-- Repeat the body until it yields `some b` or fails. -/
def forever (body : Failing ε S Ans (Option β)) : Failing ε S Ans β :=
  ExceptT.mk <| Program.forever <| body.run >>= fun r ↦ match r with
    | .ok none => pure none
    | .ok (some b) => pure (some (.ok b))
    | .error err => pure (some (.error err))

end Failing

/-- The precondition of a failing program for a postcondition `Q` and an error condition `F`. -/
def preE (V : Env S E Ans) (G : Op → S → E → Prop) (R : ℕ → ℕ → Prop)
    (p : Failing ε S Ans α) (Q : α → S → E → Prop) (F : ε → S → E → Prop) (s : S)
    (e : E) : Prop :=
  pre V G R p.run (fun r s e ↦ match r with
    | .ok a => Q a s e
    | .error err => F err s e) s e

variable {V : Env S E Ans} {G : Op → S → E → Prop} {R : ℕ → ℕ → Prop}
  {Q : α → S → E → Prop} {F : ε → S → E → Prop} {s : S} {e : E}

/-- What holds at the return holds however the surroundings move on from there. -/
theorem pre.settle {p : Program S Ans α} : ∀ {Q : α → S → E → Prop} {s : S} {e : E},
    pre V G R p Q s e → pre V G R p (fun a s e ↦ ∀ e', V.Drifts e e' → Q a s e') s e := by
  induction p with
  | done a => intro Q s e h e₁ he₁ e₂ he₂; exact h e₂ (he₁.trans he₂)
  | read k ih => intro Q s e h; exact ih _ h
  | write s' p ih => intro Q s e h; exact ih h
  | call o k ih =>
    intro Q s e h e₁ he
    exact ⟨(h e₁ he).1, fun a e₂ ha ↦ ih a ((h e₁ he).2 a e₂ ha)⟩
  | loop body k _ ihk =>
    rintro Q s e ⟨J, hJ, hstep⟩
    refine ⟨J, hJ, fun n s e hn ↦ (hstep n s e hn).imp ?_⟩
    rintro (_ | b) s e h
    · exact h
    · exact ihk b h

theorem preE.imp {p : Failing ε S Ans α} {Q' : α → S → E → Prop}
    {F' : ε → S → E → Prop} (h : preE V G R p Q F s e) (hQ : ∀ a s e, Q a s e → Q' a s e)
    (hF : ∀ err s e, F err s e → F' err s e) : preE V G R p Q' F' s e := by
  refine pre.imp h ?_
  rintro (err | a) s e hr
  · exact hF err s e hr
  · exact hQ a s e hr

/-! ## Rules -/

theorem preE.seq {p : Failing ε S Ans α} {f : α → Failing ε S Ans β}
    {M : α → S → E → Prop} {Q : β → S → E → Prop} (h : preE V G R p M F s e)
    (hf : ∀ a s e, M a s e → preE V G R (f a) Q F s e) : preE V G R (p >>= f) Q F s e := by
  refine pre.seq (pre.settle h) ?_
  rintro (err | a) s e hr
  · exact hr
  · exact hf a s e (hr e (.refl _ _))

@[simp] theorem preE_pure {a : α} : preE V G R (pure a : Failing ε S Ans α) Q F s e ↔
    ∀ e', V.Drifts e e' → Q a s e' := Iff.rfl

@[simp] theorem preE_throw {err : ε} : preE V G R (throw err : Failing ε S Ans α) Q F s e ↔
    ∀ e', V.Drifts e e' → F err s e' := Iff.rfl

@[simp] theorem preE_get_bind {f : S → Failing ε S Ans α} :
    preE V G R (get >>= f) Q F s e ↔ preE V G R (f s) Q F s e := Iff.rfl

@[simp] theorem preE_modify_bind {g : S → S} {f : PUnit → Failing ε S Ans α} :
    preE V G R (modify g >>= f) Q F s e ↔ preE V G R (f ⟨⟩) Q F (g s) e := Iff.rfl

@[simp] theorem preE_perform_bind {o : Op} {f : Ans o → Failing ε S Ans α} :
    preE V G R (Failing.perform ε o >>= f) Q F s e ↔ ∀ e₁, V.Drifts e e₁ →
      G o s e₁ ∧ ∀ a e₂, V.answer o s e₁ a e₂ → preE V G R (f a) Q F s e₂ := Iff.rfl

theorem preE_ensure_bind {c : Prop} [Decidable c] {err : ε} {f : Unit → Failing ε S Ans α}
    (hc : c → preE V G R (f ()) Q F s e) (hF : ¬c → ∀ e', V.Drifts e e' → F err s e') :
    preE V G R (Failing.ensure c err >>= f) Q F s e := by
  unfold Failing.ensure
  split
  · exact hc ‹_›
  · exact hF ‹_›

/-- A program that cannot fail, in one that may. -/
theorem preE_lift_bind {p : Program S Ans α} {f : α → Failing ε S Ans β}
    {Q : β → S → E → Prop} (h : pre V G R p (fun a s e ↦ preE V G R (f a) Q F s e) s e) :
    preE V G R (ExceptT.lift p >>= f) Q F s e := by
  have hrun : (ExceptT.lift p >>= f).run = p >>= fun a ↦ (f a).run := by
    simp only [ExceptT.run_bind, ExceptT.run_lift, bind_map_left]
  rw [preE, hrun]
  exact pre_bind h

/-- Whatever the way out, it is looked at. -/
theorem preE.run_bind {p : Failing ε S Ans α} {f : Except ε α → Program S Ans β}
    {Q : β → S → E → Prop} {M : α → S → E → Prop} (h : preE V G R p M F s e)
    (hok : ∀ a s e, M a s e → pre V G R (f (.ok a)) Q s e)
    (herr : ∀ err s e, F err s e → pre V G R (f (.error err)) Q s e) :
    pre V G R (p.run >>= f) Q s e := by
  refine pre.seq h ?_
  rintro (err | a) s e hr
  · exact herr err s e hr
  · exact hok a s e hr

/-- The loop rule. -/
theorem preE_forever {body : Failing ε S Ans (Option β)} {Q : β → S → E → Prop}
    (J : ℕ → S → E → Prop) {n : ℕ} (h : J n s e)
    (hbody : ∀ n s e, J n s e → preE V G R body (fun r s e ↦ match r with
      | none => ∃ m, R m n ∧ J m s e
      | some b => ∀ e', V.Drifts e e' → Q b s e') (fun err s e ↦ ∀ e', V.Drifts e e' →
          F err s e') s e) :
    preE V G R (Failing.forever body) Q F s e := by
  refine ⟨J, ⟨n, h⟩, fun n s e hJ ↦ ?_⟩
  refine pre.seq (pre.settle (hbody n s e hJ)) ?_
  rintro (err | _ | b) s e hr
  · exact fun e' he e'' he' ↦ hr e' he e'' he'
  · exact fun e' he ↦ hr e' he
  · exact fun e' he e'' he' ↦ hr e' he e'' he'

/-- The loop rule without a variant. -/
theorem wlpE_forever {body : Failing ε S Ans (Option β)} {Q : β → S → E → Prop}
    (J : S → E → Prop) (h : J s e)
    (hbody : ∀ s e, J s e →
      preE V G (fun _ _ ↦ True) body (fun r s e ↦ match r with
      | none => J s e
      | some b => ∀ e', V.Drifts e e' → Q b s e') (fun err s e ↦ ∀ e', V.Drifts e e' →
          F err s e') s e) :
    preE V G (fun _ _ ↦ True) (Failing.forever body) Q F s e := by
  refine preE_forever (fun _ ↦ J) (n := 0) h fun _ s e hJ ↦ (hbody s e hJ).imp ?_ fun _ _ _ h ↦ h
  rintro (_ | b) s e hr
  · exact ⟨0, trivial, hr⟩
  · exact hr

end Effect
