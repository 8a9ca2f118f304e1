import WsmDriver.Effect.Trace

/-!
# Programs inside larger programs

A component is written over a store and an interface of its own, and is then used by a program whose
store has the component's as a part and whose interface has the component's operations among others.
A `Window` says where the part is and which operations those are. What is shown of the component in
every surroundings holds of it in the larger program too: the rest of the store is something the
surroundings answer from.
-/

namespace Effect

variable {S S' E N Op Op' : Type} {Ans : Op → Type} {Ans' : Op' → Type} {α : Type}

/-- A store that is part of a larger one, and an interface that is part of a larger one. -/
structure Window (S S' : Type) {Op Op' : Type} (Ans : Op → Type) (Ans' : Op' → Type) where
  see : S' → S
  put : S → S' → S'
  see_put : ∀ s t, see (put s t) = s
  put_see : ∀ t, put (see t) t = t
  put_put : ∀ s₁ s₂ t, put s₂ (put s₁ t) = put s₂ t
  op : Op → Op'
  ans : ∀ o, Ans' (op o) → Ans o

/-- A part of the store, for a program that has the whole interface. -/
def Window.part (see : S' → S) (put : S → S' → S') (see_put : ∀ s t, see (put s t) = s)
    (put_see : ∀ t, put (see t) t = t) (put_put : ∀ s₁ s₂ t, put s₂ (put s₁ t) =
      put s₂ t) : Window S S' Ans Ans :=
  ⟨see, put, see_put, put_see, put_put, id, fun _ ↦ id⟩

/-- The program, working through the window. -/
def Program.through (w : Window S S' Ans Ans') : {α : Type} → Program S Ans α →
    Program S' Ans' α
  | _, .done a => .done a
  | _, .read k => .read fun t ↦ (k (w.see t)).through w
  | _, .write s p => .read fun t ↦ .write (w.put s t) (p.through w)
  | _, .call o k => .call (w.op o) fun a ↦ (k (w.ans o a)).through w
  | _, .loop body k => .loop (body.through w) fun b ↦ (k b).through w

/-- The surroundings as a program behind the window sees them, with `t` for the rest of the
store. -/
def Env.behind (V : Env S' E Ans') (w : Window S S' Ans Ans') (t : S') : Env S E Ans where
  drift := V.drift
  answer o s e a e' := ∃ a', w.ans o a' = a ∧ V.answer (w.op o) (w.put s t) e a' e'

variable {V : Env S' E Ans'} {w : Window S S' Ans Ans'} {G : Op' → S' → E → Prop}
    {R : ℕ → ℕ → Prop}

/-- What holds of the program on its own holds of it behind the window, and the rest of the store
stays. -/
theorem pre_through {p : Program S Ans α} :
    ∀ {Q : α → S' → E → Prop} {s : S} {t : S'} {e : E},
    pre (V.behind w t) (fun o s e ↦ G (w.op o) (w.put s t) e) R p
    (fun a s e ↦ Q a (w.put s t) e) s e →
      pre V G R (p.through w) Q (w.put s t) e := by
  induction p with
  | done a => intro Q s t e h; exact h
  | read k ih =>
    intro Q s t e h
    change pre V G R ((k (w.see (w.put s t))).through w) Q (w.put s t) e
    rw [w.see_put]
    exact ih s h
  | write s₁ p ih =>
    intro Q s t e h
    change pre V G R (p.through w) Q (w.put s₁ (w.put s t)) e
    rw [w.put_put]
    exact ih h
  | call o k ih =>
    intro Q s t e h e₁ hd
    obtain ⟨hG, hk⟩ := h e₁ hd
    exact ⟨hG, fun a e₂ ha ↦ ih _ (hk _ e₂ ⟨a, rfl, ha⟩)⟩
  | loop body k ihb ihk =>
    rintro Q s t e ⟨J, ⟨n, hn⟩, hstep⟩
    refine ⟨fun n t' e ↦ ∃ s, t' = w.put s t ∧ J n s e, ⟨n, s, rfl, hn⟩, ?_⟩
    rintro n _ e ⟨s, rfl, hJ⟩
    refine ihb ((hstep n s e hJ).imp ?_)
    rintro (_ | b) s e h
    · obtain ⟨m, hm, hJ⟩ := h
      exact ⟨m, hm, s, rfl, hJ⟩
    · exact ihk b h

/-- The same, started from a store that is given whole. -/
theorem pre_through_see {p : Program S Ans α} {Q : α → S' → E → Prop} {t : S'} {e : E}
    (h : pre (V.behind w t) (fun o s e ↦ G (w.op o) (w.put s t) e) R p
      (fun a s e ↦ Q a (w.put s t) e) (w.see t) e) :
    pre V G R (p.through w) Q t e := by
  have h' := pre_through h
  rwa [w.put_see] at h'

/-- The record of the larger program, as the component sees it. -/
theorem Recorded.through {f : (o : Op') → S' → Ans' o → N → N}
    {g : (o : Op) → S → Ans o → N → N} {G : Op' → S' → N → Prop} {p : Program S Ans α}
    {Q : α → S' → N → Prop} {t : S'} {n : N}
    (hf : ∀ o s a n, f (w.op o) (w.put s t) a n = g o s (w.ans o a) n)
    (h : Recorded (V.behind w t) g (fun o s n ↦ G (w.op o) (w.put s t) n) p
      (fun a s n ↦ Q a (w.put s t) n) (w.see t) n) : Recorded V f G (p.through w) Q t n := by
  have hle : (V.noted f).behind w t ≤ (V.behind w t).noted g := by
    refine ⟨id, ?_⟩
    rintro o s e _ e' ⟨a, rfl, ha, he⟩
    exact ⟨⟨a, rfl, ha⟩, he.trans (hf o s a e.2)⟩
  exact fun ε ↦ pre_through_see ((h ε).antitone hle)

end Effect
