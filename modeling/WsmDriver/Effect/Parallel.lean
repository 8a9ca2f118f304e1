import WsmDriver.Effect.Execution
import Mathlib.Logic.Function.Basic

/-!
# Programs that run at the same time

A pool of threads, each a program with a store of its own, in one surroundings. A step of the pool
is a step of one of them. A thread may be answered differently from another; what it is asked by
whom is then up to the environments.

A thread that executes a program calls it: `Pool.Returns` is the part of a run of the pool from the
moment at which the thread is about to execute the program to the moment at which it has returned.
Seen from this thread the others are part of the surroundings, which may then do of themselves
whatever the others ask for (`Env.rely`). So the preconditions of a single program apply to a call
in a pool.
-/

namespace Effect

variable {ι S E Op : Type} {Ans : Op → Type} {α : Type}

/-- Threads, and what surrounds all of them. -/
structure Pool (ι S E : Type) {Op : Type} (Ans : Op → Type) where
  prog : ι → Program S Ans Unit
  store : ι → S
  env : E

namespace Pool

/-- One of the threads, in the surroundings as they are. -/
def thread (σ : Pool ι S E Ans) (i : ι) : Config S E Ans Unit := ⟨σ.prog i, σ.store i, σ.env⟩

variable [DecidableEq ι]

/-- The pool after a thread has got to `c`. -/
def set (σ : Pool ι S E Ans) (i : ι) (c : Config S E Ans Unit) : Pool ι S E Ans where
  prog := Function.update σ.prog i c.prog
  store := Function.update σ.store i c.store
  env := c.env

@[simp] theorem set_thread (σ : Pool ι S E Ans) (i : ι) : σ.set i (σ.thread i) = σ := by
  simp [set, thread]

@[simp] theorem set_set (σ : Pool ι S E Ans) (i : ι) (c c' : Config S E Ans Unit) :
    (σ.set i c).set i c' = σ.set i c' := by
  simp [set]

@[simp] theorem thread_set (σ : Pool ι S E Ans) (i : ι) (c : Config S E Ans Unit) :
    (σ.set i c).thread i = c := by
  simp [set, thread]

@[simp] theorem set_prog (σ : Pool ι S E Ans) (i : ι) (c : Config S E Ans Unit) :
    (σ.set i c).prog i = c.prog :=
  Function.update_self ..

@[simp] theorem set_store (σ : Pool ι S E Ans) (i : ι) (c : Config S E Ans Unit) :
    (σ.set i c).store i = c.store :=
  Function.update_self ..

theorem set_store_of_ne (σ : Pool ι S E Ans) {i j : ι} (h : j ≠ i) (c : Config S E Ans Unit) :
    (σ.set i c).store j = σ.store j := Function.update_of_ne h _ _

/-- A step of some thread. -/
inductive Step (V : ι → Env S E Ans) (σ : Pool ι S E Ans) : Pool ι S E Ans → Prop
  | run (i : ι) (c : Config S E Ans Unit) (h : Effect.Step (V i) (σ.thread i) c) :
      Step V σ (σ.set i c)

/-- Any number of steps. -/
def Reaches (V : ι → Env S E Ans) : Pool ι S E Ans → Pool ι S E Ans → Prop :=
  Relation.ReflTransGen (Step V)

/-- One thread runs, the others wait. -/
theorem Reaches.solo {V : ι → Env S E Ans} {σ : Pool ι S E Ans} {i : ι} {c : Config S E Ans Unit}
    (h : Effect.Reaches (V i) (σ.thread i) c) : Reaches V σ (σ.set i c) := by
  induction h with
  | refl =>
    rw [set_thread]
    exact .refl
  | @tail c₁ c₂ _ hs ih =>
    have hstep : Step V (σ.set i c₁) ((σ.set i c₁).set i c₂) :=
      .run i c₂ (by rwa [thread_set])
    rw [set_set] at hstep
    exact ih.tail hstep

end Pool

/-! ## Invariants of the surroundings -/

/-- Whatever the surroundings do, and are asked for, keeps `I`. -/
structure Env.Keeps (V : Env S E Ans) (I : E → Prop) : Prop where
  drift : ∀ {e e'}, V.drift e e' → I e → I e'
  answer : ∀ {o s e a e'}, V.answer o s e a e' → I e → I e'

theorem Step.keeps {V : Env S E Ans} {I : E → Prop} (hV : V.Keeps I) {c c' : Config S E Ans α}
    (h : Step V c c') (hI : I c.env) : I c'.env := by
  cases h with
  | call k ha => exact hV.answer ha hI
  | drift hd => exact hV.drift hd hI
  | read => exact hI
  | write => exact hI
  | turn => exact hI

/-- What the surroundings keep holds wherever a program returns. -/
theorem wlp_keeps {V : Env S E Ans} {I : E → Prop} (hV : V.Keeps I) {p : Program S Ans α} :
    ∀ {s : S} {e : E}, I e → wlp V (fun _ _ _ ↦ True) p (fun _ _ e ↦ I e) s e := by
  have hdrifts : ∀ {e e'}, I e → V.Drifts e e' → I e' :=
    fun he hd ↦ hd.induct (fun _ _ hd he ↦ hV.drift hd he) he
  induction p with
  | done a => exact fun he e' hd ↦ hdrifts he hd
  | read k ih => exact fun he ↦ ih _ he
  | write s' p ih => exact fun he ↦ ih he
  | call o k ih =>
    exact fun he e₁ hd ↦ ⟨trivial, fun a e₂ ha ↦ ih a (hV.answer ha (hdrifts he hd))⟩
  | loop body k ihb ihk =>
    intro s e he
    refine ⟨fun _ _ e ↦ I e, ⟨0, he⟩, fun _ s e he ↦ (ihb he).imp ?_⟩
    rintro (_ | b) s e he
    · exact ⟨0, trivial, he⟩
    · exact ihk b he

variable [DecidableEq ι]

theorem Pool.Reaches.keeps {V : ι → Env S E Ans} {I : E → Prop} (hV : ∀ i, (V i).Keeps I)
    {σ σ' : Pool ι S E Ans} (h : Pool.Reaches V σ σ') (hI : I σ.env) : I σ'.env := by
  induction h with
  | refl => exact hI
  | tail _ hs ih =>
    cases hs with
    | run i c hc => exact hc.keeps (hV i) ih

/-! ## Calls -/

variable {V : ι → Env S E Ans} {i : ι} {k : α → Program S Ans Unit} {σ σ' : Pool ι S E Ans}

/-- A step of the pool while the thread `i` executes a program that it goes on from with `k`; the
first component is what is left of the program. -/
inductive Pool.CallStep (V : ι → Env S E Ans) (i : ι) (k : α → Program S Ans Unit) :
    Program S Ans α × Pool ι S E Ans → Program S Ans α × Pool ι S E Ans → Prop
  | own {q q' : Program S Ans α} {σ : Pool ι S E Ans} {s' : S} {e' : E}
      (h : Effect.Step (V i) ⟨q, σ.store i, σ.env⟩ ⟨q', s', e'⟩) :
        CallStep V i k (q, σ) (q', σ.set i ⟨q'.bind k, s', e'⟩)
  | other {q : Program S Ans α} {σ : Pool ι S E Ans} {c : Config S E Ans Unit} (j : ι)
      (hj : j ≠ i) (h : Effect.Step (V j) (σ.thread j) c) : CallStep V i k (q, σ) (q, σ.set j c)

/-- The thread `i` of `σ` is about to execute `p`, does so while the others do as they like, and `p`
returns `a`; `σ'` is the pool at that moment. -/
def Pool.Returns (V : ι → Env S E Ans) (i : ι) (p : Program S Ans α) (σ : Pool ι S E Ans)
    (a : α) (σ' : Pool ι S E Ans) : Prop :=
  ∃ k : α → Program S Ans Unit, σ.prog i = p.bind k ∧
    Relation.ReflTransGen (CallStep V i k) (p, σ) (.done a, σ')

/-- The thread that calls runs, the others wait. -/
theorem Pool.CallStep.own_run {q q' : Program S Ans α} {s' : S} {e' : E} (hk : σ.prog i = q.bind k)
    (h : Effect.Reaches (V i) ⟨q, σ.store i, σ.env⟩ ⟨q', s', e'⟩) :
    Relation.ReflTransGen (CallStep V i k) (q, σ) (q', σ.set i ⟨q'.bind k, s', e'⟩) := by
  have hrun : ∀ c : Config S E Ans α, Effect.Reaches (V i) ⟨q, σ.store i, σ.env⟩ c →
      Relation.ReflTransGen (CallStep V i k) (q, σ)
        (c.prog, σ.set i ⟨c.prog.bind k, c.store, c.env⟩) := by
    intro c hc
    induction hc with
    | refl =>
      have hsame : σ.set i ⟨q.bind k, σ.store i, σ.env⟩ = σ := hk ▸ σ.set_thread i
      rw [hsame]
    | @tail c₁ c₂ _ hs ih =>
      have hstep : CallStep V i k (c₁.prog, σ.set i ⟨c₁.prog.bind k, c₁.store, c₁.env⟩)
          (c₂.prog, (σ.set i ⟨c₁.prog.bind k, c₁.store, c₁.env⟩).set i
            ⟨c₂.prog.bind k, c₂.store, c₂.env⟩) :=
        .own ((σ.set_store i _).symm ▸ hs)
      rw [set_set] at hstep
      exact ih.tail hstep
  exact hrun _ h

/-- Another thread does a step. -/
theorem Pool.CallStep.other_step {q : Program S Ans α} {c : Config S E Ans Unit} (j : ι)
    (hj : j ≠ i) (h : Effect.Step (V j) (σ.thread j) c) :
    Relation.ReflTransGen (CallStep V i k) (q, σ) (q, σ.set j c) :=
  .single (.other j hj h)

/-- What surrounds the thread `i`, other threads included: whatever these ask for may happen at any
time. -/
def Env.rely (V : ι → Env S E Ans) (i : ι) : Env S E Ans where
  drift e e' := (V i).drift e e' ∨ ∃ j, j ≠ i ∧
    ((V j).drift e e' ∨ ∃ o s a, (V j).answer o s e a e')
  answer := (V i).answer

omit [DecidableEq ι] in
theorem Step.rely {j : ι} (hj : j ≠ i) {c c' : Config S E Ans Unit} (h : Step (V j) c c') :
    (Env.rely V i).Drifts c.env c'.env := by
  cases h with
  | call k ha => exact .single (.inr ⟨j, hj, .inr ⟨_, _, _, ha⟩⟩)
  | drift hd => exact .single (.inr ⟨j, hj, .inl hd⟩)
  | read => exact .refl _ _
  | write => exact .refl _ _
  | turn => exact .refl _ _

omit [DecidableEq ι] in
theorem Env.le_rely : V i ≤ Env.rely V i := ⟨.inl, id⟩

/-- A call in a pool is an execution of the program that is called. -/
theorem Pool.Returns.rely {p : Program S Ans α} {a : α} (h : Pool.Returns V i p σ a σ') :
    Effect.Returns (Env.rely V i) p (σ.store i) σ.env a (σ'.store i) σ'.env := by
  obtain ⟨k, -, hsteps⟩ := h
  have hrun : ∀ x : Program S Ans α × Pool ι S E Ans, Relation.ReflTransGen (CallStep V i k) (p,
      σ) x →
      Effect.Reaches (Env.rely V i) ⟨p, σ.store i, σ.env⟩ ⟨x.1, x.2.store i, x.2.env⟩ := by
    intro x hx
    induction hx with
    | refl => exact .refl _
    | tail _ hs ih =>
      cases hs with
      | @own q q' σ₁ s' e' h =>
        have hown : Effect.Reaches (Env.rely V i) ⟨q, σ₁.store i, σ₁.env⟩ ⟨q', s', e'⟩ :=
          (Effect.Reaches.step h).mono Env.le_rely
        exact ih.trans ((σ₁.set_store i ⟨q'.bind k, s', e'⟩).symm ▸ hown)
      | @other q σ₁ c j hj h =>
        have hother : Effect.Reaches (Env.rely V i) ⟨q, σ₁.store i, σ₁.env⟩
            ⟨q, σ₁.store i, c.env⟩ :=
          .drifts (h.rely hj)
        exact ih.trans ((σ₁.set_store_of_ne hj.symm c).symm ▸ hother)
  exact hrun _ hsteps

omit [DecidableEq ι] in
/-- What all threads keep is kept among them. -/
theorem Env.rely_keeps {I : E → Prop} (hV : ∀ j, (V j).Keeps I) (i : ι) :
    (Env.rely V i).Keeps I where
  drift hd h := by
    obtain hd | ⟨j, -, hd | ⟨o, s, a, ha⟩⟩ := hd
    · exact (hV i).drift hd h
    · exact (hV j).drift hd h
    · exact (hV j).answer ha h
  answer ha h := (hV i).answer ha h

omit [DecidableEq ι] in
/-- What the other threads keep is kept between two steps of a thread. -/
theorem Env.Drifts.rely_keeps {I : E → Prop} (hV : ∀ j, j ≠ i → (V j).Keeps I)
    (hi : ∀ {e e'}, (V i).drift e e' → I e → I e') {e e' : E} (h : (Env.rely V i).Drifts e e')
    (hI : I e) : I e' := by
  refine h.induct ?_ hI
  rintro e₁ e₂ (hd | ⟨j, hj, hd | ⟨o, s, a, ha⟩⟩) h
  · exact hi hd h
  · exact (hV j hj).drift hd h
  · exact (hV j hj).answer ha h

end Effect
