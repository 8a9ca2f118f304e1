import Mathlib.Logic.Relation
import Mathlib.Tactic.Common

/-!
# Effectful programs

A program reads and writes a store of its own and performs operations of an interface whose
answers come from outside. Programs are syntax: a tree of store accesses, operations and loops, so
that one definition of a program can be run against a fixed script, quantified over every
behaviour of its surroundings, or cut off in the middle of a loop that never ends.

Unbounded loops are a constructor and not a fuel argument. A waiting loop that polls its
surroundings is then exactly its body, and a program that never returns is a program with no
finite complete execution.

## Representation

The answer type of an operation depends on the operation, so an interface is a family
`Ans : Op → Type`. The store is accessed by explicit `read` and `write` nodes rather than threaded
by a state transformer: an observer standing at an operation can then see the store as it is at
that very moment.
-/

namespace Effect

/-- Programs over a store `S` and an interface `Ans`. -/
inductive Program (S : Type) {Op : Type} (Ans : Op → Type) : Type → Type 1
  /-- Return a value. -/
  | done {α : Type} (a : α) : Program S Ans α
  /-- Read the store. -/
  | read {α : Type} (k : S → Program S Ans α) : Program S Ans α
  /-- Replace the store. -/
  | write {α : Type} (s : S) (p : Program S Ans α) : Program S Ans α
  /-- Perform an operation and continue with its answer. -/
  | call {α : Type} (o : Op) (k : Ans o → Program S Ans α) : Program S Ans α
  /-- Repeat the body until it yields `some b`, then continue with `b`. -/
  | loop {α β : Type} (body : Program S Ans (Option β)) (k : β → Program S Ans α) :
      Program S Ans α

namespace Program

variable {S Op : Type} {Ans : Op → Type} {α β γ : Type}

/-- Sequencing. -/
def bind : {α : Type} → Program S Ans α → (α → Program S Ans γ) → Program S Ans γ
  | _, .done a, f => f a
  | _, .read k, f => .read fun s ↦ (k s).bind f
  | _, .write s p, f => .write s (p.bind f)
  | _, .call o k, f => .call o fun a ↦ (k a).bind f
  | _, .loop body k, f => .loop body fun b ↦ (k b).bind f

instance : Monad (Program S Ans) where
  pure := .done
  bind := .bind

instance : MonadStateOf S (Program S Ans) where
  get := .read .done
  set s := .write s (.done ())
  modifyGet f := .read fun s ↦ .write (f s).2 (.done (f s).1)

/-- Perform an operation and return its answer. -/
def perform (o : Op) : Program S Ans (Ans o) := .call o .done

/-- Repeat the body until it yields `some b`, and return `b`. -/
def forever (body : Program S Ans (Option β)) : Program S Ans β := .loop body .done

/-- Run `p` only if `c` holds. -/
def when (c : Prop) [Decidable c] (p : Program S Ans Unit) : Program S Ans Unit :=
  if c then p else .done ()

/-- The value of a program that has returned. -/
def result? : Program S Ans α → Option α
  | .done a => some a
  | _ => none

theorem eq_done_of_result? {p : Program S Ans α} {a : α} (h : p.result? = some a) :
    p = .done a := by
  cases p with
  | done b => rw [Option.some_inj.mp h]
  | read => exact absurd h (by simp [result?])
  | write => exact absurd h (by simp [result?])
  | call => exact absurd h (by simp [result?])
  | loop => exact absurd h (by simp [result?])

/-- The operation a program is about to perform. -/
def asks? : Program S Ans α → Option Op
  | .call o _ => some o
  | _ => none

theorem eq_call_of_asks? {p : Program S Ans α} {o : Op} (h : p.asks? = some o) :
    ∃ k : Ans o → Program S Ans α, p = .call o k := by
  cases p with
  | call o' k =>
    obtain rfl := Option.some_inj.mp h
    exact ⟨k, rfl⟩
  | done => exact absurd h (by simp [asks?])
  | read => exact absurd h (by simp [asks?])
  | write => exact absurd h (by simp [asks?])
  | loop => exact absurd h (by simp [asks?])

/-! ## Unfolding the monad operations -/

@[simp] theorem done_bind (a : α) (f : α → Program S Ans β) :
    (Program.done a).bind f = f a := rfl

@[simp] theorem bind_done (p : Program S Ans α) : p.bind .done = p := by
  induction p with
  | done a => rfl
  | read k ih => simp only [bind, ih]
  | write s p ih => simp only [bind, ih]
  | call o k ih => simp only [bind, ih]
  | loop body k _ ih => simp only [bind, ih]

theorem bind_assoc (p : Program S Ans α) (f : α → Program S Ans β) (g : β → Program S Ans γ) :
    (p.bind f).bind g = p.bind fun a ↦ (f a).bind g := by
  induction p with
  | done a => rfl
  | read k ih => simp only [bind, ih]
  | write s p ih => simp only [bind, ih]
  | call o k ih => simp only [bind, ih]
  | loop body k _ ih => simp only [bind, ih]

instance : LawfulMonad (Program S Ans) := LawfulMonad.mk' _
  (fun p ↦ bind_done p) (fun _ _ ↦ rfl) (fun p f g ↦ bind_assoc p f g)

end Program

/-! ## Configurations and steps -/

/-- What surrounds a program: how it moves by itself, and how it answers an operation. The answer
may look at the store of the program that asks, which is what lets a restriction on the moments at
which an answer may be given be an environment again. -/
structure Env (S E : Type) {Op : Type} (Ans : Op → Type) where
  /-- A move of the surroundings on their own, possible between any two steps of the program. -/
  drift : E → E → Prop
  /-- `answer o s e a e'`: asked `o` in state `e` by a program with store `s`, the surroundings may
  answer `a` and move to `e'`. -/
  answer : (o : Op) → S → E → Ans o → E → Prop

/-- A program about to run, with its store and the state of its surroundings. -/
structure Config (S E : Type) {Op : Type} (Ans : Op → Type) (α : Type) where
  prog : Program S Ans α
  store : S
  env : E

variable {S E Op : Type} {Ans : Op → Type} {α β γ : Type}

namespace Env

/-- Any number of moves of the surroundings. -/
def Drifts (V : Env S E Ans) : E → E → Prop := Relation.ReflTransGen V.drift

/-- Surroundings that may do anything at all. -/
def any : Env S E Ans := ⟨fun _ _ ↦ True, fun _ _ _ _ _ ↦ True⟩

/-- Surroundings that may answer anything but do nothing by themselves. -/
def oracle : Env S Unit Ans := ⟨fun _ _ ↦ False, fun _ _ _ _ _ ↦ True⟩

/-- The environment whose runs are the runs of `V` in which every operation is performed at a
moment satisfying `ok`. -/
def restrict (V : Env S E Ans) (ok : Op → S → E → Prop) : Env S E Ans where
  drift := V.drift
  answer o s e a e' := ok o s e ∧ V.answer o s e a e'

/-- Every behaviour of the one is a behaviour of the other. -/
protected structure Le (V V' : Env S E Ans) : Prop where
  drift : ∀ {e e'}, V.drift e e' → V'.drift e e'
  answer : ∀ {o s e a e'}, V.answer o s e a e' → V'.answer o s e a e'

instance : LE (Env S E Ans) := ⟨Env.Le⟩

protected theorem le_refl (V : Env S E Ans) : V ≤ V := ⟨id, id⟩

theorem restrict_le (V : Env S E Ans) (ok : Op → S → E → Prop) : V.restrict ok ≤ V :=
  ⟨id, And.right⟩

theorem Drifts.refl (V : Env S E Ans) (e : E) : V.Drifts e e := Relation.ReflTransGen.refl

theorem Drifts.mono {V V' : Env S E Ans} (hV : V ≤ V') {e e' : E} (h : V.Drifts e e') :
    V'.Drifts e e' := Relation.ReflTransGen.mono (fun _ _ ↦ hV.drift) _ _ h

theorem Drifts.trans {V : Env S E Ans} {e₁ e₂ e₃ : E} (h₁ : V.Drifts e₁ e₂)
    (h₂ : V.Drifts e₂ e₃) : V.Drifts e₁ e₃ := Relation.ReflTransGen.trans h₁ h₂

/-- A property kept by each move is kept by all of them. -/
theorem Drifts.induct {V : Env S E Ans} {P : E → Prop} (hP : ∀ e e', V.drift e e' → P e → P e')
    {e e' : E} (h : V.Drifts e e') (he : P e) :
    P e' := by
  induction h with
  | refl => exact he
  | tail _ hd ih => exact hP _ _ hd ih

end Env

/-- One step of a program in its surroundings. -/
inductive Step (V : Env S E Ans) : Config S E Ans α → Config S E Ans α → Prop
  | read (k : S → Program S Ans α) (s : S) (e : E) : Step V ⟨.read k, s, e⟩ ⟨k s, s, e⟩
  | write (s' : S) (p : Program S Ans α) (s : S) (e : E) : Step V ⟨.write s' p, s, e⟩
      ⟨p, s', e⟩
  | call {o : Op} {a : Ans o} {s : S} {e e' : E} (k : Ans o → Program S Ans α)
      (h : V.answer o s e a e') : Step V ⟨.call o k, s, e⟩ ⟨k a, s, e'⟩
  | turn {β : Type} (body : Program S Ans (Option β)) (k : β → Program S Ans α) (s : S) (e : E) :
      Step V ⟨.loop body k, s, e⟩
        ⟨body.bind fun r ↦ match r with
          | none => .loop body k
          | some b => k b, s, e⟩
  | drift {p : Program S Ans α} {s : S} {e e' : E} (h : V.drift e e') :
      Step V ⟨p, s, e⟩ ⟨p, s, e'⟩

/-- Any number of steps. -/
def Reaches (V : Env S E Ans) : Config S E Ans α → Config S E Ans α → Prop :=
  Relation.ReflTransGen (Step V)

/-- A complete execution: the program returns `a` with store `s'`, its surroundings in `e'`. -/
def Returns (V : Env S E Ans) (p : Program S Ans α) (s : S) (e : E) (a : α) (s' : S) (e' : E) :
    Prop := Reaches V ⟨p, s, e⟩ ⟨.done a, s', e'⟩

/-- A moment of an execution at which the operation `o` is about to be performed. -/
def Performs (V : Env S E Ans) (p : Program S Ans α) (s : S) (e : E) (o : Op) (s' : S) (e' : E) :
    Prop := ∃ k : Ans o → Program S Ans α, Reaches V ⟨p, s, e⟩ ⟨.call o k, s', e'⟩

namespace Reaches

variable {V : Env S E Ans}

theorem refl (c : Config S E Ans α) : Reaches V c c := Relation.ReflTransGen.refl

theorem trans {c₁ c₂ c₃ : Config S E Ans α} (h₁ : Reaches V c₁ c₂)
    (h₂ : Reaches V c₂ c₃) : Reaches V c₁ c₃ := Relation.ReflTransGen.trans h₁ h₂

theorem step {c₁ c₂ : Config S E Ans α} (h : Step V c₁ c₂) : Reaches V c₁ c₂ :=
  Relation.ReflTransGen.single h

theorem drifts {p : Program S Ans α} {s : S} {e e' : E} (h : V.Drifts e e') :
    Reaches V ⟨p, s, e⟩ ⟨p, s, e'⟩ := by
  induction h with
  | refl => exact .refl _
  | tail _ hd ih => exact ih.trans (.step (.drift hd))

/-- More surroundings, more executions. -/
theorem mono {V' : Env S E Ans} (hV : V ≤ V') {c c' : Config S E Ans α} (h : Reaches V c c') :
    Reaches V' c c' := by
  refine Relation.ReflTransGen.mono (fun c₁ c₂ hs ↦ ?_) _ _ h
  cases hs with
  | read k s e => exact .read k s e
  | write s' p s e => exact .write s' p s e
  | call k hk => exact .call k (hV.answer hk)
  | turn body k s e => exact .turn body k s e
  | drift hd => exact .drift (hV.drift hd)

end Reaches

/-! ## Running a program against a script

A handler answers every operation from the state of the surroundings. Running a program against a
handler is executable, and it is one of the executions the step relation describes. -/

/-- One step against a handler; a returned value stays. -/
def stepWith (h : (o : Op) → E → Ans o × E) : Config S E Ans α → Config S E Ans α
  | ⟨.done a, s, e⟩ => ⟨.done a, s, e⟩
  | ⟨.read k, s, e⟩ => ⟨k s, s, e⟩
  | ⟨.write s' p, _, e⟩ => ⟨p, s', e⟩
  | ⟨.call o k, s, e⟩ => ⟨k (h o e).1, s, (h o e).2⟩
  | ⟨.loop body k, s, e⟩ => ⟨body.bind fun r ↦ match r with
      | none => .loop body k
      | some b => k b, s, e⟩

/-- `n` steps against a handler. -/
def runWith (h : (o : Op) → E → Ans o × E) : ℕ → Config S E Ans α → Config S E Ans α
  | 0, c => c
  | n + 1, c => runWith h n (stepWith h c)

/-- The surroundings that answer as the handler says and never move by themselves. -/
def Env.script (h : (o : Op) → E → Ans o × E) : Env S E Ans :=
  ⟨fun _ _ ↦ False, fun o _ e a e' ↦ a = (h o e).1 ∧ e' = (h o e).2⟩

/-- A handler that answers as the environment allows, at least in the states satisfying `I`, which
it does not leave. -/
structure Env.Follows (V : Env S E Ans) (I : E → Prop) (h : (o : Op) → E → Ans o × E) :
    Prop where
  answer : ∀ o s e, I e → V.answer o s e (h o e).1 (h o e).2
  keeps : ∀ o e, I e → I (h o e).2

theorem Env.Follows.always {V : Env S E Ans} {h : (o : Op) → E → Ans o × E}
    (hV : ∀ o s e, V.answer o s e (h o e).1 (h o e).2) : V.Follows (fun _ ↦ True) h :=
  ⟨fun o s e _ ↦ hV o s e, fun _ _ _ ↦ trivial⟩

theorem reaches_stepWith {V : Env S E Ans} {I : E → Prop} {h : (o : Op) → E → Ans o × E}
    (hV : V.Follows I h) (c : Config S E Ans α) (hc : I c.env) :
    Reaches V c (stepWith h c) ∧ I (stepWith h c).env := by
  obtain ⟨p, s, e⟩ := c
  cases p with
  | done a => exact ⟨.refl _, hc⟩
  | read k => exact ⟨.step (.read k s e), hc⟩
  | write s' p => exact ⟨.step (.write s' p s e), hc⟩
  | call o k => exact ⟨.step (.call k (hV.answer o s e hc)), hV.keeps o e hc⟩
  | loop body k => exact ⟨.step (.turn body k s e), hc⟩

theorem reaches_runWith {V : Env S E Ans} {I : E → Prop} {h : (o : Op) → E → Ans o × E}
    (hV : V.Follows I h) :
    ∀ (n : ℕ) (c : Config S E Ans α), I c.env → Reaches V c (runWith h n c) ∧ I
    (runWith h n c).env
  | 0, c, hc => ⟨.refl c, hc⟩
  | n + 1, c, hc =>
    have h₁ := reaches_stepWith hV c hc
    have h₂ := reaches_runWith hV n _ h₁.2
    ⟨h₁.1.trans h₂.1, h₂.2⟩

theorem returns_runWith {V : Env S E Ans} {I : E → Prop} {h : (o : Op) → E → Ans o × E}
    (hV : V.Follows I h) {n : ℕ} {p : Program S Ans α} {s : S} {e : E} {a : α} (he : I e)
    (hn : (runWith h n ⟨p, s, e⟩).prog.result? = some a) :
    Returns V p s e a (runWith h n ⟨p, s, e⟩).store (runWith h n ⟨p, s, e⟩).env := by
  have hr := (reaches_runWith hV n ⟨p, s, e⟩ he).1
  replace hn := Program.eq_done_of_result? hn
  generalize runWith h n ⟨p, s, e⟩ = c at hn hr
  obtain ⟨_, s', e'⟩ := c
  subst hn
  exact hr

/-- Does every operation of `n` steps against a handler come at a moment that passes the test? -/
def passes (h : (o : Op) → E → Ans o × E) (test : Op → S → E → Bool) :
    ℕ → Config S E Ans α → Bool
  | 0, _ => true
  | n + 1, c => (c.prog.asks?.all fun o ↦ test o c.store c.env) && passes h test n (stepWith h c)

theorem reaches_passes {V : Env S E Ans} {ok : Op → S → E → Prop}
    {test : Op → S → E → Bool} {h : (o : Op) → E → Ans o × E}
    (hV : ∀ o s e, V.answer o s e (h o e).1 (h o e).2)
    (hok : ∀ o s e, test o s e = true → ok o s e) :
    ∀ (n : ℕ) (c : Config S E Ans α), passes h test n c = true → Reaches (V.restrict ok) c
    (runWith h n c)
  | 0, c, _ => .refl c
  | n + 1, c, hn => by
    obtain ⟨htest, hn⟩ := (Bool.and_eq_true _ _).mp hn
    refine Reaches.trans ?_ (reaches_passes hV hok n (stepWith h c) hn)
    obtain ⟨p, s, e⟩ := c
    cases p with
    | done a => exact .refl _
    | read k => exact .step (.read k s e)
    | write s' p => exact .step (.write s' p s e)
    | call o k => exact .step (.call k ⟨hok o s e htest, hV o s e⟩)
    | loop body k => exact .step (.turn body k s e)

theorem returns_passes {V : Env S E Ans} {ok : Op → S → E → Prop}
    {test : Op → S → E → Bool} {h : (o : Op) → E → Ans o × E}
    (hV : ∀ o s e, V.answer o s e (h o e).1 (h o e).2)
    (hok : ∀ o s e, test o s e = true → ok o s e) {n : ℕ} {p : Program S Ans α} {s : S} {e : E}
    {a : α} (htest : passes h test n ⟨p, s, e⟩ = true)
    (hn : (runWith h n ⟨p, s, e⟩).prog.result? =
      some a) :
    Returns (V.restrict ok) p s e a (runWith h n ⟨p, s, e⟩).store
    (runWith h n ⟨p, s, e⟩).env := by
  have hr := reaches_passes hV hok n ⟨p, s, e⟩ htest
  replace hn := Program.eq_done_of_result? hn
  generalize runWith h n ⟨p, s, e⟩ = c at hn hr
  obtain ⟨_, s', e'⟩ := c
  subst hn
  exact hr

theorem performs_runWith {V : Env S E Ans} {I : E → Prop} {h : (o : Op) → E → Ans o × E}
    (hV : V.Follows I h) {n : ℕ} {p : Program S Ans α} {s : S} {e : E} {o : Op} (he : I e)
    (hn : (runWith h n ⟨p, s, e⟩).prog.asks? = some o) :
    Performs V p s e o (runWith h n ⟨p, s, e⟩).store (runWith h n ⟨p, s, e⟩).env := by
  have hr := (reaches_runWith hV n ⟨p, s, e⟩ he).1
  obtain ⟨k, hk⟩ := Program.eq_call_of_asks? hn
  generalize runWith h n ⟨p, s, e⟩ = c at hk hr
  obtain ⟨_, s', e'⟩ := c
  subst hk
  exact ⟨k, hr⟩

/-- The surroundings whose moves by themselves are part of their answers. A handler can follow these
even where the others must move before they can answer. -/
def Env.eager (V : Env S E Ans) : Env S E Ans where
  drift := V.drift
  answer o s e a e' := ∃ e₁, V.Drifts e e₁ ∧ V.answer o s e₁ a e'

theorem Reaches.of_eager {V : Env S E Ans} {c c' : Config S E Ans α} (h : Reaches V.eager c c') :
    Reaches V c c' := by
  induction h with
  | refl => exact .refl _
  | tail _ hs ih =>
    refine ih.trans ?_
    cases hs with
    | read k s e => exact .step (.read k s e)
    | write s' p s e => exact .step (.write s' p s e)
    | call k ha =>
      obtain ⟨e₁, hd, ha⟩ := ha
      exact (Reaches.drifts hd).trans (.step (.call k ha))
    | turn body k s e => exact .step (.turn body k s e)
    | drift hd => exact .step (.drift hd)

theorem Env.Follows.script_le {V : Env S E Ans} {h : (o : Op) → E → Ans o × E}
    (hV : V.Follows (fun _ ↦ True) h) : Env.script h ≤ V where
  drift hd := False.elim hd
  answer := by
    rintro o s e _ _ ⟨rfl, rfl⟩
    exact hV.answer o s e trivial

theorem Env.script_drifts {h : (o : Op) → E → Ans o × E} {e e' : E}
    (hd : (Env.script h : Env S E Ans).Drifts e e') : e' = e :=
  hd.induct (P := fun e' ↦ e' = e) (fun _ _ hd _ ↦ False.elim hd) rfl

/-! ## Programs that perform no operation -/

/-- The result of a program that only accesses its store; `none` at an operation or a loop. -/
def Program.exec? : {α : Type} → Program S Ans α → S → Option (α × S)
  | _, .done a, s => some (a, s)
  | _, .read k, s => (k s).exec? s
  | _, .write s' p, _ => p.exec? s'
  | _, .call _ _, _ => none
  | _, .loop _ _, _ => none

@[simp] theorem Program.exec?_pure (a : α) (s : S) :
    (pure a : Program S Ans α).exec? s = some (a, s) := rfl

@[simp] theorem Program.exec?_get_bind (f : S → Program S Ans α) (s : S) :
    (get >>= f).exec? s = (f s).exec? s := rfl

@[simp] theorem Program.exec?_modify_bind (g : S → S) (f : PUnit → Program S Ans α) (s : S) :
    (modify g >>= f).exec? s = (f ⟨⟩).exec? (g s) := rfl

@[simp] theorem Program.exec?_modifyGet_bind (g : S → α × S) (f : α → Program S Ans β)
    (s : S) : (modifyGet g >>= f).exec? s = (f (g s).1).exec? (g s).2 := rfl

theorem Program.exec?_bind {p : Program S Ans α} {f : α → Program S Ans β} {s s' : S} {a : α}
    (h : p.exec? s = some (a, s')) : (p >>= f).exec? s = (f a).exec? s' := by
  induction p generalizing s with
  | done b =>
    obtain ⟨rfl, rfl⟩ := Prod.mk.inj (Option.some_inj.mp h)
    rfl
  | read k ih => exact ih s h
  | write s₁ p ih => exact ih h
  | call o k => exact absurd h (by simp [exec?])
  | loop body k => exact absurd h (by simp [exec?])

theorem Program.exec?_discard {p : Program S Ans α} {s s' : S} {a : α}
    (h : p.exec? s = some (a, s')) : (discard p).exec? s = some (⟨⟩, s') := exec?_bind h

/-- A `for` loop each turn of which leaves the store alone. -/
theorem Program.exec?_forM {f : γ → Program S Ans PUnit} {s : S} {l : List γ}
    (h : ∀ x ∈ l, (f x).exec? s = some (⟨⟩, s)) : (l.forM f).exec? s = some (⟨⟩, s) := by
  induction l with
  | nil => rfl
  | cons x l ih =>
    rw [List.forall_mem_cons] at h
    exact (exec?_bind h.1).trans (ih h.2)

/-- Such a program returns its result, whatever surrounds it. -/
theorem returns_of_exec? {V : Env S E Ans} {p : Program S Ans α} {s s' : S} {e : E} {a : α}
    (h : p.exec? s = some (a, s')) : Returns V p s e a s' e := by
  induction p generalizing s with
  | done b =>
    obtain ⟨rfl, rfl⟩ := Prod.mk.inj (Option.some_inj.mp h)
    exact .refl _
  | read k ih => exact (Reaches.step (.read k s e)).trans (ih s h)
  | write s₁ p ih => exact (Reaches.step (.write s₁ p s e)).trans (ih h)
  | call o k => exact absurd h (by simp [Program.exec?])
  | loop body k => exact absurd h (by simp [Program.exec?])

end Effect
