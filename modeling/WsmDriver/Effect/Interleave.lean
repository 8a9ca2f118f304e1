import WsmDriver.Effect.Segments
import Mathlib.Logic.Function.Basic

/-!
# Tasks that take turns

Several tasks call into one component and share its store. A task that has the turn runs until its
call returns or yields, undisturbed; then any task may have the next turn, to go on with the call it
has paused or, if it has paused none, to make a new one. `Interleaved` describes the runs.

A condition `ok` on the turns is part of the runs, so that a statement can be made about those in
which every turn satisfies it. An account of the changes to the store is kept as well; it decides
nothing.

`Interleaved.invariant` is the induction over a run. It rests on an analysis of each call by itself,
on the terms it agrees with the others: what each segment of a call does, and what it finds.
-/

namespace Effect

/-- A call under way: what was called, and the store and the account at that moment. -/
structure Origin (C S A : Type) where
  call : C
  store : S
  account : A

/-- A call that has yielded, and how it goes on. -/
structure Paused (C S A : Type) {Op : Type} (Ans : Op → Type) (y : Op) extends Origin C S A where
  rest : Ans y → Program S Ans Unit

/-- What the tasks in `ι` share, and the call each of them has paused. -/
structure Sched (ι C S E A : Type) {Op : Type} (Ans : Op → Type) (y : Op) where
  store : S
  env : E
  account : A
  paused : ι → Option (Paused C S A Ans y)

variable {ι C S E A Op : Type} {Ans : Op → Type} {y : Op} {V : Env S E Ans}
  {prog : C → Program S Ans Unit} {enter : S → S → A → A}

/-- The task `i` has the turn: it is about to run `p`, on behalf of the call `o`. -/
inductive Sched.Begins (V : Env S E Ans) (prog : C → Program S Ans Unit)
    (σ : Sched ι C S E A Ans y) (i : ι) : Origin C S A → Program S Ans Unit → E → Prop
  | call (c : C) (h : σ.paused i = none) :
      Sched.Begins V prog σ i ⟨c, σ.store, σ.account⟩ (prog c) σ.env
  | resume (k : Paused C S A Ans y) {a : Ans y} {e : E} (h : σ.paused i = some k)
      (ha : V.answer y σ.store σ.env a e) : Sched.Begins V prog σ i k.toOrigin (k.rest a) e

/-- The program runs until it returns or yields; then what is left of it is `r`. -/
inductive Segment (V : Env S E Ans) (y : Op) (p : Program S Ans Unit) (s : S) (e : E) :
    Option (Ans y → Program S Ans Unit) → S → E → Prop
  | finished {s' : S} {e' : E} (h : Returns (V.without y) p s e () s' e') :
      Segment V y p s e none s' e'
  | yielded {k : Ans y → Program S Ans Unit} {s' : S} {e' : E}
      (h : Reaches (V.without y) ⟨p, s, e⟩ ⟨.call y k, s', e'⟩) :
        Segment V y p s e (some k) s' e'

variable [DecidableEq ι]

/-- After a turn of the task `i`, of whose call `r` is left. -/
def Sched.next (enter : S → S → A → A) (σ : Sched ι C S E A Ans y) (i : ι) (o : Origin C S A)
    (r : Option (Ans y → Program S Ans Unit)) (s' : S) (e' : E) : Sched ι C S E A Ans y where
  store := s'
  env := e'
  account := enter σ.store s' σ.account
  paused := Function.update σ.paused i (r.map fun k ↦ ⟨o, k⟩)

theorem Sched.next_paused (σ : Sched ι C S E A Ans y) (i j : ι) (o : Origin C S A)
    (r : Option (Ans y → Program S Ans Unit)) (s' : S) (e' : E) :
    (σ.next enter i o r s' e').paused j = if j = i then r.map fun k ↦ ⟨o, k⟩ else σ.paused j :=
  Function.update_apply σ.paused i (r.map fun k ↦ ⟨o, k⟩) j

/-- The points reached by runs of the tasks in which every turn is `ok`; a turn is judged by the
point it starts from, the task and its call, and the store it ends with. -/
inductive Interleaved (V : Env S E Ans) (prog : C → Program S Ans Unit) (enter : S → S → A → A)
    (ok : Sched ι C S E A Ans y → ι → Origin C S A → S → Prop)
    (σ₀ : Sched ι C S E A Ans y) : Sched ι C S E A Ans y → Prop
  | start : Interleaved V prog enter ok σ₀ σ₀
  | drift {σ : Sched ι C S E A Ans y} {e' : E} (h : Interleaved V prog enter ok σ₀ σ)
      (hd : V.drift σ.env e') : Interleaved V prog enter ok σ₀ { σ with env := e' }
  | turn {σ : Sched ι C S E A Ans y} {i : ι} {o : Origin C S A} {p : Program S Ans Unit} {e e' : E}
      {r : Option (Ans y → Program S Ans Unit)} {s' : S} (h : Interleaved V prog enter ok σ₀ σ)
      (hb : σ.Begins V prog i o p e) (hok : ok σ i o s') (hs : Segment V y p σ.store e r s' e') :
      Interleaved V prog enter ok σ₀ (σ.next enter i o r s' e')

theorem Interleaved.mono {ok ok' : Sched ι C S E A Ans y → ι → Origin C S A → S → Prop}
    (hok : ∀ σ i o s, ok σ i o s → ok' σ i o s) {σ₀ σ : Sched ι C S E A Ans y}
    (h : Interleaved V prog enter ok σ₀ σ) : Interleaved V prog enter ok' σ₀ σ := by
  induction h with
  | start => exact .start
  | drift _ hd ih => exact ih.drift hd
  | turn _ hb ho hs ih => exact ih.turn hb (hok _ _ _ _ ho) hs

/-! ## The induction over a run -/

variable {T : Origin C S A → Terms S E Op} {σ₀ σ : Sched ι C S E A Ans y}
  {ok : Sched ι C S E A Ans y → ι → Origin C S A → S → Prop}

omit [DecidableEq ι] in
/-- Every paused call is ready to go on, on its terms. -/
def Sched.Ready (V : Env S E Ans) (T : Origin C S A → Terms S E Op) (σ : Sched ι C S E A Ans y) :
    Prop :=
  ∀ i k, σ.paused i = some k → ∀ s e a e', (T k.toOrigin).finds s e → V.answer y s e a e' →
    preY V y (T k.toOrigin) (k.rest a) (fun _ ↦ (T k.toOrigin).returns) s s e'

omit [DecidableEq ι] in
/-- A segment does what its terms say, and leaves a call that is ready to go on. -/
theorem Segment.does {T : Terms S E Op} {p : Program S Ans Unit} {s s' : S} {e e' : E}
    {r : Option (Ans y → Program S Ans Unit)} (hs : Segment V y p s e r s' e')
    (h : preY V y T p (fun _ ↦ T.returns) s s e) :
    (r = none → T.returns s s' e') ∧ ∀ k, r = some k → T.yields s s' e' ∧
      ∀ s e a e', T.finds s e → V.answer y s e a e' → preY V y T (k a)
      (fun _ ↦ T.returns) s s e' := by
  cases hs with
  | finished hr =>
    exact ⟨fun _ ↦ preY_reaches hr h e' (.refl _ _), fun k hk ↦ absurd hk (by simp)⟩
  | yielded hr =>
    obtain ⟨-, -, hy⟩ := preY_reaches hr h e' (.refl _ _)
    refine ⟨fun hk ↦ absurd hk (by simp), ?_⟩
    rintro _ ⟨⟩
    exact hy rfl

omit [DecidableEq ι] in
/-- A resumed call performs each operation on its terms. -/
theorem Sched.Ready.performs (hσ : σ.Ready V T) {i : ι} {k : Paused C S A Ans y} {a : Ans y}
    {e e' : E} {o : Op} {s' : S} (hk : σ.paused i = some k)
    (hf : (T k.toOrigin).finds σ.store σ.env) (ha : V.answer y σ.store σ.env a e)
    (hr : Performs (V.without y) (k.rest a) σ.store e o s' e') :
    (T k.toOrigin).guard o σ.store s' e' :=
  (hσ i k hk σ.store σ.env a e hf ha).performs hr

/-- **The induction over a run.** If every call keeps to its terms when it is made where `I` holds,
and finds what it counts on when it goes on where `I` holds, then `I` need only be kept by turns
that do what the terms say. -/
theorem Interleaved.invariant {I : Sched ι C S E A Ans y → Prop} (h₀ : I σ₀)
    (hnone : ∀ i, σ₀.paused i = none)
    (hdrift : ∀ σ e', I σ → V.drift σ.env e' → I { σ with env := e' })
    (hcall : ∀ (σ : Sched ι C S E A Ans y) (i : ι) (c : C) (s' : S), I σ → σ.paused i =
      none →
      ok σ i ⟨c, σ.store, σ.account⟩ s' →
      preY V y (T ⟨c, σ.store, σ.account⟩) (prog c)
        (fun _ ↦ (T ⟨c, σ.store, σ.account⟩).returns) σ.store σ.store σ.env)
    (hfinds : ∀ σ i k s', I σ → σ.paused i = some k → ok σ i k.toOrigin s' →
      (T k.toOrigin).finds σ.store σ.env)
    (hreturn : ∀ σ i o p e s' e', I σ → σ.Begins V prog i o p e → ok σ i o s' →
      (T o).returns σ.store s' e' → I (σ.next enter i o none s' e'))
    (hyield : ∀ σ i o p e k s' e', I σ → σ.Begins V prog i o p e → ok σ i o s' →
      (T o).yields σ.store s' e' → I (σ.next enter i o (some k) s' e'))
    (h : Interleaved V prog enter ok σ₀ σ) : I σ ∧ σ.Ready V T := by
  induction h with
  | start => exact ⟨h₀, fun i k hk ↦ absurd (hnone i) (by simp [hk])⟩
  | drift _ hd ih => exact ⟨hdrift _ _ ih.1 hd, ih.2⟩
  | @turn σ i o p e e' r s' _ hb hok hs ih =>
    have hp : preY V y (T o) p (fun _ ↦ (T o).returns) σ.store σ.store e := by
      cases hb with
      | call c hi => exact hcall σ i c s' ih.1 hi hok
      | resume k hk ha => exact ih.2 i k hk _ _ _ _ (hfinds σ i k s' ih.1 hk hok) ha
    obtain ⟨hret, hrest⟩ := hs.does hp
    -- The task that had its turn is paused where the segment ended; the others are as they were.
    refine ⟨?_, fun j k hk ↦ ?_⟩
    · cases r with
      | none => exact hreturn σ i o p e s' e' ih.1 hb hok (hret rfl)
      | some k => exact hyield σ i o p e k s' e' ih.1 hb hok (hrest k rfl).1
    · rw [Sched.next_paused] at hk
      split at hk
      · obtain ⟨k', rfl, rfl⟩ := Option.map_eq_some_iff.mp hk
        exact (hrest k' rfl).2
      · exact ih.2 j k hk

/-! ## Turns against a script -/

section Script

variable [DecidableEq Op] {h : (o : Op) → E → Ans o × E} {n : ℕ}

/-- What is left of a program that is about to perform `y`. -/
def Program.rest (y : Op) {α : Type} : Program S Ans α → Ans y → Program S Ans α
  | .call o k, a => if ho : y = o then k (ho ▸ a) else .call o k
  | p, _ => p

theorem Program.eq_call_rest {α : Type} {p : Program S Ans α} (hp : p.asks? = some y) :
    p = .call y (p.rest y) := by
  obtain ⟨k, rfl⟩ := eq_call_of_asks? hp
  refine congrArg _ (funext fun a ↦ ?_)
  rw [rest, dif_pos rfl]

/-- `n` steps against a handler, stopping at `y`. -/
def runTo (y : Op) (h : (o : Op) → E → Ans o × E) : ℕ → Config S E Ans Unit →
    Config S E Ans Unit
  | 0, c => c
  | n + 1, c => if c.prog.asks? = some y then c else runTo y h n (stepWith h c)

theorem reaches_runTo (hV : ∀ o s e, V.answer o s e (h o e).1 (h o e).2) :
    ∀ (n : ℕ) (c : Config S E Ans Unit), Reaches (V.without y) c (runTo y h n c)
  | 0, c => .refl c
  | n + 1, c => by
    rw [runTo]
    split
    · exact .refl c
    -- The next operation is not the one at which the run stops.
    rename_i hy
    refine Reaches.trans ?_ (reaches_runTo hV n _)
    obtain ⟨p, s, e⟩ := c
    cases p with
    | done a => exact .refl _
    | read k => exact .step (.read k s e)
    | write s' p => exact .step (.write s' p s e)
    | call o k => exact .step (.call k ⟨fun ho ↦ hy (congrArg some ho), hV o s e⟩)
    | loop body k => exact .step (.turn body k s e)

theorem performs_runTo (hV : ∀ o s e, V.answer o s e (h o e).1 (h o e).2) {p : Program S Ans Unit}
    {s : S} {e : E} {o : Op} (hn : (runTo y h n ⟨p, s, e⟩).prog.asks? = some o) :
    Performs (V.without y) p s e o (runTo y h n ⟨p, s, e⟩).store
    (runTo y h n ⟨p, s, e⟩).env := by
  have hr := reaches_runTo (y := y) hV n ⟨p, s, e⟩
  obtain ⟨k, hk⟩ := Program.eq_call_of_asks? hn
  generalize runTo y h n ⟨p, s, e⟩ = c at hk hr
  obtain ⟨_, s', e'⟩ := c
  subst hk
  exact ⟨k, hr⟩

/-- A turn against a handler. -/
def Sched.run (enter : S → S → A → A) (h : (o : Op) → E → Ans o × E) (n : ℕ)
    (σ : Sched ι C S E A Ans y) (i : ι) (o : Origin C S A) (p : Program S Ans Unit) (e : E) :
    Sched ι C S E A Ans y :=
  let c := runTo y h n ⟨p, σ.store, e⟩
  σ.next enter i o (if c.prog.asks? = some y then some (c.prog.rest y) else none) c.store c.env

/-- The task `i` makes the call `c`. -/
def Sched.call (prog : C → Program S Ans Unit) (enter : S → S → A → A)
    (h : (o : Op) → E → Ans o × E) (n : ℕ) (σ : Sched ι C S E A Ans y) (i : ι) (c : C) :
    Sched ι C S E A Ans y :=
  σ.run enter h n i ⟨c, σ.store, σ.account⟩ (prog c) σ.env

/-- The task `i` goes on with the call it has paused, if it has. -/
def Sched.resume (enter : S → S → A → A) (h : (o : Op) → E → Ans o × E) (n : ℕ)
    (σ : Sched ι C S E A Ans y) (i : ι) : Sched ι C S E A Ans y :=
  match σ.paused i with
  | none => σ
  | some k => σ.run enter h n i k.toOrigin (k.rest (h y σ.env).1) (h y σ.env).2

/-- The turn has come to its end. -/
def Config.ends (y : Op) (c : Config S E Ans Unit) : Bool :=
  c.prog.result?.isSome || decide (c.prog.asks? = some y)

omit [DecidableEq ι] in
theorem Segment.of_ends (hV : ∀ o s e, V.answer o s e (h o e).1 (h o e).2) {p : Program S Ans Unit}
    {s : S} {e : E} (hn : (runTo y h n ⟨p, s, e⟩).ends y = true) :
    Segment V y p s e (if (runTo y h n ⟨p, s, e⟩).prog.asks? = some y then
        some ((runTo y h n ⟨p, s, e⟩).prog.rest y) else none)
      (runTo y h n ⟨p, s, e⟩).store (runTo y h n ⟨p, s, e⟩).env := by
  have hr := reaches_runTo (y := y) hV n ⟨p, s, e⟩
  rw [Config.ends] at hn
  generalize runTo y h n ⟨p, s, e⟩ = c at hn hr
  obtain ⟨p', s', e'⟩ := c
  split
  · rename_i hy
    refine .yielded ?_
    rwa [← Program.eq_call_rest hy]
  · rename_i hy
    obtain ⟨⟨⟩, hres⟩ := Option.isSome_iff_exists.mp (by simpa [hy] using hn)
    obtain rfl := Program.eq_done_of_result? hres
    exact .finished hr

theorem Interleaved.call (hσ : Interleaved V prog enter ok σ₀ σ) {i : ι} {c : C}
    (hV : ∀ o s e, V.answer o s e (h o e).1 (h o e).2) (hi : (σ.paused i).isNone = true)
    (hn : (runTo y h n ⟨prog c, σ.store, σ.env⟩).ends y = true)
    (hok : ok σ i ⟨c, σ.store, σ.account⟩ (σ.call prog enter h n i c).store) :
    Interleaved V prog enter ok σ₀ (σ.call prog enter h n i c) :=
  hσ.turn (.call c (Option.isNone_iff_eq_none.mp hi)) hok (.of_ends hV hn)

theorem Interleaved.resume (hσ : Interleaved V prog enter ok σ₀ σ) {i : ι}
    {k : Paused C S A Ans y} (hV : ∀ o s e, V.answer o s e (h o e).1 (h o e).2)
    (hk : σ.paused i = some k)
    (hn : (runTo y h n ⟨k.rest (h y σ.env).1, σ.store, (h y σ.env).2⟩).ends y = true)
    (hok : ok σ i k.toOrigin (σ.resume enter h n i).store) :
    Interleaved V prog enter ok σ₀ (σ.resume enter h n i) := by
  have heq : σ.resume enter h n i =
      σ.run enter h n i k.toOrigin (k.rest (h y σ.env).1) (h y σ.env).2 := by
    rw [Sched.resume, hk]
  rw [heq] at hok ⊢
  exact hσ.turn (.resume k hk (hV y σ.store σ.env)) hok (.of_ends hV hn)

end Script

end Effect
