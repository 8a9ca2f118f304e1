import WsmDriver.Effect.Execution

/-!
# Histories of complete calls

A component offers calls, each a program over the component's store. A history is a sequence of
complete calls, one after the other, from a starting point: between two calls the surroundings move
as they please, during a call they move and answer as the environment of that call says.

The environment may depend on the call, so that a condition on how a particular call meets its
surroundings is a choice of environments. `allowed` says when a call may be made at all.

A `Session` is the same for calls whose results matter: it comes with the list of the calls made,
each with what it returned and the surroundings before and after it.
-/

namespace Effect

variable {C S E Op : Type} {Ans : Op → Type}

/-- The points reached by sequences of complete calls. -/
inductive History (V : C → Env S E Ans) (allowed : C → S → E → Prop)
    (prog : C → Program S Ans Unit) (s₀ : S) (e₀ : E) : S → E → Prop
  | start : History V allowed prog s₀ e₀ s₀ e₀
  | drift {s : S} {e e' : E} (c : C) (h : History V allowed prog s₀ e₀ s e)
      (hd : (V c).drift e e') : History V allowed prog s₀ e₀ s e'
  | call {s s' : S} {e e' : E} (c : C) (h : History V allowed prog s₀ e₀ s e)
      (ha : allowed c s e) (hr : Returns (V c) (prog c) s e () s' e') :
      History V allowed prog s₀ e₀ s' e'

/-- An operation about to be performed in the middle of the call `c`, made at some point of a
history with the store `s`; `s'` and `e'` are the store and the surroundings at that moment. The
call need not ever return. -/
def During (V : C → Env S E Ans) (allowed : C → S → E → Prop) (prog : C → Program S Ans Unit)
    (s₀ : S) (e₀ : E) (c : C) (s : S) (o : Op) (s' : S) (e' : E) : Prop :=
  ∃ e, History V allowed prog s₀ e₀ s e ∧ allowed c s e ∧ Performs (V c) (prog c) s e o s' e'

namespace History

variable {V : C → Env S E Ans} {allowed : C → S → E → Prop} {prog : C → Program S Ans Unit}
  {s₀ s s' : S} {e₀ e e' : E}

/-- A call answered by a script that the environment allows. -/
theorem callWith {I : E → Prop} {h : (o : Op) → E → Ans o × E} {n : ℕ} (c : C)
    (hh : History V allowed prog s₀ e₀ s e) (ha : allowed c s e) (hV : (V c).Follows I h)
    (he : I e) (hn : (runWith h n ⟨prog c, s, e⟩).prog.result? = some ()) :
    History V allowed prog s₀ e₀ (runWith h n ⟨prog c, s, e⟩).store
      (runWith h n ⟨prog c, s, e⟩).env :=
  hh.call c ha (returns_runWith hV he hn)

/-- **The induction over a history.** An invariant that holds at the start, survives the moves of
the surroundings and is established again by every complete call holds at every point. -/
theorem invariant {I : S → E → Prop} {G : C → S → Op → S → E → Prop} (h₀ : I s₀ e₀)
    (hdrift : ∀ c s e e', I s e → (V c).drift e e' → I s e')
    (hcall : ∀ c s e, I s e → allowed c s e → wlp (V c) (G c s) (prog c) (fun _ ↦ I) s e)
    (h : History V allowed prog s₀ e₀ s e) : I s e := by
  induction h with
  | start => exact h₀
  | drift c _ hd ih => exact hdrift c _ _ _ ih hd
  | call c _ ha hr ih => exact (hcall c _ _ ih ha).returns hr

/-- What is asked of every operation of a call made in an invariant state holds at every moment of
every call of a history. -/
theorem during {I : S → E → Prop} {G : C → S → Op → S → E → Prop}
    (hI : ∀ s e, History V allowed prog s₀ e₀ s e → I s e) {c : C} {o : Op}
    (hcall : ∀ e, I s e → allowed c s e →
      wlp (V c) (G c s) (prog c) (fun _ _ _ ↦ True) s e)
    (h : During V allowed prog s₀ e₀ c s o s' e') : G c s o s' e' := by
  obtain ⟨e, hh, ha, hp⟩ := h
  exact (hcall e (hI s e hh) ha).performs hp

/-- A program that makes a call goes on with the history, and what it performs in the meantime it
performs during the call. -/
theorem wlp_call {α : Type} (h : History V allowed prog s₀ e₀ s e) {c : C} (ha : allowed c s e)
    {p : Program S Ans α} (hp : discard p = prog c) :
    wlp (V c) (During V allowed prog s₀ e₀ c s) p (fun _ ↦ History V allowed prog s₀ e₀)
      s e := by
  refine wlp_complete (fun a s' e' hr ↦ ?_) fun o s' e' ho ↦ ⟨e, h, ha, ?_⟩
  · refine h.call c ha ?_
    rw [← hp]
    exact Returns.seq hr (.pure () s' e')
  · rw [← hp]
    exact ho.bind _

/-- Histories of a restricted system are histories of the system. -/
theorem mono {V' : C → Env S E Ans} {allowed' : C → S → E → Prop}
    (hdrift : ∀ c e e', (V c).drift e e' → (V' c).drift e e')
    (hallowed : ∀ c s e, allowed c s e → allowed' c s e)
    (hreturns : ∀ c s e s' e', Returns (V c) (prog c) s e () s' e' →
      Returns (V' c) (prog c) s e () s' e')
    (h : History V allowed prog s₀ e₀ s e) : History V' allowed' prog s₀ e₀ s e := by
  induction h with
  | start => exact .start
  | drift c _ hd ih => exact ih.drift c (hdrift c _ _ hd)
  | call c _ ha hr ih => exact ih.call c (hallowed c _ _ ha) (hreturns c _ _ _ _ hr)

end History

/-! ## Histories with an account

An account is kept of the calls, by someone who sees the store before and after each of them and not
the surroundings. It decides nothing; it is there for statements to be about. -/

/-- The points reached by sequences of complete calls, with the account kept of them. What is
allowed may depend on the account. -/
inductive Accounted {A : Type} (V : C → Env S E Ans) (allowed : C → S → E → A → Prop)
    (prog : C → Program S Ans Unit) (enter : C → S → S → A → A) (s₀ : S) (e₀ : E)
    (a₀ : A) : S → E → A → Prop
  | start : Accounted V allowed prog enter s₀ e₀ a₀ s₀ e₀ a₀
  | drift {s : S} {e e' : E} {a : A} (c : C) (h : Accounted V allowed prog enter s₀ e₀ a₀ s e a)
      (hd : (V c).drift e e') : Accounted V allowed prog enter s₀ e₀ a₀ s e' a
  | call {s s' : S} {e e' : E} {a : A} (c : C)
      (h : Accounted V allowed prog enter s₀ e₀ a₀ s e a)
      (ha : allowed c s e a) (hr : Returns (V c) (prog c) s e () s' e') :
      Accounted V allowed prog enter s₀ e₀ a₀ s' e' (enter c s s' a)

theorem Accounted.invariant {A : Type} {V : C → Env S E Ans} {allowed : C → S → E → A → Prop}
    {prog : C → Program S Ans Unit} {enter : C → S → S → A → A} {s₀ s : S} {e₀ e : E}
    {a₀ a : A} {I : S → E → A → Prop} (h₀ : I s₀ e₀ a₀)
    (hdrift : ∀ c s e e' a, I s e a → (V c).drift e e' → I s e' a)
    (hcall : ∀ c s e a s' e', I s e a → allowed c s e a → Returns (V c) (prog c) s e () s' e' →
      I s' e' (enter c s s' a))
    (h : Accounted V allowed prog enter s₀ e₀ a₀ s e a) : I s e a := by
  induction h with
  | start => exact h₀
  | drift c _ hd ih => exact hdrift c _ _ _ _ ih hd
  | call c _ ha hr ih => exact hcall c _ _ _ _ _ ih ha hr

/-! ## Calls and their results -/

/-- A complete call. -/
structure Event (C E α : Type) where
  call : C
  before : E
  result : α
  after : E

/-- The points reached by sequences of complete calls in one environment, with the calls in
order. -/
inductive Session {α : Type} (V : Env S E Ans) (prog : C → Program S Ans α) (s₀ : S) (e₀ : E) :
    List (Event C E α) → S → E → Prop
  | start : Session V prog s₀ e₀ [] s₀ e₀
  | drift {log : List (Event C E α)} {s : S} {e e' : E} (h : Session V prog s₀ e₀ log s e)
      (hd : V.drift e e') : Session V prog s₀ e₀ log s e'
  | call {log : List (Event C E α)} {s s' : S} {e e' : E} (c : C) {r : α}
      (h : Session V prog s₀ e₀ log s e) (hr : Returns V (prog c) s e r s' e') :
      Session V prog s₀ e₀ (log ++ [⟨c, e, r, e'⟩]) s' e'

namespace Session

variable {α : Type} {V : Env S E Ans} {prog : C → Program S Ans α} {s₀ s : S} {e₀ e e' : E}
  {log : List (Event C E α)}

/-- What holds of every call made anywhere holds of every call of a session. -/
theorem forall_events {P : Event C E α → Prop}
    (hcall : ∀ c s e r s' e', Returns V (prog c) s e r s' e' → P ⟨c, e, r, e'⟩)
    (h : Session V prog s₀ e₀ log s e) : ∀ x ∈ log, P x := by
  induction h with
  | start => simp
  | drift _ _ ih => exact ih
  | call c _ hr ih =>
    intro x hx
    obtain hx | rfl := (List.mem_append.mp hx).imp_right List.mem_singleton.mp
    · exact ih x hx
    · exact hcall _ _ _ _ _ _ hr

end Session

end Effect
