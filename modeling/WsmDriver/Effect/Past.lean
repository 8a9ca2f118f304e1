import Mathlib.Tactic.Common

/-!
# What has happened

A list of events, the latest first, is a history. `Past P Q` says of a history that some event of it
satisfies `P`, and that `Q` held of the history as it was before that event. Nested, it says in
which order things happened.
-/

namespace Effect

variable {α : Type} {P : α → Prop} {Q : List α → Prop} {x : α} {l : List α}

/-- There was an event `P`, when already `Q`. -/
def Past (P : α → Prop) (Q : List α → Prop) : List α → Prop
  | [] => False
  | x :: l => P x ∧ Q l ∨ Past P Q l

/-- There was an event `P`. -/
abbrev Once (P : α → Prop) : List α → Prop := Past P fun _ ↦ True

namespace Past

theorem now (hP : P x) (hQ : Q l) : Past P Q (x :: l) := .inl ⟨hP, hQ⟩

theorem before (x : α) (h : Past P Q l) : Past P Q (x :: l) := .inr h

end Past

end Effect
