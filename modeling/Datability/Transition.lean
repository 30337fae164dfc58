import Mathlib.Data.Nat.Notation
import Mathlib.Logic.Relation

/-!
# Machines with a partial step function

A machine over states `σ` and labels `ℓ` is a function `step : σ → ℓ → Option σ`; a label that is
not enabled in a state has no successor. A run is a list of labels, and a property of a run is
stated either over its steps (the state before the step and the label) or over its states.

A run of one machine is carried over to another by `translate`, which replaces each label by the labels
it amounts to. Two runs are compared by what an observer sees of them: `trace` leaves out the steps of
which nothing is seen, and `number` names a request by its place among those that are seen.
-/

namespace Transition

variable {σ ℓ : Type*}

section Runs

variable (step : σ → ℓ → Option σ)

/-- The state reached by the steps `ls`, if every one of them is enabled. -/
def run : σ → List ℓ → Option σ
  | s, [] => some s
  | s, l :: ls => (step s l).bind fun s' => run s' ls

/-- Every step of the run satisfies `P`, read at the state before the step. -/
def AllSteps (P : σ → ℓ → Prop) : σ → List ℓ → Prop
  | _, [] => True
  | s, l :: ls => P s l ∧ ∀ s', step s l = some s' → AllSteps P s' ls

instance AllSteps.decidable (P : σ → ℓ → Prop) [∀ s l, Decidable (P s l)] :
    ∀ s ls, Decidable (AllSteps step P s ls)
  | _, [] => isTrue trivial
  | s, l :: ls =>
    match hs : step s l with
    | none => decidable_of_iff (P s l) ⟨fun h => ⟨h, by simp [hs]⟩, And.left⟩
    | some t =>
      have := AllSteps.decidable P t ls
      decidable_of_iff (P s l ∧ AllSteps step P t ls)
        ⟨fun h => ⟨h.1, by simpa [hs] using h.2⟩, fun h => ⟨h.1, h.2 t hs⟩⟩

/-- Every state of the run satisfies `Q`, its first and last state included. -/
def AllStates (Q : σ → Prop) : σ → List ℓ → Prop
  | s, [] => Q s
  | s, l :: ls => Q s ∧ ∀ s', step s l = some s' → AllStates Q s' ls

/-- The labels of another machine that a run amounts to, where `f` gives those of one step. -/
def translate {κ : Type*} (f : σ → ℓ → List κ) : σ → List ℓ → List κ
  | _, [] => []
  | s, l :: ls => f s l ++ ((step s l).map fun s' => translate f s' ls).getD []

/-- What is seen of a run, where `seen` gives what is seen of a step, if anything. -/
def trace {ο : Type*} (seen : σ → ℓ → Option ο) (s : σ) (ls : List ℓ) : List ο :=
  translate step (fun s l => (seen s l).toList) s ls

end Runs

/-- The place of the `i`-th request among those of which something is seen. -/
def number {α β : Type*} (seen : α → Option β) (l : List α) (i : ℕ) : Option ℕ :=
  (l[i]?.bind seen).map fun _ => ((l.take i).filterMap seen).length

end Transition
