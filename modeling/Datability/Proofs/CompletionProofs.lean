import Datability.Completion

/-!
# Proofs: rules for completion handlers

One rule for each way of writing such code, so that a function is verified by going through its
guards in their order.
-/

namespace Completion

variable {ρ β α : Type} {m : Prog ρ β Unit} {b : β}

/-! ## One call -/

theorem calls_completion (b : β) : Calls (completion b : Prog ρ β Unit) b := fun _ => rfl

theorem sends_resume (request : ρ) : Sends (resume request : Prog ρ β Unit) request := fun _ => rfl

theorem Calls.exec (h : Calls m b) (log : Log ρ β) :
    exec m log = { log with calls := log.calls ++ [b] } := by
  rw [Completion.exec, h log]

theorem Calls.unique {b' : β} (h : Calls m b) (h' : Calls m b') : b = b' := by
  have hexec := (h.exec {}).symm.trans (h'.exec {})
  simpa using congrArg Log.calls hexec

theorem Sends.exec {request : ρ} (h : Sends m request) (log : Log ρ β) :
    exec m log = { log with tasks := log.tasks ++ [request] } := by
  rw [Completion.exec, h log]

@[simp] theorem guardLet_some (a : α) (b : β) (rest : α → Prog ρ β Unit) :
    guardLet (some a) b rest = rest a := rfl

@[simp] theorem attempt_some_bind (a : α) (rest : α → Prog ρ β Unit) :
    attempt (some a) >>= rest = rest a := rfl

/-- What throws at once is caught at once. -/
@[simp] theorem doCatch_attempt_none (b : β) (rest : α → Prog ρ β Unit) :
    doCatch (attempt none >>= rest) b = completion b := rfl

theorem run_doCatch (m : Prog ρ β Unit) (b : β) (log : Log ρ β) :
    (doCatch m b).run.run log =
      match m.run.run log with
      | (.ok a, log') => (.ok a, log')
      | (.error _, log') => (completion b : Prog ρ β Unit).run.run log' := by
  unfold doCatch ExceptT.run StateT.run
  simp only [tryCatch, tryCatchThe, MonadExceptOf.tryCatch, ExceptT.tryCatch, ExceptT.mk, bind,
    StateT.bind]
  cases m log with
  | mk result log' => cases result <;> rfl

/-- A program that does not throw is not caught. -/
theorem run_doCatch_of_ok {log log' : Log ρ β} (h : m.run.run log = (.ok (), log')) (b : β) :
    (doCatch m b).run.run log = (.ok (), log') := by
  rw [run_doCatch, h]

theorem Calls.doCatch (h : Calls m b) (b' : β) : Calls (doCatch m b') b :=
  fun log => run_doCatch_of_ok (h log) b'

theorem Sends.doCatch {request : ρ} (h : Sends m request) (b : β) :
    Sends (doCatch m b) request :=
  fun log => run_doCatch_of_ok (h log) b

/-! ## What is called in all -/

section AllCalls

variable {handler : ρ → Prog ρ β Unit}

/-- A program that calls its completion itself leaves nothing to the handler. -/
theorem Calls.allCalls (h : Calls m b) : allCalls m handler = [b] := by
  simp [Completion.allCalls, h.exec]

/-- A program that sends a request leaves the call to the handler of the request. -/
theorem Sends.allCalls {request : ρ} (h : Sends m request) (hb : Calls (handler request) b) :
    allCalls m handler = [b] := by
  simp [Completion.allCalls, h.exec, hb.exec]

end AllCalls

/-- A chain of guards passes on what the chain of their values comes to. -/
theorem Calls.guardLet {o : Option α} {rest : α → Prog ρ β Unit} {k : α → Option β} {b : β}
    (h : ∀ a, Calls (rest a) ((k a).getD b)) : Calls (guardLet o b rest) ((o.bind k).getD b) := by
  cases o with
  | none => exact calls_completion b
  | some a => exact h a

/-- The same for a guard whose value is read in two steps. -/
theorem Calls.guardLet_bind {γ : Type} {o : Option γ} {f : γ → Option α} {rest : α → Prog ρ β Unit}
    {k : α → Option β} {b : β} (h : ∀ a, Calls (rest a) ((k a).getD b)) :
    Calls (Completion.guardLet (o.bind f) b rest) ((o.bind fun c => (f c).bind k).getD b) := by
  rw [← Option.bind_assoc]
  exact .guardLet h

/-- The same for a guard whose value is read in three steps. -/
theorem Calls.guardLet_bind₂ {γ δ : Type} {o : Option δ} {g : δ → Option γ} {f : γ → Option α}
    {rest : α → Prog ρ β Unit} {k : α → Option β} {b : β} (h : ∀ a, Calls (rest a) ((k a).getD b)) :
    Calls (Completion.guardLet ((o.bind g).bind f) b rest)
      ((o.bind fun d => (g d).bind fun c => (f c).bind k).getD b) := by
  rw [← Option.bind_assoc]
  exact .guardLet_bind h

/-! ## Decisions -/

section Decisions

variable {m : Prog ρ Bool Unit} {P Q : Prop}

theorem decides_completion (b : Bool) : Decides (completion b : Prog ρ Bool Unit) (b = true) :=
  ⟨b, calls_completion b, Iff.rfl⟩

theorem Decides.congr (h : Decides m P) (hPQ : P ↔ Q) : Decides m Q := by
  obtain ⟨b, hb, hP⟩ := h
  exact ⟨b, hb, hP.trans hPQ⟩

/-- A guard that fails decides against; one that holds leaves the decision to the rest. -/
theorem Decides.guardLet {o : Option α} {rest : α → Prog ρ Bool Unit} {P : α → Prop}
    (h : ∀ a, Decides (rest a) (P a)) : Decides (guardLet o false rest) (∃ a, o = some a ∧ P a) := by
  cases o with
  | none => exact (decides_completion false).congr (by simp)
  | some a => exact (h a).congr (by simp)

theorem Decides.ite {c : Prop} [Decidable c] (h : Decides m P) :
    Decides (if c then m else completion false) (c ∧ P) := by
  by_cases hc : c
  · rw [if_pos hc]
    exact h.congr (by simp [hc])
  · rw [if_neg hc]
    exact (decides_completion false).congr (by simp [hc])

/-- A call that throws decides against, since its `catch` does. -/
theorem Decides.doCatch {o : Option α} {rest : α → Prog ρ Bool Unit} {P : α → Prop}
    (h : ∀ a, Decides (rest a) (P a)) :
    Decides (doCatch (attempt o >>= rest) false) (∃ a, o = some a ∧ P a) := by
  cases o with
  | none =>
    rw [doCatch_attempt_none]
    exact (decides_completion false).congr (by simp)
  | some a =>
    obtain ⟨b, hb, hP⟩ := h a
    rw [attempt_some_bind]
    exact ⟨b, hb.doCatch false, by simpa using hP⟩

end Decisions

end Completion
