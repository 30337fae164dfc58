import Mathlib.Logic.Basic

/-!
# Code that reports through a completion handler

A function with a completion handler has no result: it calls the handler, perhaps on several paths,
or sends a request whose own handler does so later. Here such code is a program that keeps a log of
the arguments it has passed to its completion and of the requests it has sent. A program may throw,
and its caller may catch.

`Calls m b` says that a run of `m` comes to its end and does nothing but call the completion once,
with `b`; `Decides m P` says this of some truth value that tells whether `P` holds.
-/

namespace Completion

/-- What has been done so far: the arguments of the completion and the requests sent. -/
structure Log (ρ β : Type) where
  calls : List β := []
  tasks : List ρ := []

/-- Code that may throw and that writes a log. -/
abbrev Prog (ρ β α : Type) := ExceptT Unit (StateM (Log ρ β)) α

section Programs

variable {ρ β α : Type}

/-- `completion(b)`. -/
def completion (b : β) : Prog ρ β Unit := modify fun log => { log with calls := log.calls ++ [b] }

/-- `dataTask(with: request) { .. }.resume()`. -/
def resume (request : ρ) : Prog ρ β Unit :=
  modify fun log => { log with tasks := log.tasks ++ [request] }

/-- `try`, for a call that throws when it has no result. -/
def attempt : Option α → Prog ρ β α
  | some a => pure a
  | none => throw ()

/-- `guard let a = o else { completion(b); return }`, followed by the rest of the function. -/
def guardLet (o : Option α) (b : β) (rest : α → Prog ρ β Unit) : Prog ρ β Unit :=
  match o with
  | some a => rest a
  | none => completion b

/-- `do { m } catch { completion(b) }`. -/
def doCatch (m : Prog ρ β Unit) (b : β) : Prog ρ β Unit := tryCatch m fun _ => completion b

/-- The log after a run. -/
def exec (m : Prog ρ β Unit) (log : Log ρ β) : Log ρ β := (m.run.run log).2

/-- All the calls of the completion, once every request that was sent has come back and its handler
has run. -/
def allCalls (m : Prog ρ β Unit) (handler : ρ → Prog ρ β Unit) : List β :=
  ((exec m {}).tasks.foldl (fun log request => exec (handler request) log) (exec m {})).calls

/-- The program calls its completion once, with `b`, and sends nothing. -/
def Calls (m : Prog ρ β Unit) (b : β) : Prop :=
  ∀ log, m.run.run log = (.ok (), { log with calls := log.calls ++ [b] })

/-- The program sends one request and leaves its completion alone. -/
def Sends (m : Prog ρ β Unit) (request : ρ) : Prop :=
  ∀ log, m.run.run log = (.ok (), { log with tasks := log.tasks ++ [request] })

/-- The program calls its completion once, and passes `true` exactly when `P` holds. -/
def Decides (m : Prog ρ Bool Unit) (P : Prop) : Prop := ∃ b, Calls m b ∧ (b = true ↔ P)

end Programs

end Completion
