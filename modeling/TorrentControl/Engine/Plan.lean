import TorrentControl.Engine

/-! # Plans

A command may ask for further runs while it runs: of a command text, of a script, or of another
command. Its plan leaves these open. It is a tree that answers, acts on the engine, or asks for a run
and goes on with the value of it; an act or a run that halts ends the plan. -/

namespace TorrentControl

inductive Plan (Request : Type) (α : Type) : Type 1 where
  | answer (a : α)
  | act {β : Type} (action : Run β) (next : β → Plan Request α)
  | ask (request : Request) (next : Value → Plan Request α)

namespace Plan

variable {Request α β : Type}

def bind : Plan Request α → (α → Plan Request β) → Plan Request β
  | .answer a, f => f a
  | .act action next, f => .act action fun b => (next b).bind f
  | .ask request next, f => .ask request fun v => (next v).bind f

instance : Monad (Plan Request) where
  pure := .answer
  bind := bind

instance : MonadLift Run (Plan Request) where
  monadLift action := .act action .answer

instance : LawfulMonad (Plan Request) := LawfulMonad.mk' _
  (fun p => by
    induction p with
    | answer => rfl
    | act action next ih => exact congrArg (act action) (funext ih)
    | ask request next ih => exact congrArg (ask request) (funext ih))
  (fun _ _ => rfl)
  (fun p f g => by
    induction p with
    | answer => rfl
    | act action next ih => exact congrArg (act action) (funext ih)
    | ask request next ih => exact congrArg (ask request) (funext ih))

/-- Asks for a run and answers its value. -/
def request (r : Request) : Plan Request Value :=
  .ask r .answer

/-- Performs a plan, given a run for each request. -/
def run (perform : Request → Run Value) : Plan Request α → Run α
  | .answer a => pure a
  | .act action next => do
    (next (← action)).run perform
  | .ask r next => do
    (next (← perform r)).run perform

end Plan

end TorrentControl
