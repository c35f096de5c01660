import TorrentControl.Engine.Perform

/-! # Calls

A call looks a key up, aims the callable at the target and performs the invocation. Three bounds keep
a run finite. Command texts within arguments are lighter than the arguments. Scripts may be nested up
to a limit, beyond which a script is refused with an error. Calls by key, which neither of the two
bounds, are counted, and a run that makes too many of them inside one another is overrun. -/

namespace TorrentControl

/-! ## One level -/

/-- How a command reaches further commands that are not texts within its arguments. -/
structure Reentry where
  runScript : Target → String → Run Value
  callKey : String → Target → Value → Run Value

namespace Reentry

variable (reentry : Reentry)

/-- Runs an entry against a target. Command texts within the arguments are executed in turn. -/
def callEntry (key : String) (entry : CommandEntry) (target : Target) (args : Value) : Run Value := do
  let invocation ← Run.lift (entry.callable.aim (← Run.session) key target)
  invocation.plan.run fun (errand : Errand args) =>
    match errand with
    | .text target inner =>
      match _parsed : Statement.parse inner.text with
      | .error fault => Run.fail (.parse fault)
      | .ok statement => do
        callEntry statement.key (← Run.resolve statement.key) target statement.args
    | .script target script => reentry.runScript target script
    | .order key target params => reentry.callKey key target params
termination_by args.weight
decreasing_by exact Nat.lt_of_lt_of_le (Statement.weight_args_lt _parsed) inner.said.length_le

def call (key : String) (target : Target) (args : Value) : Run Value := do
  reentry.callEntry key (← Run.resolve key) target args

/-- Runs one command text. -/
def execute (target : Target) (text : String) : Run Value := do
  let statement ← Run.lift (Except.mapError .parse (Statement.parse text))
  reentry.call statement.key target statement.args

end Reentry

/-! ## Nested levels -/

def scriptLimit : Nat := 64

/-- Runs a script where `left` scripts may be opened. One fewer may be while its statements run. -/
def runScriptAt (callKey : Nat → String → Target → Value → Run Value) :
    (left : Nat) → Target → String → Run Value
  | 0, _, _ => Run.fail (.input (.scriptsTooDeep scriptLimit))
  | left + 1, target, script =>
    (scriptPlan script).run (Reentry.execute ⟨runScriptAt callKey left, callKey left⟩ target)

/-- Calls a key where `left` more scripts may be opened and `hops` calls by key may be nested. -/
def callKeyAt : (hops : Nat) → (left : Nat) → String → Target → Value → Run Value
  | 0, _, _, _, _ => throw .overrun
  | hops + 1, left, key, target, args =>
    Reentry.call ⟨runScriptAt (callKeyAt hops) left, callKeyAt hops left⟩ key target args

def hopLimit : Nat := 1024

/-- What commands reach when `left` more scripts may be opened and `hops` calls by key be nested. -/
def Reentry.within (hops left : Nat) : Reentry :=
  ⟨runScriptAt (callKeyAt hops) left, callKeyAt hops left⟩

/-- What commands reach when no script is open. -/
def Reentry.outermost : Reentry :=
  Reentry.within hopLimit scriptLimit

/-! ## Runs on an engine -/

namespace Engine

variable (e : Engine)

/-- Runs to the end and answers the outcome and the engine that is left. -/
def run {α : Type} (action : Run α) : Except Halt α × Engine :=
  action.run.run e

def call (key : String) (target : Target) (args : Value) : Except Halt Value × Engine :=
  e.run (Reentry.outermost.call key target args)

def callEntry (key : String) (entry : CommandEntry) (target : Target) (args : Value) :
    Except Halt Value × Engine :=
  e.run (Reentry.outermost.callEntry key entry target args)

def execute (target : Target) (text : String) : Except Halt Value × Engine :=
  e.run (Reentry.outermost.execute target text)

def executeScript (target : Target) (script : String) : Except Halt Value × Engine :=
  e.run (Reentry.outermost.runScript target script)

/-- Calls a key that must answer an integer. -/
def callInt (key : String) (target : Target) (args : Value) : Except Halt Int64 × Engine :=
  e.run do
    let v ← Reentry.outermost.call key target args
    Run.lift (CommandError.ofValue v.asInt)

/-- Calls a key that must answer a text. -/
def callText (key : String) (target : Target) (args : Value) : Except Halt String × Engine :=
  e.run do
    let v ← Reentry.outermost.call key target args
    Run.lift (CommandError.ofValue v.asText)

/-- Calls a key. An error that is not internal is reported behind a lead and answered as the empty
value. -/
def callCatching (key : String) (target : Target) (args : Value) (lead : String) :
    Except Halt Value × Engine :=
  e.run <| tryCatch (Reentry.outermost.call key target args) fun
    | .failed error => do
      if error.isInternal then Run.fail error
      Run.report (lead ++ error.message)
      return .empty
    | .overrun => throw .overrun

end Engine

end TorrentControl
