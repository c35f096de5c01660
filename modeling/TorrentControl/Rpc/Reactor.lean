import TorrentControl.Command.Builtin
import TorrentControl.Engine.Call
import TorrentControl.Rpc.MethodTable
import TorrentControl.Rpc.Request

/-! # The reactor

The reactor owns the engine and runs one request after the other. Only public commands can be called,
and three methods of its own that tell about them. -/

namespace TorrentControl.Rpc

structure Reactor where
  engine : Engine
  methods : MethodTable
deriving DecidableEq

namespace Reactor

/-- Brings the table up to date with the registry. -/
def listen (methods : MethodTable) (engine : Engine) : Reactor :=
  let (notices, commands) := engine.commands.takeNotices
  ⟨{ engine with commands }, methods.hearAll notices⟩

/-- A reactor over a session, with the built-in commands. -/
def start (session : Session) (disk : Disk) : Reactor :=
  let engine := Engine.bare session disk
  listen .empty { engine with commands := Registry.builtin.attach .everything }

/-- What is known about the method that the parameters name. -/
def describe (r : Reactor) (params : Value) : Except Failure MethodInfo :=
  match params.argument.asText with
  | .error e => .error (.invalid (.parameters e))
  | .ok key =>
    match KeyMap.find? r.methods key with
    | some info => .ok info
    | none => .error (.unknownMethod key)

def answer : Except Halt Value → Except Failure Value
  | .ok v => .ok v
  | .error (.failed e) => .error (.command e)
  | .error .overrun => .error .reactorGone

/-- Calls a public command. -/
def call (r : Reactor) (request : Request) : Except Failure Value × Reactor :=
  if KeyMap.contains r.methods request.method then
    match request.target.resolve r.engine.session with
    | .error f => (.error f, r)
    | .ok target =>
      let (outcome, engine) := r.engine.call request.method target request.params
      (answer outcome, listen r.methods engine)
  else (.error (.unknownMethod request.method), r)

def handle (r : Reactor) (request : Request) : Except Failure Value × Reactor :=
  if request.method = "system.listMethods" then
    (.ok (.list ((KeyMap.keys r.methods).map .text)), r)
  else if request.method = "system.methodSignature" then
    ((fun info => .list [.text info.signature]) <$> r.describe request.params, r)
  else if request.method = "system.methodHelp" then
    ((fun info => .text info.help) <$> r.describe request.params, r)
  else r.call request

/-- How many commands are released when the reactor stops. -/
def released (r : Reactor) : Nat :=
  r.engine.commands.size

end Reactor

end TorrentControl.Rpc
