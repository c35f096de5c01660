import TorrentControl.Daemon.Bootstrap
import TorrentControl.Daemon.Listener
import TorrentControl.Rpc.Connection

/-! # The daemon's life

A daemon is bootstrapped, starts to listen, serves the connections of its clients one request each,
and stops when it is told to. The steps that it comes through are reported as events. -/

namespace TorrentControl

open Net (Network)

/-- What somebody who watches the daemon is told. -/
inductive HealthEvent where
  | starting
  | sessionLoaded (downloads : Nat)
  | succeeded
  | failed (e : BootstrapError)
  | listening (endpoint : Endpoint)
  | stopped (released : Nat)
deriving DecidableEq

inductive ShutdownError where
  | install (reason : String)
deriving DecidableEq, Repr

def ShutdownError.message : ShutdownError → String
  | .install reason => "failed to install signal handlers: " ++ reason

/-- What ends a daemon otherwise than by a signal. -/
inductive RunError where
  | bootstrap (e : BootstrapError)
  | listener (e : ListenerError)
  | shutdown (e : ShutdownError)
deriving DecidableEq

def RunError.message : RunError → String
  | .bootstrap e => "daemon bootstrap failed: " ++ e.message
  | .listener e => e.message
  | .shutdown e => e.message

/-- A daemon that listens. -/
structure RunningDaemon where
  endpoint : Endpoint
  reactor : Rpc.Reactor
deriving DecidableEq

namespace RunningDaemon

/-- Serves a connection with what its client sends. -/
def serve (d : RunningDaemon) (stream : List UInt8) : Option Rpc.Outcome × RunningDaemon :=
  let (outcome, reactor) := Rpc.Connection.serve d.reactor stream
  (outcome, { d with reactor })

/-- Something that others do to the disk while the daemon runs. -/
def touch (d : RunningDaemon) (change : Disk → Disk) : RunningDaemon :=
  { d with reactor.engine.disk := change d.reactor.engine.disk }

/-- Stops listening. The number of released commands comes back, and the disk that is left. -/
def stop (d : RunningDaemon) : Nat × Disk :=
  (d.reactor.released, d.endpoint.release d.reactor.engine.disk)

end RunningDaemon

namespace Daemon

def start (d : Daemon) (network : Network) (disk : Disk) : Except ListenerError RunningDaemon := do
  let (endpoint, disk) ← d.config.rpcSocket.bind network disk
  return ⟨endpoint, Rpc.Reactor.start d.session disk⟩

/-- What the bootstrap reports. -/
def bootstrapEvents : Except BootstrapError Daemon → List HealthEvent
  | .ok d => [.starting, .sessionLoaded d.session.size, .succeeded]
  | .error e => [.starting, .failed e]

/-- What is known of a daemon after its life. -/
structure Report (α : Type) where
  /-- The number of commands that were released at the end. -/
  outcome : Except RunError Nat
  /-- What came of its work, if it got to work. -/
  result : Option α
  events : List HealthEvent
  disk : Disk

/-- The whole life of a daemon that does some work until the wait for its signal is over. The daemon
stops in order even if there was nothing to wait for. -/
def live {α : Type} (config : Option Config) (network : Network) (disk : Disk)
    (work : RunningDaemon → α × RunningDaemon) (waited : Except ShutdownError Unit) : Report α :=
  let (daemon, disk) := bootstrap config disk
  let events := bootstrapEvents daemon
  match daemon with
  | .error e => ⟨.error (.bootstrap e), none, events, disk⟩
  | .ok daemon =>
    match daemon.start network disk with
    | .error e => ⟨.error (.listener e), none, events, disk⟩
    | .ok running =>
      let (result, after) := work running
      let (released, disk) := after.stop
      ⟨(fun _ => released) <$> Except.mapError .shutdown waited, some result,
        events ++ [.listening running.endpoint, .stopped released], disk⟩

end Daemon

end TorrentControl
