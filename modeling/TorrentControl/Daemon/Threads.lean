import TorrentControl.Daemon

/-! # The threads of a daemon

A daemon that runs has a thread that accepts connections, a thread for each connection, and a thread
that owns the reactor. They share a flag that tells the daemon to stop, a queue of jobs for the
reactor, and a queue of replies to each connection. All of these but the reactor hold a handle of
the queue of jobs, and the reactor ends when the queue is empty and nobody holds one any more.
Whoever stops the daemon raises the flag, and waits for the thread that accepts and then for the
reactor.

Each move is one step of one thread and is atomic. Which thread moves next is anyone's choice. That
the reactor handles a request is one move too, also if the commands of the request have no end. -/

namespace TorrentControl

open Rpc (Failure Outcome Reactor Request Sink)

/-! ## Clients -/

structure Client where
  /-- What the client sends, or why it cannot be read. -/
  sent : Except String (List UInt8)
  /-- Where the response goes. -/
  sink : Sink

namespace Client

/-- The request of the client; nothing if it sends nothing. -/
def request (c : Client) : Except Failure (Option Request) :=
  match c.sent with
  | .error fault => .error (.connection fault)
  | .ok stream =>
    match Rpc.Connection.readLine stream with
    | .error f => .error f
    | .ok none => .ok none
    | .ok (some line) => some <$> Request.ofLine line

/-- Writes the response, if there is one. -/
def respond (c : Client) : Option Outcome → Except Failure Sink
  | none => .ok c.sink
  | some outcome => c.sink.writeOutcome outcome

end Client

/-! ## Threads of connections -/

inductive ConnectionPhase where
  /-- The request line is not read yet. -/
  | reading
  /-- The request is not in the queue of jobs yet. -/
  | calling (request : Request)
  /-- The request is in the queue, or was, and no reply is taken yet. -/
  | waiting
  /-- The response is not written yet. -/
  | responding (outcome : Option Outcome)
  /-- The handle is not dropped yet. -/
  | leaving (outcome : Option Outcome)
  | gone (outcome : Option Outcome)

structure ConnectionThread where
  client : Client
  phase : ConnectionPhase
  /-- The replies of the reactor that are not taken yet. -/
  replies : List Outcome
  /-- What came of writing the response. -/
  response : Option (Except Failure Sink)

/-- What the thread of a connection does by itself. -/
inductive ConnectionAct where
  | read
  /-- Takes the reply. -/
  | hear
  /-- Finds that the reactor is gone, so that it takes no job and sends no reply. -/
  | miss
  | respond
  /-- Drops the handle and ends. -/
  | leave
deriving DecidableEq, Repr

namespace ConnectionThread

/-- The thread of a connection that was just accepted. -/
def fresh (client : Client) : ConnectionThread :=
  ⟨client, .reading, [], none⟩

def isGone (c : ConnectionThread) : Bool :=
  match c.phase with
  | .gone _ => true
  | _ => false

/-- What follows the reading. What is no request is answered at once, and nothing gets no answer. -/
def afterReading : Except Failure (Option Request) → ConnectionPhase
  | .error f => .responding (some (.error f))
  | .ok none => .responding none
  | .ok (some request) => .calling request

/-- The thread after an act, if it can do it. -/
def act (c : ConnectionThread) (reactorGone : Bool) : ConnectionAct → Option ConnectionThread
  | .read =>
    match c.phase with
    | .reading => some { c with phase := afterReading c.client.request }
    | _ => none
  | .hear =>
    match c.phase, c.replies with
    | .waiting, outcome :: later =>
      some { c with phase := .responding (some outcome), replies := later }
    | _, _ => none
  | .miss =>
    match reactorGone, c.phase, c.replies with
    | true, .calling _, _ | true, .waiting, [] =>
      some { c with phase := .responding (some (.error .reactorGone)) }
    | _, _, _ => none
  | .respond =>
    match c.phase with
    | .responding outcome =>
      some { c with phase := .leaving outcome, response := some (c.client.respond outcome) }
    | _ => none
  | .leave =>
    match c.phase with
    | .leaving outcome => some { c with phase := .gone outcome }
    | _ => none

/-- The thread after it put its request into the queue of jobs. -/
def call (c : ConnectionThread) (request : Request) : Option ConnectionThread :=
  match c.phase with
  | .calling own => if own = request then some { c with phase := .waiting } else none
  | _ => none

end ConnectionThread

/-! ## The other threads -/

inductive AcceptorPhase where
  /-- About to look at the flag. -/
  | looking
  | accepting
  /-- The socket is not removed yet. -/
  | unbinding
  /-- The handle is not dropped yet. -/
  | leaving
  | gone
deriving DecidableEq, Repr

/-- A request and the connection that waits for its reply. -/
structure RequestJob where
  caller : Nat
  request : Request
deriving DecidableEq

inductive ReactorPhase where
  | idle
  | running (job : RequestJob)
  | replying (caller : Nat) (outcome : Outcome)
  | gone (released : Nat)

def ReactorPhase.isGone : ReactorPhase → Bool
  | .gone _ => true
  | _ => false

/-- Where the call is that stops the daemon. -/
inductive StopPhase where
  | uncalled
  | joiningAcceptor
  | joiningReactor
  | returned (released : Nat)
deriving DecidableEq, Repr

/-! ## All threads together -/

structure Threads where
  endpoint : Endpoint
  /-- Raised when the daemon is to stop. -/
  stopping : Bool
  acceptor : AcceptorPhase
  /-- The connections in the order in which they were accepted. -/
  connections : List ConnectionThread
  /-- The queue of jobs. -/
  jobs : List RequestJob
  reactor : Reactor
  reactorPhase : ReactorPhase
  stopper : StopPhase

inductive Move where
  | look
  | accept (client : Client)
  /-- Nobody is there to be accepted, or accepting fails. -/
  | acceptNone
  | unbind
  | retire
  /-- A connection puts a job into the queue. -/
  | call (job : RequestJob)
  | connection (index : Nat) (act : ConnectionAct)
  | receive
  | run (job : RequestJob)
  | reply
  | finish
  | stop
  | joinAcceptor
  | joinReactor

namespace Threads

/-- The threads of a daemon that just started. -/
def start (d : RunningDaemon) : Threads :=
  ⟨d.endpoint, false, .looking, [], [], d.reactor, .idle, .uncalled⟩

/-- Whether the thread that accepts or one of a connection still holds a handle. -/
def holdsHandle (t : Threads) : Bool :=
  t.acceptor != .gone || t.connections.any fun c => !c.isGone

/-- Puts a thread in the place of one of a connection. -/
def replace (t : Threads) (index : Nat) (c : ConnectionThread) : Threads :=
  { t with connections := t.connections.set index c }

/-- Lets the thread of a connection move. -/
def onConnection (t : Threads) (index : Nat) (act : ConnectionThread → Option ConnectionThread) :
    Option Threads := do
  return t.replace index (← act (← t.connections[index]?))

/-- Puts an outcome into the queue of replies to a connection. -/
def deliver (t : Threads) (index : Nat) (outcome : Outcome) : Threads :=
  { t with
    connections := t.connections.modify index fun c =>
      { c with replies := c.replies ++ [outcome] } }

/-- The threads after a move, if the thread can make it. -/
def step (t : Threads) : Move → Option Threads
  | .look =>
    match t.acceptor with
    | .looking => some { t with acceptor := if t.stopping then .unbinding else .accepting }
    | _ => none
  | .accept client =>
    match t.acceptor with
    | .accepting =>
      some { t with acceptor := .looking, connections := t.connections ++ [.fresh client] }
    | _ => none
  | .acceptNone =>
    match t.acceptor with
    | .accepting => some { t with acceptor := .looking }
    | _ => none
  | .unbind =>
    match t.acceptor with
    | .unbinding => some { t with
        acceptor := .leaving
        reactor.engine.disk := t.endpoint.release t.reactor.engine.disk }
    | _ => none
  | .retire =>
    match t.acceptor with
    | .leaving => some { t with acceptor := .gone }
    | _ => none
  | .call job =>
    if t.reactorPhase.isGone then none
    else do
      let u ← t.onConnection job.caller fun c => c.call job.request
      return { u with jobs := u.jobs ++ [job] }
  | .connection index act => t.onConnection index fun c => c.act t.reactorPhase.isGone act
  | .receive =>
    match t.reactorPhase, t.jobs with
    | .idle, job :: jobs => some { t with reactorPhase := .running job, jobs }
    | _, _ => none
  | .run job =>
    match t.reactorPhase with
    | .running taken =>
      if taken = job then
        let (outcome, reactor) := t.reactor.handle job.request
        some { t with reactor, reactorPhase := .replying job.caller outcome }
      else none
    | _ => none
  | .reply =>
    match t.reactorPhase with
    | .replying caller outcome => some (deliver { t with reactorPhase := .idle } caller outcome)
    | _ => none
  | .finish =>
    match t.reactorPhase, t.jobs with
    | .idle, [] =>
      if t.holdsHandle then none
      else some { t with reactorPhase := .gone t.reactor.released }
    | _, _ => none
  | .stop =>
    match t.stopper with
    | .uncalled => some { t with stopping := true, stopper := .joiningAcceptor }
    | _ => none
  | .joinAcceptor =>
    match t.stopper, t.acceptor with
    | .joiningAcceptor, .gone => some { t with stopper := .joiningReactor }
    | _, _ => none
  | .joinReactor =>
    match t.stopper, t.reactorPhase with
    | .joiningReactor, .gone released => some { t with stopper := .returned released }
    | _, _ => none

/-- The threads after some moves, if they can be made one after the other. -/
def run (t : Threads) (moves : List Move) : Option Threads :=
  moves.foldlM step t

end Threads

end TorrentControl
