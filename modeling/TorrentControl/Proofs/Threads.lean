import TorrentControl.Daemon.Threads

/-! # Threads, step by step

What a move needs and what it changes, and what a run of moves shows from outside: which connections
were accepted, which jobs were called and run, and how the reactor would answer if it were given the
same jobs one after the other. -/

namespace TorrentControl

open Rpc (Failure Outcome Reactor Request Sink)

/-! ## Moves -/

namespace Threads

/-- A move that is possible, and the threads after it. -/
inductive Step (t : Threads) : Move → Threads → Prop where
  | look (h : t.acceptor = .looking) :
      Step t .look { t with acceptor := if t.stopping then .unbinding else .accepting }
  | accept (h : t.acceptor = .accepting) (client : Client) :
      Step t (.accept client)
        { t with acceptor := .looking, connections := t.connections ++ [.fresh client] }
  | acceptNone (h : t.acceptor = .accepting) : Step t .acceptNone { t with acceptor := .looking }
  | unbind (h : t.acceptor = .unbinding) :
      Step t .unbind { t with
        acceptor := .leaving
        reactor.engine.disk := t.endpoint.release t.reactor.engine.disk }
  | retire (h : t.acceptor = .leaving) : Step t .retire { t with acceptor := .gone }
  | call {job : RequestJob} {c changed : ConnectionThread}
      (hreactor : t.reactorPhase.isGone = false) (hc : t.connections[job.caller]? = some c)
      (h : c.call job.request = some changed) :
      Step t (.call job) { t.replace job.caller changed with jobs := t.jobs ++ [job] }
  | connection {index : Nat} {act : ConnectionAct} {c changed : ConnectionThread}
      (hc : t.connections[index]? = some c)
      (h : c.act t.reactorPhase.isGone act = some changed) :
      Step t (.connection index act) (t.replace index changed)
  | receive {job : RequestJob} {jobs : List RequestJob} (h : t.reactorPhase = .idle)
      (hjobs : t.jobs = job :: jobs) :
      Step t .receive { t with reactorPhase := .running job, jobs }
  | run {job : RequestJob} (h : t.reactorPhase = .running job) :
      Step t (.run job) { t with
        reactor := (t.reactor.handle job.request).2
        reactorPhase := .replying job.caller (t.reactor.handle job.request).1 }
  | reply {caller : Nat} {outcome : Outcome} (h : t.reactorPhase = .replying caller outcome) :
      Step t .reply (deliver { t with reactorPhase := .idle } caller outcome)
  | finish (h : t.reactorPhase = .idle) (hjobs : t.jobs = []) (hhandle : t.holdsHandle = false) :
      Step t .finish { t with reactorPhase := .gone t.reactor.released }
  | stop (h : t.stopper = .uncalled) :
      Step t .stop { t with stopping := true, stopper := .joiningAcceptor }
  | joinAcceptor (h : t.stopper = .joiningAcceptor) (hgone : t.acceptor = .gone) :
      Step t .joinAcceptor { t with stopper := .joiningReactor }
  | joinReactor {released : Nat} (h : t.stopper = .joiningReactor)
      (hgone : t.reactorPhase = .gone released) :
      Step t .joinReactor { t with stopper := .returned released }

variable {t u : Threads} {m : Move}

theorem onConnection_eq_some {index : Nat} {act : ConnectionThread → Option ConnectionThread} :
    t.onConnection index act = some u ↔
      ∃ c changed, t.connections[index]? = some c ∧ act c = some changed ∧
        u = t.replace index changed := by
  simp only [onConnection, Option.bind_eq_bind, Option.bind_eq_some_iff, Option.pure_def,
    Option.some.injEq]
  constructor
  · rintro ⟨c, hc, changed, h, rfl⟩
    exact ⟨c, changed, hc, h, rfl⟩
  · rintro ⟨c, changed, hc, h, rfl⟩
    exact ⟨c, hc, changed, h, rfl⟩

theorem step_iff : t.step m = some u ↔ Step t m u := by
  constructor
  · intro h
    cases m with
    | look | acceptNone | unbind | retire | stop =>
      simp only [step] at h
      split at h <;> cases h
      constructor
      assumption
    | accept client =>
      simp only [step] at h
      split at h <;> cases h
      exact .accept ‹_› client
    | call job =>
      simp only [step] at h
      split at h
      · cases h
      · rename_i hreactor
        simp only [Option.bind_eq_bind, Option.bind_eq_some_iff, Option.pure_def] at h
        obtain ⟨v, hv, h⟩ := h
        obtain ⟨c, changed, hc, hcall, rfl⟩ := onConnection_eq_some.1 hv
        cases h
        exact .call (by simpa using hreactor) hc hcall
    | connection index act =>
      obtain ⟨c, changed, hc, hact, rfl⟩ := onConnection_eq_some.1 h
      exact .connection hc hact
    | receive =>
      simp only [step] at h
      split at h <;> cases h
      exact .receive ‹_› ‹_›
    | run job =>
      simp only [step] at h
      split at h
      · rename_i taken htaken
        split at h <;> cases h
        subst taken
        exact .run htaken
      · cases h
    | reply =>
      simp only [step] at h
      split at h <;> cases h
      exact .reply ‹_›
    | finish =>
      simp only [step] at h
      split at h
      · split at h <;> cases h
        rename_i hidle hjobs hhandle
        exact .finish hidle hjobs (by simpa using hhandle)
      · cases h
    | joinAcceptor =>
      simp only [step] at h
      split at h <;> cases h
      exact .joinAcceptor ‹_› ‹_›
    | joinReactor =>
      simp only [step] at h
      split at h <;> cases h
      exact .joinReactor ‹_› ‹_›
  · intro h
    cases h with
    | call hreactor hc h =>
      rename_i job c changed
      have hconnection : t.onConnection job.caller (fun c => c.call job.request) =
          some (t.replace job.caller changed) := onConnection_eq_some.2 ⟨_, _, hc, h, rfl⟩
      simp only [step, hreactor, hconnection]
      rfl
    | connection hc h => exact onConnection_eq_some.2 ⟨_, _, hc, h, rfl⟩
    | receive h hjobs => simp only [step, h, hjobs]
    | finish h hjobs hhandle => simp [step, h, hjobs, hhandle]
    | run h => simp [step, h]
    | joinAcceptor h hgone => simp only [step, h, hgone]
    | joinReactor h hgone => simp only [step, h, hgone]
    | _ h => simp only [step, h]

theorem run_cons {moves : List Move} :
    t.run (m :: moves) = some u ↔ ∃ v, Step t m v ∧ v.run moves = some u := by
  simp only [run, List.foldlM_cons, Option.bind_eq_bind, Option.bind_eq_some_iff, step_iff]

theorem Step.andThen {v : Threads} {moves : List Move} (h : Step t m v)
    (hrun : v.run moves = some u) : t.run (m :: moves) = some u :=
  run_cons.2 ⟨v, h, hrun⟩

/-- What a move keeps of the moves so far and the threads is kept by a run. -/
theorem run_induction {P : List Move → Threads → Prop}
    (hstep : ∀ before t m u, P before t → Step t m u → P (before ++ [m]) u) {moves : List Move} :
    ∀ {before : List Move} {t u : Threads}, P before t → t.run moves = some u →
      P (before ++ moves) u := by
  induction moves with
  | nil =>
    intro before t u ht h
    cases h
    rwa [List.append_nil]
  | cons m moves ih =>
    intro before t u ht h
    obtain ⟨v, hv, h⟩ := run_cons.1 h
    have := ih (hstep before t m v ht hv) h
    rwa [List.append_assoc] at this

end Threads

/-! ## What a run shows -/

namespace Move

def accepted : Move → Option Client
  | .accept client => some client
  | _ => none

def called : Move → Option RequestJob
  | .call job => some job
  | _ => none

def ran : Move → Option RequestJob
  | .run job => some job
  | _ => none

end Move

namespace Threads

/-- The clients that are accepted, in order. -/
def accepts (moves : List Move) : List Client :=
  moves.filterMap Move.accepted

/-- The jobs in the order in which they enter the queue. -/
def calls (moves : List Move) : List RequestJob :=
  moves.filterMap Move.called

/-- The jobs in the order in which the reactor runs them. -/
def runs (moves : List Move) : List RequestJob :=
  moves.filterMap Move.ran

/-- The jobs of one connection that enter the queue. -/
def callsOf (index : Nat) (moves : List Move) : List RequestJob :=
  (calls moves).filter fun job => job.caller == index

section Snoc

variable (moves : List Move) (m : Move)

theorem filterMap_snoc {α : Type} (f : Move → Option α) :
    (moves ++ [m]).filterMap f = moves.filterMap f ++ (f m).toList := by
  rw [List.filterMap_append, List.filterMap_cons]
  cases f m <;> rfl

theorem callsOf_snoc (index : Nat) : callsOf index (moves ++ [m]) =
    callsOf index moves ++ m.called.toList.filter fun job => job.caller == index := by
  rw [callsOf, calls, filterMap_snoc, List.filter_append]
  rfl

end Snoc

end Threads

/-! ## The daemon without threads -/

namespace RunningDaemon

/-- What a move does to the daemon: the reactor handles the request, or the socket is removed. -/
def turn (d : RunningDaemon) : Move → RunningDaemon
  | .run job => { d with reactor := (d.reactor.handle job.request).2 }
  | .unbind => d.touch fun disk => d.endpoint.release disk
  | _ => d

/-- The daemon after the turns of some moves, one after the other. -/
def replay (d : RunningDaemon) (moves : List Move) : RunningDaemon :=
  moves.foldl turn d

/-- What the caller is answered if the job of the move is run. -/
def answer (d : RunningDaemon) (caller : Nat) : Move → List Outcome
  | .run job => if job.caller = caller then [(d.reactor.handle job.request).1] else []
  | _ => []

/-- What the caller is answered if the jobs of the moves are run one after the other. -/
def answers (d : RunningDaemon) (caller : Nat) : List Move → List Outcome
  | [] => []
  | m :: moves => d.answer caller m ++ (d.turn m).answers caller moves

variable {d : RunningDaemon}

theorem replay_snoc (moves : List Move) (m : Move) :
    d.replay (moves ++ [m]) = (d.replay moves).turn m := by
  rw [replay, List.foldl_append]
  rfl

theorem answers_snoc (caller : Nat) (moves : List Move) (m : Move) :
    d.answers caller (moves ++ [m]) =
      d.answers caller moves ++ (d.replay moves).answer caller m := by
  induction moves generalizing d with
  | nil => simp [answers, replay]
  | cons first moves ih =>
    simp only [List.cons_append, answers, ih, List.append_assoc]
    rfl

/-- An answer is the outcome of a job of the caller, run after all that was run before it. -/
theorem mem_answers {caller : Nat} {moves : List Move} {outcome : Outcome}
    (h : outcome ∈ d.answers caller moves) : ∃ before job after,
      moves = before ++ .run job :: after ∧ job.caller = caller ∧
        outcome = ((d.replay before).reactor.handle job.request).1 := by
  induction moves generalizing d with
  | nil => cases h
  | cons m moves ih =>
    rcases List.mem_append.1 h with h | h
    · cases m with
      | run job =>
        simp only [answer] at h
        split at h
        · exact ⟨[], job, moves, rfl, ‹_›, List.mem_singleton.1 h⟩
        · cases h
      | _ => cases h
    · obtain ⟨before, job, after, rfl, hcaller, houtcome⟩ := ih h
      exact ⟨m :: before, job, after, rfl, hcaller, houtcome⟩

/-- Every job of a caller is answered once. -/
theorem length_answers (caller : Nat) (moves : List Move) : (d.answers caller moves).length =
    ((Threads.runs moves).filter fun job => job.caller == caller).length := by
  induction moves generalizing d with
  | nil => rfl
  | cons m moves ih =>
    rw [answers, List.length_append, ih]
    cases m with
    | run job =>
      by_cases hcaller : job.caller = caller <;>
        simp [answer, Threads.runs, Move.ran, hcaller, Nat.add_comm]
    | _ => exact Nat.zero_add _

end RunningDaemon

end TorrentControl
