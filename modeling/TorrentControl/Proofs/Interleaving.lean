import TorrentControl.Proofs.Threads

/-! # Any interleaving

Whatever the order in which the threads move, the reactor runs the jobs in the order in which they
entered the queue, as if it were given them without any threads, and every connection has the
outcome of its own request. The invariants say where the jobs and the replies are that are under
way. -/

namespace TorrentControl

open Rpc (Failure Outcome Reactor Request Sink)

/-! ## Threads of connections -/

/-- The outcome is that of the client; that of a request is any. -/
def Client.Gets (c : Client) (outcome : Option Outcome) : Prop :=
  match c.request with
  | .error f => outcome = some (.error f)
  | .ok none => outcome = none
  | .ok (some _) => outcome.isSome

namespace ConnectionPhase

/-- Nothing was put into the queue of jobs yet. -/
@[simp] def isBeforeCall : ConnectionPhase → Bool
  | .reading | .calling _ => true
  | _ => false

/-- The outcome that the thread has come to, if it has and there is one. -/
@[simp] def outcome : ConnectionPhase → Option Outcome
  | .responding outcome | .leaving outcome | .gone outcome => outcome
  | _ => none

end ConnectionPhase

namespace ConnectionThread

variable {c changed : ConnectionThread}

/-- The phase agrees with the request of the client and with what is written. -/
def Proper (c : ConnectionThread) : Prop :=
  match c.phase with
  | .reading => c.response = none
  | .calling request => c.client.request = .ok (some request) ∧ c.response = none
  | .waiting => (∃ request, c.client.request = .ok (some request)) ∧ c.response = none
  | .responding outcome => c.client.Gets outcome ∧ c.response = none
  | .leaving outcome | .gone outcome =>
    c.client.Gets outcome ∧ c.response = some (c.client.respond outcome)

/-- The jobs that the thread has put into the queue. -/
def calls (c : ConnectionThread) (index : Nat) : List RequestJob :=
  if c.phase.isBeforeCall then []
  else
    match c.client.request with
    | .ok (some request) => [⟨index, request⟩]
    | _ => []

/-- The replies that the thread has taken. -/
def heard (c : ConnectionThread) : List Outcome :=
  match c.client.request with
  | .ok (some _) => c.phase.outcome.toList
  | _ => []

/-- The thread called what it is said to have called, and the answers to it are those that it took,
those that wait for it, and those on the way. -/
structure Accounts (c : ConnectionThread) (index : Nat) (called : List RequestJob)
    (answers coming : List Outcome) : Prop where
  proper : c.Proper
  called : called = c.calls index
  answered : answers = c.heard ++ c.replies ++ coming

variable {index : Nat} {called : List RequestJob} {answers coming : List Outcome}

/-- An act of a thread whose reactor is not gone. -/
theorem Accounts.act (h : c.Accounts index called answers coming) {act : ConnectionAct}
    (hact : c.act false act = some changed) : changed.Accounts index called answers coming := by
  obtain ⟨hproper, hcalled, hanswered⟩ := h
  obtain ⟨client, phase, replies, response⟩ := c
  cases act with
  | read =>
    cases phase <;> cases hact
    have hcalled : called = [] := hcalled
    have hheard : heard ⟨client, .reading, replies, response⟩ = [] := by
      unfold heard
      split <;> rfl
    rw [hheard] at hanswered
    cases hrequest : client.request with
    | error f =>
      constructor
      · exact ⟨by simp [Client.Gets, hrequest], hproper⟩
      · simp [calls, hrequest, hcalled]
      · simpa [heard, hrequest] using hanswered
    | ok request =>
      cases request with
      | none =>
        constructor
        · exact ⟨by simp [Client.Gets, hrequest], hproper⟩
        · simp [calls, hrequest, hcalled]
        · simpa [heard, hrequest] using hanswered
      | some request =>
        constructor
        · exact ⟨hrequest, hproper⟩
        · simp [calls, afterReading, hcalled]
        · simpa [heard, hrequest, afterReading] using hanswered
  | hear =>
    cases phase <;> cases replies <;> cases hact
    rename_i outcome later
    obtain ⟨⟨request, hrequest⟩, hresponse⟩ := hproper
    constructor
    · exact ⟨by simp [Client.Gets, hrequest], hresponse⟩
    · exact hcalled
    · simpa [heard, hrequest] using hanswered
  | miss => cases hact
  | respond =>
    cases phase <;> cases hact
    exact ⟨⟨hproper.1, rfl⟩, hcalled, hanswered⟩
  | leave =>
    cases phase <;> cases hact
    exact ⟨hproper, hcalled, hanswered⟩

theorem accounts_fresh (client : Client) (index : Nat) :
    (fresh client).Accounts index [] [] [] := by
  refine ⟨rfl, rfl, ?_⟩
  unfold heard
  split <;> rfl

theorem Accounts.call (h : c.Accounts index called answers coming) {request : Request}
    (hcall : c.call request = some changed) :
    changed.Accounts index (called ++ [⟨index, request⟩]) answers coming := by
  obtain ⟨hproper, hcalled, hanswered⟩ := h
  obtain ⟨client, phase, replies, response⟩ := c
  cases phase with
  | calling own =>
    unfold ConnectionThread.call at hcall
    dsimp only at hcall
    split at hcall
    · subst own
      cases hcall
      obtain ⟨hrequest, hresponse⟩ := hproper
      have hrequest : client.request = .ok (some request) := hrequest
      have hcalled : called = [] := hcalled
      constructor
      · exact ⟨⟨request, hrequest⟩, hresponse⟩
      · simp [calls, hrequest, hcalled]
      · exact hanswered
    · cases hcall
  | _ => cases hcall

/-- The reactor ran a job of the thread. -/
theorem Accounts.answer (h : c.Accounts index called answers coming) (more : List Outcome) :
    c.Accounts index called (answers ++ more) (coming ++ more) := by
  refine ⟨h.proper, h.called, ?_⟩
  rw [h.answered, List.append_assoc _ coming]

/-- The reactor sent what was on the way. -/
theorem Accounts.deliver (h : c.Accounts index called answers coming) :
    Accounts { c with replies := c.replies ++ coming } index called answers [] := by
  refine ⟨h.proper, h.called, ?_⟩
  rw [h.answered, List.append_nil, List.append_assoc]
  rfl

/-- A thread that is gone acts no more. -/
theorem isGone_of_act {act : ConnectionAct} {reactorGone : Bool}
    (h : c.act reactorGone act = some changed) : c.isGone = false := by
  obtain ⟨client, phase, replies, response⟩ := c
  cases phase with
  | gone outcome => cases act <;> cases reactorGone <;> cases h
  | _ => rfl

theorem client_of_act {act : ConnectionAct} {reactorGone : Bool}
    (h : c.act reactorGone act = some changed) : changed.client = c.client := by
  unfold ConnectionThread.act at h
  split at h <;> split at h <;> cases h <;> rfl

theorem of_call {request : Request} (h : c.call request = some changed) :
    c.phase = .calling request ∧ changed = { c with phase := .waiting } := by
  unfold ConnectionThread.call at h
  split at h
  · split at h <;> cases h
    subst request
    exact ⟨‹_›, rfl⟩
  · cases h

end ConnectionThread

/-! ## All threads -/

namespace Threads

/-- The daemon as it is without the threads. -/
def daemon (t : Threads) : RunningDaemon :=
  ⟨t.endpoint, t.reactor⟩

/-- The jobs that are to be run. -/
def pending (t : Threads) : List RequestJob :=
  match t.reactorPhase with
  | .running job => job :: t.jobs
  | _ => t.jobs

/-- What the reactor is about to send to a connection. -/
def coming (t : Threads) (index : Nat) : List Outcome :=
  match t.reactorPhase with
  | .replying caller outcome => if caller = index then [outcome] else []
  | _ => []

/-- What is known of a daemon that is told to stop or has stopped. -/
structure Orderly (t : Threads) : Prop where
  raised : t.stopping = true ↔ t.stopper ≠ .uncalled
  joined : t.stopper = .joiningReactor → t.acceptor = .gone
  returned : ∀ released, t.stopper = .returned released → t.reactorPhase = .gone released
  gone : ∀ released, t.reactorPhase = .gone released →
    t.acceptor = .gone ∧ (∀ c ∈ t.connections, c.isGone = true) ∧ t.jobs = [] ∧
      released = t.reactor.released

/-- The account of a connection; nothing was called by one that there is not. -/
def AccountOf (connection : Option ConnectionThread) (index : Nat) (called : List RequestJob)
    (answers coming : List Outcome) : Prop :=
  match connection with
  | some c => c.Accounts index called answers coming
  | none => called = [] ∧ answers = [] ∧ coming = []

/-- The threads are where the moves have brought them. -/
structure Follows (d : RunningDaemon) (moves : List Move) (t : Threads) : Prop where
  daemon : t.daemon = d.replay moves
  clients : t.connections.map ConnectionThread.client = accepts moves
  order : calls moves = runs moves ++ t.pending
  orderly : t.Orderly
  accounts : ∀ index : Nat, AccountOf t.connections[index]? index (callsOf index moves)
    (d.answers index moves) (t.coming index)

variable {d : RunningDaemon} {t u : Threads} {m : Move} {moves : List Move}

/-- A reply changes nothing of the threads of connections but the replies. -/
theorem map_deliver {α : Type} {f : ConnectionThread → α}
    (hf : ∀ c replies, f { c with replies } = f c) (index : Nat) (outcome : Outcome) :
    (t.deliver index outcome).connections.map f = t.connections.map f := by
  refine List.ext_getElem? fun other => ?_
  simp only [deliver, List.getElem?_map, List.getElem?_modify, Option.map_eq_map, Option.map_map]
  refine congrArg (Option.map · _) (funext fun c => ?_)
  dsimp only [Function.comp]
  split
  · exact hf c _
  · rfl

theorem Step.daemon (h : Step t m u) : u.daemon = t.daemon.turn m := by
  cases h <;> rfl

theorem Step.clients (h : Step t m u) :
    u.connections.map ConnectionThread.client =
      t.connections.map ConnectionThread.client ++ m.accepted.toList := by
  have replaced {index : Nat} {c changed : ConnectionThread} (hc : t.connections[index]? = some c)
      (h : changed.client = c.client) : (t.connections.set index changed).map
        ConnectionThread.client = t.connections.map ConnectionThread.client ++ [] := by
    obtain ⟨hlt, rfl⟩ := List.getElem?_eq_some_iff.1 hc
    have hlt : index < (t.connections.map ConnectionThread.client).length := by simpa using hlt
    have hsame : (t.connections.map ConnectionThread.client)[index] = t.connections[index].client :=
      List.getElem_map _
    rw [List.append_nil, List.map_set, h, ← hsame, List.set_getElem_self]
  cases h with
  | accept => simp [Move.accepted, ConnectionThread.fresh]
  | call hreactor hc h =>
    obtain ⟨-, rfl⟩ := ConnectionThread.of_call h
    exact replaced hc rfl
  | connection hc h => exact replaced hc (ConnectionThread.client_of_act h)
  | reply h =>
    rw [map_deliver fun _ _ => rfl]
    exact (List.append_nil _).symm
  | _ => exact (List.append_nil _).symm

theorem Step.pending (h : Step t m u) :
    t.pending ++ m.called.toList = m.ran.toList ++ u.pending := by
  cases h with
  | call hreactor hc h =>
    simp only [Threads.pending, replace, Move.called, Move.ran]
    cases t.reactorPhase <;> simp
  | receive h hjobs => simp [Threads.pending, h, hjobs, Move.called, Move.ran]
  | run h => simp [Threads.pending, h, Move.called, Move.ran]
  | reply h => simp [Threads.pending, h, Move.called, Move.ran, deliver]
  | finish h hjobs => simp [Threads.pending, h, hjobs, Move.called, Move.ran]
  | _ => exact List.append_nil _

theorem holdsHandle_eq_false :
    t.holdsHandle = false ↔ t.acceptor = .gone ∧ ∀ c ∈ t.connections, c.isGone = true := by
  simp [holdsHandle]

/-- While a connection is not gone, neither is the reactor. -/
theorem Orderly.reactor_here (h : t.Orderly) {c : ConnectionThread} (hc : c ∈ t.connections)
    (hhere : c.isGone = false) : t.reactorPhase.isGone = false := by
  cases hphase : t.reactorPhase with
  | gone released =>
    have := (h.gone released hphase).2.1 c hc
    rw [hhere] at this
    cases this
  | _ => rfl

theorem Orderly.step (h : t.Orderly) (hstep : Step t m u) : u.Orderly := by
  obtain ⟨hraised, hjoined, hreturned, hgone⟩ := h
  -- a thread that moves is not gone, so neither is the reactor
  cases hstep with
  | look hphase | accept hphase | acceptNone hphase | unbind hphase | retire hphase =>
    refine ⟨hraised, fun hs => ?_, hreturned, fun released hr => ?_⟩
    · cases hphase.symm.trans (hjoined hs)
    · cases hphase.symm.trans (hgone released hr).1
  | call hreactor hc hcall =>
    refine ⟨hraised, hjoined, hreturned, fun released (hr : t.reactorPhase = _) => ?_⟩
    rw [hr] at hreactor
    cases hreactor
  | connection hc hact =>
    refine ⟨hraised, hjoined, hreturned, fun released hr => ?_⟩
    have hall := (hgone released hr).2.1 _ (List.mem_of_getElem? hc)
    rw [ConnectionThread.isGone_of_act hact] at hall
    cases hall
  | receive hphase | run hphase | reply hphase =>
    refine ⟨hraised, hjoined, fun released hs => ?_, fun released hr => nomatch hr⟩
    cases hphase.symm.trans (hreturned released hs)
  | finish hphase hjobs hhandle =>
    obtain ⟨hacceptor, hconnections⟩ := holdsHandle_eq_false.1 hhandle
    refine ⟨hraised, hjoined, fun released hs => ?_, fun released hr => ?_⟩
    · cases hphase.symm.trans (hreturned released hs)
    · cases hr
      exact ⟨hacceptor, hconnections, hjobs, rfl⟩
  | stop hphase =>
    refine ⟨⟨fun _ => nofun, fun _ => rfl⟩, nofun, nofun, hgone⟩
  | joinAcceptor hphase hacceptor =>
    refine ⟨⟨fun _ => nofun, fun _ => hraised.2 ?_⟩, fun _ => hacceptor, nofun, hgone⟩
    rw [hphase]
    nofun
  | joinReactor hphase hreactor =>
    refine ⟨⟨fun _ => nofun, fun _ => hraised.2 ?_⟩, nofun, fun released hs => ?_, hgone⟩
    · rw [hphase]
      nofun
    · cases hs
      exact hreactor

/-! ### Calls and answers of each connection -/

section Accounts

variable {connections : List ConnectionThread} {index other : Nat} {called : List RequestJob}
  {answers coming : List Outcome}

theorem accountOf_concat (client : Client)
    (h : AccountOf connections[index]? index called answers coming) :
    AccountOf (connections ++ [.fresh client])[index]? index called answers coming := by
  rcases Nat.lt_trichotomy index connections.length with hlt | rfl | hgt
  · rwa [List.getElem?_append_left hlt]
  · rw [List.getElem?_eq_none (Nat.le_refl _)] at h
    obtain ⟨rfl, rfl, rfl⟩ := h
    rw [List.getElem?_concat_length]
    exact ConnectionThread.accounts_fresh client _
  · rw [List.getElem?_eq_none (Nat.le_of_lt hgt)] at h
    rw [List.getElem?_eq_none (by simp; omega)]
    exact h

theorem accountOf_set {c changed : ConnectionThread} (hc : connections[other]? = some c)
    (hself : other = index → changed.Accounts index called answers coming)
    (hothers : other ≠ index → AccountOf connections[index]? index called answers coming) :
    AccountOf (connections.set other changed)[index]? index called answers coming := by
  by_cases hindex : other = index
  · have hlt : index < connections.length := hindex ▸ (List.getElem?_eq_some_iff.1 hc).1
    rw [hindex, List.getElem?_set_self hlt]
    exact hself hindex
  · rw [List.getElem?_set_ne hindex]
    exact hothers hindex

theorem accountOf_deliver {outcome : Outcome} (h : AccountOf t.connections[index]? index called
      answers (if other = index then [outcome] else [])) :
    AccountOf (t.deliver other outcome).connections[index]? index called answers [] := by
  rw [deliver, List.getElem?_modify]
  cases hc : t.connections[index]? with
  | none =>
    rw [hc] at h
    exact ⟨h.1, h.2.1, rfl⟩
  | some c =>
    rw [hc] at h
    by_cases hindex : other = index
    · simp only [hindex, if_pos] at h ⊢
      exact h.deliver
    · simpa [hindex] using h

end Accounts

theorem Follows.step_accounts (h : Follows d moves t) (hstep : Step t m u) (index : Nat) :
    AccountOf u.connections[index]? index (callsOf index (moves ++ [m]))
      (d.answers index (moves ++ [m])) (u.coming index) := by
  have account := h.accounts index
  rw [callsOf_snoc, RunningDaemon.answers_snoc]
  cases hstep with
  | accept hphase client =>
    simp only [Move.called, Option.toList_none, List.filter_nil, List.append_nil,
      RunningDaemon.answer]
    exact accountOf_concat client account
  | @call job c changed hreactor hc hcall =>
    simp only [Move.called, Option.toList_some, RunningDaemon.answer, List.append_nil]
    refine accountOf_set hc (fun hindex => ?_) fun hindex => ?_
    · subst index
      rw [hc] at account
      have own : [job].filter (fun other => other.caller == job.caller) = [job] := by simp
      rw [own]
      exact account.call hcall
    · have others : [job].filter (fun other => other.caller == index) = [] := by simp [hindex]
      rw [others, List.append_nil]
      exact account
  | @connection other act c changed hc hact =>
    simp only [Move.called, Option.toList_none, List.filter_nil, List.append_nil,
      RunningDaemon.answer]
    refine accountOf_set hc (fun hindex => ?_) fun _ => account
    subst index
    rw [hc] at account
    rw [h.orderly.reactor_here (List.mem_of_getElem? hc)
      (ConnectionThread.isGone_of_act hact)] at hact
    exact account.act hact
  | @run job hphase =>
    have hreactor : (d.replay moves).reactor = t.reactor := by
      rw [← h.daemon]
      rfl
    simp only [Move.called, Option.toList_none, List.filter_nil, List.append_nil,
      RunningDaemon.answer, Threads.coming, hphase, hreactor] at account ⊢
    by_cases hindex : job.caller = index
    · subst index
      cases hc : t.connections[job.caller]? with
      | some c =>
        rw [hc] at account
        exact account.answer _
      | none =>
        -- the job that is run was called by a connection that is there
        rw [hc] at account
        have hmem : job ∈ callsOf job.caller moves := by
          simp [callsOf, h.order, Threads.pending, hphase]
        rw [account.1] at hmem
        cases hmem
    · simpa [hindex] using account
  | @reply caller outcome hphase =>
    simp only [Move.called, Option.toList_none, List.filter_nil, List.append_nil,
      RunningDaemon.answer, Threads.coming, hphase] at account ⊢
    exact accountOf_deliver account
  | receive hphase | finish hphase =>
    simpa [Move.called, RunningDaemon.answer, Threads.coming, hphase] using account
  | _ =>
    simp only [Move.called, Option.toList_none, List.filter_nil, List.append_nil,
      RunningDaemon.answer]
    exact account

theorem Follows.step (h : Follows d moves t) (hstep : Step t m u) : Follows d (moves ++ [m]) u where
  daemon := by rw [hstep.daemon, h.daemon, RunningDaemon.replay_snoc]
  clients := by
    rw [hstep.clients, h.clients, accepts, accepts, filterMap_snoc]
  order := by
    rw [calls, filterMap_snoc, runs, filterMap_snoc, ← calls, h.order, List.append_assoc,
      hstep.pending, ← List.append_assoc]
    rfl
  orderly := h.orderly.step hstep
  accounts := h.step_accounts hstep

theorem follows_start (d : RunningDaemon) : Follows d [] (start d) where
  daemon := rfl
  clients := rfl
  order := rfl
  orderly := ⟨⟨nofun, fun h => (h rfl).elim⟩, nofun, nofun, nofun⟩
  accounts _ := ⟨rfl, rfl, rfl⟩

/-- **Every run brings the threads to where its moves say.** -/
theorem follows_run (h : (start d).run moves = some t) : Follows d moves t :=
  run_induction (P := Follows d) (fun _ _ _ _ h hstep => h.step hstep) (follows_start d) h

end Threads

end TorrentControl
