import TorrentControl.Proofs.Interleaving

/-! # Stopping

A daemon that is told to stop does stop: each of its moves takes some of a finite effort, and as
long as the call that stops it has not returned there is a move. -/

namespace TorrentControl

open Rpc (Failure Outcome Reactor Request Sink)

/-! ## Effort -/

/-- The moves that a connection is good for; a job that it may call is good for three more. -/
def ConnectionPhase.effort : ConnectionPhase → Nat
  | .reading => 8
  | .calling _ => 7
  | .waiting => 3
  | .responding _ => 2
  | .leaving _ => 1
  | .gone _ => 0

/-- With the flag raised, at most one more connection is accepted. -/
def AcceptorPhase.effort : AcceptorPhase → Nat
  | .accepting => 12
  | .looking => 3
  | .unbinding => 2
  | .leaving => 1
  | .gone => 0

def ReactorPhase.effort : ReactorPhase → Nat
  | .running _ => 3
  | .replying _ _ => 2
  | .idle => 1
  | .gone _ => 0

def StopPhase.effort : StopPhase → Nat
  | .uncalled => 3
  | .joiningAcceptor => 2
  | .joiningReactor => 1
  | .returned _ => 0

namespace Threads

def connectionsEffort (connections : List ConnectionThread) : Nat :=
  (connections.map fun c => c.phase.effort).foldr (· + ·) 0

/-- A bound of the moves that are left once the flag is raised. -/
def effort (t : Threads) : Nat :=
  t.acceptor.effort + connectionsEffort t.connections + 3 * t.jobs.length + t.reactorPhase.effort +
    t.stopper.effort

variable {d : RunningDaemon} {t u : Threads} {m : Move} {moves : List Move}

theorem connectionsEffort_set {connections : List ConnectionThread} {index : Nat}
    {c : ConnectionThread} (hc : connections[index]? = some c) (changed : ConnectionThread) :
    connectionsEffort (connections.set index changed) + c.phase.effort =
      connectionsEffort connections + changed.phase.effort := by
  induction connections generalizing index with
  | nil => cases hc
  | cons first rest ih =>
    cases index with
    | zero =>
      cases hc
      simp only [connectionsEffort, List.set_cons_zero, List.map_cons, List.foldr_cons]
      omega
    | succ index =>
      have := ih hc
      simp only [connectionsEffort, List.set_cons_succ, List.map_cons, List.foldr_cons] at this ⊢
      omega

theorem connectionsEffort_concat (connections : List ConnectionThread) (c : ConnectionThread) :
    connectionsEffort (connections ++ [c]) = connectionsEffort connections + c.phase.effort := by
  induction connections with
  | nil => exact Nat.add_comm _ 0
  | cons first rest ih =>
    simp only [connectionsEffort, List.cons_append, List.map_cons, List.foldr_cons] at ih ⊢
    omega

theorem connectionsEffort_deliver (index : Nat) (outcome : Outcome) :
    connectionsEffort (t.deliver index outcome).connections = connectionsEffort t.connections := by
  rw [connectionsEffort, map_deliver fun _ _ => rfl]
  rfl

theorem effort_of_act {c changed : ConnectionThread} {reactorGone : Bool} {act : ConnectionAct}
    (h : c.act reactorGone act = some changed) : changed.phase.effort < c.phase.effort := by
  obtain ⟨client, phase, replies, response⟩ := c
  cases act with
  | read =>
    cases phase <;> cases h
    cases client.request with
    | error f => exact (by decide : 2 < 8)
    | ok request =>
      cases request with
      | none => exact (by decide : 2 < 8)
      | some request => exact (by decide : 7 < 8)
  | hear =>
    cases phase <;> cases replies <;> cases h
    exact (by decide : 2 < 3)
  | miss =>
    cases reactorGone <;> cases phase <;> cases replies <;> cases h
    · exact (by decide : 2 < 7)
    · exact (by decide : 2 < 7)
    · exact (by decide : 2 < 3)
  | respond =>
    cases phase <;> cases h
    exact (by decide : 1 < 2)
  | leave =>
    cases phase <;> cases h
    exact (by decide : 0 < 1)

/-- **With the flag raised every move takes effort.** -/
theorem Step.effort_lt (h : Step t m u) (hstopping : t.stopping = true) : u.effort < t.effort := by
  cases h with
  | look hphase =>
    simp only [effort, hphase, hstopping, if_pos, AcceptorPhase.effort]
    omega
  | accept hphase client =>
    have hfresh : (ConnectionThread.fresh client).phase.effort = 8 := rfl
    simp only [effort, hphase, connectionsEffort_concat, hfresh, AcceptorPhase.effort]
    omega
  | acceptNone hphase | unbind hphase | retire hphase =>
    simp only [effort, hphase, AcceptorPhase.effort]
    omega
  | @call job c changed hreactor hc hcall =>
    obtain ⟨hphase, rfl⟩ := ConnectionThread.of_call hcall
    have hsum := connectionsEffort_set hc { c with phase := .waiting }
    simp only [hphase, ConnectionPhase.effort] at hsum
    simp only [effort, replace, List.length_append, List.length_singleton]
    omega
  | @connection index act c changed hc hact =>
    have hsum := connectionsEffort_set hc changed
    have hless := effort_of_act hact
    simp only [effort, replace]
    omega
  | receive hphase hjobs =>
    simp only [effort, hphase, hjobs, ReactorPhase.effort, List.length_cons]
    omega
  | run hphase | finish hphase =>
    simp only [effort, hphase, ReactorPhase.effort]
    omega
  | @reply caller outcome hphase =>
    have hsum := connectionsEffort_deliver (t := t) caller outcome
    simp only [deliver] at hsum
    simp only [effort, deliver, hphase, hsum, ReactorPhase.effort]
    omega
  | stop hphase | joinAcceptor hphase | joinReactor hphase =>
    simp only [effort, hphase, StopPhase.effort]
    omega

theorem Step.stopping (h : Step t m u) (hstopping : t.stopping = true) : u.stopping = true := by
  cases h <;> first | rfl | exact hstopping

/-- With the flag raised a run is no longer than the effort that is left. -/
theorem length_le_effort : ∀ {moves : List Move} {t u : Threads}, t.stopping = true →
    t.run moves = some u → moves.length ≤ t.effort
  | [], _, _, _, _ => Nat.zero_le _
  | m :: moves, t, u, hstopping, h => by
    obtain ⟨v, hv, h⟩ := run_cons.1 h
    have hless := hv.effort_lt hstopping
    have := length_le_effort (hv.stopping hstopping) h
    rw [List.length_cons]
    omega

/-! ## Always a move -/

/-- The moves of the thread that owns the reactor, as long as it goes on. -/
def isReactors : Move → Bool
  | .receive | .run _ | .reply => true
  | _ => false

/-- A reactor that is not gone gets on with the jobs. -/
theorem exists_reactor_step (hgone : t.reactorPhase.isGone = false) (hpending : t.pending ≠ []) :
    ∃ m u, isReactors m = true ∧ Step t m u := by
  cases hphase : t.reactorPhase with
  | idle =>
    cases hjobs : t.jobs with
    | nil => simp [pending, hphase, hjobs] at hpending
    | cons job jobs => exact ⟨_, _, rfl, .receive hphase hjobs⟩
  | running job => exact ⟨_, _, rfl, .run hphase⟩
  | replying caller outcome => exact ⟨_, _, rfl, .reply hphase⟩
  | gone released =>
    rw [hphase] at hgone
    cases hgone

/-- A thread of a connection can go on, or waits for a reply that is not there. -/
theorem exists_act {c : ConnectionThread} (hhere : c.isGone = false) :
    (∃ act changed, c.act false act = some changed) ∨
      (∃ request changed, c.call request = some changed) ∨ c.phase = .waiting ∧ c.replies = [] := by
  obtain ⟨client, phase, replies, response⟩ := c
  cases phase with
  | reading => exact .inl ⟨.read, _, rfl⟩
  | calling request => exact .inr (.inl ⟨request, _, if_pos rfl⟩)
  | waiting =>
    cases replies with
    | nil => exact .inr (.inr ⟨rfl, rfl⟩)
    | cons outcome later => exact .inl ⟨.hear, _, rfl⟩
  | responding outcome => exact .inl ⟨.respond, _, rfl⟩
  | leaving outcome => exact .inl ⟨.leave, _, rfl⟩
  | gone outcome => cases hhere

/-- The reply that a connection waits for is on the way, or its job is still to be run. -/
theorem Follows.exists_step_of_waiting (h : Follows d moves t) {index : Nat} {c : ConnectionThread}
    (hc : t.connections[index]? = some c) (hwaiting : c.phase = .waiting)
    (hreplies : c.replies = []) : ∃ m u, Step t m u := by
  have account := h.accounts index
  rw [hc] at account
  obtain ⟨hproper, hcalled, hanswered⟩ := account
  rw [ConnectionThread.Proper, hwaiting] at hproper
  obtain ⟨⟨request, hrequest⟩, -⟩ := hproper
  by_cases hpending : t.pending = []
  · -- all jobs were run, this one too, and nobody took the answer
    have hruns : runs moves = calls moves := by rw [h.order, hpending, List.append_nil]
    have hcalls : c.calls index = [⟨index, request⟩] := by
      simp [ConnectionThread.calls, hwaiting, hrequest]
    have hheard : c.heard = [] := by simp [ConnectionThread.heard, hwaiting, hrequest]
    have hlength := RunningDaemon.length_answers (d := d) index moves
    rw [hruns, ← callsOf, hcalled, hcalls, hanswered, hheard, hreplies] at hlength
    cases hphase : t.reactorPhase with
    | replying caller outcome => exact ⟨_, _, .reply hphase⟩
    | _ => simp [coming, hphase] at hlength
  · have hgone : t.reactorPhase.isGone = false := by
      refine h.orderly.reactor_here (List.mem_of_getElem? hc) ?_
      rw [ConnectionThread.isGone, hwaiting]
    obtain ⟨m, u, -, hstep⟩ := exists_reactor_step hgone hpending
    exact ⟨m, u, hstep⟩

theorem Follows.exists_step_of_here (h : Follows d moves t) {c : ConnectionThread}
    (hc : c ∈ t.connections) (hhere : c.isGone = false) : ∃ m u, Step t m u := by
  obtain ⟨index, hindex⟩ := List.getElem?_of_mem hc
  have hgone := h.orderly.reactor_here hc hhere
  rcases exists_act hhere with
    ⟨act, changed, hact⟩ | ⟨request, changed, hcall⟩ | ⟨hwaiting, hreplies⟩
  · rw [← hgone] at hact
    exact ⟨_, _, .connection hindex hact⟩
  · exact ⟨.call ⟨index, request⟩, _, .call hgone hindex hcall⟩
  · exact h.exists_step_of_waiting hindex hwaiting hreplies

/-- **As long as the call that stops the daemon has not returned, some thread can move.** -/
theorem Follows.exists_step (h : Follows d moves t)
    (hreturned : ∀ released, t.stopper ≠ .returned released) : ∃ m u, Step t m u := by
  cases hstop : t.stopper with
  | uncalled => exact ⟨_, _, .stop hstop⟩
  | joiningAcceptor =>
    cases hacceptor : t.acceptor with
    | looking => exact ⟨_, _, .look hacceptor⟩
    | accepting => exact ⟨_, _, .acceptNone hacceptor⟩
    | unbinding => exact ⟨_, _, .unbind hacceptor⟩
    | leaving => exact ⟨_, _, .retire hacceptor⟩
    | gone => exact ⟨_, _, .joinAcceptor hstop hacceptor⟩
  | joiningReactor =>
    have hacceptor := h.orderly.joined hstop
    by_cases hhandle : t.holdsHandle = false
    · cases hphase : t.reactorPhase with
      | idle =>
        cases hjobs : t.jobs with
        | nil => exact ⟨_, _, .finish hphase hjobs hhandle⟩
        | cons job jobs => exact ⟨_, _, .receive hphase hjobs⟩
      | running job => exact ⟨_, _, .run hphase⟩
      | replying caller outcome => exact ⟨_, _, .reply hphase⟩
      | gone released => exact ⟨_, _, .joinReactor hstop hphase⟩
    · obtain ⟨c, hc, hhere⟩ : ∃ c ∈ t.connections, c.isGone = false := by
        simpa [holdsHandle, hacceptor] using hhandle
      exact h.exists_step_of_here hc hhere
  | returned released => exact (hreturned released hstop).elim

/-! ## The reactor by itself -/

/-- The moves that the reactor is good for. -/
def backlog (t : Threads) : Nat :=
  3 * t.jobs.length + t.reactorPhase.effort

theorem Step.backlog_lt (h : Step t m u) (hm : isReactors m = true) : u.backlog < t.backlog := by
  cases h with
  | receive hphase hjobs =>
    simp only [backlog, hphase, hjobs, ReactorPhase.effort, List.length_cons]
    omega
  | run hphase | reply hphase =>
    simp only [backlog, deliver, hphase, ReactorPhase.effort]
    omega
  | _ => cases hm

/-- **Whatever the other threads do not do, the reactor gets all jobs run that were called.** -/
theorem Follows.drains (h : Follows d moves t) : ∃ more u, (∀ m ∈ more, isReactors m = true) ∧
    t.run more = some u ∧ u.pending = [] := by
  induction hbacklog : t.backlog using Nat.strongRecOn generalizing t moves with
  | ind n ih =>
    by_cases hpending : t.pending = []
    · exact ⟨[], t, nofun, rfl, hpending⟩
    · have hgone : t.reactorPhase.isGone = false := by
        cases hphase : t.reactorPhase with
        | gone released =>
          simp [pending, hphase, (h.orderly.gone released hphase).2.2.1] at hpending
        | _ => rfl
      obtain ⟨m, v, hm, hstep⟩ := exists_reactor_step hgone hpending
      obtain ⟨more, u, hmore, hrun, hdone⟩ :=
        ih _ (hbacklog ▸ hstep.backlog_lt hm) (h.step hstep) rfl
      exact ⟨m :: more, u, List.forall_mem_cons.2 ⟨hm, hmore⟩, hstep.andThen hrun, hdone⟩

end Threads

end TorrentControl
