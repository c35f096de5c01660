import TorrentControl.Proofs.Json.Document
import TorrentControl.Proofs.Shutdown

/-! # One request after the other

A daemon with threads is no different from one without that is given the requests in the order in
which they entered the queue. That holds of every run of the threads, however the moves of clients,
connections, the reactor and the call that stops the daemon follow each other. -/

namespace TorrentControl

open Rpc (Failure Outcome Reactor Request Sink)

/-! ## The daemon without threads -/

namespace RunningDaemon

variable {d : RunningDaemon}

/-- What the client of a connection gets: what its stream says if that is no request, and else what
the reactor answers to the request after all that was run before it. -/
def Gives (d : RunningDaemon) (moves : List Move) (index : Nat) (client : Client)
    (outcome : Option Outcome) : Prop :=
  match client.request with
  | .error f => outcome = some (.error f)
  | .ok none => outcome = none
  | .ok (some request) => ∃ before after, moves = before ++ .run ⟨index, request⟩ :: after ∧
      outcome = some ((d.replay before).reactor.handle request).1

/-- A job that is run is a connection that is served without threads. -/
theorem serve_eq_turn {c : Client} {stream : List UInt8} (hsent : c.sent = .ok stream)
    {request : Request} (hrequest : c.request = .ok (some request)) (index : Nat) :
    d.serve stream = (some (d.reactor.handle request).1, d.turn (.run ⟨index, request⟩)) := by
  unfold Client.request at hrequest
  simp only [hsent] at hrequest
  unfold serve Rpc.Connection.serve
  split at hrequest
  · cases hrequest
  · cases hrequest
  · rename_i line hline
    cases hparsed : Request.ofLine line with
    | error f =>
      rw [hparsed] at hrequest
      cases hrequest
    | ok parsed =>
      rw [hparsed] at hrequest
      cases hrequest
      simp only [hline, hparsed]
      rfl

/-- Only requests change which commands there are. -/
theorem released_turn {m : Move} (h : m.ran = none) :
    (d.turn m).reactor.released = d.reactor.released := by
  cases m with
  | run job => cases h
  | _ => rfl

theorem released_replay {moves : List Move} (h : Threads.runs moves = []) :
    (d.replay moves).reactor.released = d.reactor.released := by
  induction moves generalizing d with
  | nil => rfl
  | cons m moves ih =>
    have hnone : ∀ m' ∈ m :: moves, m'.ran = none := List.filterMap_eq_nil_iff.1 h
    have hrest : Threads.runs moves = [] :=
      List.filterMap_eq_nil_iff.2 fun m' hm' => hnone m' (List.mem_cons_of_mem _ hm')
    calc (d.replay (m :: moves)).reactor.released
        = ((d.turn m).replay moves).reactor.released := rfl
      _ = (d.turn m).reactor.released := ih hrest
      _ = d.reactor.released := released_turn (hnone m List.mem_cons_self)

/-- Up to the removal of the socket, only the requests that are run matter. -/
theorem reactor_replay {moves : List Move} (h : .unbind ∉ moves) : (d.replay moves).reactor =
    (Threads.runs moves).foldl (fun r job => (r.handle job.request).2) d.reactor := by
  induction moves generalizing d with
  | nil => rfl
  | cons m moves ih =>
    obtain ⟨hm, hmoves⟩ := not_or.1 (mt List.mem_cons.2 h)
    have hrest : (d.replay (m :: moves)).reactor = ((d.turn m).replay moves).reactor := rfl
    rw [hrest, ih hmoves]
    cases m with
    | unbind => exact (hm rfl).elim
    | _ => rfl

end RunningDaemon

/-! ## Threads of connections -/

/-- The thread has come to an outcome, if there is one. -/
def ConnectionPhase.isSettled : ConnectionPhase → Bool
  | .responding _ | .leaving _ | .gone _ => true
  | _ => false

namespace ConnectionThread

variable {c : ConnectionThread} {index : Nat} {called : List RequestJob}
  {answers coming : List Outcome}

/-- A thread that has come to an outcome has made its call. -/
theorem calls_eq_singleton (hsettled : c.phase.isSettled = true) {request : Request}
    (hrequest : c.client.request = .ok (some request)) : c.calls index = [⟨index, request⟩] := by
  have hcalled : c.phase.isBeforeCall = false := by
    cases hphase : c.phase <;> rw [hphase] at hsettled <;> first | rfl | cases hsettled
  simp [calls, hcalled, hrequest, -ConnectionPhase.isBeforeCall]

theorem Accounts.gets (h : c.Accounts index called answers coming)
    (hsettled : c.phase.isSettled = true) : c.client.Gets c.phase.outcome := by
  obtain ⟨client, phase, replies, response⟩ := c
  cases phase with
  | reading | calling request | waiting => cases hsettled
  | _ => exact h.proper.1

theorem heard_eq_singleton {outcome : Outcome} (houtcome : c.phase.outcome = some outcome)
    {request : Request} (hrequest : c.client.request = .ok (some request)) :
    c.heard = [outcome] := by
  simp only [heard, hrequest, houtcome, Option.toList_some]

/-- The outcome of a request is an answer of the reactor. -/
theorem Accounts.mem_answers (h : c.Accounts index called answers coming)
    (hsettled : c.phase.isSettled = true) {request : Request}
    (hrequest : c.client.request = .ok (some request)) :
    ∃ outcome ∈ answers, c.phase.outcome = some outcome := by
  have hgets := h.gets hsettled
  rw [Client.Gets, hrequest] at hgets
  obtain ⟨outcome, houtcome⟩ := Option.isSome_iff_exists.1 hgets
  refine ⟨outcome, ?_, houtcome⟩
  rw [h.answered, heard_eq_singleton houtcome hrequest]
  exact List.mem_cons_self

theorem length_calls_le (c : ConnectionThread) (index : Nat) : (c.calls index).length ≤ 1 := by
  unfold calls
  split
  · exact Nat.zero_le _
  · split
    · exact Nat.le_refl _
    · exact Nat.zero_le _

/-- A thread calls nothing but the request of its client. -/
theorem of_mem_calls {job : RequestJob} (h : job ∈ c.calls index) :
    c.client.request = .ok (some job.request) := by
  unfold calls at h
  split at h
  · cases h
  · split at h
    · rename_i request hrequest
      rw [List.mem_singleton.1 h]
      exact hrequest
    · cases h

end ConnectionThread

/-! ## All threads -/

namespace Threads

/-- The call that stops the daemon has returned. -/
structure Stopped (d : RunningDaemon) (moves : List Move) (t : Threads) (count : Nat) : Prop where
  /-- Every request that was called was run. -/
  ran : runs moves = calls moves
  /-- Every connection that was accepted came to its outcome, and the response is written. -/
  served : ∀ (index : Nat) client, (accepts moves)[index]? = some client →
    ∃ outcome, d.Gives moves index client outcome ∧
      t.connections[index]? = some ⟨client, .gone outcome, [], some (client.respond outcome)⟩
  released : count = (d.replay moves).reactor.released
  /-- The commands that are counted are those after the last request. -/
  last : ∀ before job after, moves = before ++ .run job :: after → runs after = [] →
    count = (d.replay (before ++ [.run job])).reactor.released

/-- The threads behave as the daemon without threads that is given the requests in the order in
which they entered the queue. -/
structure Linearizes (d : RunningDaemon) (moves : List Move) (t : Threads) : Prop where
  order : runs moves <+: calls moves
  /-- No connection calls twice. -/
  once : ((calls moves).map RequestJob.caller).Nodup
  /-- A job is the request of the client that waits for it. -/
  own : ∀ job ∈ calls moves, ∃ client, (accepts moves)[job.caller]? = some client ∧
    client.request = .ok (some job.request)
  /-- The reactor needs nobody to get the other jobs run too. -/
  drains : ∃ more u, (∀ m ∈ more, isReactors m = true) ∧ t.run more = some u ∧
    runs (moves ++ more) = calls moves
  state : t.reactor = (d.replay moves).reactor
  /-- Before the socket is removed, that is a run of the requests and nothing else. -/
  sequential : .unbind ∉ moves →
    t.reactor = (runs moves).foldl (fun r job => (r.handle job.request).2) d.reactor
  outcome : ∀ (index : Nat) c, t.connections[index]? = some c → c.phase.isSettled = true →
    d.Gives moves index c.client c.phase.outcome
  /-- The threads are never stuck. -/
  moving : (∃ released, t.stopper = .returned released) ∨ ∃ m u, t.step m = some u
  /-- The call that stops the daemon returns. -/
  ends : t.stopper ≠ .uncalled → ∀ more u, t.run more = some u → more.length ≤ t.effort
  returned : ∀ released, t.stopper = .returned released → Stopped d moves t released

namespace Follows

variable {d : RunningDaemon} {t u : Threads} {moves more : List Move}

theorem run (h : Follows d moves t) (hrun : t.run more = some u) : Follows d (moves ++ more) u :=
  run_induction (P := Follows d) (fun _ _ _ _ h hstep => h.step hstep) h hrun

theorem client_of_getElem? (h : Follows d moves t) (index : Nat) :
    (accepts moves)[index]? = t.connections[index]?.map ConnectionThread.client := by
  rw [← h.clients, List.getElem?_map]

theorem accounts_of_getElem? (h : Follows d moves t) {index : Nat} {c : ConnectionThread}
    (hc : t.connections[index]? = some c) :
    c.Accounts index (callsOf index moves) (d.answers index moves) (t.coming index) := by
  have account := h.accounts index
  rwa [hc] at account

theorem length_callsOf_le (h : Follows d moves t) (index : Nat) :
    (callsOf index moves).length ≤ 1 := by
  cases hc : t.connections[index]? with
  | some c =>
    rw [(h.accounts_of_getElem? hc).called]
    exact c.length_calls_le index
  | none =>
    have account := h.accounts index
    rw [hc] at account
    rw [account.1]
    exact Nat.zero_le 1

theorem nodup_callers (h : Follows d moves t) : ((calls moves).map RequestJob.caller).Nodup := by
  refine List.nodup_iff_count.2 fun index => ?_
  rw [List.count_eq_countP, List.countP_map, List.countP_eq_length_filter]
  exact h.length_callsOf_le index

theorem own (h : Follows d moves t) {job : RequestJob} (hjob : job ∈ calls moves) :
    ∃ client, (accepts moves)[job.caller]? = some client ∧
      client.request = .ok (some job.request) := by
  have hof : job ∈ callsOf job.caller moves := List.mem_filter.2 ⟨hjob, beq_self_eq_true _⟩
  cases hc : t.connections[job.caller]? with
  | some c =>
    rw [(h.accounts_of_getElem? hc).called] at hof
    exact ⟨c.client, by rw [h.client_of_getElem?, hc]; rfl, ConnectionThread.of_mem_calls hof⟩
  | none =>
    have account := h.accounts job.caller
    rw [hc] at account
    rw [account.1] at hof
    cases hof

/-- Whoever has come to an outcome has that of its own request. -/
theorem gives (h : Follows d moves t) {index : Nat} {c : ConnectionThread}
    (hc : t.connections[index]? = some c) (hsettled : c.phase.isSettled = true) :
    d.Gives moves index c.client c.phase.outcome := by
  have account := h.accounts_of_getElem? hc
  have hgets := account.gets hsettled
  unfold RunningDaemon.Gives
  unfold Client.Gets at hgets
  split
  · rename_i hrequest
    simpa only [hrequest] using hgets
  · rename_i hrequest
    simpa only [hrequest] using hgets
  · rename_i request hrequest
    obtain ⟨outcome, hmem, houtcome⟩ := account.mem_answers hsettled hrequest
    obtain ⟨before, job, after, rfl, hcaller, rfl⟩ := RunningDaemon.mem_answers hmem
    -- the job that was run is the one that this thread called
    have hrun : job ∈ runs (before ++ .run job :: after) := by simp [runs, Move.ran]
    have hcall : job ∈ callsOf index (before ++ .run job :: after) := by
      refine List.mem_filter.2 ⟨?_, beq_iff_eq.2 hcaller⟩
      rw [h.order]
      exact List.mem_append_left _ hrun
    rw [account.called, ConnectionThread.calls_eq_singleton hsettled hrequest] at hcall
    obtain rfl := List.mem_singleton.1 hcall
    exact ⟨before, after, rfl, houtcome⟩

/-- A call is answered at most once, so whoever has come to an outcome finds no other reply. -/
theorem replies_eq_nil (h : Follows d moves t) {index : Nat} {c : ConnectionThread}
    (hc : t.connections[index]? = some c) (hsettled : c.phase.isSettled = true) :
    c.replies = [] := by
  have account := h.accounts_of_getElem? hc
  have hlength : (d.answers index moves).length ≤ (c.calls index).length := by
    rw [RunningDaemon.length_answers, ← account.called, callsOf, h.order, List.filter_append,
      List.length_append]
    exact Nat.le_add_right _ _
  rw [account.answered, List.length_append, List.length_append] at hlength
  refine List.eq_nil_of_length_eq_zero ?_
  by_cases hrequest : ∃ request, c.client.request = .ok (some request)
  · obtain ⟨request, hrequest⟩ := hrequest
    have hgets := account.gets hsettled
    rw [Client.Gets, hrequest] at hgets
    obtain ⟨outcome, houtcome⟩ := Option.isSome_iff_exists.1 hgets
    rw [ConnectionThread.calls_eq_singleton hsettled hrequest,
      ConnectionThread.heard_eq_singleton houtcome hrequest] at hlength
    simp only [List.length_singleton] at hlength
    omega
  · have hcalls : c.calls index = [] := by
      refine List.eq_nil_iff_forall_not_mem.2 fun job hjob => hrequest ?_
      exact ⟨job.request, ConnectionThread.of_mem_calls hjob⟩
    rw [hcalls, List.length_nil] at hlength
    omega

theorem drains_calls (h : Follows d moves t) : ∃ more u, (∀ m ∈ more, isReactors m = true) ∧
    t.run more = some u ∧ runs (moves ++ more) = calls moves := by
  obtain ⟨more, u, hmore, hrun, hpending⟩ := h.drains
  refine ⟨more, u, hmore, hrun, ?_⟩
  have hnone : calls more = [] := by
    refine List.filterMap_eq_nil_iff.2 fun m hm => ?_
    have := hmore m hm
    cases m <;> first | rfl | cases this
  calc runs (moves ++ more)
      = calls (moves ++ more) := by rw [(h.run hrun).order, hpending, List.append_nil]
    _ = calls moves ++ calls more := List.filterMap_append
    _ = calls moves := by rw [hnone, List.append_nil]

theorem stopped (h : Follows d moves t) {released : Nat}
    (hreturned : t.stopper = .returned released) : Stopped d moves t released := by
  have hphase := h.orderly.returned released hreturned
  obtain ⟨-, hconnections, hjobs, hreleased⟩ := h.orderly.gone released hphase
  have hreactor : t.reactor = (d.replay moves).reactor := congrArg RunningDaemon.reactor h.daemon
  rw [hreactor] at hreleased
  refine ⟨?_, fun index client hclient => ?_, hreleased, fun before job after hmoves hafter => ?_⟩
  · rw [h.order, pending, hphase, hjobs, List.append_nil]
  · rw [h.client_of_getElem?, Option.map_eq_some_iff] at hclient
    obtain ⟨c, hc, rfl⟩ := hclient
    have hgone := hconnections c (List.mem_of_getElem? hc)
    have hproper := (h.accounts_of_getElem? hc).proper
    obtain ⟨client, phase, replies, response⟩ := c
    cases phase with
    | gone outcome =>
      obtain rfl : replies = [] := h.replies_eq_nil hc rfl
      obtain rfl : response = some (client.respond outcome) := hproper.2
      exact ⟨outcome, h.gives hc rfl, hc⟩
    | _ => cases hgone
  · have hsplit : d.replay moves = (d.replay (before ++ [.run job])).replay after := by
      rw [hmoves, List.append_cons, RunningDaemon.replay, List.foldl_append]
      rfl
    rw [hreleased, hsplit]
    exact RunningDaemon.released_replay hafter

end Follows

/-- Two clients and a call that stops the daemon while their requests are under way. The one that
is accepted last is the first that calls. -/
def crossing (client : Client) (request : Request) : List Move :=
  [.look, .accept client, .look, .accept client, .connection 0 .read, .connection 1 .read,
    .call ⟨1, request⟩, .stop, .receive, .look, .call ⟨0, request⟩, .run ⟨1, request⟩, .unbind,
    .reply, .retire, .receive, .joinAcceptor, .connection 1 .hear, .run ⟨0, request⟩,
    .connection 1 .respond, .reply, .connection 0 .hear, .connection 0 .respond,
    .connection 0 .leave, .connection 1 .leave, .finish, .joinReactor]

theorem run_crossing (d : RunningDaemon) {client : Client} {request : Request}
    (h : client.request = .ok (some request)) : ∃ t,
      (start d).run (crossing client request) = some t ∧
        t.stopper = .returned (d.replay (crossing client request)).reactor.released := by
  have hread : ConnectionThread.act (.fresh client) false .read =
      some ⟨client, .calling request, [], none⟩ := by
    simp [ConnectionThread.act, ConnectionThread.fresh, ConnectionThread.afterReading, h]
  have hcall : ConnectionThread.call ⟨client, .calling request, [], none⟩ request =
      some ⟨client, .waiting, [], none⟩ := if_pos rfl
  exact ⟨_, (Step.look rfl).andThen <| (Step.accept rfl client).andThen <|
    (Step.look rfl).andThen <| (Step.accept rfl client).andThen <|
    (Step.connection rfl hread).andThen <| (Step.connection rfl hread).andThen <|
    (Step.call rfl rfl hcall).andThen <| (Step.stop rfl).andThen <|
    (Step.receive rfl rfl).andThen <| (Step.look rfl).andThen <|
    (Step.call rfl rfl hcall).andThen <| (Step.run rfl).andThen <|
    (Step.unbind rfl).andThen <| (Step.reply rfl).andThen <|
    (Step.retire rfl).andThen <| (Step.receive rfl rfl).andThen <|
    (Step.joinAcceptor rfl rfl).andThen <| (Step.connection rfl rfl).andThen <|
    (Step.run rfl).andThen <| (Step.connection rfl rfl).andThen <|
    (Step.reply rfl).andThen <| (Step.connection rfl rfl).andThen <|
    (Step.connection rfl rfl).andThen <| (Step.connection rfl rfl).andThen <|
    (Step.connection rfl rfl).andThen <| (Step.finish rfl rfl rfl).andThen <|
    (Step.joinReactor rfl rfl).andThen rfl, rfl⟩

end Threads

/-- A daemon without downloads. -/
def RunningDaemon.idle : RunningDaemon :=
  ⟨.tcp "127.0.0.1" 5000, .start .empty .empty⟩

def Client.methodsRequest : Request :=
  ⟨"system.listMethods", .generic, .empty⟩

def Client.methodsDocument : Json.Document :=
  .record [("method", .string "system.listMethods")]

/-- A client that asks which methods there are. -/
def Client.listing : Client :=
  ⟨.ok (Text.Utf8.encode (methodsDocument.write ++ ['\n'])), .unbounded⟩

theorem Client.request_listing : listing.request = .ok (some methodsRequest) := by
  let line := Text.Utf8.encode (methodsDocument.write ++ ['\n'])
  have hline : Rpc.Connection.readLine line = .ok (some line) := rfl
  have hkept : Request.trimLine line = Text.Utf8.encode methodsDocument.write := rfl
  have hwritable : methodsDocument.Writable := ⟨⟨rfl, rfl, trivial⟩, rfl⟩
  have hread : Json.Reading.ofBytes Json.nestingLimit (Text.Utf8.encode methodsDocument.write) =
      ⟨methodsDocument, true⟩ := Json.Reading.ofBytes_encode_write hwritable (by decide)
  have hrequest : Request.ofLine line = .ok methodsRequest := by
    rw [Request.ofLine, hkept, hread]
    rfl
  unfold request listing
  dsimp only
  rw [hline]
  simp only [hrequest]
  rfl

end TorrentControl
