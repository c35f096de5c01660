import TorrentControl.Proofs.Mirror
import TorrentControl.Proofs.Native

/-! # Which commands requests reach

The reactor looks at the method of a request and not at the command texts in its parameters. As long
as no method is made at run time, these texts are the only way to a command that is not public: the
method is public, and so is whatever built-in scripts and commands call. -/

namespace TorrentControl.Rpc.Reactor

open TorrentControl.Task

/-- The task that a request starts. -/
inductive Starts (r : Reactor) (request : Request) : Task → Prop where
  | call {target : Target} (hsystem : request.method ∉ systemMethods)
      (hmethod : KeyMap.contains r.methods request.method = true)
      (htarget : request.target.resolve r.engine.session = .ok target) :
      Starts r request ⟨r.engine, scriptLimit, .call request.method target request.params⟩

/-- When the reactor handles the requests, this one of them leads to the task. -/
def LeadsTo (r : Reactor) (requests : List Request) (request : Request) (t : Task) : Prop :=
  ∃ first later start, requests = first ++ request :: later ∧
    (r.after first).Starts request start ∧ start.Leads t

/-! ## What a request does -/

/-- A request changes nothing, or it runs the task that it starts. -/
theorem handle_cases (r : Reactor) (request : Request) : (r.handle request).2 = r ∨
    ∃ start, r.Starts request start ∧ (r.handle request).2 =
      listen r.methods (start.engine.run (start.job.run hopLimit start.left)).2 := by
  by_cases hsystem : request.method ∈ systemMethods
  · exact .inl (handle_system hsystem)
  · rw [handle_eq_call hsystem, Reactor.call]
    split
    · rename_i hmethod
      split
      · exact .inl rfl
      · rename_i target htarget
        exact .inr ⟨_, .call hsystem hmethod htarget, rfl⟩
    · exact .inl rfl

theorem LeadsTo.append {r : Reactor} {requests later : List Request} {request : Request} {t : Task}
    (h : r.LeadsTo requests request t) : r.LeadsTo (requests ++ later) request t := by
  obtain ⟨before, rest, start, rfl, hstart, hleads⟩ := h
  exact ⟨before, rest ++ later, start, by simp, hstart, hleads⟩

theorem find?_listen (table : MethodTable) (e : Engine) (key : String) :
    (listen table e).engine.commands.find? key = e.commands.find? key := rfl

theorem find?_attach (r : Registry) (bridge : Bridge) (key : String) :
    (r.attach bridge).find? key = r.find? key := rfl

theorem find?_start (session : Session) (disk : Disk) (key : String) :
    (start session disk).engine.commands.find? key = Registry.builtin.find? key :=
  (find?_listen _ _ key).trans (find?_attach _ _ key)

theorem native_start (session : Session) (disk : Disk) :
    (start session disk).engine.commands.Native := by
  intro key entry h
  rw [find?_start] at h
  exact Registry.native_builtin key entry h

/-- What each of the requests keeps, if the task that it starts is run, holds after all of them. -/
theorem after_keeps {P : Engine → Prop} (hlisten : ∀ table e, P e → P (listen table e).engine)
    {r : Reactor} {requests : List Request} (hP : P r.engine)
    (runs : ∀ first request later start, requests = first ++ request :: later →
      (r.after first).Starts request start → P start.engine →
        P (start.engine.run (start.job.run hopLimit start.left)).2) :
    P (r.after requests).engine := by
  induction requests generalizing r with
  | nil => exact hP
  | cons request requests ih =>
    have hhandled : P (r.handle request).2.engine := by
      rcases handle_cases r request with heq | ⟨start, hstart, heq⟩
      · rw [heq]
        exact hP
      · have hengine : P start.engine := by
          cases hstart
          exact hP
        rw [heq]
        exact hlisten _ _ (runs [] request requests start rfl hstart hengine)
    exact ih hhandled fun first next later start hsplit =>
      runs (request :: first) next later start (by rw [hsplit, List.cons_append])

/-- Where no method is made, the registry stays native. -/
theorem native_after {r : Reactor} {requests : List Request} (hn : r.engine.commands.Native)
    (hregisters : ∀ request t, r.LeadsTo requests request t → ¬ t.Registers) :
    (r.after requests).engine.commands.Native :=
  after_keeps (P := fun e => e.commands.Native) (fun _ _ h => h) hn
    fun first request later start hsplit hstart hengine => native_run
      (fun t ht => hregisters request t ⟨first, later, start, hsplit, hstart, ht⟩) hengine hopLimit

/-! ## Hidden commands -/

/-- The method of a request is public. -/
theorem Starts.not_hidden {r : Reactor} (h : Settled r) {request : Request} {start : Task}
    (hstart : r.Starts request start) : ¬ start.InvokesHidden := by
  obtain ⟨-, hmethod, -⟩ := hstart
  rintro ⟨key, target, args, entry, hjob, ⟨hentry, -⟩, hhidden⟩
  cases hjob
  obtain ⟨found, hfound, hpublic⟩ := (h.mem_publicKeys _).1 (h.contains_iff.1 hmethod)
  cases hfound.symm.trans hentry
  exact nomatch hhidden.symm.trans hpublic

/-! ## A multicall that prints -/

/-- A request whose parameters name a hidden command. -/
def printing : Request :=
  ⟨"d.multicall", .generic, .list [.text "", .text "print"]⟩

def printingTask : Task :=
  ⟨(start Session.sample .empty).engine, scriptLimit, .call "d.multicall" .generic printing.params⟩

theorem starts_printing : (start Session.sample .empty).Starts printing printingTask := by
  obtain ⟨entry, hentry, hserves⟩ := Registry.exists_builtin Builtin.multicall_mem
  have h := settled_start Session.sample .empty
  refine .call (by decide) (h.contains_iff.2 ?_) rfl
  exact (h.mem_publicKeys _).2 ⟨entry, (find?_start _ _ _).trans hentry, hserves.isPublic⟩

theorem spoken_printing {text : String} (h : Spoken printing.params text) :
    text = "" ∨ text = "print" := by
  induction h with
  | here h => simpa [printing, Value.Says] using h
  | within h hparse hsaid ih =>
    rcases ih with rfl | rfl
    · cases hparse
    · cases hparse
      exact hsaid.elim

/-- The printing request makes no method. -/
theorem printing_not_registers (request : Request) (t : Task)
    (h : (start Session.sample .empty).LeadsTo [printing] request t) : ¬ t.Registers := by
  obtain ⟨first, later, task, hsplit, hstart, hleads⟩ := h
  obtain ⟨rfl, hsplit⟩ | ⟨_, _, hsplit⟩ := List.cons_eq_append_iff.1 hsplit
  · cases hsplit
    obtain ⟨-, -, -⟩ := hstart
    refine Task.not_registers hleads (.asked fun _ => .here) (native_start _ _) ?_ ?_
    · intro key target args hjob
      cases hjob
      decide
    · intro text htext
      rcases spoken_printing htext with rfl | rfl <;> decide
  · simp at hsplit

/-- The multicall executes the text that names the hidden command, and so invokes it. -/
theorem leads_to_print {e : Engine} {left : Nat} {caller hidden : CommandEntry} {id : DownloadId}
    (hcaller : e.commands.find? "d.multicall" = some caller)
    (hcallable : caller.callable = .generic .multicall)
    (hprint : e.commands.find? "print" = some hidden)
    (hcallable' : hidden.callable = .generic .print)
    (hhidden : hidden.isPublic = false) (hids : e.session.ids = [id]) :
    ∃ t, Task.Leads ⟨e, left, .call "d.multicall" .generic printing.params⟩ t ∧ t.InvokesHidden := by
  have haim : e.aim "d.multicall" .generic = .ok (.generic .multicall) :=
    Engine.aim_generic hcaller hcallable
  have hopens : Opens ⟨e, left, .call "d.multicall" .generic printing.params⟩
      ⟨e, left, .execute (.download id) "print"⟩ := by
    rw [Opens, Sends, plan_of_invokes (.call rfl haim)]
    simp only [Invocation.sendings, Invocation.plan, GenericCommand.plan, multicall, Plan.lift_eq,
      Plan.act_bind, Plan.answer_bind, Plan.rename, Plan.Reaches]
    refine ⟨_, e, Engine.run_session e, _, e, rfl, ?_⟩
    rw [hids]
    exact ⟨_, e, rfl, .inl ⟨rfl, rfl⟩⟩
  have hcall := (opens_execute_iff (t := ⟨e, left, .execute (.download id) "print"⟩) rfl).2
    ⟨⟨"print", .empty⟩, rfl, rfl⟩
  have hprintAim : hidden.callable.aim e.session "print" (.download id) = .ok (.generic .print) := by
    rw [hcallable']
    rfl
  exact ⟨_, .tail (.single (.inl hopens)) (.inl hcall), "print", .download id, .empty, hidden, rfl,
    ⟨hprint, _, hprintAim⟩, hhidden⟩

theorem exists_printing_hidden :
    ∃ request t, (start Session.sample .empty).LeadsTo [printing] request t ∧ t.InvokesHidden := by
  obtain ⟨caller, hcaller, hcallable, -⟩ := Registry.exists_builtin Builtin.multicall_mem
  obtain ⟨hidden, hprint, hcallable', hhidden⟩ := Registry.exists_builtin Builtin.print_mem
  obtain ⟨t, hleads, ht⟩ := leads_to_print
    ((find?_start Session.sample .empty _).trans hcaller) hcallable
    ((find?_start Session.sample .empty _).trans hprint) hcallable' hhidden
    Session.ids_sample
  exact ⟨printing, t, ⟨[], [], _, rfl, starts_printing, hleads⟩, ht⟩

/-! ## Which hidden commands are invoked -/

/-- **A request invokes a hidden command exactly if it executes a command text of its parameters that
names one**, as long as no request makes a method. -/
theorem hidden_iff_spoken (session : Session) (disk : Disk) (requests : List Request)
    (hregisters : ∀ request t, (start session disk).LeadsTo requests request t → ¬ t.Registers) :
    (∃ request t, (start session disk).LeadsTo requests request t ∧ t.InvokesHidden) ↔
      ∃ request t, (start session disk).LeadsTo requests request t ∧
        t.SpeaksHidden request.params := by
  constructor
  · rintro ⟨request, t, ⟨first, later, task, rfl, hstart, hleads⟩, hhidden⟩
    have hsettled := (settled_start session disk).after first
    have hnative : ((start session disk).after first).engine.commands.Native :=
      native_after (native_start session disk) fun next u hu => hregisters next u hu.append
    have leads (u : Task) (hu : task.Leads u) :
        (start session disk).LeadsTo (first ++ request :: later) request u :=
      ⟨first, later, task, rfl, hstart, hu⟩
    have hnot := hstart.not_hidden hsettled
    have hdescends : Descends request.params task.job ∧ task.engine.commands.Native := by
      cases hstart
      exact ⟨.asked fun _ hsaid => .here hsaid, hnative⟩
    have below (u : Task) (hu : task.Leads u) :=
      hu.native (fun v hv => hregisters request v (leads v hv)) hdescends.1 hdescends.2
    rcases hleads.cases_tail with rfl | ⟨u, hu, hmakes⟩
    · exact (hnot hhidden).elim
    · obtain ⟨hdescends, hn⟩ := below u hu
      exact ⟨request, u, leads u hu,
        speaksHidden_of_makes hdescends hn (below t (hu.tail hmakes)).2 hmakes hhidden⟩
  · rintro ⟨request, t, ⟨first, later, task, rfl, hstart, hleads⟩, target, text, statement, entry,
      hjob, -, hparse, hinvokes, hhidden⟩
    have hopens := (opens_execute_iff hjob).2 ⟨statement, hparse, rfl⟩
    exact ⟨request, _, ⟨first, later, task, rfl, hstart, hleads.tail (.inl hopens)⟩, _, _, _, entry,
      rfl, hinvokes, hhidden⟩

theorem hidden_iff_spoken_printing :
    (∀ request t, (start Session.sample .empty).LeadsTo [printing] request t → ¬ t.Registers) ∧
      ∃ request t, (start Session.sample .empty).LeadsTo [printing] request t ∧
        t.SpeaksHidden request.params :=
  ⟨printing_not_registers, (hidden_iff_spoken Session.sample .empty [printing]
    printing_not_registers).1 exists_printing_hidden⟩

/-- **A request whose method is public invokes a command that is not.** -/
theorem multicall_invokes_hidden :
    (∀ request t, (start Session.sample .empty).LeadsTo [printing] request t → ¬ t.Registers) ∧
      ∃ request t, (start Session.sample .empty).LeadsTo [printing] request t ∧ t.InvokesHidden :=
  ⟨printing_not_registers, exists_printing_hidden⟩

end TorrentControl.Rpc.Reactor
