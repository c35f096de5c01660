import TorrentControl.Proofs.Scripts

/-! # Commands that fail change nothing

A built-in command that sends for others is done whole or not at all, as a script is: what it does
after the first write goes through. So no built-in command leaves anything behind when it fails,
apart from those that execute the texts of their arguments, which may be any commands. -/

namespace TorrentControl

open Download

/-! ## Commands that try something -/

theorem after_pause (d : Download) : (Edit.pause.after d).isActive = false := by
  have hspares := Edit.spares_enterState (g := isActive) (fun _ _ => rfl) 0
  exact hspares { d with isActive := false }

theorem run_closeStorage (d : Download) : Edit.closeStorage.run.run d =
    if d.isActive then (.error (.input .closeWhileActive), d)
    else (.ok (), { d with isOpen := false }) := by
  simp only [Edit.closeStorage]
  rw [Edit.run_bind_ok (show (get : Edit Download).run.run d = (.ok d, d) from rfl)]
  split <;> rfl

theorem Builtin.close_mem : order "d.close" (.act .closeStorage) ∈ all := by
  simp [all, lifecycle]

theorem callEdits_close : CallEdits "d.close" .empty Edit.closeStorage :=
  callEdits_act .closeStorage Builtin.close_mem

/-- Whether the file is removed or a message says why not, downloads and commands stay. -/
theorem Run.run_unlink (e : Engine) (path : String) : ∃ t,
    e.run (Run.unlink path) = (.ok (), t) ∧ t.session = e.session ∧ t.commands = e.commands := by
  rw [unlink, Engine.run_bind_ok e (Engine.run_get e)]
  cases e.disk.unlink path with
  | ok disk => exact ⟨_, rfl, rfl, rfl⟩
  | error c => exact ⟨_, rfl, rfl, rfl⟩

section Orders

open Run Plan TorrentControl.Task

variable {args : Value} {e : Engine}

/-- A call that is asked for is refused for want of hops, or it is a call. -/
theorem run_order {hops left : Nat} {key : String} {target : Target} {params v : Value}
    {t : Engine} :
    e.run ((request (.order key target params) : Plan (Errand args) Value).run
        (errandRun hops left)) = (.ok v, t) ↔
      ∃ fewer, hops = fewer + 1 ∧
        e.run ((Job.call key target params).run fewer left) = (.ok v, t) := by
  rw [run_request]
  cases hops with
  | zero => exact ⟨nofun, nofun⟩
  | succ fewer =>
    constructor
    · exact fun h => ⟨fewer, rfl, h⟩
    · rintro ⟨_, ⟨⟩, h⟩
      exact h

theorem atomic_order {hops left : Nat} {key : String} {target : Target} {params : Value}
    (h : ∀ hops, Run.Atomic ((Job.call key target params).run hops left) e) :
    (request (.order key target params) : Plan (Errand args) Value).Atomic
      (errandRun hops left) e := by
  rw [Plan.Atomic, run_request]
  cases hops with
  | zero => exact fun _ _ => rfl
  | succ hops => exact h hops

theorem atomic_orderOn {hops left : Nat} {id : DownloadId} {key : String} {params : Value}
    (h : ∀ hops, Run.Atomic ((Job.call key (.download id) params).run hops left) e) :
    (orderOn id key params : Plan (Errand args) Unit).Atomic (errandRun hops left) e :=
  (atomic_order h).bind_pure fun _ => ()

theorem run_orderOn {hops left : Nat} {id : DownloadId} {key : String} {params : Value}
    {t : Engine} :
    e.run ((orderOn id key params : Plan (Errand args) Unit).run (errandRun hops left)) =
        (.ok (), t) ↔
      ∃ fewer v, hops = fewer + 1 ∧
        e.run ((Job.call key (.download id) params).run fewer left) = (.ok v, t) := by
  rw [orderOn, run_bind]
  constructor
  · intro h
    rcases hrun : e.run ((request (.order key (.download id) params) :
      Plan (Errand args) Value).run (errandRun hops left)) with ⟨c | v, u⟩
    · rw [Engine.run_bind_error e hrun] at h
      cases h
    · rw [Engine.run_bind_ok e hrun] at h
      cases h
      obtain ⟨fewer, hhops, hcall⟩ := run_order.1 hrun
      exact ⟨fewer, v, hhops, hcall⟩
  · rintro ⟨fewer, v, hhops, hcall⟩
    rw [Engine.run_bind_ok e (run_order.2 ⟨fewer, hhops, hcall⟩)]
    rfl

section Attempts

variable (he : e.session.Holds Typed) (hintact : e.commands.Intact) {hops left : Nat} (id : DownloadId)

include he hintact

theorem atomic_script {b : Builtin} (hb : b ∈ Builtin.all) {text : String}
    (h : b.callable = .script text) (target : Target) (args : Value) (hops left : Nat) :
    Run.Atomic ((Job.call b.key target args).run hops left) e := by
  have whole {α : Type} {edit : Edit α} (hedits : ScriptEdits text edit) :
      Run.Atomic ((Job.call b.key target args).run hops left) e := by
    intro halt hhalt
    rcases outcome_of_script hedits he hintact hb h target args hops left with
      ⟨error, hrun⟩ | ⟨_, v, t, _, hrun, _⟩
    · rw [hrun]
    · rw [hrun] at hhalt
      cases hhalt
  rcases Builtin.script_cases hb h with rfl | rfl
  · exact whole scriptEdits_start
  · exact whole scriptEdits_stop

theorem atomic_start (target : Target) (args : Value) (hops left : Nat) :
    Run.Atomic ((Job.call "d.start" target args).run hops left) e :=
  atomic_script he hintact Builtin.start_mem rfl target args hops left

theorem atomic_stop (target : Target) (args : Value) (hops left : Nat) :
    Run.Atomic ((Job.call "d.stop" target args).run hops left) e :=
  atomic_script he hintact Builtin.stop_mem rfl target args hops left

theorem atomic_tryStart : (DownloadCommand.tryStart.plan id : Plan (Errand args) Value).Atomic
    (errandRun hops left) e := by
  refine atomic_idle_bind (idle_download _) fun d => ?_
  dsimp only
  split
  · exact atomic_pure _
  · refine atomic_idle_bind (idle_lift _) fun ignores => ?_
    split
    · exact atomic_pure _
    · exact (atomic_orderOn fun hops => atomic_start he hintact _ _ hops left).bind_pure _

theorem atomic_tryStop : (DownloadCommand.tryStop.plan id : Plan (Errand args) Value).Atomic
    (errandRun hops left) e := by
  refine atomic_idle_bind (idle_download _) fun d => atomic_idle_bind (idle_lift _) fun ignores => ?_
  split
  · exact atomic_pure _
  · exact (atomic_orderOn fun hops => atomic_stop he hintact _ _ hops left).bind_pure _

/-- A download that was stopped can be closed. -/
theorem run_close_of_stopped {t : Engine} {v : Value} {fewer : Nat}
    (hstop : e.run ((Job.call "d.stop" (.download id) .empty).run fewer left) = (.ok v, t)) :
    ∃ w u, t.run ((Job.call "d.close" (.download id) .empty).run fewer left) = (.ok w, u) := by
  rcases outcome_of_script scriptEdits_stop he hintact Builtin.stop_mem rfl (.download id) .empty
    fewer left with ⟨error, hrun⟩ | ⟨_, _, _, d, hrun, ⟨⟩, hready, hget⟩
  · cases hrun.symm.trans hstop
  · cases hrun.symm.trans hstop
    obtain ⟨g, hclose⟩ := callEdits_close.run hready.intact id fewer left
    have hclosed := Run.run_onDownload t id Edit.closeStorage
    simp only [hget, run_closeStorage, after_pause] at hclosed
    exact ⟨_, _, hclose.trans (Engine.run_bind_ok t hclosed)⟩

theorem atomic_tryClose : (DownloadCommand.tryClose.plan id : Plan (Errand args) Value).Atomic
    (errandRun hops left) e := by
  refine atomic_idle_bind (idle_download _) fun d => atomic_idle_bind (idle_lift _) fun ignores => ?_
  split
  · exact atomic_pure _
  · refine (atomic_orderOn fun hops => atomic_stop he hintact _ _ hops left).bind fun _ t hrun => ?_
    obtain ⟨fewer, v, rfl, hstop⟩ := run_orderOn.1 hrun
    obtain ⟨w, u, hclose⟩ := run_close_of_stopped he hintact id hstop
    have hordered : t.run ((orderOn id "d.close" .empty : Plan (Errand args) Unit).run
        (errandRun (fewer + 1) left)) = (.ok (), u) := run_orderOn.2 ⟨fewer, w, rfl, hclose⟩
    exact ⟨.empty, u, by rw [run_bind, Engine.run_bind_ok t hordered]; rfl⟩

/-- The path of the tied file is read on a download that is ready, or the call is refused. -/
theorem run_getTied (fewer left : Nat) :
    (∃ h, e.run ((Job.call "d.get_tied_to_file" (.download id) .empty).run fewer left) =
      (.error h, e)) ∨
    ∃ path, e.run ((Job.call "d.get_tied_to_file" (.download id) .empty).run fewer left) =
      (.ok (.text path), e) ∧ e.Ready id := by
  obtain ⟨entry, hentry, hcallable⟩ := hintact
    (.readText "d.get_tied_to_file" (.variableNamed "tied_to_file"))
    (by simp [Builtin.all, Builtin.treeValues, Builtin.openText])
  have hrun : e.run ((Job.call "d.get_tied_to_file" (.download id) .empty).run fewer left) =
      e.run (download id >>= fun d => lift (d.stateVariable "tied_to_file") >>= pure) :=
    Engine.run_call hentry hcallable id .empty fewer left
  rw [hrun]
  cases hlive : e.session.get? id with
  | none => exact .inl ⟨_, Engine.run_bind_error e (Engine.run_download_stale hlive)⟩
  | some d =>
    obtain ⟨values, hsection, hvalues⟩ := (he.get? hlive).stateSection
    obtain ⟨path, hpath⟩ := hvalues.texts "tied_to_file" (by decide)
    refine .inr ⟨path, ?_, he, hintact, d, hlive⟩
    rw [Engine.run_bind_ok e (Engine.run_download_of_get? hlive), stateVariable_ok hsection hpath]
    rfl

omit he hintact in
/-- The tie is removed from a download that is ready, whatever becomes of the file. -/
theorem run_untie (hready : e.Ready id) (path : String) (fewer : Nat) : ∃ t,
    e.run ((do
      unlink path
      orderOn id "d.set_tied_to_file" (.text "") : Plan (Errand args) Unit).run
        (errandRun (fewer + 1) left)) = (.ok (), t) := by
  obtain ⟨u, hunlink, hsession, hcommands⟩ := Run.run_unlink e path
  have hties : CallEdits "d.set_tied_to_file" (.text "")
      (TextSetting.assign "" (.variableNamed "tied_to_file")) :=
    ⟨.setText "d.set_tied_to_file" (.variableNamed "tied_to_file"),
      by simp [Builtin.all, Builtin.treeValues, Builtin.openText], rfl, _, _, rfl,
      performs_setText rfl _⟩
  obtain ⟨v, t, -, htied, -⟩ := hties.run_ready
    (Edit.succeeds_setVariable (fits_text (by decide) "")) (hready.of_eq hsession hcommands)
    fewer left
  refine ⟨t, ?_⟩
  rw [run_bind, run_lift, Engine.run_bind_ok e hunlink]
  exact run_orderOn.2 ⟨fewer, v, rfl, htied⟩

theorem atomic_deleteTied : (DownloadCommand.deleteTied.plan id : Plan (Errand args) Value).Atomic
    (errandRun hops left) e := by
  have hreads (hops : Nat) : Run.Atomic
      ((Job.call "d.get_tied_to_file" (.download id) .empty).run hops left) e := by
    intro h hh
    rcases run_getTied he hintact id hops left with ⟨c, hread⟩ | ⟨path, hread, -⟩
    · rw [hread]
    · rw [hread] at hh
      cases hh
  refine Plan.Atomic.bind_pure ((atomic_order hreads).bind fun v t hrun => ?_) _
  obtain ⟨fewer, rfl, hread⟩ := run_order.1 hrun
  rcases run_getTied he hintact id fewer left with ⟨c, hrun⟩ | ⟨path, hrun, hready⟩
  · cases hrun.symm.trans hread
  · cases hrun.symm.trans hread
    split
    · exact ⟨(), e, rfl⟩
    · rename_i hpath
      cases hpath
      obtain ⟨t, huntie⟩ := run_untie id hready path fewer
      exact ⟨(), t, huntie⟩
    · rename_i hne
      exact (hne path rfl).elim

end Attempts

end Orders

/-! ## Built-in commands -/

/-- The keys of the multicalls and of the comparisons, which execute texts of their arguments. -/
def Builtin.executing : List String :=
  ["d.multicall", "f.multicall", "p.multicall", "t.multicall", "less", "greater", "compare"]

theorem Builtin.executesTexts_eq_false {b : Builtin} (hb : b ∈ all) (h : b.key ∉ executing) :
    b.callable.executesTexts = false := by
  have table : ∀ b ∈ all, b.callable.executesTexts = false ∨ b.key ∈ executing := by
    set_option maxRecDepth 4096 in decide
  exact (table b hb).resolve_right h

section Calls

open Run Plan TorrentControl.Task

variable {e : Engine} (he : e.session.Holds Typed) (hintact : e.commands.Intact)

include he hintact

theorem atomic_composite {args : Value} {hops left : Nat} (id : DownloadId) :
    ∀ {command : DownloadCommand}, command.isComposite = true →
      (Callable.download command).executesTexts = false →
        (command.plan id : Plan (Errand args) Value).Atomic (errandRun hops left) e
  | .deleteTied, _, _ => atomic_deleteTied he hintact id
  | .tryStart, _, _ => atomic_tryStart he hintact id
  | .tryStop, _, _ => atomic_tryStop he hintact id
  | .tryClose, _, _ => atomic_tryClose he hintact id

/-- A regular command that is no script and executes no text is atomic on what it receives. -/
theorem atomic_invocation {callable : Callable} {target : Target} {inv : Invocation}
    (h : callable.Receives e.session target inv) (hregular : callable.isRegular = true)
    (hexecutes : callable.executesTexts = false) (hscript : ∀ text, callable ≠ .script text)
    (args : Value) (hops left : Nat) :
    (inv.plan : Plan (Errand args) Value).Atomic (errandRun hops left) e := by
  cases h with
  | script => exact (hscript _ rfl).elim
  | generic =>
    refine atomic_generic ?_
    rintro rfl
    cases hexecutes
  | @download command id =>
    cases hcomposite : command.isComposite with
    | true => exact atomic_composite he hintact id hcomposite hexecutes
    | false => exact atomic_download he id hcomposite hregular
  | @peer command ref => exact atomic_lift ((idle_peer ref command).atomic e)
  | @tracker command ref => exact atomic_lift (atomic_tracker he ref command)
  | @file command ref | @current command ref =>
    exact atomic_lift (atomic_file he _ command)
  | @cursor command ref => exact atomic_lift ((idle_cursor ref command).atomic e)
  | pair => cases hexecutes
  | hosted | hostedAny | hostedGeneric | hostedCurrent => cases hregular

/-- Where the built-in keys are bound to the built-in commands, those that execute no texts are
atomic. -/
theorem atomic_call {b : Builtin} (hb : b ∈ Builtin.all)
    (hexecutes : b.callable.executesTexts = false) (target : Target) (args : Value)
    (hops left : Nat) : Run.Atomic ((Job.call b.key target args).run hops left) e := by
  by_cases hscript : ∃ text, b.callable = .script text
  · obtain ⟨text, htext⟩ := hscript
    exact atomic_script he hintact hb htext target args hops left
  · obtain ⟨entry, hentry, hcallable⟩ := hintact b hb
    intro h hh
    rcases Engine.aim_cases hentry target with ⟨inv, hreceives, haim⟩ | ⟨c, haim⟩
    · rw [run_call_of_aim haim] at hh ⊢
      exact atomic_invocation he hintact (hcallable ▸ hreceives) (Builtin.isRegular hb) hexecutes
        (fun text htext => hscript ⟨text, htext⟩) args hops left h hh
    · rw [run_call_refused haim]

end Calls

theorem Registry.intact_builtin : Registry.builtin.Intact := by
  intro b hb
  obtain ⟨entry, hentry, hserves⟩ := Registry.exists_builtin hb
  exact ⟨entry, hentry, hserves.callable⟩

theorem Engine.intact_withBuiltins (session : Session) (disk : Disk) :
    (withBuiltins session disk).commands.Intact := by
  have hintact := Registry.intact_builtin
  unfold withBuiltins
  -- without this the unifier evaluates the whole registry
  generalize Registry.builtin = r at hintact
  exact hintact

/-- **A built-in command that fails changes nothing**, unless it is a multicall or a comparison: on
every engine that commands make of a session that was built from a manifest, and in the middle of
them, as long as the built-in keys are bound to the built-in commands. The engine is left as it was,
with its session, its registry, its messages and its disk. How many scripts are open is no part of it:
`left` of them may be opened in the call, and as many after it. -/
theorem Engine.failed_call_changes_nothing {m : SessionManifest} {session : Session}
    (hbuild : m.build = .ok session) (disk : Disk) (jobs : List Job) {job : Job} {u : Task}
    (hu : Task.Leads ⟨(Engine.withBuiltins session disk).after jobs, scriptLimit, job⟩ u)
    (hintact : u.engine.commands.Intact) {b : Builtin} (hb : b ∈ Builtin.all)
    (hexecutes : b.key ∉ Builtin.executing) (target : Target) (args : Value) {hops left : Nat}
    {h : Halt} {f : Engine}
    (hrun : u.engine.run ((Job.call b.key target args).run hops left) = (.error h, f)) :
    f = u.engine := by
  have hafter : ((Engine.withBuiltins session disk).after jobs).MaintainsStates :=
    (maintainsStates_withBuiltins hbuild disk).after (fun _ => rfl)
      (fun _ => Callable.keeps_typed) jobs
  have hmaintains : u.engine.MaintainsStates :=
    hu.maintains (fun _ => rfl) (fun _ => Callable.keeps_typed) hafter
  have hplain := Builtin.executesTexts_eq_false hb hexecutes
  have hatomic := atomic_call hmaintains.downloads hintact hb hplain target args hops left h
  rw [hrun] at hatomic
  exact hatomic rfl

/-- The download of the manifest is active, so it cannot be closed. -/
theorem Engine.failed_close_changes_nothing : ∃ session f,
    SessionManifest.started.build = .ok session ∧
      (withBuiltins session .empty).run
        ((Job.call "d.close" (.download ⟨0, 0⟩) .empty).run hopLimit scriptLimit) =
          (.error (.failed (.input .closeWhileActive)), f) ∧
      f = withBuiltins session .empty := by
  have hbuilds : (match SessionManifest.started.build with
      | .ok session => (session.get? ⟨0, 0⟩).any isActive
      | .error _ => false) = true := by decide +kernel
  cases hbuild : SessionManifest.started.build with
  | error c =>
    rw [hbuild] at hbuilds
    cases hbuilds
  | ok session =>
    rw [hbuild] at hbuilds
    obtain ⟨d, hd, hactive⟩ := (Option.any_eq_true _ _).1 hbuilds
    have hintact := intact_withBuiltins session .empty
    obtain ⟨g, hcall⟩ := callEdits_close.run hintact ⟨0, 0⟩ hopLimit scriptLimit
    have hclose := Run.run_onDownload (withBuiltins session .empty) ⟨0, 0⟩ Edit.closeStorage
    rw [show (withBuiltins session .empty).session = session from rfl] at hclose
    simp only [hd, run_closeStorage, hactive, if_true] at hclose
    have hrun := hcall.trans (run_bind_error _ hclose)
    have hreached (e : Engine) (job : Job) :
        Task.Leads ⟨e.after [], scriptLimit, job⟩ ⟨e, scriptLimit, job⟩ := .refl
    have hchanges := failed_call_changes_nothing hbuild .empty []
      (hreached _ (.call "d.close" (.download ⟨0, 0⟩) .empty)) hintact
      Builtin.close_mem (by decide) _ _ hrun
    exact ⟨session, _, rfl, hrun, hchanges⟩

end TorrentControl
