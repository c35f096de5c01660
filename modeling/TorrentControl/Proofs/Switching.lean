import TorrentControl.Proofs.Locality
import TorrentControl.Proofs.Variables

/-! # Starting and stopping downloads

A download is started and stopped by scripts of built-in commands. Each of their statements turns the
download into another one, whatever the engine, and so does a whole script: it goes through, and what
it leaves differs from the download before in the fields and variables that say where it is. The
commands that only try to start or stop a download call these scripts by their keys, or leave it
alone. -/

namespace TorrentControl

open Download

/-! ## What is read depends on the state -/

namespace Download

variable {d t : Download} {name : String} {v : Value}

theorem stateVariable_congr (h : t.state = d.state) (name : String) :
    t.stateVariable name = d.stateVariable name := by
  simp only [stateVariable, stateSection, h]

theorem state_write_congr (h : t.state = d.state) (name : String) (v : Value) :
    (t.write name v).state = (d.write name v).state := by
  have hsection : t.stateSection = d.stateSection := by simp only [stateSection, h]
  unfold write
  rw [hsection]
  split
  · simp only [withSection, h]
  · exact h

/-! ## Downloads that are started or stopped -/

/-- What changes in the state of a download that enters one view and leaves another: the variable
`state`, which is counted, and the views. -/
structure Enters (state : Int64) (entered left : String) (d t : Download) : Prop where
  state : t.stateVariable "state" = .ok (.int state)
  counter : ∃ n, d.stateVariable "state_counter" = .ok (.int n) ∧
    t.stateVariable "state_counter" = .ok (.int (Number.Word.clamp (n.toInt + 1)))
  views : ∃ views, d.stateVariable "views" = .ok (.list views) ∧
    t.stateVariable "views" = .ok (.list
      ((if .text entered ∈ views then views else views ++ [.text entered]).filter
        (· != .text left)))
  others : ∀ name ∉ ["state", "state_counter", "views"],
    t.stateVariable name = d.stateVariable name
  sections : ∀ key ≠ sectionName, t.state.getKey key = d.state.getKey key

/-- The second download is the first one, started. -/
structure Starts (d t : Download) : Prop extends Enters 1 "started" "stopped" d t where
  fields : t = { d with isOpen := true, isActive := true, hasHashFailed := false, state := t.state }

/-- The second download is the first one, stopped. -/
structure Stops (d t : Download) : Prop extends Enters 0 "stopped" "started" d t where
  fields : t = { d with isActive := false, state := t.state }

theorem Enters.of_state {state : Int64} {entered left : String} {u : Download}
    (h : Enters state entered left d t) (hstate : u.state = t.state) :
    Enters state entered left d u := by
  obtain ⟨hentered, hcounter, hviews, hothers, hsections⟩ := h
  constructor
  case sections => exact fun key hkey => hstate ▸ hsections key hkey
  all_goals simpa only [stateVariable_congr hstate]

/-- The download with the variables written that say where it is. -/
def entering (d : Download) (state : Int64) (views : List Value) (counter : Int64) : Download :=
  ((d.write "views" (.list views)).write "state" (.int state)).write "state_counter"
    (.int (Number.Word.clamp (counter.toInt + 1)))

theorem enters_entering {n : Int64} {views : List Value}
    (hcounter : d.stateVariable "state_counter" = .ok (.int n))
    (hviews : d.stateVariable "views" = .ok (.list views)) (state : Int64) (entered left : String) :
    Enters state entered left d (d.entering state
      ((pushedOnce views (.text entered)).filter (· != .text left)) n) := by
  have hsection := HasSection.of_stateVariable hviews
  have hread (name : String) (items : List Value) : (d.entering state items n).stateVariable name =
      if "state_counter" = name then .ok (.int (Number.Word.clamp (n.toInt + 1)))
      else if "state" = name then .ok (.int state)
      else if "views" = name then .ok (.list items) else d.stateVariable name := by
    have hviews := hsection.write "views" (.list items)
    rw [entering, (hviews.write _ _).stateVariable_write, hviews.stateVariable_write,
      hsection.stateVariable_write]
  constructor
  case state => rw [hread]; rfl
  case counter => exact ⟨n, hcounter, by rw [hread]; rfl⟩
  case views => exact ⟨views, hviews, by rw [hread]; rfl⟩
  case others =>
    intro name hname
    simp only [List.mem_cons, List.not_mem_nil, or_false, not_or] at hname
    rw [hread, if_neg (Ne.symm hname.2.1), if_neg (Ne.symm hname.1), if_neg (Ne.symm hname.2.2)]
  case sections =>
    intro key hkey
    rw [entering, getKey_write _ _ _ hkey, getKey_write _ _ _ hkey, getKey_write _ _ _ hkey]

end Download

/-! ## Statements that turn a download into another one -/

/-- On every engine with the built-in commands, what the text does to this download is to put that one
in its place. -/
def TextTurns (text : String) (v : Value) (d t : Download) : Prop :=
  ∀ (e : Engine) (id : DownloadId), e.commands.Intact → e.session.get? id = some d →
    ∀ hops left, e.run ((Job.execute (.download id) text).run hops left) =
      (.ok v, e.put id (some t))

/-- Each text turns the download that the texts before it have left. -/
inductive TextsTurn : List String → Download → Download → Prop
  | nil {d : Download} : TextsTurn [] d d
  | cons {text : String} {texts : List String} {v : Value} {d m t : Download}
      (h : TextTurns text v d m) (hrest : TextsTurn texts m t) : TextsTurn (text :: texts) d t

/-- On every engine with the built-in commands that may open a script, a call of the key puts that
download in the place of this one, and answers nothing. -/
def CallTurns (key : String) (d t : Download) : Prop :=
  ∀ (e : Engine) (id : DownloadId), e.commands.Intact → e.session.get? id = some d →
    ∀ (args : Value) (hops left : Nat),
      e.run ((Job.call key (.download id) args).run hops (left + 1)) =
        (.ok .empty, e.put id (some t))

section Turns

variable {d m t : Download} {text : String}

theorem TextEdits.turns {α : Type} {edit : Edit α} {a : α} (h : TextEdits text edit)
    (hedit : edit.run.run d = (.ok a, t)) : ∃ v, TextTurns text v d t := by
  obtain ⟨statement, hparse, ⟨b, hb, hkey, command, g, hcommand, hperforms⟩, -⟩ := h
  refine ⟨g a, fun e id hintact hlive hops left => ?_⟩
  obtain ⟨entry, hentry, hcallable⟩ := hintact b hb
  rw [Task.run_execute hparse]
  exact Engine.run_performs (hkey ▸ hentry) (hcallable.trans hcommand) hperforms hlive hedit hops left

theorem run_action {key : String} {action : DownloadAction}
    (hb : Builtin.order key (.act action) ∈ Builtin.all) (hedit : action.act.run.run d = (.ok (), t))
    {e : Engine} {id : DownloadId} (hintact : e.commands.Intact)
    (hlive : e.session.get? id = some d) (args : Value) (hops left : Nat) :
    e.run ((Job.call key (.download id) args).run hops left) = (.ok .empty, e.put id (some t)) := by
  obtain ⟨entry, hentry, hcallable⟩ := hintact _ hb
  exact Engine.run_performs hentry hcallable (performs_act action args) hlive hedit hops left

/-- A text that names nothing but an action. -/
theorem textTurns_action {statement : Statement} {action : DownloadAction}
    (hparse : Statement.parse text = .ok statement)
    (hb : Builtin.order statement.key (.act action) ∈ Builtin.all)
    (hedit : action.act.run.run d = (.ok (), t)) : TextTurns text .empty d t := by
  intro e id hintact hlive hops left
  rw [Task.run_execute hparse]
  exact run_action hb hedit hintact hlive _ hops left

theorem TextsTurn.run {texts : List String} (h : TextsTurn texts d t) {e : Engine}
    {id : DownloadId} (hintact : e.commands.Intact) (hlive : e.session.get? id = some d)
    (hops left : Nat) (w : Value) : ∃ v,
      e.run (texts.foldlM (fun _ text => (Job.execute (.download id) text).run hops left) w) =
        (.ok v, e.put id (some t)) := by
  induction h generalizing e w with
  | nil => exact ⟨w, by rw [Engine.put_self hlive]; rfl⟩
  | @cons text texts v d m t h hrest ih =>
    rw [List.foldlM_cons, Engine.run_bind_ok e (h e id hintact hlive hops left)]
    obtain ⟨u, hrun⟩ := ih (e := e.put id (some m)) hintact (Engine.get?_put hlive _) v
    rw [Engine.put_put] at hrun
    exact ⟨u, hrun⟩

/-- **A built-in script turns a download as its statements do**, and answers what the last one
answers. -/
theorem callTurns_of_script {b : Builtin} {script : String} (hb : b ∈ Builtin.all)
    (hcallable : b.callable = .script script) {init : List String} {last : String}
    (hsplit : Script.split script = .ok (init ++ [last]))
    (hfull : ∀ text ∈ init ++ [last], Text.isBlankText text = false) (hinit : TextsTurn init d m)
    (hlast : TextTurns last .empty m t) : CallTurns b.key d t := by
  intro e id hintact hlive args hops left
  obtain ⟨entry, hentry, hbound⟩ := hintact b hb
  obtain ⟨v, hrun⟩ := hinit.run hintact hlive hops left .empty
  have hlive' := Engine.get?_put hlive (some m)
  rw [Task.run_call_script hentry (hbound.trans hcallable),
    show Target.orGeneric (.download id) = .download id from rfl, Task.run_script hsplit hfull,
    List.foldlM_append, Engine.run_bind_ok e hrun, List.foldlM_cons,
    Engine.run_bind_ok _ (hlast (e.put id (some m)) id hintact hlive' hops left), Engine.put_put]
  rfl

end Turns

/-! ## The two scripts -/

namespace Download

variable {d : Download}

/-- Both scripts push a view and drop another one, and then end in an action that writes the state. -/
theorem viewsTurn {views : List Value} {entered left push remove : String}
    (hpush : TextEdits push (ListOperation.pushUnique.perform "views" (.text entered)))
    (hremove : TextEdits remove (ListOperation.remove.perform "views" (.text left)))
    (hviews : d.stateVariable "views" = .ok (.list views)) :
    TextsTurn [push, remove] d (d.write "views"
      (.list ((pushedOnce views (.text entered)).filter (· != .text left)))) := by
  have hsection := HasSection.of_stateVariable hviews
  obtain ⟨v, hpushes⟩ := hpush.turns (Edit.run_pushUnique hviews _)
  have hpushed := hsection.stateVariable_write "views" "views"
    (.list (pushedOnce views (.text entered)))
  rw [if_pos rfl] at hpushed
  obtain ⟨w, hremoves⟩ := hremove.turns (Edit.run_remove hpushed _)
  rw [hsection.write_write] at hremoves
  exact .cons hpushes (.cons hremoves .nil)

/-- After the views were written, an action that writes the state leaves a download that has entered
it. -/
theorem exists_entered {n : Int64} {views : List Value} {m : Download} {entered left : String}
    (hcounter : d.stateVariable "state_counter" = .ok (.int n))
    (hviews : d.stateVariable "views" = .ok (.list views))
    (hm : m.state = (d.write "views" (.list
      ((pushedOnce views (.text entered)).filter (· != .text left)))).state) (state : Int64) :
    ∃ t, (Edit.enterState state).run.run m = (.ok (), t) ∧ Enters state entered left d t ∧
      ∃ changed, t = { m with state := changed } := by
  have hsection := HasSection.of_stateVariable hviews
  have hcounter' : m.stateVariable "state_counter" = .ok (.int n) := by
    rw [stateVariable_congr hm, hsection.stateVariable_write, if_neg (by decide), hcounter]
  have hstate := state_write_congr (state_write_congr hm "state" (.int state)) "state_counter"
    (.int (Number.Word.clamp (n.toInt + 1)))
  refine ⟨_, Edit.run_enterState hcounter' state,
    (enters_entering hcounter hviews state entered left).of_state hstate, ?_⟩
  obtain ⟨first, hfirst⟩ := exists_state_write m "state" (.int state)
  obtain ⟨second, hsecond⟩ := exists_state_write (m.write "state" (.int state)) "state_counter"
    (.int (Number.Word.clamp (n.toInt + 1)))
  exact ⟨second, by rw [hsecond, hfirst]⟩

theorem Typed.callTurns_start (h : d.Typed) : ∃ t, d.Starts t ∧ CallTurns "d.start" d t := by
  have hname : "state_counter" ∈ integerVariables := by decide
  obtain ⟨n, hcounter⟩ := h.integer hname
  obtain ⟨views, hviews⟩ := h.views
  let cleared : Download := { d with hasHashFailed := false }
  let place : Value := .list ((pushedOnce views (.text "started")).filter (· != .text "stopped"))
  obtain ⟨v, hcleared⟩ := textEdits_setHashingFailed.turns
    (show (IntSetting.hashFailed.assign 0).run.run d = (.ok (), cleared) from rfl)
  have hmoved : TextsTurn ["d.views.push_back_unique=started", "d.views.remove=stopped"] cleared
      (cleared.write "views" place) :=
    viewsTurn (textEdits_pushView startedWord visible_started)
      (textEdits_removeView stoppedWord visible_stopped) hviews
  have hstate : (cleared.write "views" place).state = (d.write "views" place).state :=
    state_write_congr (by rfl) _ _
  obtain ⟨t, hresume, henters, changed, rfl⟩ :=
    exists_entered (m := { cleared.write "views" place with isOpen := true, isActive := true })
      hcounter hviews hstate 1
  have hparse : Statement.parse "d.resume" = .ok ⟨"d.resume", .empty⟩ := rfl
  have hb : Builtin.order "d.resume" (.act .resume) ∈ Builtin.all := by
    simp [Builtin.all, Builtin.lifecycle]
  have hlast : TextTurns "d.resume" .empty (cleared.write "views" place) _ :=
    textTurns_action hparse hb hresume
  have hsplit : Script.split Builtin.startScript = .ok (["d.set_hashing_failed=0",
      "d.views.push_back_unique=started", "d.views.remove=stopped"] ++ ["d.resume"]) :=
    Builtin.split_start
  have hturns := callTurns_of_script Builtin.start_mem rfl hsplit (by decide)
    (.cons hcleared hmoved) hlast
  refine ⟨_, ⟨henters, ?_⟩, hturns⟩
  obtain ⟨state, hwrite⟩ := exists_state_write cleared "views" place
  rw [hwrite]

theorem Typed.callTurns_stop (h : d.Typed) : ∃ t, d.Stops t ∧ CallTurns "d.stop" d t := by
  have hname : "state_counter" ∈ integerVariables := by decide
  obtain ⟨n, hcounter⟩ := h.integer hname
  obtain ⟨views, hviews⟩ := h.views
  let place : Value := .list ((pushedOnce views (.text "stopped")).filter (· != .text "started"))
  have hmoved : TextsTurn ["d.views.push_back_unique=stopped", "d.views.remove=started"] d
      (d.write "views" place) :=
    viewsTurn (textEdits_pushView stoppedWord visible_stopped)
      (textEdits_removeView startedWord visible_started) hviews
  obtain ⟨t, hpause, henters, changed, rfl⟩ :=
    exists_entered (m := { d.write "views" place with isActive := false }) hcounter hviews rfl 0
  have hparse : Statement.parse "d.pause" = .ok ⟨"d.pause", .empty⟩ := rfl
  have hb : Builtin.order "d.pause" (.act .pause) ∈ Builtin.all := by
    simp [Builtin.all, Builtin.lifecycle]
  have hlast : TextTurns "d.pause" .empty (d.write "views" place) _ :=
    textTurns_action hparse hb hpause
  have hsplit : Script.split Builtin.stopScript = .ok (["d.views.push_back_unique=stopped",
      "d.views.remove=started"] ++ ["d.pause"]) :=
    Builtin.split_stop
  have hturns := callTurns_of_script Builtin.stop_mem rfl hsplit (by decide) hmoved hlast
  refine ⟨_, ⟨henters, ?_⟩, hturns⟩
  obtain ⟨state, hwrite⟩ := exists_state_write d "views" place
  rw [hwrite]

end Download

/-! ## Commands that only try -/

section Attempts

open Run Plan TorrentControl.Task

variable {e : Engine} {id : DownloadId} {d t : Download} {args : Value} {n : Int64}

/-- A command on a download finds it and is performed on it. -/
theorem run_command {key : String} {command : DownloadCommand}
    {f : Download → Plan (Errand args) Value}
    (hb : Builtin.order key command ∈ Builtin.all) (hintact : e.commands.Intact)
    (hlive : e.session.get? id = some d)
    (hplan : (command.plan id : Plan (Errand args) Value) = liftM (Run.download id) >>= f)
    (hops left : Nat) : e.run ((Job.call key (.download id) args).run hops left) =
      e.run ((f d).run (errandRun hops left)) := by
  obtain ⟨entry, hentry, hcallable⟩ := hintact _ hb
  have haim : e.aim key (.download id) = .ok (.download command id) :=
    Engine.aim_of_receives hentry (hcallable ▸ .download rfl)
  rw [run_call_of_aim haim, Invocation.plan, hplan, run_bind, TorrentControl.Plan.run_lift,
    Engine.run_bind_ok e (Engine.run_download_of_get? hlive)]

/-- Whether commands are ignored is read without effect. -/
theorem run_ignores (hignores : d.ignoresCommands = .ok (n != 0))
    (f : Bool → Plan (Errand args) Value) (hops left : Nat) :
    e.run ((liftM (Run.lift d.ignoresCommands) >>= f : Plan (Errand args) Value).run
      (errandRun hops left)) = e.run ((f (n != 0)).run (errandRun hops left)) := by
  rw [run_bind, TorrentControl.Plan.run_lift, hignores]
  exact Engine.run_bind_ok e (Engine.run_lift e (.ok (n != 0)))

/-- An order of a call that turns the download. -/
theorem CallTurns.run_order {α : Type} {key : String} (h : CallTurns key d t)
    (hintact : e.commands.Intact) (hlive : e.session.get? id = some d) (hops left : Nat)
    (f : Unit → Plan (Errand args) α) :
    e.run ((orderOn id key .empty >>= f).run (errandRun (hops + 1) (left + 1))) =
      (e.put id (some t)).run ((f ()).run (errandRun (hops + 1) (left + 1))) := by
  have hordered : e.run ((orderOn id key .empty : Plan (Errand args) Unit).run
      (errandRun (hops + 1) (left + 1))) = (.ok (), e.put id (some t)) :=
    run_orderOn.2 ⟨hops, .empty, rfl, h e id hintact hlive .empty hops left⟩
  rw [run_bind, Engine.run_bind_ok e hordered]

section Live

variable (hintact : e.commands.Intact) (hlive : e.session.get? id = some d)
  (hignores : d.ignoresCommands = .ok (n != 0))

include hintact hlive hignores

theorem run_tryStart (h : CallTurns "d.start" d t) (hops left : Nat) :
    e.run ((Job.call "d.try_start" (.download id) args).run (hops + 1) (left + 1)) =
      (.ok .empty, if d.hasHashFailed ∨ n ≠ 0 then e else e.put id (some t)) := by
  have hb : Builtin.order "d.try_start" .tryStart ∈ Builtin.all := by
    simp [Builtin.all, Builtin.lifecycle]
  rw [run_command hb hintact hlive rfl]
  by_cases hfailed : d.hasHashFailed = true
  · rw [if_pos hfailed, if_pos (.inl hfailed)]
    rfl
  rw [if_neg hfailed, run_ignores hignores]
  by_cases hn : n = 0
  · rw [if_neg (by simp [hn]), h.run_order hintact hlive, if_neg (by simp [hn, hfailed])]
    rfl
  · rw [if_pos (bne_iff_ne.2 hn), if_pos (.inr hn)]
    rfl

theorem run_tryStop (h : CallTurns "d.stop" d t) (hops left : Nat) :
    e.run ((Job.call "d.try_stop" (.download id) args).run (hops + 1) (left + 1)) =
      (.ok .empty, if n ≠ 0 then e else e.put id (some t)) := by
  have hb : Builtin.order "d.try_stop" .tryStop ∈ Builtin.all := by
    simp [Builtin.all, Builtin.lifecycle]
  rw [run_command hb hintact hlive rfl, run_ignores hignores]
  by_cases hn : n = 0
  · rw [if_neg (by simp [hn]), h.run_order hintact hlive, if_neg (not_not_intro hn)]
    rfl
  · rw [if_pos (bne_iff_ne.2 hn), if_pos hn]
    rfl

/-- What was stopped can be closed. -/
theorem run_tryClose (h : CallTurns "d.stop" d t) (hstopped : t.isActive = false) (hops left : Nat) :
    e.run ((Job.call "d.try_close" (.download id) args).run (hops + 1) (left + 1)) =
      (.ok .empty, if n ≠ 0 then e else e.put id (some { t with isOpen := false })) := by
  have hcloses : Edit.closeStorage.run.run t = (.ok (), { t with isOpen := false }) := by
    rw [run_closeStorage, hstopped]
    rfl
  have hclose : CallTurns "d.close" t { t with isOpen := false } :=
    fun _ _ hintact hlive args hops left =>
      run_action Builtin.close_mem hcloses hintact hlive args hops (left + 1)
  have hb : Builtin.order "d.try_close" .tryClose ∈ Builtin.all := by
    simp [Builtin.all, Builtin.lifecycle]
  rw [run_command hb hintact hlive rfl, run_ignores hignores]
  by_cases hn : n = 0
  · rw [if_neg (by simp [hn]), h.run_order hintact hlive,
      hclose.run_order (e := e.put id (some t)) hintact (Engine.get?_put hlive _), Engine.put_put,
      if_neg (not_not_intro hn)]
    rfl
  · rw [if_pos (bne_iff_ne.2 hn), if_pos hn]
    rfl

end Live

end Attempts

/-- **What starting and stopping a download does.** On every engine that commands make of a session
that was built from a manifest, and in the middle of them, as long as the built-in keys are bound to
the built-in commands: where a script may be opened, a live download is started and stopped, and
nothing else changes. The commands that only try do the same, unless the download ignores commands, or
is to be started and has failed its verification; then nothing changes at all. -/
theorem Engine.starts_and_stops {m : SessionManifest} {session : Session}
    (hbuild : m.build = .ok session) (disk : Disk) (jobs : List Job) {job : Job} {u : Task}
    (hu : Task.Leads ⟨(withBuiltins session disk).after jobs, scriptLimit, job⟩ u)
    (hintact : u.engine.commands.Intact) {id : DownloadId} {d : Download}
    (hlive : u.engine.session.get? id = some d) (args : Value) (hops left : Nat) :
    ∃ started stopped ignores, d.Starts started ∧ d.Stops stopped ∧
      d.stateVariable "ignore_commands" = .ok (.int ignores) ∧
      u.engine.run ((Job.call "d.start" (.download id) args).run hops (left + 1)) =
        (.ok .empty, u.engine.put id (some started)) ∧
      u.engine.run ((Job.call "d.stop" (.download id) args).run hops (left + 1)) =
        (.ok .empty, u.engine.put id (some stopped)) ∧
      u.engine.run ((Job.call "d.try_start" (.download id) args).run (hops + 1) (left + 1)) =
        (.ok .empty, if d.hasHashFailed ∨ ignores ≠ 0 then u.engine
          else u.engine.put id (some started)) ∧
      u.engine.run ((Job.call "d.try_stop" (.download id) args).run (hops + 1) (left + 1)) =
        (.ok .empty, if ignores ≠ 0 then u.engine else u.engine.put id (some stopped)) ∧
      u.engine.run ((Job.call "d.try_close" (.download id) args).run (hops + 1) (left + 1)) =
        (.ok .empty, if ignores ≠ 0 then u.engine
          else u.engine.put id (some { stopped with isOpen := false })) := by
  have hafter : ((withBuiltins session disk).after jobs).MaintainsStates :=
    (maintainsStates_withBuiltins hbuild disk).after (fun _ => rfl)
      (fun _ => Callable.keeps_typed) jobs
  have hmaintains : u.engine.MaintainsStates :=
    hu.maintains (fun _ => rfl) (fun _ => Callable.keeps_typed) hafter
  have htyped : d.Typed := hmaintains.downloads.get? hlive
  obtain ⟨started, hstarts, hstart⟩ := htyped.callTurns_start
  obtain ⟨stopped, hstops, hstop⟩ := htyped.callTurns_stop
  obtain ⟨ignores, hread, hignores⟩ := htyped.ignoring
  have hstopped : stopped.isActive = false := by rw [hstops.fields]
  exact ⟨started, stopped, ignores, hstarts, hstops, hread,
    hstart _ id hintact hlive args hops left, hstop _ id hintact hlive args hops left,
    run_tryStart hintact hlive hignores hstart hops left,
    run_tryStop hintact hlive hignores hstop hops left,
    run_tryClose hintact hlive hignores hstop hstopped hops left⟩

/-- A download that was started by its manifest is stopped and closed. -/
theorem Engine.closes_started : ∃ session d stopped,
    SessionManifest.started.build = .ok session ∧ session.get? ⟨0, 0⟩ = some d ∧ d.Stops stopped ∧
      (withBuiltins session .empty).run
          ((Job.call "d.try_close" (.download ⟨0, 0⟩) .empty).run hopLimit scriptLimit) =
        (.ok .empty, (withBuiltins session .empty).put ⟨0, 0⟩
          (some { stopped with isOpen := false })) := by
  have hbuilds : (match SessionManifest.started.build with
      | .ok session => (session.get? ⟨0, 0⟩).any fun d => d.ignoresCommands.toOption == some false
      | .error _ => false) = true := by decide +kernel
  cases hbuild : SessionManifest.started.build with
  | error c =>
    rw [hbuild] at hbuilds
    cases hbuilds
  | ok session =>
    rw [hbuild] at hbuilds
    obtain ⟨d, hd, hheeds⟩ := (Option.any_eq_true _ _).1 hbuilds
    have hreached (e : Engine) (job : Job) :
        Task.Leads ⟨e.after [], scriptLimit, job⟩ ⟨e, scriptLimit, job⟩ := .refl
    obtain ⟨_, stopped, ignores, -, hstops, hread, -, -, -, -, hclose⟩ :=
      starts_and_stops hbuild .empty [] (hreached _ (.call "d.try_close" (.download ⟨0, 0⟩) .empty))
        (intact_withBuiltins session .empty) hd .empty 1023 63
    have hignores : ignores = 0 := by
      have hsame := beq_iff_eq.1 hheeds
      rw [Download.ignoresCommands, hread] at hsame
      simpa using Option.some.inj hsame
    rw [if_neg (not_not_intro hignores)] at hclose
    exact ⟨session, d, stopped, rfl, hd, hstops, hclose⟩

end TorrentControl
