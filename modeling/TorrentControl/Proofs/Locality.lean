import TorrentControl.Proofs.Attempts

/-! # Commands that stay with their download

What most built-in commands answer can be read off the download that they are aimed at, and they
leave all other downloads and the rest of the engine alone. Such commands on two downloads may be
called in either order. Removal is no exception: it takes the handle out of the order and frees the
slot, and both leave the other handles in their order. -/

namespace TorrentControl

/-! ## Putting something in the place of a download -/

namespace Session

variable {s : Session} {id other : DownloadId} {d : Download}

/-- The session after a download was replaced by another one or removed. -/
def put (s : Session) (id : DownloadId) : Option Download → Session
  | some d => s.replace id d
  | none =>
    match s.remove id with
    | some (_, remaining) => remaining
    | none => s

theorem put_stale (h : s.get? id = none) (fate : Option Download) : s.put id fate = s := by
  cases fate with
  | some d => simp [put, replace, contains, h]
  | none => simp [put, remove_eq_none h]

theorem put_some (h : s.get? id = some d) (changed : Download) : s.put id (some changed) =
    { s with slots := s.slots.set id.slot.toNat ⟨id.generation, some changed⟩ } := by
  simp [put, replace, contains, h]

theorem put_none (h : s.get? id = some d) : s.put id none =
    { slots := s.slots.set id.slot.toNat ⟨id.generation + 1, none⟩
      free := id.slot :: s.free
      order := s.order.filter (· != id) } := by
  simp [put, remove, h]

theorem put_get? (s : Session) (id : DownloadId) : s.put id (s.get? id) = s := by
  cases h : s.get? id with
  | none => exact put_stale h none
  | some d => exact replace_self h

/-- Nothing is put in the place of a stale handle. -/
theorem get?_put (s : Session) (id : DownloadId) (fate : Option Download) (other : DownloadId) :
    (s.put id fate).get? other =
      if other = id then (s.get? id).bind fun _ => fate else s.get? other := by
  cases h : s.get? id with
  | none =>
    rw [put_stale h]
    split
    · rename_i heq
      exact heq ▸ h
    · rfl
  | some d =>
    cases fate with
    | some changed => exact (replaces h changed).get? h other
    | none =>
      obtain ⟨t, hremove, hvacates⟩ := remove_eq_some h
      rw [put, hremove]
      exact hvacates.get? h other

/-- What is put last counts, unless the download was removed before. -/
theorem put_put (s : Session) (id : DownloadId) (first second : Option Download) :
    (s.put id first).put id second = s.put id (first.bind fun _ => second) := by
  have hget := s.get?_put id first id
  rw [if_pos rfl] at hget
  cases h : s.get? id with
  | none => simp only [put_stale h]
  | some d =>
    rw [h] at hget
    cases first with
    | none => exact put_stale hget second
    | some changed =>
      have hlive : (s.put id (some changed)).get? id = some changed := hget
      cases second with
      | some last =>
        rw [put_some hlive, put_some h, Option.bind_some, put_some h]
        simp only [List.set_set]
      | none =>
        rw [put_none hlive, put_some h, Option.bind_some, put_none h]
        simp only [List.set_set]

theorem ids_put (s : Session) (id : DownloadId) (fate : Option Download) :
    (s.put id fate).ids = s.ids.filter fun other =>
      other != id || ((s.get? id).isNone || fate.isSome) := by
  cases h : s.get? id with
  | none => simp [put_stale h]
  | some d =>
    cases fate with
    | none => simp [put_none h, ids]
    | some changed => simp [put_some h, ids]

/-- The same handles in the same order, and the same downloads under them. -/
structure Alike (s t : Session) : Prop where
  ids_eq : s.ids = t.ids
  get?_eq (id : DownloadId) : s.get? id = t.get? id

/-- It does not matter in which of two places something is put first. -/
theorem put_comm (s : Session) (hne : id ≠ other) (fate fate' : Option Download) :
    ((s.put id fate).put other fate').Alike ((s.put other fate').put id fate) where
  ids_eq := by
    simp only [ids_put, get?_put, if_neg hne, if_neg hne.symm]
    exact List.filter_comm ..
  get?_eq last := by
    simp only [get?_put, if_neg hne, if_neg hne.symm]
    by_cases hid : last = id
    · simp [hid, hne]
    · simp [hid]

end Session

/-- The engine after a download was replaced by another one or removed. -/
def Engine.put (e : Engine) (id : DownloadId) (fate : Option Download) : Engine :=
  { e with session := e.session.put id fate }

namespace Engine

variable {e : Engine} {id : DownloadId} {d : Download}

theorem get?_put (hlive : e.session.get? id = some d) (fate : Option Download) :
    (e.put id fate).session.get? id = fate := by
  rw [put, Session.get?_put, if_pos rfl, hlive]
  rfl

theorem put_put (e : Engine) (id : DownloadId) (d : Download) (fate : Option Download) :
    (e.put id (some d)).put id fate = e.put id fate := by
  simp only [put, Session.put_put, Option.bind_some]

theorem put_self (hlive : e.session.get? id = some d) : e.put id (some d) = e := by
  rw [put, ← hlive, Session.put_get?]

end Engine

/-! ## Confined runs -/

namespace Run

variable {α β : Type} {id : DownloadId}

/-- As long as the built-in keys are bound to the built-in commands, the answer of the action and what
it puts in the place of the download depend on nothing but the download, and nothing else changes. -/
def Confined (id : DownloadId) (m : Run α) : Prop :=
  ∀ e : Engine, e.commands.Intact → ∃ r fate, ∀ f : Engine, f.commands.Intact →
    f.session.get? id = e.session.get? id → f.run m = (r, f.put id fate)

/-- An action that only looks at the download. -/
theorem confined_look {m : Run α} (look : Option Download → Except Halt α)
    (h : ∀ e : Engine, e.run m = (look (e.session.get? id), e)) : Confined id m := by
  intro e _
  refine ⟨look (e.session.get? id), e.session.get? id, fun f _ hf => ?_⟩
  rw [h, ← hf, Engine.put, Session.put_get?]

theorem confined_pure (a : α) : Confined id (pure a) :=
  confined_look (fun _ => .ok a) fun _ => rfl

theorem confined_throw (h : Halt) : Confined id (throw h : Run α) :=
  confined_look (fun _ => .error h) fun _ => rfl

theorem confined_lift : ∀ x : Except CommandError α, Confined id (lift x)
  | .ok a => confined_pure a
  | .error c => confined_throw (.failed c)

theorem confined_download (id : DownloadId) : Confined id (download id) := by
  refine confined_look (fun
    | some d => .ok d
    | none => .error (.failed (.stale (.download id)))) fun e => ?_
  cases h : e.session.get? id with
  | none => exact Engine.run_download_stale h
  | some d => exact Engine.run_download_of_get? h

theorem confined_onDownload (id : DownloadId) (edit : Download.Edit α) :
    Confined id (onDownload id edit) := by
  intro e _
  cases h : e.session.get? id with
  | none =>
    refine ⟨.error (.failed (.stale (.download id))), none, fun f _ hf => ?_⟩
    rw [run_onDownload, hf, Engine.put, Session.put_stale hf]
  | some d =>
    refine ⟨Except.mapError .failed (edit.run.run d).1, some (edit.after d), fun f _ hf => ?_⟩
    rw [run_onDownload, hf]
    rfl

theorem confined_removeDownload (id : DownloadId) : Confined id (removeDownload id) := by
  intro e _
  have hrun (f : Engine) : f.run (removeDownload id) = match f.session.remove id with
      | some (_, remaining) => (.ok (), { f with session := remaining })
      | none => (.error (.failed (.stale (.download id))), f) := by
    rw [removeDownload, Engine.run_bind_ok f (Engine.run_session f)]
    cases f.session.remove id <;> rfl
  cases h : e.session.get? id with
  | none =>
    refine ⟨.error (.failed (.stale (.download id))), none, fun f _ hf => ?_⟩
    rw [hrun, Session.remove_eq_none hf, Engine.put, Session.put_stale hf]
  | some d =>
    refine ⟨.ok (), none, fun f _ hf => ?_⟩
    obtain ⟨t, hremove, -⟩ := Session.remove_eq_some hf
    simp only [hrun, Engine.put, Session.put, hremove]

/-- What the action goes on with may be read off the session where it is a matter of the download. -/
theorem confined_session {f : Session → Run α}
    (h : ∀ s t : Session, s.get? id = t.get? id → f s = f t) (hf : ∀ s, Confined id (f s)) :
    Confined id (session >>= f) := by
  intro e he
  obtain ⟨r, fate, hrun⟩ := hf e.session e he
  refine ⟨r, fate, fun g hg hget => ?_⟩
  rw [Engine.run_bind_ok g (Engine.run_session g), h g.session e.session hget]
  exact hrun g hg hget

theorem Confined.bind {m : Run α} {f : α → Run β} (hm : Confined id m)
    (hf : ∀ a, Confined id (f a)) : Confined id (m >>= f) := by
  intro e he
  obtain ⟨r, fate, hrun⟩ := hm e he
  rcases r with c | a
  · exact ⟨.error c, fate, fun g hg hget => Engine.run_bind_error g (hrun g hg hget)⟩
  · -- the rest runs on engines on which the handle names what was put there
    obtain ⟨r, last, hrest⟩ := hf a (e.put id fate) he
    refine ⟨r, fate.bind fun _ => last, fun g hg hget => ?_⟩
    have hput : (g.put id fate).session.get? id = (e.put id fate).session.get? id := by
      simp only [Engine.put, Session.get?_put, hget]
    rw [Engine.run_bind_ok g (hrun g hg hget), hrest (g.put id fate) hg hput]
    simp only [Engine.put, Session.put_put]

end Run

/-- A plan is confined if its acts are, and the runs that it asks for. -/
theorem Plan.run_confined {R α : Type} {id : DownloadId} {perform : R → Run Value} :
    ∀ {p : Plan R α}, p.Every (Run.Confined id) (fun r => Run.Confined id (perform r)) →
      Run.Confined id (p.run perform)
  | .answer a, _ => Run.confined_pure a
  | .act _ _, h => h.1.bind fun b => run_confined (h.2 b)
  | .ask _ _, h => h.1.bind fun v => run_confined (h.2 v)

/-! ## Commands on one download -/

section Commands

open Run Plan

variable {args : Value} {Q : Errand args → Prop}

theorem every_confined_download (id : DownloadId) : ∀ {command : DownloadCommand},
    command.isComposite = false →
      (command.plan id : Plan (Errand args) Value).Every (Confined id) Q
  | .read _, _ => (every_lift (confined_download id)).bind fun _ => every_lift (confined_lift _)
  | .setInt _, _ => (every_lift (confined_lift _)).bind fun _ =>
    (every_lift (confined_onDownload id _)).bind fun _ => every_pure _
  | .setText _, _ => (every_lift (confined_lift _)).bind fun _ =>
    (every_lift (confined_onDownload id _)).bind fun _ => every_pure _
  | .act _, _ => (every_lift (confined_onDownload id _)).bind fun _ => every_pure _
  | .list _ _, _ => every_lift (confined_onDownload id _)
  | .setCustom, _ => (every_lift (confined_lift _)).bind fun _ =>
    (every_lift (confined_onDownload id _)).bind fun _ => every_pure _
  | .custom, _ => (every_lift (confined_lift _)).bind fun _ =>
    (every_lift (confined_download id)).bind fun _ => every_pure _
  | .customOrFail, _ => (every_lift (confined_lift _)).bind fun key =>
    (every_lift (confined_download id)).bind fun d => by
      split
      · exact every_pure _
      · exact every_lift (confined_throw _)
  | .erase, _ => (every_lift (confined_removeDownload id)).bind fun _ => every_pure _

theorem Run.confined_file (args : Value) (ref : FileRef) : ∀ command : FileCommand,
    Confined ref.download (command.perform args ref)
  | .read _ => by
    refine confined_session (fun s t h => ?_) fun s => (confined_download _).bind fun d =>
      (confined_lift _).bind fun file => confined_pure _
    simp only [Session.file, Session.download, h]
  | .setPriority => by
    refine (confined_lift _).bind fun priority => confined_session (fun s t h => ?_) fun s =>
      (confined_lift _).bind fun _ => (confined_onDownload _ _).bind fun _ => confined_pure _
    simp only [Session.file, Session.download, h]

theorem Run.confined_cursor (ref : FileCursor) : ∀ command : CursorCommand,
    Confined ref.download (command.perform ref)
  | .read _ => (confined_download _).bind fun d => by
    dsimp only
    split
    · exact (confined_throw _).bind fun _ => confined_pure _
    · exact confined_pure _

theorem Run.confined_peer (ref : PeerRef) : ∀ command : PeerCommand,
    Confined ref.download (command.perform ref)
  | .read _ => by
    refine confined_session (fun s t h => ?_) fun s => (confined_lift _).bind fun _ =>
      confined_pure _
    simp only [Session.peer, Session.download, h]

theorem Run.confined_tracker (args : Value) (ref : TrackerRef) : ∀ command : TrackerCommand,
    Confined ref.download (command.perform args ref)
  | .read _ => by
    refine confined_session (fun s t h => ?_) fun s => (confined_lift _).bind fun _ =>
      confined_pure _
    simp only [Session.tracker, Session.download, h]
  | .setEnabled => by
    refine (confined_lift _).bind fun n => confined_session (fun s t h => ?_) fun s =>
      (confined_lift _).bind fun _ => (confined_onDownload _ _).bind fun _ => confined_pure _
    simp only [Session.tracker, Session.download, h]

/-- The callable works on one download and sends for nothing. -/
def Callable.isSingle : Callable → Bool
  | .download command => !command.isComposite
  | .peer _ | .tracker _ | .file _ | .cursor _ => true
  | _ => false

/-- What such a callable receives of an entity is confined to the download of it. -/
theorem Callable.Receives.confined {callable : Callable} {s : Session} {x : Entity}
    {inv : Invocation} (h : callable.Receives s (.entity x) inv) (hsingle : callable.isSingle = true) :
    (inv.plan : Plan (Errand args) Value).Every (Confined x.owner) Q := by
  cases h with
  | download hx =>
    cases hx
    exact every_confined_download _ (by simpa [isSingle] using hsingle)
  | peer hx =>
    cases hx
    exact every_lift (confined_peer _ _)
  | tracker hx =>
    cases hx
    exact every_lift (confined_tracker _ _ _)
  | file hx =>
    cases hx
    exact every_lift (confined_file _ _ _)
  | @current _ ref hx =>
    cases hx
    exact every_lift (confined_file _ ⟨ref.download, ref.position⟩ _)
  | cursor hx =>
    cases hx
    exact every_lift (confined_cursor _ _)
  | script | generic | pair | hostedAny | hostedGeneric | hosted | hostedCurrent => cases hsingle

end Commands

/-! ## Calls -/

/-- Aiming at an entity looks at nothing but its download. -/
theorem Callable.aim_congr {s t : Session} {x : Entity} (h : s.get? x.owner = t.get? x.owner)
    (callable : Callable) (key : String) :
    callable.aim s key (.entity x) = callable.aim t key (.entity x) := by
  have heffective (kind : TargetKind) :
      effectiveTarget s key kind (.entity x) = effectiveTarget t key kind (.entity x) := by
    cases x with
    | cursor ref =>
      cases kind with
      | file =>
        have hget : s.get? ref.download = t.get? ref.download := h
        have hdownload : s.download ref.download = t.download ref.download := by
          simp only [Session.download, hget]
        rw [effectiveTarget_cursor, effectiveTarget_cursor, hdownload]
      | _ => rfl
    | _ => cases kind <;> rfl
  simp only [aim, heffective]

theorem Registry.Intact.aim {e : Engine} (h : e.commands.Intact) {b : Builtin}
    (hb : b ∈ Builtin.all) (target : Target) :
    e.aim b.key target = b.callable.aim e.session b.key target := by
  obtain ⟨entry, hentry, hcallable⟩ := h b hb
  simp only [Engine.aim, hentry, hcallable]

/-- The commands that the statements of built-in scripts name work on one download and send for
nothing. -/
theorem Builtin.single_of_scriptKeys {b : Builtin} (hb : b ∈ all) {key : String}
    (h : key ∈ b.callable.scriptKeys) : ∃ c ∈ all, c.key = key ∧ c.callable.isSingle = true := by
  have table : ∀ key ∈ ["d.set_hashing_failed", "d.views.push_back_unique", "d.views.remove",
      "d.resume", "d.pause"], ∃ c ∈ all, c.key = key ∧ c.callable.isSingle = true := by
    set_option maxRecDepth 4096 in decide
  refine table key ?_
  cases hcallable : b.callable with
  | script text =>
    rw [hcallable, Callable.scriptKeys] at h
    rcases script_cases hb hcallable with rfl | rfl
    · rw [split_start] at h
      revert key
      decide
    · rw [split_stop] at h
      revert key
      decide
  | _ =>
    rw [hcallable] at h
    cases h

section Calls

open Run TorrentControl.Task

variable {b : Builtin} (hb : b ∈ Builtin.all) {x : Entity} {args : Value} {hops left : Nat}

include hb

/-- A call of a built-in command is confined if its invocations are. -/
theorem confined_call (h : ∀ s inv, b.callable.Receives s (.entity x) inv →
      Confined x.owner ((inv.plan : Plan (Errand args) Value).run (errandRun hops left))) :
    Confined x.owner ((Job.call b.key (.entity x) args).run hops left) := by
  intro e he
  have haim {f : Engine} (hf : f.commands.Intact)
      (hget : f.session.get? x.owner = e.session.get? x.owner) :
      f.aim b.key (.entity x) = b.callable.aim e.session b.key (.entity x) :=
    (hf.aim hb _).trans (Callable.aim_congr hget _ _)
  by_cases hsuits : (Target.entity x).Suits e.session b.callable.kind
  · obtain ⟨inv, hreceives⟩ := Callable.exists_receives_iff.2 hsuits
    obtain ⟨r, fate, hrun⟩ := h e.session inv hreceives e he
    refine ⟨r, fate, fun f hf hget => ?_⟩
    rw [run_call_of_aim ((haim hf hget).trans (hreceives.aim b.key)), hrun f hf hget]
  · have hrefused := Callable.aim_refused hsuits b.key
    refine ⟨.error (.failed ((Target.entity x).refusal e.session b.key b.callable.kind)),
      e.session.get? x.owner, fun f hf hget => ?_⟩
    rw [run_call_refused ((haim hf hget).trans hrefused), ← hget, Engine.put, Session.put_get?]

theorem confined_single (hsingle : b.callable.isSingle = true) :
    Confined x.owner ((Job.call b.key (.entity x) args).run hops left) :=
  confined_call hb fun _ _ h => Plan.run_confined (h.confined hsingle)

omit hb in
theorem confined_execute {text : String} {id : DownloadId} {target : Target}
    (h : ∀ statement, Statement.parse text = .ok statement →
      Confined id ((Job.call statement.key target statement.args).run hops left)) :
    Confined id ((Job.execute target text).run hops left) := by
  change Confined id (Run.lift (Except.mapError .parse (Statement.parse text)) >>= fun statement =>
    (Job.call statement.key target statement.args).run hops left)
  rcases hparse : Statement.parse text with fault | statement
  · exact confined_throw _
  · exact h statement hparse

/-- The statements of a built-in script are confined, and so is the script. -/
theorem confined_script {text : String} (h : b.callable = .script text) :
    Confined x.owner ((Job.script (.entity x) text).run hops left) := by
  cases left with
  | zero => exact confined_throw _
  | succ left =>
    change Confined x.owner ((scriptPlan text).run fun statement =>
      (Job.execute (.entity x) statement).run hops left)
    rcases hsplit : Script.split text with fault | statements
    · rw [scriptPlan, hsplit]
      exact confined_throw _
    · have hrun (perform : String → Run Value) :
          (scriptPlan text).run perform = (statementsPlan statements).run perform := by
        rw [scriptPlan, hsplit, Plan.run_bind]
        exact pure_bind ..
      rw [hrun]
      refine Plan.run_confined (Plan.every_foldlM (fun _ line hline => ?_) _)
      refine Plan.every_request (confined_execute fun statement hparse => ?_)
      have hkey : statement.key ∈ b.callable.scriptKeys := by
        rw [h, Callable.scriptKeys, hsplit, Statement.key_of_parse hparse]
        exact List.mem_map_of_mem (List.mem_filter.1 hline).1
      obtain ⟨c, hc, hkey, hsingle⟩ := Builtin.single_of_scriptKeys hb hkey
      exact hkey ▸ confined_single hc hsingle

theorem confined_scripted {text : String} (h : b.callable = .script text) :
    Confined x.owner ((Job.call b.key (.entity x) args).run hops left) := by
  refine confined_call hb fun s inv hreceives => ?_
  rw [h] at hreceives
  cases hreceives
  rw [Invocation.plan, Plan.run_request]
  exact confined_script hb h

end Calls

section Attempts

open Run Plan TorrentControl.Task

variable {args : Value} {hops left : Nat} {id : DownloadId}

/-- A call that is asked for is confined if it is confined with any number of hops. -/
theorem every_confined_orderOn {key : String} {params : Value}
    (h : ∀ hops, Confined id ((Job.call key (.download id) params).run hops left)) :
    (orderOn id key params : Plan (Errand args) Unit).Every (Confined id)
      fun errand => Confined id (errandRun hops left errand) := by
  refine (every_request ?_).bind fun _ => every_pure _
  cases hops with
  | zero => exact confined_throw _
  | succ hops => exact h hops

theorem every_confined_start :
    (orderOn id "d.start" .empty : Plan (Errand args) Unit).Every (Confined id)
      fun errand => Confined id (errandRun hops left errand) :=
  every_confined_orderOn fun _ => confined_scripted Builtin.start_mem (x := .download id) rfl

theorem every_confined_stop :
    (orderOn id "d.stop" .empty : Plan (Errand args) Unit).Every (Confined id)
      fun errand => Confined id (errandRun hops left errand) :=
  every_confined_orderOn fun _ => confined_scripted Builtin.stop_mem (x := .download id) rfl

theorem every_confined_close :
    (orderOn id "d.close" .empty : Plan (Errand args) Unit).Every (Confined id)
      fun errand => Confined id (errandRun hops left errand) :=
  every_confined_orderOn fun _ => confined_single Builtin.close_mem (x := .download id) rfl

theorem confined_tryStart (id : DownloadId) : Confined id
    ((DownloadCommand.tryStart.plan id : Plan (Errand args) Value).run (errandRun hops left)) := by
  refine run_confined ((every_lift (confined_download id)).bind fun d => ?_)
  dsimp only
  split
  · exact every_pure _
  · refine (every_lift (confined_lift _)).bind fun ignores => ?_
    split
    · exact every_pure _
    · exact every_confined_start.bind fun _ => every_pure _

theorem confined_tryStop (id : DownloadId) : Confined id
    ((DownloadCommand.tryStop.plan id : Plan (Errand args) Value).run (errandRun hops left)) := by
  refine run_confined ((every_lift (confined_download id)).bind fun d =>
    (every_lift (confined_lift _)).bind fun ignores => ?_)
  split
  · exact every_pure _
  · exact every_confined_stop.bind fun _ => every_pure _

theorem confined_tryClose (id : DownloadId) : Confined id
    ((DownloadCommand.tryClose.plan id : Plan (Errand args) Value).run (errandRun hops left)) := by
  refine run_confined ((every_lift (confined_download id)).bind fun d =>
    (every_lift (confined_lift _)).bind fun ignores => ?_)
  split
  · exact every_pure _
  · exact every_confined_stop.bind fun _ => every_confined_close.bind fun _ => every_pure _

end Attempts

/-- A command that acts on its download leaves what the action makes of the download. -/
theorem Engine.run_performs {α : Type} {e : Engine} {key : String} {entry : CommandEntry}
    {command : DownloadCommand} {id : DownloadId} {args : Value} {edit : Download.Edit α}
    {g : α → Value} {d t : Download} {a : α} (hentry : e.commands.find? key = some entry)
    (hcallable : entry.callable = .download command) (hperforms : command.Performs args edit g)
    (hlive : e.session.get? id = some d) (hedit : edit.run.run d = (.ok a, t)) (hops left : Nat) :
    e.run ((Job.call key (.download id) args).run hops left) = (.ok (g a), e.put id (some t)) := by
  have haim : e.aim key (.download id) = .ok (.download command id) :=
    Engine.aim_of_receives hentry (hcallable ▸ .download rfl)
  have hrun := Run.run_onDownload e id edit
  simp only [hlive, hedit, Download.Edit.after] at hrun
  rw [Task.run_call_of_aim haim, Invocation.plan, hperforms, Engine.run_bind_ok e hrun]
  rfl

/-! ## The built-in commands -/

/-- The callable works on the download that it is aimed at, and sends for nothing elsewhere. -/
def Callable.isLocal : Callable → Bool
  | .download .deleteTied | .download (.multicall _) => false
  | .script _ | .download _ | .peer _ | .tracker _ | .file _ | .cursor _ => true
  | _ => false

/-- All built-in commands but the generic ones, the multicalls and comparisons, which execute texts,
and the one that removes a tied file. -/
def Builtin.isLocal (b : Builtin) : Bool :=
  b.callable.kind != .generic && !executing.contains b.key && b.key != "d.delete_tied"

theorem Builtin.isLocal_callable {b : Builtin} (hb : b ∈ all) (h : b.isLocal = true) :
    b.callable.isLocal = true := by
  -- the keys are compared only where the rest does not hold
  have table : ∀ b ∈ all, b.callable.isLocal = true ∨ b.isLocal = false := by
    set_option maxRecDepth 4096 in decide
  exact (table b hb).resolve_right (by simp [h])

/-- **What a built-in command on a part of a download does is confined to the download.** -/
theorem confined_builtin {b : Builtin} (hb : b ∈ Builtin.all) (hlocal : b.isLocal = true)
    (x : Entity) (args : Value) (hops left : Nat) :
    Run.Confined x.owner ((Job.call b.key (.entity x) args).run hops left) := by
  have hcallable := Builtin.isLocal_callable hb hlocal
  by_cases hsingle : b.callable.isSingle = true
  · exact confined_single hb hsingle
  · cases hb' : b.callable with
    | script text => exact confined_scripted hb hb'
    | download command =>
      refine confined_call hb fun s inv hreceives => ?_
      rw [hb'] at hreceives hcallable hsingle
      cases hreceives with
      | download hx =>
        cases hx
        cases command with
        | tryStart => exact confined_tryStart _
        | tryStop => exact confined_tryStop _
        | tryClose => exact confined_tryClose _
        | deleteTied | multicall => cases hcallable
        | _ => exact (hsingle rfl).elim
    | generic | pair | hosted =>
      rw [hb'] at hcallable
      cases hcallable
    | peer | tracker | file | cursor =>
      rw [hb'] at hsingle
      exact (hsingle rfl).elim

/-! ## Commands on two downloads -/

/-- Engines that differ at most in which free slot is used next. -/
structure Engine.Alike (e f : Engine) : Prop where
  session : e.session.Alike f.session
  commands : e.commands = f.commands
  messages : e.messages = f.messages
  disk : e.disk = f.disk

theorem Run.Confined.comm {α β : Type} {id other : DownloadId} {m : Run α} {n : Run β}
    (hm : Confined id m) (hn : Confined other n) (hne : id ≠ other) {e : Engine}
    (he : e.commands.Intact) :
    ((e.run n).2.run m).1 = (e.run m).1 ∧ ((e.run m).2.run n).1 = (e.run n).1 ∧
      ((e.run m).2.run n).2.Alike ((e.run n).2.run m).2 := by
  obtain ⟨r, fate, hm⟩ := hm e he
  obtain ⟨q, fate', hn⟩ := hn e he
  have hget : (e.put other fate').session.get? id = e.session.get? id := by
    simp only [Engine.put, Session.get?_put, if_neg hne]
  have hget' : (e.put id fate).session.get? other = e.session.get? other := by
    simp only [Engine.put, Session.get?_put, if_neg hne.symm]
  rw [hm e he rfl, hn e he rfl, hm (e.put other fate') he hget, hn (e.put id fate) he hget']
  exact ⟨rfl, rfl, Session.put_comm _ hne _ _, rfl, rfl, rfl⟩

/-- **Commands on different downloads commute.** On every engine whose built-in keys are bound to the
built-in commands, two of them on two downloads, or on files, cursors, peers or trackers of them, may
be called in either order: each answers the same value or error, and the same downloads are there in
the same order. The first alone leaves all other downloads as they were. Left out are the generic
commands, the multicalls and comparisons, which execute texts, and the one that removes a tied
file. -/
theorem Engine.calls_on_downloads_commute {e : Engine} (hintact : e.commands.Intact) {b c : Builtin}
    (hb : b ∈ Builtin.all) (hc : c ∈ Builtin.all) (hlocal : b.isLocal = true)
    (hlocal' : c.isLocal = true) {x y : Entity} (hne : x.owner ≠ y.owner) (args params : Value)
    (hops left : Nat) :
    let first := (Job.call b.key (.entity x) args).run hops left
    let second := (Job.call c.key (.entity y) params).run hops left
    let f := (e.run first).2
    let g := (e.run second).2
    (g.run first).1 = (e.run first).1 ∧ (f.run second).1 = (e.run second).1 ∧
      (f.run second).2.Alike (g.run first).2 ∧
        ∀ id, id ≠ x.owner → f.session.get? id = e.session.get? id := by
  intro first second f g
  have hfirst := confined_builtin hb hlocal x args hops left
  have hsecond := confined_builtin hc hlocal' y params hops left
  obtain ⟨hanswer, hanswer', halike⟩ := hfirst.comm hsecond hne hintact
  refine ⟨hanswer, hanswer', halike, fun id hid => ?_⟩
  obtain ⟨r, fate, hrun⟩ := hfirst e hintact
  rw [show f = e.put x.owner fate from congrArg Prod.snd (hrun e hintact rfl), Engine.put,
    Session.get?_put, if_neg hid]

/-- A session with two downloads. -/
def Session.couple : Session :=
  (Session.sample.insert (.fresh "b" (.fill 1))).2

/-- One download is erased and the other one started. -/
theorem Engine.erase_and_start_commute : ∃ e : Engine, e = withBuiltins Session.couple .empty ∧
    e.session.ids = [⟨0, 0⟩, ⟨1, 0⟩] ∧
    let first := (Job.call "d.erase" (.download ⟨0, 0⟩) .empty).run hopLimit scriptLimit
    let second := (Job.call "d.start" (.download ⟨1, 0⟩) .empty).run hopLimit scriptLimit
    let f := (e.run first).2
    let g := (e.run second).2
    (g.run first).1 = (e.run first).1 ∧ (f.run second).1 = (e.run second).1 ∧
      (f.run second).2.Alike (g.run first).2 ∧
        ∀ id, id ≠ ⟨0, 0⟩ → f.session.get? id = e.session.get? id := by
  have herase : Builtin.order "d.erase" .erase ∈ Builtin.all := by
    simp [Builtin.all, Builtin.lifecycle]
  have hne : (Entity.download ⟨0, 0⟩).owner ≠ (Entity.download ⟨1, 0⟩).owner := by decide
  obtain ⟨e, he⟩ : ∃ e, e = withBuiltins Session.couple .empty := ⟨_, rfl⟩
  have hids : e.session.ids = [⟨0, 0⟩, ⟨1, 0⟩] := by rw [he]; rfl
  have hintact : e.commands.Intact := he ▸ intact_withBuiltins Session.couple .empty
  have hcommute := calls_on_downloads_commute hintact herase Builtin.start_mem (by decide)
    (by decide) hne .empty .empty hopLimit scriptLimit
  exact ⟨e, he, hids, hcommute⟩

end TorrentControl
