import TorrentControl.Proofs.Blame
import TorrentControl.Proofs.State

/-! # Commands are served by typed states

Where the states of all downloads are well typed, the commands that read and write them find what
they look for. The readings of variables, the operations on the views, resuming and pausing go
through; a command that tries something gets past its check; and no value error comes from a state.
This is so at every moment of every run on a session that was built from a manifest. -/

namespace TorrentControl

open Download

/-! ## Commands of the daemon -/

/-- The callable is no action of a host program, and the variables that it names are those of a
fresh state. -/
def Callable.isRegular : Callable → Bool
  | .download (.read (.variableNamed name)) => variableNames.contains name
  | .download (.setInt (.variableNamed name)) => integerVariables.contains name
  | .download (.setText (.variableNamed name)) => (textVariables.map Prod.fst).contains name
  | .download (.list name _) => name == "views"
  | .hosted _ _ => false
  | _ => true

theorem Builtin.isRegular {b : Builtin} (hb : b ∈ all) : b.callable.isRegular = true := by
  have table : ∀ b ∈ all, b.callable.isRegular = true := by
    set_option maxRecDepth 4096 in decide
  exact table b hb

/-- **What a regular command makes of a download with a typed state has a typed state.** -/
theorem Callable.keeps_typed {callable : Callable} (h : callable.isRegular = true) :
    callable.Keeps Typed := by
  intro inv id f hof hamends d hd
  cases hamends with
  | setInt setting n =>
    obtain rfl : callable = .download (.setInt setting) := hof
    refine (Edit.sound_setInt n setting ?_ d hd).1
    rintro name rfl
    exact List.contains_iff_mem.1 h
  | setText setting s =>
    obtain rfl : callable = .download (.setText setting) := hof
    refine (Edit.sound_setText s setting ?_ d hd).1
    rintro name rfl
    exact List.contains_iff_mem.1 h
  | act action => exact (Edit.sound_act action d hd).1
  | list name operation args =>
    obtain rfl : callable = .download (.list name operation) := hof
    obtain rfl : name = "views" := beq_iff_eq.1 h
    exact ((Edit.succeeds_views args operation).sound d hd).1
  | setCustom key text => exact ((Edit.succeeds_setCustom key text).sound d hd).1
  | setPriority ref priority => exact hd.of_state rfl
  | setEnabled ref isEnabled => exact hd.of_state rfl

/-- The downloads have typed states, and the keys are bound to regular commands. -/
abbrev Engine.MaintainsStates (e : Engine) : Prop :=
  e.Maintains (fun callable => callable.isRegular = true) Typed

/-- **An engine with the built-in commands, on the session of a manifest, has typed states.** -/
theorem Engine.maintainsStates_withBuiltins {m : SessionManifest} {session : Session}
    (hbuild : m.build = .ok session) (disk : Disk) :
    (Engine.withBuiltins session disk).MaintainsStates :=
  maintains_withBuiltins disk
    (SessionManifest.holds_of_build hbuild fun _ _ _ => DownloadManifest.typed_of_build)
    fun _ => Builtin.isRegular

/-! ## Calls on a download -/

/-- A call of a command on a download comes to the command if the download is there. -/
theorem Engine.invokes_of_find? {e : Engine} {key : String} {entry : CommandEntry}
    {command : DownloadCommand} (hentry : e.commands.find? key = some entry)
    (hcallable : entry.callable = .download command) (id : DownloadId) (args : Value) (left : Nat) :
    Task.Invokes ⟨e, left, .call key (.download id) args⟩ (.download command id) args := by
  have hreceives : entry.callable.Receives e.session (.download id) (.download command id) :=
    hcallable ▸ .download rfl
  exact .call rfl (aim_of_receives hentry hreceives)

/-- A call of a command on a download is a run of its sendings. -/
theorem Engine.run_call {e : Engine} {key : String} {entry : CommandEntry}
    {command : DownloadCommand} (hentry : e.commands.find? key = some entry)
    (hcallable : entry.callable = .download command) (id : DownloadId) (args : Value)
    (hops left : Nat) :
    e.run ((Job.call key (.download id) args).run hops left) =
      e.run (((Invocation.download command id).sendings left args).run (Sending.run hops)) := by
  rw [Task.run_eq ⟨e, left, .call key (.download id) args⟩ hops,
    Task.plan_of_invokes (invokes_of_find? hentry hcallable id args left)]

theorem Engine.run_lift_ok {α : Type} {e t : Engine} {x : Except CommandError α} {a : α}
    (h : e.run (Run.lift x) = (.ok a, t)) : x = .ok a ∧ t = e := by
  rw [run_lift] at h
  cases x <;> cases h
  exact ⟨rfl, rfl⟩

theorem Engine.run_download_ok {e t : Engine} {id : DownloadId} {d : Download}
    (h : e.run (Run.download id) = (.ok d, t)) : e.session.get? id = some d ∧ t = e := by
  rw [run_download] at h
  cases hdownload : e.session.download id with
  | error c =>
    rw [hdownload] at h
    cases h
  | ok found =>
    rw [hdownload] at h
    cases h
    exact ⟨Session.download_ok_iff.1 hdownload, rfl⟩

/-! ## Commands that are served -/

/-- The commands that cannot be refused on a download with a typed state. -/
def DownloadCommand.isServed : DownloadCommand → Bool
  | .read (.variableNamed _) | .act .resume | .act .pause | .list _ _ => true
  | _ => false

/-- An edit that succeeds on typed downloads succeeds on those of the engine. -/
theorem Download.Edit.Succeeds.run {α : Type} {edit : Download.Edit α} (hedit : edit.Succeeds)
    {e : Engine} (he : e.session.Holds Typed) {id : DownloadId} {d : Download}
    (hd : e.session.get? id = some d) : ∃ a t, e.run (Run.onDownload id edit) = (.ok a, t) := by
  obtain ⟨a, changed, hrun, -⟩ := hedit d (he.get? hd)
  rw [Run.run_onDownload, hd]
  simp only [hrun]
  exact ⟨a, _, rfl⟩

/-- **A command that is served answers on every download that is there.** -/
theorem Engine.run_served {e : Engine} (he : e.MaintainsStates) {key : String}
    {entry : CommandEntry} {command : DownloadCommand}
    (hentry : e.commands.find? key = some entry) (hcallable : entry.callable = .download command)
    (hserved : command.isServed = true) {id : DownloadId} {d : Download}
    (hd : e.session.get? id = some d) (args : Value) (hops left : Nat) :
    ∃ v t, e.run ((Job.call key (.download id) args).run hops left) = (.ok v, t) := by
  have hregular := he.commands key entry hentry
  rw [hcallable] at hregular
  rw [run_call hentry hcallable]
  unfold DownloadCommand.isServed at hserved
  split at hserved
  · rename_i name
    obtain ⟨v, hv⟩ := (he.downloads.get? hd).stateVariable (List.contains_iff_mem.1 hregular)
    refine ⟨v, e, ?_⟩
    change e.run (Run.download id >>= fun d => Run.lift (d.stateVariable name) >>= pure) = _
    rw [run_bind_ok e (run_download_of_get? hd), hv]
    rfl
  · obtain ⟨_, t, hrun⟩ := Edit.succeeds_resume.run he.downloads hd
    refine ⟨.empty, t, ?_⟩
    change e.run (Run.onDownload id Download.Edit.resume >>= fun _ => pure Value.empty) = _
    rw [run_bind_ok e hrun]
    rfl
  · obtain ⟨_, t, hrun⟩ := Edit.succeeds_pause.run he.downloads hd
    refine ⟨.empty, t, ?_⟩
    change e.run (Run.onDownload id Download.Edit.pause >>= fun _ => pure Value.empty) = _
    rw [run_bind_ok e hrun]
    rfl
  · rename_i name operation
    obtain rfl : name = "views" := beq_iff_eq.1 hregular
    obtain ⟨v, t, hrun⟩ := (Edit.succeeds_views args operation).run he.downloads hd
    refine ⟨v, t, ?_⟩
    change e.run (Run.onDownload id (operation.perform "views" args) >>= pure) = _
    rw [run_bind_ok e hrun]
    rfl
  · cases hserved

/-! ## What value errors come from -/

/-- What a value error of the task itself comes from. -/
inductive Task.Blamed (t : Task) (error : ValueError) : Prop where
  | argument {inv : Invocation} {args : Value} (h : t.Invokes inv args)
      (hargs : args.Blamed error)
  /-- What two downloads answered cannot be compared. -/
  | compared {command : PairCommand} {first second : DownloadId} {args left right : Value}
      (h : t.Invokes (.pair command first second) args) (hcompare : left.order right = .error error)
  /-- The key that reads the tied file is bound to another command. -/
  | tied {id : DownloadId} {args v : Value} (h : t.Invokes (.download .deleteTied id) args)
      (hrebound : ∀ entry, t.engine.commands.find? "d.get_tied_to_file" = some entry →
        entry.callable ≠ .download (.read (.variableNamed "tied_to_file")))
      (hanswer : error = v.mismatch .text)

section Blames

open Run Plan

variable {e : Engine} {args : Value} {A : ValueError → Prop}
  {returns : Errand args → Engine → Value → Engine → Prop}

/-- A sound action on a typed download blames nothing. -/
theorem blames_onDownload {α : Type} {id : DownloadId} {edit : Download.Edit α}
    (hedit : edit.Sound) (he : e.session.Holds Typed) : (onDownload id edit).Blames A e := by
  intro error h
  rw [run_onDownload] at h
  split at h
  · rename_i d hd
    have hsound := (hedit d (he.get? hd)).2 error
    rcases hrun : (edit.run.run d).1 with c | a
    · rw [hrun] at h hsound
      cases h
      exact absurd rfl hsound
    · rw [hrun] at h
      cases h
  · cases h

/-- A change of a download that cannot fail blames nothing. -/
theorem blames_modify (id : DownloadId) (change : Download → Download) :
    (onDownload id (modify change)).Blames A e := by
  intro error h
  rw [run_onDownload] at h
  split at h <;> cases h

theorem blames_register (change : Registry → Except RegistryError Registry) :
    (register change).Blames A e := by
  refine Run.Blames.bind nofun fun f t _ => ?_
  split
  · exact nofun
  · exact Run.blames_fail nofun

theorem blames_unlink (path : String) : (unlink path).Blames A e := by
  refine Run.Blames.bind nofun fun f t _ => ?_
  split <;> exact nofun

theorem blames_multicall (targets : List Target) :
    (multicall targets : Plan (Errand args) Value).Blames returns args.Blamed e := by
  refine blames_act (Run.blames_lift fun _ => Value.blamed_multicallColumns) fun columns t h => ?_
  obtain ⟨hcolumns, -⟩ := Engine.run_lift_ok h
  refine Blames.bind (fun _ _ => blames_pure _) (blames_mapM (fun target _ t => ?_) t)
  refine Blames.bind (fun _ _ => blames_pure _) (blames_mapM (fun column hcolumn t => ?_) t)
  exact blames_act (Run.blames_lift fun _ => Value.blamed_column hcolumns hcolumn)
    fun inner t _ => blames_request _

theorem blames_insertMethod : (insertMethod args).Blames args.Blamed e := by
  unfold insertMethod
  split
  · rename_i key kind script rest hpositional
    have offered {v : Value} := Value.offers_of_mem hpositional (v := v)
    refine (Run.blames_lift fun _ => Value.blamed_asText (offered (by simp))).bind
      fun key t _ => ?_
    refine (Run.blames_lift fun _ => Value.blamed_asText (offered (by simp))).bind
      fun kind t _ => ?_
    refine (Run.blames_lift fun _ => Value.blamed_asText (offered (by simp))).bind
      fun script t _ => ?_
    refine (Run.blames_lift fun _ h => ?_).bind fun isPublic t _ => ?_
    · exact (readMethodKind_ne_value h).elim
    · split
      · exact Run.blames_fail nofun
      · exact blames_register _
  · exact Run.blames_fail nofun

theorem blames_aliasMethod : (aliasMethod args).Blames args.Blamed e := by
  unfold aliasMethod
  split
  · rename_i key source rest hpositional
    have offered {v : Value} := Value.offers_of_mem hpositional (v := v)
    refine (Run.blames_lift fun _ => Value.blamed_asText (offered (by simp))).bind
      fun key t _ => ?_
    refine (Run.blames_lift fun _ => Value.blamed_asText (offered (by simp))).bind
      fun source t _ => ?_
    exact blames_register _
  · exact Run.blames_fail nofun

theorem blames_generic : ∀ command : GenericCommand,
    (command.plan : Plan (Errand args) Value).Blames returns args.Blamed e
  | .downloadList => blames_act Run.blames_session fun _ _ _ => blames_pure _
  | .multicall => blames_act Run.blames_session fun _ _ _ => blames_multicall _
  | .print => blames_act nofun fun _ _ _ => blames_pure _
  | .insertMethod => blames_act blames_insertMethod fun _ _ _ => blames_pure _
  | .aliasMethod => blames_act blames_aliasMethod fun _ _ _ => blames_pure _
  | .eraseMethod => blames_act (Run.blames_lift fun _ => Value.blamed_textArgument) fun _ _ _ =>
    blames_act nofun fun _ _ _ => blames_pure _
  | .existsMethod => blames_act (Run.blames_lift fun _ => Value.blamed_textArgument) fun _ _ _ =>
    blames_act nofun fun _ _ _ => blames_pure _

theorem blames_file (ref : FileRef) :
    ∀ command : FileCommand, (command.perform args ref).Blames args.Blamed e
  | .read _ => Run.blames_session.bind fun _ _ _ => (Run.blames_download _).bind fun _ _ _ =>
    (Run.blames_lift fun _ h => (Session.file_ne_value h).elim).bind fun _ _ _ => Run.blames_pure _
  | .setPriority => (Run.blames_lift fun _ => Value.blamed_filePriority).bind fun _ _ _ =>
    Run.blames_session.bind fun _ _ _ =>
      (Run.blames_lift fun _ h => (Session.file_ne_value h).elim).bind fun _ _ _ =>
        (blames_modify _ _).bind fun _ _ _ => Run.blames_pure _

theorem blames_peer (ref : PeerRef) : ∀ command : PeerCommand, (command.perform ref).Blames A e
  | .read _ => Run.blames_session.bind fun _ _ _ =>
    (Run.blames_lift fun _ h => (Session.peer_ne_value h).elim).bind fun _ _ _ => Run.blames_pure _

theorem blames_tracker (ref : TrackerRef) :
    ∀ command : TrackerCommand, (command.perform args ref).Blames args.Blamed e
  | .read _ => Run.blames_session.bind fun _ _ _ =>
    (Run.blames_lift fun _ h => (Session.tracker_ne_value h).elim).bind fun _ _ _ =>
      Run.blames_pure _
  | .setEnabled => (Run.blames_lift fun _ => Value.blamed_intArgument).bind fun _ _ _ =>
    Run.blames_session.bind fun _ _ _ =>
      (Run.blames_lift fun _ h => (Session.tracker_ne_value h).elim).bind fun _ _ _ =>
        (blames_modify _ _).bind fun _ _ _ => Run.blames_pure _

theorem blames_cursor (ref : FileCursor) :
    ∀ command : CursorCommand, (command.perform ref).Blames A e
  | .read _ => (Run.blames_download _).bind fun d t _ => by
    dsimp only
    split
    · exact (Run.blames_fail (c := .stale (.cursor ref)) nofun).bind fun _ _ _ => Run.blames_pure _
    · exact Run.blames_pure _

/-! ### Commands on downloads -/

theorem read_ne_value {d : Download} (hd : d.Typed) {reading : DownloadReading}
    (h : (Callable.download (.read reading)).isRegular = true) {error : ValueError} :
    reading.read d ≠ .error (.value error) := by
  cases reading with
  | variableNamed name =>
    obtain ⟨v, hv⟩ := hd.stateVariable (List.contains_iff_mem.1 h)
    rw [DownloadReading.read, hv]
    nofun
  | priorityName =>
    simp only [DownloadReading.read, Download.priorityName]
    repeat' split
    all_goals nofun
  | _ => nofun

/-- Checking whether a download takes commands blames nothing. -/
theorem blames_attempt {α : Type} {f : Bool → Plan (Errand args) α} {d : Download} (hd : d.Typed)
    (hf : ∀ ignores, (f ignores).Blames returns A e) :
    (liftM (lift d.ignoresCommands) >>= f).Blames returns A e := by
  obtain ⟨ignores, hignores⟩ := hd.ignoresCommands
  refine blames_act (Run.blames_lift fun error h => ?_) fun ignores t h => ?_
  · rw [hignores] at h
    cases h
  · obtain ⟨-, rfl⟩ := Engine.run_lift_ok h
    exact hf ignores

/-- A plan that goes on with a typed download. -/
theorem blames_withDownload {α : Type} {f : Download → Plan (Errand args) α} {id : DownloadId}
    (he : e.session.Holds Typed) (hf : ∀ d, d.Typed → (f d).Blames returns A e) :
    (liftM (download id) >>= f).Blames returns A e := by
  refine blames_act (Run.blames_download id) fun d t h => ?_
  obtain ⟨hd, rfl⟩ := Engine.run_download_ok h
  exact hf d (he.get? hd)

/-- A plan that edits a typed download as its arguments say. -/
theorem blames_edit {α β : Type} {x : Except CommandError α} {edit : α → Download.Edit β}
    {id : DownloadId} (he : e.session.Holds Typed)
    (hx : ∀ error, x = .error (.value error) → A error) (hedit : ∀ a, (edit a).Sound) :
    (do
      let a ← lift x
      let _ ← onDownload id (edit a)
      return Value.empty : Plan (Errand args) Value).Blames returns A e := by
  refine blames_act (Run.blames_lift hx) fun a t h => ?_
  obtain ⟨-, rfl⟩ := Engine.run_lift_ok h
  exact blames_act (blames_onDownload (hedit a) he) fun _ _ _ => blames_pure _

/-- **On typed downloads, a command blames its arguments for its value errors.** -/
theorem blames_download_command (he : e.session.Holds Typed) (id : DownloadId)
    {command : DownloadCommand} (h : (Callable.download command).isRegular = true)
    (htied : command ≠ .deleteTied) :
    (command.plan id : Plan (Errand args) Value).Blames returns args.Blamed e := by
  cases command with
  | read reading =>
    refine blames_withDownload he fun d hd => blames_lift (Run.blames_lift fun error herror => ?_)
    exact (read_ne_value hd h herror).elim
  | setInt setting =>
    refine blames_edit he (fun _ => Value.blamed_intArgument) fun n =>
      Edit.sound_setInt n setting ?_
    rintro name rfl
    exact List.contains_iff_mem.1 h
  | setText setting =>
    refine blames_edit he (fun _ => Value.blamed_textArgument) fun s =>
      Edit.sound_setText s setting ?_
    rintro name rfl
    exact List.contains_iff_mem.1 h
  | act action =>
    exact blames_act (blames_onDownload (Edit.sound_act action) he) fun _ _ _ => blames_pure _
  | list name operation =>
    obtain rfl : name = "views" := beq_iff_eq.1 h
    exact blames_lift (blames_onDownload (Edit.succeeds_views args operation).sound he)
  | setCustom =>
    exact blames_edit he (fun _ => Value.blamed_customArguments) fun (key, text) =>
      (Edit.succeeds_setCustom key text).sound
  | custom =>
    exact blames_act (Run.blames_lift fun _ => Value.blamed_textArgument) fun key t _ =>
      blames_act (Run.blames_download id) fun _ _ _ => blames_pure _
  | customOrFail =>
    refine blames_act (Run.blames_lift fun _ => Value.blamed_textArgument) fun key t _ => ?_
    refine blames_act (Run.blames_download id) fun d t _ => ?_
    split
    · exact blames_pure _
    · exact blames_lift (Run.blames_fail nofun)
  | erase =>
    refine blames_act (Run.blames_session.bind fun s t _ => ?_) fun _ _ _ => blames_pure _
    split
    · exact nofun
    · exact Run.blames_fail nofun
  | tryStart =>
    refine blames_withDownload he fun d hd => ?_
    dsimp only
    split
    · exact blames_pure _
    · refine blames_attempt hd fun ignores => ?_
      split
      · exact blames_pure _
      · exact blames_ask fun _ _ _ => blames_pure _
  | tryStop =>
    refine blames_withDownload he fun d hd => blames_attempt hd fun ignores => ?_
    dsimp only
    split
    · exact blames_pure _
    · exact blames_ask fun _ _ _ => blames_pure _
  | tryClose =>
    refine blames_withDownload he fun d hd => blames_attempt hd fun ignores => ?_
    dsimp only
    split
    · exact blames_pure _
    · exact blames_ask fun _ _ _ => blames_ask fun _ _ _ => blames_pure _
  | multicall part => exact blames_act (Run.blames_download id) fun _ _ _ => blames_multicall _
  | deleteTied => exact (htied rfl).elim

/-- A call of a key that is bound to the reading of a text variable answers a text. -/
theorem answer_text (he : e.MaintainsStates) {key name : String} {entry : CommandEntry}
    (hentry : e.commands.find? key = some entry)
    (hcallable : entry.callable = .download (.read (.variableNamed name)))
    (hname : name ∈ textVariables.map Prod.fst) {id : DownloadId} {hops left : Nat} {v : Value}
    {t : Engine} (h : e.run ((Job.call key (.download id) .empty).run hops left) = (.ok v, t)) :
    ∃ text, v = .text text := by
  rw [Engine.run_call hentry hcallable] at h
  change e.run (download id >>= fun d => lift (d.stateVariable name) >>= pure) = _ at h
  rcases hrun : e.run (download id) with ⟨c | d, u⟩
  · rw [Engine.run_bind_error e hrun] at h
    cases h
  · obtain ⟨hd, rfl⟩ := Engine.run_download_ok hrun
    obtain ⟨values, hsection, hvalues⟩ := (he.downloads.get? hd).stateSection
    obtain ⟨text, htext⟩ := hvalues.texts name hname
    rw [Engine.run_bind_ok _ hrun, stateVariable_ok hsection htext] at h
    cases h
    exact ⟨text, rfl⟩

/-- Deleting the tied file blames what the key answers that reads its path. -/
theorem blames_deleteTied (id : DownloadId)
    (hanswer : ∀ v s, returns (.order "d.get_tied_to_file" (.download id) .empty) e v s →
      (∃ path, v = .text path) ∨ A (v.mismatch .text)) :
    (DownloadCommand.deleteTied.plan id : Plan (Errand args) Value).Blames returns A e := by
  refine Blames.bind (fun _ _ => blames_pure _) (blames_ask fun v t hv => ?_)
  split
  · exact blames_pure _
  · exact blames_act (blames_unlink _) fun _ _ _ => blames_ask fun _ _ _ => blames_pure _
  · rename_i hempty htext
    refine blames_lift (Run.blames_lift (x := .error _) fun error h => ?_)
    cases h
    exact (hanswer v t hv).resolve_left fun ⟨path, hpath⟩ => htext path hpath

/-- A comparison blames its arguments, or the answers that cannot be compared. -/
theorem blames_pair (first second : DownloadId) (command : PairCommand)
    (hargs : ∀ error, args.Blamed error → A error)
    (hcompare : ∀ left right error, Value.order left right = .error error → A error) :
    (command.plan first second : Plan (Errand args) Value).Blames returns A e := by
  refine blames_act (Run.blames_lift fun error h => hargs error (Value.blamed_comparisonText h))
    fun inner t _ => blames_ask fun left t _ => blames_ask fun right t _ => ?_
  refine blames_act (Run.blames_lift fun error h => hcompare left right error ?_)
    fun _ _ _ => blames_pure _
  cases horder : left.order right with
  | ok order =>
    rw [horder] at h
    cases h
  | error c =>
    rw [horder] at h
    cases h
    rfl

end Blames

/-- Aiming blames nothing. -/
theorem Engine.aim_ne_value {e : Engine} {key : String} {target : Target} {error : ValueError} :
    e.aim key target ≠ .error (.value error) := by
  unfold aim
  split
  · rename_i entry _
    by_cases hsuits : target.Suits e.session entry.callable.kind
    · obtain ⟨inv, hreceives⟩ := Callable.exists_receives_iff.2 hsuits
      rw [hreceives.aim key]
      nofun
    · rw [Callable.aim_refused hsuits]
      unfold Target.refusal
      split <;> nofun
  · nofun

namespace Task

open Run Plan

theorem blames_invocation {t : Task} (ht : t.engine.MaintainsStates) {inv : Invocation}
    {args : Value} (h : t.Invokes inv args) :
    (inv.plan : Plan (Errand args) Value).Blames
      (fun errand => Returns Sending.run (.ofErrand t.left errand)) t.Blamed t.engine := by
  have argument (error : ValueError) : args.Blamed error → t.Blamed error := .argument h
  obtain ⟨callable, hregular, hof⟩ : ∃ callable : Callable, callable.isRegular = true ∧
      inv.Of callable := by
    obtain ⟨-, haim⟩ := h
    obtain ⟨entry, hentry, hof⟩ := Engine.find?_of_aim haim
    exact ⟨_, ht.commands _ entry hentry, hof⟩
  cases inv with
  | script text target => exact blames_request _
  | generic command => exact (blames_generic command).mono argument
  | download command id =>
    obtain rfl : callable = .download command := hof
    by_cases htied : command = .deleteTied
    · subst htied
      refine blames_deleteTied id fun v s hv => ?_
      by_cases hbound : ∃ entry, t.engine.commands.find? "d.get_tied_to_file" = some entry ∧
          entry.callable = .download (.read (.variableNamed "tied_to_file"))
      · obtain ⟨entry, hentry, hcallable⟩ := hbound
        obtain ⟨hops, hrun⟩ := hv
        cases hops with
        | zero => cases hrun
        | succ hops => exact .inl (answer_text ht hentry hcallable (by decide) hrun)
      · exact .inr (.tied h (fun entry hentry hcallable => hbound ⟨entry, hentry, hcallable⟩) rfl)
    · exact (blames_download_command ht.downloads id hregular htied).mono argument
  | peer command ref => exact blames_lift (blames_peer ref command)
  | tracker command ref => exact blames_lift ((blames_tracker ref command).mono argument)
  | file command ref => exact blames_lift ((blames_file ref command).mono argument)
  | cursor command ref => exact blames_lift (blames_cursor ref command)
  | pair command first second =>
    exact blames_pair first second command argument fun left right error => .compared h
  | hosted action target =>
    obtain ⟨kind, rfl⟩ := hof
    cases hregular

/-- **A task on typed downloads blames its arguments, answers that cannot be compared, or a command
in place of the one that reads the tied file.** -/
theorem plan_blames {t : Task} (ht : t.engine.MaintainsStates) :
    t.plan.Blames (Returns Sending.run) t.Blamed t.engine := by
  obtain ⟨e, left, job⟩ := t
  have fails (c : CommandError) (hc : ∀ error, c ≠ .value error) {u : Task} :
      (liftM (Run.fail c : Run Value) : Plan Sending Value).Blames (Returns Sending.run)
        u.Blamed e :=
    blames_lift (Run.blames_fail hc)
  cases job with
  | call key target args =>
    simp only [plan]
    split
    · rename_i inv haim
      exact blames_rename _ (blames_invocation ht (.call rfl haim))
    · rename_i c haim
      exact fails c fun error herror => Engine.aim_ne_value (herror ▸ haim)
  | execute target text =>
    simp only [plan]
    split
    · exact blames_request _
    · rename_i fault _
      refine fails (.parse fault) fun error herror => ?_
      cases herror
  | script target text =>
    cases left with
    | zero =>
      refine fails (.input (.scriptsTooDeep scriptLimit)) fun error herror => ?_
      cases herror
    | succ left =>
      simp only [plan]
      split
      · refine blames_rename _ (Every.blames (Q := fun _ => True) ?_)
        exact every_foldlM (fun _ _ _ => every_request trivial) _
      · rename_i fault _
        refine fails (.parse fault) fun error herror => ?_
        cases herror

end Task

/-! ## Sessions that serve -/

/-- What holds of an engine whose downloads have typed states. -/
structure Engine.ServesStates (e : Engine) : Prop where
  typed : ∀ id d, e.session.get? id = some d → d.Typed
  /-- The commands that try something get past their check. -/
  checked : ∀ id d, e.session.get? id = some d → ∃ ignores, d.ignoresCommands = .ok ignores
  /-- Whatever keys the commands are bound to. -/
  served : ∀ key entry command id d args hops left, e.commands.find? key = some entry →
    entry.callable = .download command → command.isServed = true →
      e.session.get? id = some d →
        ∃ v t, e.run ((Job.call key (.download id) args).run hops left) = (.ok v, t)
  /-- A value error, at any depth, comes from a task that does not blame a state. -/
  blamed : ∀ job hops left error,
    (e.run (job.run hops left)).1 = .error (.failed (.value error)) →
      ∃ u, Task.Leads ⟨e, left, job⟩ u ∧ u.Blamed error

theorem Engine.MaintainsStates.serves {e : Engine} (h : e.MaintainsStates) : e.ServesStates where
  typed _ _ hd := h.downloads.get? hd
  checked _ _ hd := (h.downloads.get? hd).ignoresCommands
  served _ _ _ _ _ args hops left hentry hcallable hserved hd :=
    run_served h hentry hcallable hserved hd args hops left
  blamed job hops left error := by
    let blamed (error : ValueError) := ∃ u, Task.Leads ⟨e, left, job⟩ u ∧ u.Blamed error
    refine Task.run_blames (A := blamed) hops ⟨e, left, job⟩ (fun u hu => ?_) error
    have hmaintains : u.engine.MaintainsStates :=
      hu.maintains (fun _ => rfl) (fun _ => Callable.keeps_typed) h
    exact (Task.plan_blames hmaintains).mono fun error herror => ⟨u, hu, herror⟩

/-- **The states of a session that was built from a manifest stay typed**, whatever jobs are run on
it, and at every task within them. So the commands on states are served, and no value error comes
from a state. -/
theorem Engine.serves_states_at_every_task {m : SessionManifest} {session : Session}
    (hbuild : m.build = .ok session) (disk : Disk) (jobs : List Job) {job : Job} {u : Task}
    (hu : Task.Leads ⟨(Engine.withBuiltins session disk).after jobs, scriptLimit, job⟩ u) :
    u.engine.ServesStates := by
  have hafter : ((Engine.withBuiltins session disk).after jobs).MaintainsStates :=
    (maintainsStates_withBuiltins hbuild disk).after (fun _ => rfl)
      (fun _ => Callable.keeps_typed) jobs
  have hmaintains : u.engine.MaintainsStates :=
    hu.maintains (fun _ => rfl) (fun _ => Callable.keeps_typed) hafter
  exact hmaintains.serves

/-- A started download with a custom field and a view. -/
def SessionManifest.started : SessionManifest where
  downloads := [{
    name := "a"
    hash := "2A2A2A2A2A2A2A2A2A2A2A2A2A2A2A2A2A2A2A2A"
    localId := none
    directory := "/srv"
    isMultiFile := false
    chunkSize := none
    files := []
    peers := []
    trackers := []
    isPrivate := false
    isActive := true
    priority := none
    connection := none
    upTotal := 0
    bytesDone := 0
    creationDate := 0
    custom := [("label", "x")]
    views := ["main"]
    bitfield := none
    isPexDisabled := false }]

/-- The download of the manifest is resumed after `d.resume` was bound to what `d.pause` is. -/
theorem Engine.serves_states_after_rebinding : ∃ session u,
    SessionManifest.started.build = .ok session ∧
      Task.Leads ⟨(Engine.withBuiltins session .empty).after
          [.execute .generic "method.erase=d.resume",
            .execute .generic "method.alias=d.resume,d.pause"],
        scriptLimit, .execute (.download ⟨0, 0⟩) "d.resume"⟩ u ∧
      u.job = .call "d.resume" (.download ⟨0, 0⟩) .empty ∧ u.engine.ServesStates := by
  have hbuilds : SessionManifest.started.build.toBool = true := by decide +kernel
  cases hbuild : SessionManifest.started.build with
  | error c =>
    rw [hbuild] at hbuilds
    cases hbuilds
  | ok session =>
    have hleads (e : Engine) : Task.Leads ⟨e, scriptLimit, .execute (.download ⟨0, 0⟩) "d.resume"⟩
        ⟨e, scriptLimit, .call "d.resume" (.download ⟨0, 0⟩) .empty⟩ :=
      .single (.inl (.inl ⟨rfl, rfl⟩))
    exact ⟨session, _, rfl, hleads _, rfl,
      serves_states_at_every_task hbuild .empty _ (hleads _)⟩

end TorrentControl
