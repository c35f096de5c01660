import TorrentControl.Proofs.Plan
import TorrentControl.Proofs.Registry

/-! # What invocations change and send for

An act of an invocation changes one thing at most: a download that is there, by an amendment of the
invocation; the session, by a removal; the messages; the disk; or the registry. Three commands change
the registry: one erases a key, one binds a key to a script, and one binds a key to what another key
is bound to. What an invocation sends for is either a text that stands in its arguments, or its own
script, or one of five keys that the commands on a download name themselves. Host commands also
forward to a key of their own. -/

namespace TorrentControl

/-! ## The acts of an invocation -/

/-- The download that an action leaves, whether it failed or not. -/
def Download.Edit.after {α : Type} (edit : Download.Edit α) (d : Download) : Download :=
  (edit.run.run d).2

/-- What an invocation may make of the download of a handle. -/
inductive Invocation.Amends : Invocation → DownloadId → (Download → Download) → Prop where
  | setInt (setting : IntSetting) (n : Int64) (id : DownloadId) :
      Amends (.download (.setInt setting) id) id (setting.assign n).after
  | setText (setting : TextSetting) (s : String) (id : DownloadId) :
      Amends (.download (.setText setting) id) id (setting.assign s).after
  | act (action : DownloadAction) (id : DownloadId) :
      Amends (.download (.act action) id) id action.act.after
  | list (name : String) (operation : ListOperation) (args : Value) (id : DownloadId) :
      Amends (.download (.list name operation) id) id (operation.perform name args).after
  | setCustom (key text : String) (id : DownloadId) :
      Amends (.download .setCustom id) id (TorrentControl.setCustom key text).after
  | setPriority (ref : FileRef) (priority : Int64) :
      Amends (.file .setPriority ref) ref.download fun d =>
        d.onFile ref.index fun file => { file with priority }
  | setEnabled (ref : TrackerRef) (isEnabled : Bool) :
      Amends (.tracker .setEnabled ref) ref.download fun d =>
        d.onTracker ref.index fun tracker => { tracker with isEnabled }

/-- The commands that report messages. -/
def Invocation.reports : Invocation → Bool
  | .generic .print | .download .deleteTied _ => true
  | _ => false

/-- The commands that erase keys. -/
def Invocation.erasesKeys : Invocation → Bool
  | .generic .eraseMethod | .hosted (.erase _) _ => true
  | _ => false

/-- What one act of an invocation does to the engine. -/
inductive Engine.Act (inv : Invocation) (e : Engine) : Engine → Prop where
  | idle : Act inv e e
  | amended {id : DownloadId} {d : Download} {f : Download → Download} (hinv : inv.Amends id f)
      (h : e.session.get? id = some d) :
      Act inv e { e with session := e.session.replace id (f d) }
  | removed {id : DownloadId} {d : Download} {session : Session} (hinv : inv = .download .erase id)
      (h : e.session.remove id = some (d, session)) : Act inv e { e with session }
  | reported (hinv : inv.reports = true) (message : String) :
      Act inv e { e with messages := e.messages.push message }
  | unlinked {id : DownloadId} {path : String} {disk : Disk}
      (hinv : inv = .download .deleteTied id) (h : e.disk.unlink path = .ok disk) :
      Act inv e { e with disk }
  | erased (hinv : inv.erasesKeys = true) (key : String) :
      Act inv e { e with commands := (e.commands.erase key).2 }
  | inserted {key script : String} {isPublic : Bool} {commands : Registry}
      (hinv : inv = .generic .insertMethod)
      (h : e.commands.insert key (.script script) ⟨false, true, isPublic⟩ "i:" "" = .ok commands) :
      Act inv e { e with commands }
  | aliased {key source : String} {commands : Registry} (hinv : inv = .generic .aliasMethod)
      (h : e.commands.insertAlias key true source = .ok commands) : Act inv e { e with commands }

/-! ## What acts do to the registry -/

/-- What one act of an invocation does to the engine, as far as the registry shows it. -/
inductive Engine.Edit (inv : Invocation) (e : Engine) : Engine → Prop where
  | spared {t : Engine} (h : t.commands = e.commands) : Edit inv e t
  | erased (key : String) : Edit inv e { e with commands := (e.commands.erase key).2 }
  | inserted {key script : String} {isPublic : Bool} {commands : Registry}
      (hinv : inv = .generic .insertMethod)
      (h : e.commands.insert key (.script script) ⟨false, true, isPublic⟩ "i:" "" = .ok commands) :
      Edit inv e { e with commands }
  | aliased {key source : String} {commands : Registry} (hinv : inv = .generic .aliasMethod)
      (h : e.commands.insertAlias key true source = .ok commands) : Edit inv e { e with commands }

/-- What a key is bound to after an edit: the same as before, or a script, or what another key was
bound to. -/
theorem Engine.Edit.binds {inv : Invocation} {e t : Engine} {key : String} {entry : CommandEntry}
    (h : e.Edit inv t) (hentry : t.commands.find? key = some entry) :
    e.commands.find? key = some entry ∨
      (inv = .generic .insertMethod ∧ ∃ script, entry.callable = .script script) ∨
      (inv = .generic .aliasMethod ∧ ∃ source original, e.commands.find? source = some original ∧
        entry.callable = original.callable ∧ entry.isPublic = original.isPublic) := by
  cases h with
  | spared h => exact .inl (h ▸ hentry)
  | erased other =>
    rw [Registry.find?_erase] at hentry
    split at hentry
    · cases hentry
    · exact .inl hentry
  | inserted hinv h =>
    rw [Registry.find?_insertEntry h] at hentry
    split at hentry
    · cases hentry
      exact .inr (.inl ⟨hinv, _, rfl⟩)
    · exact .inl hentry
  | aliased hinv h =>
    obtain ⟨original, hsource, h⟩ := Registry.insertAlias_ok h
    rw [Registry.find?_insertEntry h] at hentry
    split at hentry
    · cases hentry
      exact .inr (.inr ⟨hinv, _, original, hsource, rfl, rfl⟩)
    · exact .inl hentry

theorem Engine.Act.edit {inv : Invocation} {e t : Engine} (h : e.Act inv t) : e.Edit inv t := by
  cases h with
  | erased _ key => exact .erased key
  | inserted hinv h => exact .inserted hinv h
  | aliased hinv h => exact .aliased hinv h
  | _ => exact .spared rfl

/-! ## Actions that change nothing -/

namespace Run

variable {α β : Type} {inv : Invocation}

/-- The action ends and leaves the engine as it was. -/
def Idle (m : Run α) : Prop :=
  Does (fun e t => t = e) m

theorem idle_pure (a : α) : Idle (pure a) :=
  fun _ => ⟨nofun, rfl⟩

theorem idle_fail (c : CommandError) : Idle (fail c : Run α) :=
  fun _ => ⟨nofun, rfl⟩

theorem idle_get : Idle (get : Run Engine) :=
  fun _ => ⟨nofun, rfl⟩

theorem idle_session : Idle session :=
  fun _ => ⟨nofun, rfl⟩

theorem idle_lift : ∀ x : Except CommandError α, Idle (lift x)
  | .ok a => idle_pure a
  | .error c => idle_fail c

/-- A change may follow an action that changes nothing. -/
theorem Idle.bind_does {E : Engine → Engine → Prop} (hE : ∀ e, E e e) {m : Run α} {f : α → Run β}
    (hm : Idle m) (hf : ∀ a, Does E (f a)) : Does E (m >>= f) := by
  intro e
  obtain ⟨hne, ht⟩ := hm e
  rcases he : e.run m with ⟨h | a, t⟩
  · rw [he] at hne ht
    rw [Engine.run_bind_error e he, show t = e from ht]
    exact ⟨fun h' => hne (by cases h'; rfl), hE e⟩
  · rw [he] at ht
    rw [Engine.run_bind_ok e he, show t = e from ht]
    exact hf a e

theorem Idle.bind {m : Run α} {f : α → Run β} (hm : Idle m) (hf : ∀ a, Idle (f a)) :
    Idle (m >>= f) :=
  hm.bind_does (E := fun e t => t = e) (fun _ => rfl) hf

/-- Nothing more may follow a change. -/
theorem Does.bind_idle {E : Engine → Engine → Prop} {m : Run α} {f : α → Run β} (hm : Does E m)
    (hf : ∀ a, Idle (f a)) : Does E (m >>= f) := by
  intro e
  obtain ⟨hne, ht⟩ := hm e
  rcases he : e.run m with ⟨h | a, t⟩
  · rw [he] at hne ht
    rw [Engine.run_bind_error e he]
    exact ⟨fun h' => hne (by cases h'; rfl), ht⟩
  · rw [he] at ht
    rw [Engine.run_bind_ok e he, show (t.run (f a)).2 = t from (hf a t).2]
    exact ⟨(hf a t).1, ht⟩

theorem idle_download (id : DownloadId) : Idle (download id) :=
  idle_session.bind fun _ => idle_lift _

/-! ## Actions that are acts of an invocation -/

theorem Idle.acts {m : Run α} (h : Idle m) : Does (Engine.Act inv) m :=
  h.mono fun _ _ ht => ht ▸ .idle

theorem Idle.bind_acts {m : Run α} {f : α → Run β} (hm : Idle m)
    (hf : ∀ a, Does (Engine.Act inv) (f a)) : Does (Engine.Act inv) (m >>= f) :=
  hm.bind_does (fun _ => .idle) hf

/-- An action on a download fails for a stale handle, and else leaves what it makes of the
download. -/
theorem run_onDownload (e : Engine) (id : DownloadId) (edit : Download.Edit α) :
    e.run (onDownload id edit) = match e.session.get? id with
      | some d => (Except.mapError .failed (edit.run.run d).1,
          { e with session := e.session.replace id (edit.after d) })
      | none => (.error (.failed (.stale (.download id))), e) := by
  have hdownload := e.run_download id
  cases h : e.session.get? id with
  | none =>
    simp only [Session.download, h] at hdownload
    exact Engine.run_bind_error e hdownload
  | some d =>
    simp only [Session.download, h] at hdownload
    rw [onDownload, Engine.run_bind_ok e hdownload]
    simp only [Download.Edit.after]
    rcases edit.run.run d with ⟨result, changed⟩
    cases result <;> rfl

theorem acts_onDownload {id : DownloadId} {edit : Download.Edit α}
    (h : inv.Amends id edit.after) : Does (Engine.Act inv) (onDownload id edit) := by
  intro e
  rw [run_onDownload]
  split
  · rename_i d hd
    refine ⟨?_, .amended h hd⟩
    cases (edit.run.run d).1 <;> nofun
  · exact ⟨nofun, .idle⟩

theorem acts_removeDownload {id : DownloadId} (h : inv = .download .erase id) :
    Does (Engine.Act inv) (removeDownload id) := by
  intro e
  rw [removeDownload, Engine.run_bind_ok e (Engine.run_session e)]
  rcases hremove : e.session.remove id with _ | ⟨d, remaining⟩
  · exact ⟨nofun, .idle⟩
  · exact ⟨nofun, .removed h hremove⟩

theorem acts_report (h : inv.reports = true) (message : String) :
    Does (Engine.Act inv) (report message) :=
  fun _ => ⟨nofun, .reported h message⟩

theorem acts_unlink {id : DownloadId} (h : inv = .download .deleteTied id) (path : String) :
    Does (Engine.Act inv) (unlink path) := by
  intro e
  rw [unlink, Engine.run_bind_ok e (Engine.run_get e)]
  rcases hunlink : e.disk.unlink path with c | disk
  · exact ⟨nofun, .reported (h ▸ rfl) _⟩
  · exact ⟨nofun, .unlinked h hunlink⟩

theorem acts_eraseCommand (h : inv.erasesKeys = true) (key : String) :
    Does (Engine.Act inv) (eraseCommand key) :=
  fun _ => ⟨nofun, .erased h key⟩

/-- What a change of the registry makes of it if it goes through. -/
theorem does_register {E : Engine → Engine → Prop} (hE : ∀ e, E e e)
    {change : Registry → Except RegistryError Registry}
    (h : ∀ e commands, change e.commands = .ok commands → E e { e with commands }) :
    Does E (register change) := by
  intro e
  rw [register, Engine.run_bind_ok e (Engine.run_get e)]
  rcases hc : change e.commands with c | commands
  · exact ⟨nofun, hE e⟩
  · exact ⟨nofun, h e commands hc⟩

theorem acts_insertMethod (args : Value) :
    Does (Engine.Act (.generic .insertMethod)) (insertMethod args) := by
  unfold insertMethod
  split
  · refine (idle_lift _).bind_acts fun key => (idle_lift _).bind_acts fun kind =>
      (idle_lift _).bind_acts fun script => (idle_lift _).bind_acts fun isPublic => ?_
    split
    · exact (idle_fail _).acts
    · exact does_register (fun _ => .idle) fun e commands => .inserted rfl
  · exact (idle_fail _).acts

theorem acts_aliasMethod (args : Value) :
    Does (Engine.Act (.generic .aliasMethod)) (aliasMethod args) := by
  unfold aliasMethod
  split
  · refine (idle_lift _).bind_acts fun key => (idle_lift _).bind_acts fun source => ?_
    exact does_register (fun _ => .idle) fun e commands => .aliased rfl
  · exact (idle_fail _).acts

/-! ## Commands on the parts of a download -/

theorem acts_file (args : Value) (ref : FileRef) :
    ∀ command : FileCommand, Does (Engine.Act (.file command ref)) (command.perform args ref)
  | .read _ => (idle_session.bind fun _ => (idle_download _).bind fun _ =>
    (idle_lift _).bind fun _ => idle_pure _).acts
  | .setPriority => (idle_lift _).bind_acts fun priority => idle_session.bind_acts fun _ =>
    (idle_lift _).bind_acts fun _ =>
      (acts_onDownload (.setPriority ref priority)).bind_idle fun _ => idle_pure _

theorem idle_cursor (ref : FileCursor) : ∀ command : CursorCommand, Idle (command.perform ref)
  | .read _ => (idle_download _).bind fun d => by
    dsimp only
    split
    · exact (idle_fail _).bind fun _ => idle_pure _
    · exact idle_pure _

theorem idle_peer (ref : PeerRef) : ∀ command : PeerCommand, Idle (command.perform ref)
  | .read _ => idle_session.bind fun _ => (idle_lift _).bind fun _ => idle_pure _

theorem acts_tracker (args : Value) (ref : TrackerRef) :
    ∀ command : TrackerCommand, Does (Engine.Act (.tracker command ref)) (command.perform args ref)
  | .read _ => (idle_session.bind fun _ => (idle_lift _).bind fun _ => idle_pure _).acts
  | .setEnabled => (idle_lift _).bind_acts fun n => idle_session.bind_acts fun _ =>
    (idle_lift _).bind_acts fun _ =>
      (acts_onDownload (.setEnabled ref (n != 0))).bind_idle fun _ => idle_pure _

end Run

/-! ## The errands of an invocation -/

/-- The calls by key that an invocation may send for. -/
inductive Invocation.Orders (args : Value) : Invocation → String → Target → Value → Prop where
  | start (id : DownloadId) :
      Orders args (.download .tryStart id) "d.start" (.download id) .empty
  | stop (id : DownloadId) :
      Orders args (.download .tryStop id) "d.stop" (.download id) .empty
  | stopFirst (id : DownloadId) :
      Orders args (.download .tryClose id) "d.stop" (.download id) .empty
  | close (id : DownloadId) :
      Orders args (.download .tryClose id) "d.close" (.download id) .empty
  | readTie (id : DownloadId) :
      Orders args (.download .deleteTied id) "d.get_tied_to_file" (.download id) .empty
  | clearTie (id : DownloadId) :
      Orders args (.download .deleteTied id) "d.set_tied_to_file" (.download id) (.text "")
  | forward (key : String) (target : Target) :
      Orders args (.hosted (.forward key) target) key target args

/-- The commands that execute texts of their arguments. -/
def Callable.executesTexts : Callable → Bool
  | .generic .multicall | .download (.multicall _) | .pair _ => true
  | _ => false

def Invocation.executesTexts : Invocation → Bool
  | .generic .multicall | .download (.multicall _) _ | .pair _ _ _ => true
  | _ => false

/-- What an invocation may send for. -/
def Invocation.Sends {args : Value} (inv : Invocation) : Errand args → Prop
  | .text _ _ => inv.executesTexts = true
  | .script target text => inv = .script text target
  | .order key target params => Orders args inv key target params

open Run Plan

/-- Every act of the plan is one of the invocation, and every errand one that it may send for. -/
abbrev Plan.Obeys {args : Value} {α : Type} (inv : Invocation) (p : Plan (Errand args) α) : Prop :=
  p.Every (Does (Engine.Act inv)) inv.Sends

variable {args : Value} {α : Type} {inv : Invocation}

theorem obeys_idle {m : Run α} (h : Idle m) : (liftM m : Plan (Errand args) α).Obeys inv :=
  every_lift h.acts

theorem obeys_text (h : inv.executesTexts = true) (target : Target) (inner : InnerText args) :
    (request (.text target inner) : Plan (Errand args) Value).Obeys inv :=
  every_request h

theorem obeys_order {key : String} {target : Target} {params : Value}
    (h : Invocation.Orders args inv key target params) :
    (request (.order key target params) : Plan (Errand args) Value).Obeys inv :=
  every_request h

theorem obeys_orderOn {id : DownloadId} {key : String} {params : Value}
    (h : Invocation.Orders args inv key (.download id) params) :
    (orderOn id key params : Plan (Errand args) Unit).Obeys inv :=
  (obeys_order h).bind fun _ => every_pure _

theorem obeys_multicall (h : inv.executesTexts = true) (targets : List Target) :
    (multicall targets : Plan (Errand args) Value).Obeys inv := by
  refine (obeys_idle (idle_lift _)).bind fun columns => (every_mapM fun target _ => ?_).bind
    fun _ => every_pure _
  refine (every_mapM fun column _ => ?_).bind fun _ => every_pure _
  exact (obeys_idle (idle_lift _)).bind fun inner => obeys_text h target inner

theorem obeys_generic : ∀ command : GenericCommand,
    (command.plan : Plan (Errand args) Value).Obeys (.generic command)
  | .downloadList => (obeys_idle idle_session).bind fun _ => every_pure _
  | .multicall => (obeys_idle idle_session).bind fun _ => obeys_multicall rfl _
  | .print => (every_lift (acts_report rfl _)).bind fun _ => every_pure _
  | .insertMethod => (every_lift (acts_insertMethod args)).bind fun _ => every_pure _
  | .aliasMethod => (every_lift (acts_aliasMethod args)).bind fun _ => every_pure _
  | .eraseMethod => (obeys_idle (idle_lift _)).bind fun _ =>
    (every_lift (acts_eraseCommand rfl _)).bind fun _ => every_pure _
  | .existsMethod => (obeys_idle (idle_lift _)).bind fun _ =>
    (obeys_idle idle_get).bind fun _ => every_pure _

theorem obeys_deleteTied (id : DownloadId) :
    (deleteTied id : Plan (Errand args) Unit).Obeys (.download .deleteTied id) := by
  refine (obeys_order (.readTie id)).bind fun v => ?_
  split
  · exact every_pure _
  · exact (every_lift (acts_unlink rfl _)).bind fun _ => obeys_orderOn (.clearTie id)
  · exact obeys_idle (idle_fail _)

theorem obeys_download (id : DownloadId) : ∀ command : DownloadCommand,
    (command.plan id : Plan (Errand args) Value).Obeys (.download command id)
  | .read _ => (obeys_idle (idle_download _)).bind fun _ => obeys_idle (idle_lift _)
  | .setInt setting => (obeys_idle (idle_lift _)).bind fun n =>
    (every_lift (acts_onDownload (.setInt setting n id))).bind fun _ => every_pure _
  | .setText setting => (obeys_idle (idle_lift _)).bind fun s =>
    (every_lift (acts_onDownload (.setText setting s id))).bind fun _ => every_pure _
  | .act action => (every_lift (acts_onDownload (.act action id))).bind fun _ => every_pure _
  | .list name operation => every_lift (acts_onDownload (.list name operation args id))
  | .setCustom => (obeys_idle (idle_lift _)).bind fun (key, text) =>
    (every_lift (acts_onDownload (.setCustom key text id))).bind fun _ => every_pure _
  | .custom => (obeys_idle (idle_lift _)).bind fun _ =>
    (obeys_idle (idle_download _)).bind fun _ => every_pure _
  | .customOrFail => (obeys_idle (idle_lift _)).bind fun key =>
    (obeys_idle (idle_download _)).bind fun d => by
      split
      · exact every_pure _
      · exact obeys_idle (idle_fail _)
  | .erase => (every_lift (acts_removeDownload rfl)).bind fun _ => every_pure _
  | .deleteTied => (obeys_deleteTied id).bind fun _ => every_pure _
  | .tryStart => (obeys_idle (idle_download _)).bind fun d => by
    dsimp only
    split
    · exact every_pure _
    · refine (obeys_idle (idle_lift _)).bind fun ignores => ?_
      split
      · exact every_pure _
      · exact (obeys_orderOn (.start id)).bind fun _ => every_pure _
  | .tryStop => (obeys_idle (idle_download _)).bind fun d =>
    (obeys_idle (idle_lift _)).bind fun ignores => by
      dsimp only
      split
      · exact every_pure _
      · exact (obeys_orderOn (.stop id)).bind fun _ => every_pure _
  | .tryClose => (obeys_idle (idle_download _)).bind fun d =>
    (obeys_idle (idle_lift _)).bind fun ignores => by
      dsimp only
      split
      · exact every_pure _
      · exact (obeys_orderOn (.stopFirst id)).bind fun _ =>
          (obeys_orderOn (.close id)).bind fun _ => every_pure _
  | .multicall _ => (obeys_idle (idle_download _)).bind fun _ => obeys_multicall rfl _

theorem obeys_pair (first second : DownloadId) (command : PairCommand) :
    (command.plan first second : Plan (Errand args) Value).Obeys (.pair command first second) :=
  (obeys_idle (idle_lift _)).bind fun inner => (obeys_text rfl _ inner).bind fun _ =>
    (obeys_text rfl _ inner).bind fun _ => (obeys_idle (idle_lift _)).bind fun _ => every_pure _

theorem obeys_hosted (target : Target) : ∀ action : HostAction,
    (action.plan target : Plan (Errand args) Value).Obeys (.hosted action target)
  | .echo | .describe | .constant _ => every_pure _
  | .erase _ => (every_lift (acts_eraseCommand rfl _)).bind fun _ => every_pure _
  | .forward key => obeys_order (.forward key target)
  | .fail _ => obeys_idle (idle_fail _)

/-- **Every action of an invocation ends and is one of its acts, and it sends for nothing but what
it may send for.** -/
theorem Invocation.plan_obeys : ∀ inv : Invocation, (inv.plan : Plan (Errand args) Value).Obeys inv
  | .script _ _ => every_request rfl
  | .generic command => obeys_generic command
  | .download command id => obeys_download id command
  | .peer command ref => obeys_idle (idle_peer ref command)
  | .tracker command ref => every_lift (acts_tracker args ref command)
  | .file command ref => every_lift (acts_file args ref command)
  | .cursor command ref => obeys_idle (idle_cursor ref command)
  | .pair command first second => obeys_pair first second command
  | .hosted action target => obeys_hosted target action

end TorrentControl
