import TorrentControl.Proofs.Atomicity
import TorrentControl.Proofs.Native
import TorrentControl.Proofs.OneStatement

/-! # Scripts that edit a download

The built-in scripts run several commands one after the other. Only the first can fail: once it went
through, the target is a download that is there, and on a download with a typed state the others go
through, as long as their keys are bound to the built-in commands. -/

namespace TorrentControl

open Download

/-! ## Ready downloads -/

/-- The built-in keys are bound to the built-in commands. -/
def Registry.Intact (r : Registry) : Prop :=
  ∀ b ∈ Builtin.all, ∃ entry, r.find? b.key = some entry ∧ entry.callable = b.callable

/-- The built-in commands find the download and can read its state. -/
structure Engine.Ready (e : Engine) (id : DownloadId) : Prop where
  typed : e.session.Holds Typed
  intact : e.commands.Intact
  live : ∃ d, e.session.get? id = some d

namespace Engine

variable {α : Type} {e : Engine} {id : DownloadId} {edit : Download.Edit α}

theorem Ready.of_eq {t : Engine} (h : e.Ready id) (hsession : t.session = e.session)
    (hcommands : t.commands = e.commands) : t.Ready id where
  typed := hsession ▸ h.typed
  intact := hcommands ▸ h.intact
  live := hsession ▸ h.live

/-- An action that goes through leaves the download ready. -/
theorem Ready.onDownload (h : e.Ready id) (hedit : edit.Succeeds) :
    ∃ a t d, e.run (Run.onDownload id edit) = (.ok a, t) ∧ t.Ready id ∧
      t.session.get? id = some (edit.after d) := by
  obtain ⟨d, hd⟩ := h.live
  obtain ⟨a, changed, hrun, htyped⟩ := hedit d (h.typed.get? hd)
  have hafter : edit.after d = changed := by rw [Edit.after, hrun]
  have hlive : (e.session.replace id changed).get? id = some changed := by
    rw [(Session.replaces hd changed).get? hd, if_pos rfl]
  refine ⟨a, { e with session := e.session.replace id changed }, d, ?_,
    ⟨?_, h.intact, changed, hlive⟩, hafter ▸ hlive⟩
  · rw [Run.run_onDownload, hd]
    simp only [hrun, hafter]
    rfl
  · exact h.typed.replace htyped

end Engine

/-! ## Calls that edit a download -/

/-- With these arguments the command acts on its download, and answers what is made of the answer. -/
def DownloadCommand.Performs {α : Type} (command : DownloadCommand) (args : Value) (edit : Edit α)
    (g : α → Value) : Prop :=
  ∀ (id : DownloadId) (perform : Errand args → Run Value),
    (command.plan id : Plan (Errand args) Value).run perform =
      Run.onDownload id edit >>= fun a => pure (g a)

/-- The key is that of a built-in command that acts on a download in this way. -/
def CallEdits {α : Type} (key : String) (args : Value) (edit : Edit α) : Prop :=
  ∃ b ∈ Builtin.all, b.key = key ∧ ∃ command g, b.callable = .download command ∧
    command.Performs args edit g

theorem performs_setInt {args : Value} {n : Int64} (hargs : args.asIntArgument = .ok n)
    (setting : IntSetting) :
    DownloadCommand.Performs (.setInt setting) args (setting.assign n) fun _ => .empty := by
  intro id perform
  simp only [DownloadCommand.plan, hargs]
  rfl

theorem performs_setText {args : Value} {s : String} (hargs : args.asTextArgument = .ok s)
    (setting : TextSetting) :
    DownloadCommand.Performs (.setText setting) args (setting.assign s) fun _ => .empty := by
  intro id perform
  simp only [DownloadCommand.plan, hargs]
  rfl

theorem performs_act (action : DownloadAction) (args : Value) :
    DownloadCommand.Performs (.act action) args action.act fun _ => .empty :=
  fun _ _ => rfl

theorem performs_list (name : String) (operation : ListOperation) (args : Value) :
    DownloadCommand.Performs (.list name operation) args (operation.perform name args) id :=
  fun _ _ => rfl

theorem callEdits_act {key : String} {args : Value} (action : DownloadAction)
    (h : Builtin.order key (.act action) ∈ Builtin.all) : CallEdits key args action.act :=
  ⟨_, h, rfl, _, _, rfl, performs_act action args⟩

namespace CallEdits

variable {α : Type} {key : String} {args : Value} {edit : Edit α} {e : Engine}

/-- The call on a download is the action on it. -/
theorem run (h : CallEdits key args edit) (hintact : e.commands.Intact) (id : DownloadId)
    (hops left : Nat) : ∃ g : α → Value,
      e.run ((Job.call key (.download id) args).run hops left) =
        e.run (Run.onDownload id edit >>= fun a => pure (g a)) := by
  obtain ⟨b, hb, rfl, command, g, hcommand, hperforms⟩ := h
  obtain ⟨entry, hentry, hcallable⟩ := hintact b hb
  have haim : e.aim b.key (.download id) = .ok (.download command id) :=
    Engine.aim_of_receives hentry (hcallable.trans hcommand ▸ .download rfl)
  exact ⟨g, by rw [Task.run_call_of_aim haim, Invocation.plan, hperforms]⟩

/-- **A call on any target is refused and changes nothing, or its target is a download that is
ready.** -/
theorem refused_or_ready (h : CallEdits key args edit) (he : e.session.Holds Typed)
    (hintact : e.commands.Intact) (target : Target) :
    (∃ error, ∀ hops left,
      e.run ((Job.call key target args).run hops left) = (.error (.failed error), e)) ∨
      ∃ id, target = .download id ∧ e.Ready id := by
  have hrun := h.run hintact
  obtain ⟨b, hb, hkey, command, g, hcommand, -⟩ := h
  obtain ⟨entry, hentry, hcallable⟩ := hintact b hb
  rw [hkey] at hentry
  rcases Engine.aim_cases hentry target with ⟨inv, hreceives, -⟩ | ⟨error, haim⟩
  · rw [hcallable, hcommand] at hreceives
    cases hreceives with
    | @download _ id htarget =>
      subst htarget
      cases hlive : e.session.get? id with
      | some d => exact .inr ⟨id, rfl, he, hintact, d, hlive⟩
      | none =>
        refine .inl ⟨.stale (.download id), fun hops left => ?_⟩
        obtain ⟨g, hrun⟩ := hrun id hops left
        have hstale := Run.run_onDownload e id edit
        rw [hlive] at hstale
        exact hrun.trans (Engine.run_bind_error e hstale)
  · exact .inl ⟨error, fun hops left => Task.run_call_refused haim args hops left⟩

/-- A call on a download that is ready goes through if its action does. -/
theorem run_ready (h : CallEdits key args edit) (hedit : edit.Succeeds) {id : DownloadId}
    (he : e.Ready id) (hops left : Nat) :
    ∃ v t d, e.run ((Job.call key (.download id) args).run hops left) = (.ok v, t) ∧ t.Ready id ∧
      t.session.get? id = some (edit.after d) := by
  obtain ⟨g, hrun⟩ := h.run he.intact id hops left
  obtain ⟨a, t, d, hedited, ht⟩ := he.onDownload hedit
  exact ⟨g a, t, d, hrun.trans (Engine.run_bind_ok e hedited), ht⟩

end CallEdits

/-! ## Scripts that edit a download -/

/-- The text of a command that acts on a download in this way, and goes through. -/
def TextEdits {α : Type} (text : String) (edit : Edit α) : Prop :=
  ∃ statement, Statement.parse text = .ok statement ∧
    CallEdits statement.key statement.args edit ∧ edit.Succeeds

/-- The statements of the script act on a download and go through, the last one in this way. -/
def ScriptEdits {α : Type} (script : String) (edit : Edit α) : Prop :=
  ∃ init last, Script.split script = .ok (init ++ [last]) ∧
    (∀ text ∈ init, ∃ (β : Type) (edit : Edit β), TextEdits text edit) ∧ TextEdits last edit

namespace TextEdits

variable {α : Type} {text : String} {edit : Edit α} {e : Engine}

theorem isBlankText_eq_false (h : TextEdits text edit) : Text.isBlankText text = false := by
  obtain ⟨statement, hparse, -⟩ := h
  exact Statement.isBlankText_of_parse hparse

theorem run_ready (h : TextEdits text edit) {id : DownloadId} (he : e.Ready id) (hops left : Nat) :
    ∃ v t d, e.run ((Job.execute (.download id) text).run hops left) = (.ok v, t) ∧ t.Ready id ∧
      t.session.get? id = some (edit.after d) := by
  obtain ⟨statement, hparse, hcall, hedit⟩ := h
  rw [Task.run_execute hparse]
  exact hcall.run_ready hedit he hops left

theorem refused_or_ready (h : TextEdits text edit) (he : e.session.Holds Typed)
    (hintact : e.commands.Intact) (target : Target) :
    (∃ error, ∀ hops left,
      e.run ((Job.execute target text).run hops left) = (.error (.failed error), e)) ∨
      ∃ id, target = .download id ∧ e.Ready id := by
  obtain ⟨statement, hparse, hcall, -⟩ := h
  simp only [Task.run_execute hparse]
  exact hcall.refused_or_ready he hintact target

end TextEdits

theorem Plan.run_foldlM {R α β : Type} {perform : R → Run Value} {f : β → α → Plan R β}
    (l : List α) (b : β) :
    (l.foldlM f b).run perform = l.foldlM (fun b a => (f b a).run perform) b := by
  induction l generalizing b with
  | nil => rfl
  | cons a l ih =>
    rw [List.foldlM_cons, List.foldlM_cons, run_bind]
    exact congrArg (_ >>= ·) (funext ih)

/-- A script is run as its statements that are not blank, one after the other. -/
theorem Task.run_visible {script : String} {statements : List String}
    (hsplit : Script.split script = .ok statements) (e : Engine) (target : Target)
    (hops left : Nat) : e.run ((Job.script target script).run hops (left + 1)) =
      e.run ((statements.filter fun text => !Text.isBlankText text).foldlM
        (fun _ text => (Job.execute target text).run hops left) .empty) := by
  rw [run_eq ⟨e, left + 1, .script target script⟩ hops]
  simp only [plan, hsplit, statementsPlan, Plan.run_rename, Plan.run_foldlM, Plan.run_request]
  rfl

theorem Task.run_script {script : String} {statements : List String}
    (hsplit : Script.split script = .ok statements)
    (hfull : ∀ text ∈ statements, Text.isBlankText text = false) (e : Engine) (target : Target)
    (hops left : Nat) : e.run ((Job.script target script).run hops (left + 1)) =
      e.run (statements.foldlM (fun _ text => (Job.execute target text).run hops left) .empty) := by
  have hkept : (statements.filter fun text => !Text.isBlankText text) = statements :=
    List.filter_eq_self.2 fun text htext => by simp [hfull text htext]
  rw [run_visible hsplit, hkept]

namespace ScriptEdits

variable {α : Type} {script : String} {edit : Edit α} {e : Engine}

/-- Statements go through one after the other. -/
theorem run_statements {texts : List String}
    (h : ∀ text ∈ texts, ∃ (β : Type) (edit : Edit β), TextEdits text edit) {id : DownloadId}
    (he : e.Ready id) (hops left : Nat) (v : Value) : ∃ w t,
      e.run (texts.foldlM (fun _ text => (Job.execute (.download id) text).run hops left) v) =
        (.ok w, t) ∧ t.Ready id := by
  induction texts generalizing e v with
  | nil => exact ⟨v, e, rfl, he⟩
  | cons text texts ih =>
    obtain ⟨β, edit, hedits⟩ := h text (.head _)
    obtain ⟨w, t, d, hrun, ht, -⟩ := hedits.run_ready he hops left
    rw [List.foldlM_cons, Engine.run_bind_ok e hrun]
    exact ih (fun other hother => h other (.tail _ hother)) ht w

/-- The first statement is refused, or the others find the download ready. -/
theorem refused_or_ready {texts : List String}
    (h : ∀ text ∈ texts, ∃ (β : Type) (edit : Edit β), TextEdits text edit) (hne : texts ≠ [])
    (he : e.session.Holds Typed) (hintact : e.commands.Intact) (target : Target) (hops left : Nat)
    (v : Value) :
    (∃ error, e.run (texts.foldlM (fun _ text => (Job.execute target text).run hops left) v) =
      (.error error, e)) ∨ ∃ id, target = .download id ∧ e.Ready id := by
  cases texts with
  | nil => exact (hne rfl).elim
  | cons text texts =>
    obtain ⟨β, edit, hedits⟩ := h text (.head _)
    rcases hedits.refused_or_ready he hintact target with ⟨error, hrun⟩ | hready
    · rw [List.foldlM_cons, Engine.run_bind_error e (hrun hops left)]
      exact .inl ⟨_, rfl⟩
    · exact .inr hready

/-- **A script is refused and changes nothing, or it goes through on a download that is ready.** -/
theorem outcome (h : ScriptEdits script edit) (he : e.session.Holds Typed)
    (hintact : e.commands.Intact) (target : Target) (hops left : Nat) :
    (∃ error, e.run ((Job.script target script).run hops left) = (.error error, e)) ∨
      ∃ id v t d, target = .download id ∧
        e.run ((Job.script target script).run hops left) = (.ok v, t) ∧ t.Ready id ∧
          t.session.get? id = some (edit.after d) := by
  cases left with
  | zero => exact .inl ⟨_, rfl⟩
  | succ left =>
    obtain ⟨init, last, hsplit, hinit, hlast⟩ := h
    have hall : ∀ text ∈ init ++ [last], ∃ (β : Type) (edit : Edit β), TextEdits text edit :=
      List.forall_mem_append.2 ⟨hinit, List.forall_mem_singleton.2 ⟨α, edit, hlast⟩⟩
    have hfull : ∀ text ∈ init ++ [last], Text.isBlankText text = false := fun text htext => by
      obtain ⟨β, edit, hedits⟩ := hall text htext
      exact hedits.isBlankText_eq_false
    rw [Task.run_script hsplit hfull]
    rcases refused_or_ready hall (by simp) he hintact target hops left .empty with
      hrefused | ⟨id, rfl, hready⟩
    · exact .inl hrefused
    · obtain ⟨w, t, hrun, ht⟩ := run_statements hinit hready hops left .empty
      obtain ⟨v, u, d, hrun', hu, hget⟩ := hlast.run_ready ht hops left
      refine .inr ⟨id, v, u, d, rfl, ?_, hu, hget⟩
      rw [List.foldlM_append, Engine.run_bind_ok e hrun, List.foldlM_cons,
        Engine.run_bind_ok t hrun']
      rfl

end ScriptEdits

/-! ## The built-in scripts -/

theorem textEdits_setHashingFailed :
    TextEdits "d.set_hashing_failed=0" (IntSetting.hashFailed.assign 0) := by
  have hparse : Statement.parse "d.set_hashing_failed=0" =
      .ok ⟨"d.set_hashing_failed", .text "0"⟩ :=
    Statement.parse_word (show Statement.IsKey "d.set_hashing_failed" by decide)
      ⟨['0'], List.all_eq_true.1 rfl, .cons rfl⟩ ⟨'0', by decide, by decide⟩
  have hargs : (Value.text "0").asIntArgument = .ok 0 := by decide
  exact ⟨_, hparse, ⟨.setInt "d.set_hashing_failed" .hashFailed,
    by simp [Builtin.all, Builtin.settings], rfl, _, _, rfl, performs_setInt hargs .hashFailed⟩,
    Edit.succeeds_modify fun _ => rfl⟩

theorem textEdits_views {key : String} {operation : ListOperation} (hkey : Statement.IsKey key)
    (hb : ∃ b ∈ Builtin.all, b.key = key ∧ b.callable = .download (.list "views" operation))
    (run : Arguments.BareRun) (hrun : Arguments.Visible run.val) :
    TextEdits (key ++ "=" ++ String.ofList run.val)
      (operation.perform "views" (.text (String.ofList (Text.trimChars run.val)))) := by
  obtain ⟨b, hb, rfl, hcallable⟩ := hb
  exact ⟨_, Statement.parse_word hkey run hrun,
    ⟨b, hb, rfl, _, _, hcallable, performs_list "views" operation _⟩, Edit.succeeds_views _ _⟩

theorem textEdits_pushView (run : Arguments.BareRun) (hrun : Arguments.Visible run.val) :
    TextEdits ("d.views.push_back_unique=" ++ String.ofList run.val)
      (ListOperation.pushUnique.perform "views"
        (.text (String.ofList (Text.trimChars run.val)))) :=
  textEdits_views (show Statement.IsKey "d.views.push_back_unique" by decide)
    ⟨.order "d.views.push_back_unique" (.list "views" .pushUnique),
      by simp [Builtin.all, Builtin.views], rfl, rfl⟩
    run hrun

theorem textEdits_removeView (run : Arguments.BareRun) (hrun : Arguments.Visible run.val) :
    TextEdits ("d.views.remove=" ++ String.ofList run.val)
      (ListOperation.remove.perform "views" (.text (String.ofList (Text.trimChars run.val)))) :=
  textEdits_views (show Statement.IsKey "d.views.remove" by decide)
    ⟨.order "d.views.remove" (.list "views" .remove),
      by simp [Builtin.all, Builtin.views], rfl, rfl⟩ run hrun

def startedWord : Arguments.BareRun :=
  ⟨"started".toList, List.all_eq_true.1 rfl, .cons rfl⟩

def stoppedWord : Arguments.BareRun :=
  ⟨"stopped".toList, List.all_eq_true.1 rfl, .cons rfl⟩

theorem visible_started : Arguments.Visible startedWord.val :=
  ⟨'s', by decide, by decide⟩

theorem visible_stopped : Arguments.Visible stoppedWord.val :=
  ⟨'s', by decide, by decide⟩

theorem textEdits_pause : TextEdits "d.pause" Edit.pause :=
  ⟨⟨"d.pause", .empty⟩, rfl, callEdits_act .pause (by simp [Builtin.all, Builtin.lifecycle]),
    Edit.succeeds_pause⟩

theorem textEdits_resume : TextEdits "d.resume" Edit.resume :=
  ⟨⟨"d.resume", .empty⟩, rfl, callEdits_act .resume (by simp [Builtin.all, Builtin.lifecycle]),
    Edit.succeeds_resume⟩

theorem scriptEdits_stop : ScriptEdits Builtin.stopScript Edit.pause := by
  refine ⟨["d.views.push_back_unique=stopped", "d.views.remove=started"], "d.pause",
    Builtin.split_stop, ?_, textEdits_pause⟩
  have pushes := textEdits_pushView stoppedWord visible_stopped
  have removes := textEdits_removeView startedWord visible_started
  exact List.forall_mem_cons.2 ⟨⟨_, _, pushes⟩, List.forall_mem_singleton.2 ⟨_, _, removes⟩⟩

theorem scriptEdits_start : ScriptEdits Builtin.startScript Edit.resume := by
  refine ⟨["d.set_hashing_failed=0", "d.views.push_back_unique=started", "d.views.remove=stopped"],
    "d.resume", Builtin.split_start, ?_, textEdits_resume⟩
  have pushes := textEdits_pushView startedWord visible_started
  have removes := textEdits_removeView stoppedWord visible_stopped
  exact List.forall_mem_cons.2 ⟨⟨_, _, textEdits_setHashingFailed⟩,
    List.forall_mem_cons.2 ⟨⟨_, _, pushes⟩, List.forall_mem_singleton.2 ⟨_, _, removes⟩⟩⟩

/-- A built-in script is refused and changes nothing, or it goes through on a ready download. -/
theorem outcome_of_script {α : Type} {script : String} {edit : Edit α}
    (hedits : ScriptEdits script edit) {e : Engine} (he : e.session.Holds Typed)
    (hintact : e.commands.Intact) {b : Builtin} (hb : b ∈ Builtin.all)
    (hcallable : b.callable = .script script) (target : Target) (args : Value) (hops left : Nat) :
    (∃ error, e.run ((Job.call b.key target args).run hops left) = (.error error, e)) ∨
      ∃ id v t d, e.run ((Job.call b.key target args).run hops left) = (.ok v, t) ∧
        target = .download id ∧ t.Ready id ∧ t.session.get? id = some (edit.after d) := by
  obtain ⟨entry, hentry, hcallable'⟩ := hintact b hb
  rw [Task.run_call_script hentry (hcallable'.trans hcallable)]
  rcases hedits.outcome he hintact target.orGeneric hops left with
    hrefused | ⟨id, v, t, d, htarget, hrest, ht⟩
  · exact .inl hrefused
  · refine .inr ⟨id, v, t, d, hrest, ?_, ht⟩
    rw [Target.orGeneric] at htarget
    split at htarget
    · exact htarget
    · cases htarget

end TorrentControl
