import TorrentControl.Proofs.Serving
import TorrentControl.Proofs.Session
import TorrentControl.Proofs.Sparing

/-! # Commands that fail leave nothing behind

Nothing is taken back when a command fails. A command is atomic because it looks at everything that
may be wrong before it writes, or because what it does after the first write cannot fail on a
download with a typed state. -/

namespace TorrentControl

/-! ## Actions on a download -/

namespace Download.Edit

variable {α β : Type}

/-- Where the action fails on a typed download, it leaves the download as it was. -/
def Atomic (edit : Edit α) : Prop :=
  ∀ d, d.Typed → ∀ c, (edit.run.run d).1 = .error c → edit.after d = d

theorem Succeeds.atomic {edit : Edit α} (h : edit.Succeeds) : edit.Atomic := by
  intro d hd c hc
  obtain ⟨a, t, hrun, -⟩ := h d hd
  rw [hrun] at hc
  cases hc

theorem atomic_modify (change : Download → Download) : (modify change : Edit Unit).Atomic :=
  fun _ _ _ hc => nomatch hc

theorem atomic_throw (c : CommandError) : (throw c : Edit α).Atomic :=
  fun _ _ _ _ => rfl

/-- What changes nothing may come before an atomic action. -/
theorem Spares.bind_atomic {edit : Edit α} {f : α → Edit β} (h : edit.Spares id)
    (hf : ∀ a, (f a).Atomic) : (edit >>= f).Atomic := by
  intro d hd c hc
  have hd' : edit.after d = d := h d
  rw [after] at hd' ⊢
  rcases hrun : edit.run.run d with ⟨c | a, t⟩
  · rw [hrun] at hd'
    rw [run_bind_error hrun]
    exact hd'
  · rw [hrun] at hd'
    obtain rfl : t = d := hd'
    rw [run_bind_ok hrun] at hc ⊢
    exact hf a t hd c hc

theorem atomic_setInt (n : Int64) (setting : IntSetting)
    (h : ∀ name, setting = .variableNamed name → name ∈ integerVariables) :
    (setting.assign n).Atomic := by
  cases setting with
  | maxFileSize | peersMin | peersMax | uploadsMax =>
    exact (spares_lift _).bind_atomic fun _ => atomic_modify _
  | hashFailed | peerExchange | trackerNumWant => exact atomic_modify _
  | priority =>
    simp only [IntSetting.assign]
    split
    · exact (spares_throw _).bind_atomic fun _ => atomic_modify _
    · exact atomic_modify _
  | variableNamed name => exact (succeeds_setVariable (fits_int (h name rfl) n)).atomic

theorem atomic_setText (s : String) (setting : TextSetting)
    (h : ∀ name, setting = .variableNamed name → name ∈ textVariables.map Prod.fst) :
    (setting.assign s).Atomic := by
  cases setting with
  | message | directory | directoryBase => exact atomic_modify _
  | connection =>
    simp only [TextSetting.assign]
    split
    · exact atomic_modify _
    · exact atomic_throw _
  | addedPeer =>
    refine spares_get.bind_atomic fun d => ?_
    dsimp only
    split
    · exact (spares_throw _).bind_atomic fun _ => (spares_lift _).bind_atomic fun _ => atomic_modify _
    · exact (spares_lift _).bind_atomic fun _ => atomic_modify _
  | variableNamed name => exact (succeeds_setVariable (fits_text (h name rfl) s)).atomic

theorem atomic_act (action : DownloadAction) : action.act.Atomic := by
  cases action with
  | resume => exact succeeds_resume.atomic
  | pause => exact succeeds_pause.atomic
  | openStorage => exact atomic_modify _
  | closeStorage | checkHash =>
    refine spares_get.bind_atomic fun d => ?_
    dsimp only
    split
    · exact (spares_throw _).bind_atomic fun _ => atomic_modify _
    · exact atomic_modify _

end Download.Edit

/-! ## Actions on the engine -/

namespace Run

variable {α β : Type} {e : Engine}

/-- Where the action fails on the engine, it leaves the engine as it was. -/
def Atomic (m : Run α) (e : Engine) : Prop :=
  ∀ h, (e.run m).1 = .error h → (e.run m).2 = e

theorem Idle.atomic {m : Run α} (h : Idle m) (e : Engine) : Atomic m e :=
  fun _ _ => (h e).2

/-- What changes nothing may come before an atomic action. -/
theorem Idle.bind_atomic {m : Run α} {f : α → Run β} (hm : Idle m) (hf : ∀ a, Atomic (f a) e) :
    Atomic (m >>= f) e := by
  intro h hh
  have ht := (hm e).2
  rcases hrun : e.run m with ⟨c | a, t⟩
  · rw [hrun] at ht
    rw [Engine.run_bind_error e hrun]
    exact ht
  · rw [hrun] at ht
    obtain rfl : t = e := ht
    rw [Engine.run_bind_ok t hrun] at hh ⊢
    exact hf a h hh

/-- What goes through may come behind an atomic action. -/
theorem Atomic.bind {m : Run α} {f : α → Run β} (hm : Atomic m e)
    (hf : ∀ a t, e.run m = (.ok a, t) → ∃ b u, t.run (f a) = (.ok b, u)) :
    Atomic (m >>= f) e := by
  intro h hh
  rcases hrun : e.run m with ⟨c | a, t⟩
  · have ht := hm c (by rw [hrun])
    rw [hrun] at ht
    rw [Engine.run_bind_error e hrun]
    exact ht
  · obtain ⟨b, u, hrest⟩ := hf a t hrun
    rw [Engine.run_bind_ok e hrun, hrest] at hh
    cases hh

theorem Atomic.bind_pure {m : Run α} (hm : Atomic m e) (g : α → β) :
    Atomic (m >>= fun a => pure (g a)) e :=
  hm.bind fun a t _ => ⟨g a, t, rfl⟩

theorem atomic_onDownload {edit : Download.Edit α} (he : e.session.Holds Download.Typed)
    (hedit : edit.Atomic) (id : DownloadId) : Atomic (onDownload id edit) e := by
  intro h hh
  rw [run_onDownload] at hh ⊢
  split at hh
  · rename_i d hd
    cases hfailed : (edit.run.run d).1 with
    | ok a =>
      rw [hfailed] at hh
      cases hh
    | error c =>
      simp only [hedit d (he.get? hd) c hfailed, Session.replace_self hd]
  · rfl

theorem atomic_removeDownload (id : DownloadId) : Atomic (removeDownload id) e := by
  intro h hh
  rw [removeDownload, Engine.run_bind_ok e (Engine.run_session e)] at hh ⊢
  rcases hremove : e.session.remove id with _ | ⟨d, remaining⟩
  · rfl
  · rw [hremove] at hh
    cases hh

theorem atomic_report (message : String) : Atomic (report message) e :=
  fun _ h => nomatch h

theorem atomic_eraseCommand (key : String) : Atomic (eraseCommand key) e :=
  fun _ h => nomatch h

theorem atomic_register (change : Registry → Except RegistryError Registry) :
    Atomic (register change) e := by
  intro h hh
  rw [register, Engine.run_bind_ok e (Engine.run_get e)] at hh ⊢
  rcases hchange : change e.commands with c | commands
  · rfl
  · rw [hchange] at hh
    cases hh

end Run

namespace Plan

variable {R α β : Type} {perform : R → Run Value} {e : Engine}

theorem run_lift (m : Run α) : (liftM m : Plan R α).run perform = m :=
  bind_pure m

/-- Where the plan fails on the engine, it leaves the engine as it was. -/
def Atomic (perform : R → Run Value) (e : Engine) (p : Plan R α) : Prop :=
  Run.Atomic (p.run perform) e

theorem atomic_pure (a : α) : (pure a : Plan R α).Atomic perform e :=
  fun _ hh => nomatch hh

theorem atomic_lift {m : Run α} (h : Run.Atomic m e) : (liftM m : Plan R α).Atomic perform e := by
  rwa [Atomic, run_lift]

theorem atomic_idle_bind {m : Run α} {f : α → Plan R β} (hm : Run.Idle m)
    (hf : ∀ a, (f a).Atomic perform e) : ((liftM m : Plan R α) >>= f).Atomic perform e := by
  rw [Atomic, run_bind, run_lift]
  exact hm.bind_atomic hf

theorem Atomic.bind {p : Plan R α} {f : α → Plan R β} (h : p.Atomic perform e)
    (hf : ∀ a t, e.run (p.run perform) = (.ok a, t) →
      ∃ b u, t.run ((f a).run perform) = (.ok b, u)) : (p >>= f).Atomic perform e := by
  rw [Atomic, run_bind]
  exact Run.Atomic.bind h hf

theorem Atomic.bind_pure {p : Plan R α} (h : p.Atomic perform e) (g : α → β) :
    (p >>= fun a => pure (g a)).Atomic perform e :=
  h.bind fun a t _ => ⟨g a, t, rfl⟩

end Plan

/-! ## Commands that ask for nothing -/

section Commands

open Run Plan

variable {args : Value} {e : Engine} {perform : Errand args → Run Value}

theorem Run.atomic_insertMethod (args : Value) : Run.Atomic (insertMethod args) e := by
  unfold insertMethod
  split
  · refine (idle_lift _).bind_atomic fun key => (idle_lift _).bind_atomic fun kind =>
      (idle_lift _).bind_atomic fun script => (idle_lift _).bind_atomic fun isPublic => ?_
    split
    · exact (idle_fail _).bind_atomic fun _ => atomic_register _
    · exact atomic_register _
  · exact (idle_fail _).atomic e

theorem Run.atomic_aliasMethod (args : Value) : Run.Atomic (aliasMethod args) e := by
  unfold aliasMethod
  split
  · exact (idle_lift _).bind_atomic fun key => (idle_lift _).bind_atomic fun source =>
      atomic_register _
  · exact (idle_fail _).atomic e

theorem atomic_generic : ∀ {command : GenericCommand}, command ≠ .multicall →
    (command.plan : Plan (Errand args) Value).Atomic perform e
  | .multicall, h => (h rfl).elim
  | .downloadList, _ => atomic_idle_bind idle_session fun _ => atomic_pure _
  | .print, _ => (atomic_lift (atomic_report _)).bind_pure _
  | .insertMethod, _ => (atomic_lift (atomic_insertMethod args)).bind_pure _
  | .aliasMethod, _ => (atomic_lift (atomic_aliasMethod args)).bind_pure _
  | .eraseMethod, _ => atomic_idle_bind (idle_lift _) fun key =>
    (atomic_lift (atomic_eraseCommand key)).bind_pure _
  | .existsMethod, _ => atomic_idle_bind (idle_lift _) fun _ =>
    atomic_idle_bind idle_get fun _ => atomic_pure _

/-- The commands on a download that send for other commands. -/
def DownloadCommand.isComposite : DownloadCommand → Bool
  | .deleteTied | .tryStart | .tryStop | .tryClose | .multicall _ => true
  | _ => false

variable (he : e.session.Holds Download.Typed)

include he

theorem atomic_download (id : DownloadId) : ∀ {command : DownloadCommand},
    command.isComposite = false → (Callable.download command).isRegular = true →
      (command.plan id : Plan (Errand args) Value).Atomic perform e
  | .read _, _, _ => atomic_idle_bind (idle_download _) fun _ => atomic_lift ((idle_lift _).atomic e)
  | .setInt setting, _, hregular => atomic_idle_bind (idle_lift _) fun n => by
    have hsetting := Download.Edit.atomic_setInt n setting (by
      rintro name rfl
      exact List.contains_iff_mem.1 hregular)
    exact (atomic_lift (atomic_onDownload he hsetting id)).bind_pure _
  | .setText setting, _, hregular => atomic_idle_bind (idle_lift _) fun s => by
    have hsetting := Download.Edit.atomic_setText s setting (by
      rintro name rfl
      exact List.contains_iff_mem.1 hregular)
    exact (atomic_lift (atomic_onDownload he hsetting id)).bind_pure _
  | .act action, _, _ =>
    (atomic_lift (atomic_onDownload he (Download.Edit.atomic_act action) id)).bind_pure _
  | .list name operation, _, hregular => by
    obtain rfl : name = "views" := beq_iff_eq.1 hregular
    exact atomic_lift
      (atomic_onDownload he (Download.Edit.succeeds_views args operation).atomic id)
  | .setCustom, _, _ => atomic_idle_bind (idle_lift _) fun (key, text) =>
    (atomic_lift (atomic_onDownload he
      (Download.Edit.succeeds_setCustom key text).atomic id)).bind_pure _
  | .custom, _, _ => atomic_idle_bind (idle_lift _) fun _ =>
    atomic_idle_bind (idle_download _) fun _ => atomic_pure _
  | .customOrFail, _, _ => atomic_idle_bind (idle_lift _) fun key =>
    atomic_idle_bind (idle_download _) fun d => by
      split
      · exact atomic_pure _
      · exact atomic_lift ((idle_fail _).atomic e)
  | .erase, _, _ => (atomic_lift (atomic_removeDownload id)).bind_pure _

theorem Run.atomic_file (ref : FileRef) : ∀ command : FileCommand,
    Run.Atomic (command.perform args ref) e
  | .read _ => (idle_session.bind fun _ => (idle_download _).bind fun _ =>
    (idle_lift _).bind fun _ => idle_pure _).atomic e
  | .setPriority => (idle_lift _).bind_atomic fun _ => idle_session.bind_atomic fun _ =>
    (idle_lift _).bind_atomic fun _ =>
      (atomic_onDownload he (Download.Edit.atomic_modify _) _).bind_pure _

theorem Run.atomic_tracker (ref : TrackerRef) : ∀ command : TrackerCommand,
    Run.Atomic (command.perform args ref) e
  | .read _ => (idle_session.bind fun _ => (idle_lift _).bind fun _ => idle_pure _).atomic e
  | .setEnabled => (idle_lift _).bind_atomic fun _ => idle_session.bind_atomic fun _ =>
    (idle_lift _).bind_atomic fun _ =>
      (atomic_onDownload he (Download.Edit.atomic_modify _) _).bind_pure _

end Commands

end TorrentControl
