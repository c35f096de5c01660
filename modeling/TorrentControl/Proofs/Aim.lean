import TorrentControl.Proofs.Task

/-! # Which calls reach their command

A call looks its key up and aims the callable at the target. `Callable.Receives` lists, for every
kind of callable, which targets it takes and which handles it is given of them. Aiming succeeds on
exactly these, so a call runs the callable on what it receives or is refused and changes nothing. -/

namespace TorrentControl

/-! ## What targets name -/

namespace Target

/-- Whether the target names an entity. -/
def isBound (target : Target) : Bool :=
  target.primary.isSome

/-- The target itself if it names an entity, and otherwise the generic one. -/
def orGeneric (target : Target) : Target :=
  if target.isBound then target else .generic

end Target

/-- The cursor points at a file of a download that is there. -/
def FileCursor.PointsIn (s : Session) (cursor : FileCursor) : Prop :=
  ∃ d, s.get? cursor.download = some d ∧ cursor.position < d.files.files.length

/-- A command of the kind can run on the target: the kind takes every target, or the target names an
entity of the kind, or the kind is that of files and the target is a cursor that points at one. -/
def Target.Suits (s : Session) (kind : TargetKind) (target : Target) : Prop :=
  kind.isUntyped = true ∨ (target.isBound = true ∧ target.kind = kind) ∨
    (kind = .file ∧ ∃ cursor, target = .entity (.cursor cursor) ∧ FileCursor.PointsIn s cursor)

/-- Why no command of the kind can run on the target: a cursor does not point at a file, or the
kinds differ. -/
def Target.refusal (s : Session) (key : String) (kind : TargetKind) (target : Target) :
    CommandError :=
  match kind, target with
  | .file, .entity (.cursor ref) =>
    .invalidHandle (if s.contains ref.download then (Entity.cursor ref).name else ref.download.name)
  | kind, target => .targetMismatch key kind target.kind

/-! ## What callables receive -/

/-- What a callable is run on where it is called on a target. A host command is given what a command
of its kind is; one of the kind that takes any target is given what a script is. -/
inductive Callable.Receives (s : Session) (target : Target) : Callable → Invocation → Prop where
  | script {text : String} : Receives s target (.script text) (.script text target.orGeneric)
  | generic {command : GenericCommand} : Receives s target (.generic command) (.generic command)
  | download {command : DownloadCommand} {id : DownloadId} (h : target = .entity (.download id)) :
      Receives s target (.download command) (.download command id)
  | peer {command : PeerCommand} {ref : PeerRef} (h : target = .entity (.peer ref)) :
      Receives s target (.peer command) (.peer command ref)
  | tracker {command : TrackerCommand} {ref : TrackerRef} (h : target = .entity (.tracker ref)) :
      Receives s target (.tracker command) (.tracker command ref)
  | file {command : FileCommand} {ref : FileRef} (h : target = .entity (.file ref)) :
      Receives s target (.file command) (.file command ref)
  | current {command : FileCommand} {ref : FileCursor} (h : target = .entity (.cursor ref))
      (hpoints : ref.PointsIn s) :
      Receives s target (.file command) (.file command ⟨ref.download, ref.position⟩)
  | cursor {command : CursorCommand} {ref : FileCursor} (h : target = .entity (.cursor ref)) :
      Receives s target (.cursor command) (.cursor command ref)
  | pair {command : PairCommand} {first second : DownloadId} (h : target = .pair first second) :
      Receives s target (.pair command) (.pair command first second)
  | hostedAny {action : HostAction} :
      Receives s target (.hosted .any action) (.hosted action target.orGeneric)
  | hostedGeneric {action : HostAction} :
      Receives s target (.hosted .generic action) (.hosted action .generic)
  | hosted {kind : TargetKind} {action : HostAction} (htyped : kind.isUntyped = false)
      (hbound : target.isBound = true) (hkind : target.kind = kind) :
      Receives s target (.hosted kind action) (.hosted action target)
  | hostedCurrent {action : HostAction} {ref : FileCursor} (h : target = .entity (.cursor ref))
      (hpoints : ref.PointsIn s) :
      Receives s target (.hosted .file action) (.hosted action (.file ⟨ref.download, ref.position⟩))

/-! ## Effective targets -/

theorem Session.download_ok_iff {s : Session} {id : DownloadId} {d : Download} :
    s.download id = .ok d ↔ s.get? id = some d := by
  unfold download
  split
  · rename_i found hfound
    simp [hfound]
  · rename_i hnone
    simp [hnone]

theorem Engine.run_download_of_get? {e : Engine} {id : DownloadId} {d : Download}
    (h : e.session.get? id = some d) : e.run (Run.download id) = (.ok d, e) := by
  rw [run_download, Session.download_ok_iff.2 h]
  rfl

theorem Engine.run_download_stale {e : Engine} {id : DownloadId} (h : e.session.get? id = none) :
    e.run (Run.download id) = (.error (.failed (.stale (.download id))), e) := by
  rw [run_download, Session.download, h]
  rfl

section

variable {s : Session} {key : String} {kind : TargetKind} {target : Target}

/-- A kind that takes every target sees the generic one in place of one that names nothing. -/
theorem effectiveTarget_untyped (h : kind.isUntyped = true) :
    effectiveTarget s key kind target = .ok target.orGeneric := by
  cases target <;> simp [effectiveTarget, h, Target.orGeneric, Target.isBound, Target.primary]

theorem effectiveTarget_own (h : target.isBound = true) :
    effectiveTarget s key target.kind target = .ok target := by
  cases target with
  | unbound actual => exact nomatch h
  | entity entity => simp [effectiveTarget]
  | pair first second => simp [effectiveTarget]

theorem effectiveTarget_cursor (ref : FileCursor) :
    effectiveTarget s key .file (.entity (.cursor ref)) =
      (s.download ref.download).bind fun d =>
        if ref.position < d.files.files.length then .ok (.file ⟨ref.download, ref.position⟩)
        else .error (.stale (.cursor ref)) := by
  have hkind : ¬ (TargetKind.file.isUntyped = true ∨
      TargetKind.file = (Target.entity (.cursor ref)).kind) := by
    rintro (h | h) <;> cases h
  simp only [effectiveTarget, if_neg hkind]
  refine congrArg (Except.bind _) (funext fun d => ?_)
  split <;> rfl

/-- What does not suit the kind is refused. -/
theorem effectiveTarget_refused (h : ¬ target.Suits s kind) :
    effectiveTarget s key kind target = .error (target.refusal s key kind) := by
  simp only [Target.Suits, not_or] at h
  obtain ⟨htyped, hown, hcurrent⟩ := h
  have hkind (hbound : target.isBound = true) : ¬ (kind.isUntyped = true ∨ kind = target.kind) :=
    fun h => h.elim htyped fun h => hown ⟨hbound, h.symm⟩
  by_cases hcursor : kind = .file ∧ ∃ ref, target = .entity (.cursor ref)
  · obtain ⟨rfl, ref, rfl⟩ := hcursor
    rw [effectiveTarget_cursor, Target.refusal, Session.contains, Session.download]
    cases hd : s.get? ref.download with
    | none => rfl
    | some d =>
      have hout : ¬ ref.position < d.files.files.length := fun hlt =>
        hcurrent ⟨rfl, ref, rfl, d, hd, hlt⟩
      exact if_neg hout
  · have hmismatch : target.refusal s key kind = .targetMismatch key kind target.kind := by
      unfold Target.refusal
      split
      · exact (hcursor ⟨rfl, _, rfl⟩).elim
      · rfl
    rw [hmismatch]
    cases target with
    | unbound actual => exact if_neg htyped
    | pair first second =>
      refine (if_neg (hkind rfl)).trans ?_
      split
      · rename_i htarget
        cases htarget
      · rfl
    | entity entity =>
      refine (if_neg (hkind rfl)).trans ?_
      split
      · rename_i ref htarget
        cases htarget
        exact (hcursor ⟨rfl, ref, rfl⟩).elim
      · rfl

end

/-! ## Aiming -/

namespace Callable

variable {s : Session} {target : Target} {callable : Callable} {inv : Invocation}

/-- Of a target that names an entity of its kind, a callable receives the entity. -/
theorem exists_receives_own (hbound : target.isBound = true) (hkind : target.kind = callable.kind) :
    ∃ inv, callable.Receives s target inv := by
  cases callable with
  | script text => exact ⟨_, .script⟩
  | generic command => exact ⟨_, .generic⟩
  | hosted kind action =>
    -- no target that names an entity is of an untyped kind
    refine ⟨_, .hosted ?_ hbound hkind⟩
    obtain rfl : target.kind = kind := hkind
    rcases target with _ | (_ | _ | _ | _ | _) | _
    · exact nomatch hbound
    all_goals rfl
  | download | peer | tracker | file | cursor | pair =>
    rcases target with _ | (_ | _ | _ | _ | _) | _ <;> cases hkind
    · exact nomatch hbound
    · first
      | exact ⟨_, .download rfl⟩
      | exact ⟨_, .peer rfl⟩
      | exact ⟨_, .tracker rfl⟩
      | exact ⟨_, .file rfl⟩
      | exact ⟨_, .cursor rfl⟩
      | exact ⟨_, .pair rfl⟩

/-- A callable receives something of exactly those targets that suit its kind. -/
theorem exists_receives_iff :
    (∃ inv, callable.Receives s target inv) ↔ target.Suits s callable.kind := by
  constructor
  · rintro ⟨inv, h⟩
    cases h with
    | script | generic | hostedAny | hostedGeneric => exact .inl rfl
    | download h | peer h | tracker h | file h | cursor h | pair h =>
      subst h
      exact .inr (.inl ⟨rfl, rfl⟩)
    | hosted _ hbound hkind => exact .inr (.inl ⟨hbound, hkind⟩)
    | current h hpoints | hostedCurrent h hpoints => exact .inr (.inr ⟨rfl, _, h, hpoints⟩)
  · rintro (huntyped | ⟨hbound, hkind⟩ | ⟨hfile, ref, htarget, hpoints⟩)
    · cases callable with
      | script text => exact ⟨_, .script⟩
      | generic command => exact ⟨_, .generic⟩
      | hosted kind action =>
        cases kind with
        | any => exact ⟨_, .hostedAny⟩
        | generic => exact ⟨_, .hostedGeneric⟩
        | _ => exact nomatch huntyped
      | _ => exact nomatch huntyped
    · exact exists_receives_own hbound hkind
    · cases callable with
      | file command => exact ⟨_, .current htarget hpoints⟩
      | hosted kind action =>
        cases hfile
        exact ⟨_, .hostedCurrent htarget hpoints⟩
      | _ => cases hfile

theorem aim_of_effective {key : String} {effective : Target}
    (heffective : effectiveTarget s key callable.kind target = .ok effective)
    (hon : callable.on effective = some inv) : callable.aim s key target = .ok inv := by
  simp only [aim, heffective, bind, Except.bind, hon]
  rfl

theorem aim_own (hbound : target.isBound = true) (hkind : target.kind = callable.kind)
    (hon : callable.on target = some inv) (key : String) : callable.aim s key target = .ok inv :=
  aim_of_effective (hkind ▸ effectiveTarget_own hbound) hon

theorem aim_current {ref : FileCursor} (hpoints : ref.PointsIn s) (hkind : callable.kind = .file)
    (hon : callable.on (.file ⟨ref.download, ref.position⟩) = some inv) (key : String) :
    callable.aim s key (.entity (.cursor ref)) = .ok inv := by
  obtain ⟨d, hd, hlt⟩ := hpoints
  refine aim_of_effective ?_ hon
  rw [hkind, effectiveTarget_cursor, Session.download_ok_iff.2 hd]
  exact if_pos hlt

/-- **Aiming gives what the callable receives.** -/
theorem Receives.aim (h : callable.Receives s target inv) (key : String) :
    callable.aim s key target = .ok inv := by
  cases h with
  | script | generic | hostedAny | hostedGeneric =>
    exact aim_of_effective (effectiveTarget_untyped rfl) rfl
  | download h | peer h | tracker h | file h | cursor h | pair h =>
    subst h
    exact aim_own rfl rfl rfl key
  | current h hpoints | hostedCurrent h hpoints =>
    subst h
    exact aim_current hpoints rfl rfl key
  | @hosted kind action htyped hbound hkind =>
    have hon : (Callable.hosted kind action).on target = some (.hosted action target) := by
      cases kind with
      | generic => exact nomatch htyped
      | _ => rfl
    exact aim_own (show target.isBound = true from hbound)
      (show target.kind = (Callable.hosted kind action).kind from hkind) hon key

theorem aim_refused (h : ¬ target.Suits s callable.kind) (key : String) :
    callable.aim s key target = .error (target.refusal s key callable.kind) := by
  simp only [aim, effectiveTarget_refused h, bind, Except.bind]

end Callable

/-! ## Calls -/

theorem Engine.aim_of_receives {e : Engine} {key : String} {target : Target} {entry : CommandEntry}
    {inv : Invocation} (hentry : e.commands.find? key = some entry)
    (h : entry.callable.Receives e.session target inv) : e.aim key target = .ok inv := by
  simp only [aim, hentry, h.aim key]

/-- A key that is bound comes to what its callable receives, or to an error. -/
theorem Engine.aim_cases {e : Engine} {key : String} {entry : CommandEntry}
    (hentry : e.commands.find? key = some entry) (target : Target) :
    (∃ inv, entry.callable.Receives e.session target inv ∧ e.aim key target = .ok inv) ∨
      ∃ c, e.aim key target = .error c := by
  by_cases hsuits : target.Suits e.session entry.callable.kind
  · obtain ⟨inv, hreceives⟩ := Callable.exists_receives_iff.2 hsuits
    exact .inl ⟨inv, hreceives, aim_of_receives hentry hreceives⟩
  · refine .inr ⟨target.refusal e.session key entry.callable.kind, ?_⟩
    simp only [aim, hentry, Callable.aim_refused hsuits key]

/-- A call of a key that is bound to a script runs the script. -/
theorem Task.run_call_script {e : Engine} {key script : String} {entry : CommandEntry}
    (hentry : e.commands.find? key = some entry) (hcallable : entry.callable = .script script)
    (target : Target) (args : Value) (hops left : Nat) :
    e.run ((Job.call key target args).run hops left) =
      e.run ((Job.script target.orGeneric script).run hops left) := by
  have haim : e.aim key target = .ok (.script script target.orGeneric) :=
    Engine.aim_of_receives hentry (hcallable ▸ .script)
  rw [run_call_of_aim haim, Invocation.plan, Plan.run_request]
  rfl

end TorrentControl
