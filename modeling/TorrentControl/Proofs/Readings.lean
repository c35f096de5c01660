import TorrentControl.Proofs.ReadOnly
import TorrentControl.Proofs.Variables

/-! # What a reading sees

A built-in command that reads sees little of the engine: a field or a variable of one download, a
custom field, or one thing about a file, a peer or a tracker. So two engines that show the same where
a command looks give it the same answer. -/

namespace TorrentControl

open Download

/-! ## Sights -/

/-- One thing that can be seen of a download. -/
inductive Sight where
  | reading (r : DownloadReading)
  | custom (key : String)
  | fileCount
  | file (index : Nat) (r : FileReading)
  | peer (index : Nat) (r : PeerReading)
  | tracker (index : Nat) (r : TrackerReading)

/-- Two downloads show the same. -/
def Sight.Same (a b : Download) : Sight → Prop
  | .reading r => r.read b = r.read a
  | .custom key => b.customField? key = a.customField? key
  | .fileCount => b.files.files.length = a.files.files.length
  | .file i r =>
    (b.files.files[i]?).map (r.read b.files i) = (a.files.files[i]?).map (r.read a.files i)
  | .peer i r => (b.peers[i]?).map r.read = (a.peers[i]?).map r.read
  | .tracker i r => (b.trackers.trackers[i]?).map r.read = (a.trackers.trackers[i]?).map r.read

theorem Sight.same_self (d : Download) (sight : Sight) : sight.Same d d := by
  cases sight <;> rfl

/-- What a command that reads looks at. -/
inductive Invocation.Sees (args : Value) : Invocation → DownloadId → Sight → Prop where
  | read {r : DownloadReading} {id : DownloadId} : Sees args (.download (.read r) id) id (.reading r)
  | list {name : String} {operation : ListOperation} {id : DownloadId} :
      Sees args (.download (.list name operation) id) id (.reading (.variableNamed name))
  | custom {key : String} {id : DownloadId} (h : args.asTextArgument = .ok key) :
      Sees args (.download .custom id) id (.custom key)
  | customOrFail {key : String} {id : DownloadId} (h : args.asTextArgument = .ok key) :
      Sees args (.download .customOrFail id) id (.custom key)
  | file {r : FileReading} {ref : FileRef} :
      Sees args (.file (.read r) ref) ref.download (.file ref.index r)
  | cursor {r : CursorReading} {ref : FileCursor} :
      Sees args (.cursor (.read r) ref) ref.download .fileCount
  | peer {r : PeerReading} {ref : PeerRef} :
      Sees args (.peer (.read r) ref) ref.download (.peer ref.index r)
  | tracker {r : TrackerReading} {ref : TrackerRef} :
      Sees args (.tracker (.read r) ref) ref.download (.tracker ref.index r)
  | hashes {id : DownloadId} : Sees args (.generic .downloadList) id (.reading .hash)

/-! ## Runs that are answered alike -/

namespace Run

variable {α β γ δ : Type} {e t : Engine} {R : α → β → Prop} {S : γ → δ → Prop}

/-- The first action on the first engine and the second one on the second engine fail with the same
error, or answer what is in the relation. Both leave their engine as it was. -/
def Alike (e t : Engine) (R : α → β → Prop) (m : Run α) (n : Run β) : Prop :=
  (∃ a b, R a b ∧ e.run m = (.ok a, e) ∧ t.run n = (.ok b, t)) ∨
    ∃ h, e.run m = (.error h, e) ∧ t.run n = (.error h, t)

theorem Alike.bind {m : Run α} {n : Run β} {f : α → Run γ} {g : β → Run δ} (h : Alike e t R m n)
    (hf : ∀ a b, R a b → Alike e t S (f a) (g b)) : Alike e t S (m >>= f) (n >>= g) := by
  rcases h with ⟨a, b, hab, hm, hn⟩ | ⟨halt, hm, hn⟩
  · rw [Alike, Engine.run_bind_ok e hm, Engine.run_bind_ok t hn]
    exact hf a b hab
  · exact .inr ⟨halt, Engine.run_bind_error e hm, Engine.run_bind_error t hn⟩

theorem alike_pure {a : α} {b : β} (h : R a b) : Alike e t R (pure a) (pure b) :=
  .inl ⟨a, b, h, rfl, rfl⟩

theorem alike_fail (c : CommandError) : Alike e t R (fail c) (fail c) :=
  .inr ⟨.failed c, rfl, rfl⟩

theorem Alike.mono {R' : α → β → Prop} {m : Run α} {n : Run β} (h : Alike e t R m n)
    (hR : ∀ a b, R a b → R' a b) : Alike e t R' m n :=
  h.imp_left fun ⟨a, b, hab, hm, hn⟩ => ⟨a, b, hR a b hab, hm, hn⟩

/-- What goes on with a value may use that the value was there. -/
theorem alike_lift_ok (x : Except CommandError α) :
    Alike e t (fun a b => x = .ok a ∧ a = b) (lift x) (lift x) := by
  cases x with
  | ok a => exact alike_pure ⟨rfl, rfl⟩
  | error c => exact alike_fail c

theorem alike_lift (x : Except CommandError α) : Alike e t Eq (lift x) (lift x) :=
  (alike_lift_ok x).mono fun _ _ => And.right

theorem Alike.answer {m n : Run α} (h : Alike e t Eq m n) : (t.run n).1 = (e.run m).1 := by
  rcases h with ⟨a, _, rfl, hm, hn⟩ | ⟨halt, hm, hn⟩ <;> rw [hm, hn]

end Run

/-! ## Looking up parts -/

namespace Session

theorem file_eq (s : Session) (ref : FileRef) : s.file ref =
    s.download ref.download >>= fun d =>
      d.files.files[ref.index]?.elim (throw (.stale (.file ref))) pure := by
  rw [file]
  refine congrArg (_ >>= ·) (funext fun d => ?_)
  cases d.files.files[ref.index]? <;> rfl

theorem peer_eq (s : Session) (ref : PeerRef) : s.peer ref =
    s.download ref.download >>= fun d =>
      d.peers[ref.index]?.elim (throw (.stale (.peer ref))) pure := by
  rw [peer]
  refine congrArg (_ >>= ·) (funext fun d => ?_)
  cases d.peers[ref.index]? <;> rfl

theorem tracker_eq (s : Session) (ref : TrackerRef) : s.tracker ref =
    s.download ref.download >>= fun d =>
      d.trackers.trackers[ref.index]?.elim (throw (.stale (.tracker ref))) pure := by
  rw [tracker]
  refine congrArg (_ >>= ·) (funext fun d => ?_)
  cases d.trackers.trackers[ref.index]? <;> rfl

end Session

/-! ## Engines that show the same -/

/-- The engines have the same commands and the same handles, and what is under a handle is the same or
in the relation. -/
structure Engine.Paired (e t : Engine) (R : DownloadId → Download → Download → Prop) : Prop where
  commands : t.commands = e.commands
  ids : t.session.ids = e.session.ids
  downloads : ∀ id, (e.session.get? id = none ∧ t.session.get? id = none) ∨
    ∃ a b, e.session.get? id = some a ∧ t.session.get? id = some b ∧ R id a b

/-- What is looked up in a list depends on the variable alone, and the download stays. -/
theorem run_lookup (name : String) (args : Value) {operation : ListOperation}
    (hlooks : operation = .items ∨ operation = .has) :
    ∃ answer : Except CommandError Value → Except CommandError Value, ∀ d : Download,
      (operation.perform name args).run.run d = (answer (d.stateVariable name), d) := by
  rcases hlooks with rfl | rfl
  · refine ⟨fun found => do return .list (← CommandError.ofValue (← found).asList), fun d => ?_⟩
    rw [ListOperation.perform, Edit.run_bind_ok (Edit.run_get d)]
    cases d.stateVariable name with
    | error c => rfl
    | ok v =>
      rw [Edit.run_bind_ok (Edit.run_lift _ d)]
      cases hv : CommandError.ofValue v.asList <;> simp only [bind, Except.bind, hv] <;> rfl
  · refine ⟨fun found => do
      return .ofBool (← CommandError.ofValue ((← found).contains args.argument)), fun d => ?_⟩
    rw [ListOperation.perform, Edit.run_bind_ok (Edit.run_get d)]
    cases d.stateVariable name with
    | error c => rfl
    | ok v =>
      rw [Edit.run_bind_ok (Edit.run_lift _ d)]
      cases hv : CommandError.ofValue (v.contains args.argument) <;>
        simp only [bind, Except.bind, hv] <;> rfl

section Looking

open Run

variable {e t : Engine} {R : DownloadId → Download → Download → Prop} (h : e.Paired t R)

theorem alike_session : Alike e t (fun s s' => s = e.session ∧ s' = t.session) session session :=
  .inl ⟨_, _, ⟨rfl, rfl⟩, rfl, rfl⟩

include h

theorem alike_live (id : DownloadId) :
    Alike e t (fun a b => e.session.get? id = some a ∧ t.session.get? id = some b ∧ R id a b)
      (Run.download id) (Run.download id) := by
  rcases h.downloads id with ⟨he, ht⟩ | ⟨a, b, he, ht, hab⟩
  · exact .inr ⟨_, Engine.run_download_stale he, Engine.run_download_stale ht⟩
  · exact .inl ⟨a, b, ⟨he, ht, hab⟩, Engine.run_download_of_get? he, Engine.run_download_of_get? ht⟩

theorem alike_download (id : DownloadId) :
    Alike e t (R id) (Run.download id) (Run.download id) :=
  (alike_live h id).mono fun _ _ hab => hab.2.2

/-- An item of the download under a handle, of which both engines show the same. -/
theorem alike_item {α β : Type} {id : DownloadId} {i : Nat} {stale : CommandError}
    {look : Session → Except CommandError α} (items : Download → List α) (seen : Download → α → β)
    (hlook : ∀ s : Session, look s = s.download id >>= fun d =>
      (items d)[i]?.elim (throw stale) pure)
    (hsame : ∀ a b, R id a b → ((items b)[i]?).map (seen b) = ((items a)[i]?).map (seen a)) :
    Alike e t (fun x y => ∃ a b, e.session.get? id = some a ∧ t.session.get? id = some b ∧
        seen a x = seen b y)
      (Run.lift (look e.session)) (Run.lift (look t.session)) := by
  rw [hlook, hlook]
  rcases h.downloads id with ⟨he, ht⟩ | ⟨a, b, he, ht, hab⟩
  · simp only [Session.download, he, ht]
    exact alike_fail _
  · have hitem := hsame a b hab
    simp only [Session.download, he, ht, bind, Except.bind]
    cases ha : (items a)[i]? with
    | none =>
      rw [ha] at hitem
      rw [Option.map_eq_none_iff.1 hitem]
      exact alike_fail stale
    | some x =>
      rw [ha] at hitem
      obtain ⟨y, hb, hxy⟩ := Option.map_eq_some_iff.1 hitem
      rw [hb]
      exact alike_pure ⟨a, b, rfl, rfl, hxy.symm⟩

/-! ### Downloads -/

section Downloads

variable {id : DownloadId} {args : Value} {perform : Errand args → Run Value}

theorem alike_read {r : DownloadReading}
    (hsame : ∀ a b, R id a b → (Sight.reading r).Same a b) :
    Alike e t Eq (((DownloadCommand.read r).plan id : Plan (Errand args) Value).run perform)
      (((DownloadCommand.read r).plan id : Plan (Errand args) Value).run perform) := by
  rw [DownloadCommand.plan, Plan.run_bind, Plan.run_lift]
  refine (alike_download h id).bind fun a b hab => ?_
  rw [Plan.run_lift, Plan.run_lift, hsame a b hab]
  exact alike_lift _

theorem alike_list {name : String} {operation : ListOperation}
    (hlooks : operation = .items ∨ operation = .has)
    (hsame : ∀ a b, R id a b → (Sight.reading (.variableNamed name)).Same a b) :
    Alike e t Eq
      (((DownloadCommand.list name operation).plan id : Plan (Errand args) Value).run perform)
      (((DownloadCommand.list name operation).plan id : Plan (Errand args) Value).run perform) := by
  obtain ⟨answer, hanswer⟩ := run_lookup name args hlooks
  rw [DownloadCommand.plan, Plan.run_lift, Alike, run_onDownload, run_onDownload]
  rcases h.downloads id with ⟨he, ht⟩ | ⟨a, b, he, ht, hab⟩
  · exact .inr ⟨_, by rw [he], by rw [ht]⟩
  · have hvariable : b.stateVariable name = a.stateVariable name := hsame a b hab
    simp only [he, ht, Edit.after, hanswer, hvariable, Session.replace_self he,
      Session.replace_self ht]
    cases answer (a.stateVariable name) with
    | ok v => exact .inl ⟨v, v, rfl, rfl, rfl⟩
    | error c => exact .inr ⟨.failed c, rfl, rfl⟩

theorem alike_custom (hsame : ∀ key, args.asTextArgument = .ok key →
      ∀ a b, R id a b → (Sight.custom key).Same a b) :
    Alike e t Eq ((DownloadCommand.custom.plan id : Plan (Errand args) Value).run perform)
      ((DownloadCommand.custom.plan id : Plan (Errand args) Value).run perform) := by
  rw [DownloadCommand.plan, Plan.run_bind, Plan.run_lift]
  refine (alike_lift_ok _).bind ?_
  rintro key _ ⟨hkey, rfl⟩
  rw [Plan.run_bind, Plan.run_lift]
  refine (alike_download h id).bind fun a b hab => ?_
  rw [show b.customField? key = a.customField? key from hsame key hkey a b hab]
  exact alike_pure rfl

theorem alike_customOrFail (hsame : ∀ key, args.asTextArgument = .ok key →
      ∀ a b, R id a b → (Sight.custom key).Same a b) :
    Alike e t Eq ((DownloadCommand.customOrFail.plan id : Plan (Errand args) Value).run perform)
      ((DownloadCommand.customOrFail.plan id : Plan (Errand args) Value).run perform) := by
  rw [DownloadCommand.plan, Plan.run_bind, Plan.run_lift]
  refine (alike_lift_ok _).bind ?_
  rintro key _ ⟨hkey, rfl⟩
  rw [Plan.run_bind, Plan.run_lift]
  refine (alike_download h id).bind fun a b hab => ?_
  rw [show b.customField? key = a.customField? key from hsame key hkey a b hab]
  cases a.customField? key with
  | some text => exact alike_pure rfl
  | none => exact alike_fail _

end Downloads

/-! ### Parts of downloads -/

theorem alike_peer {ref : PeerRef} {r : PeerReading}
    (hsame : ∀ a b, R ref.download a b → (Sight.peer ref.index r).Same a b) :
    Alike e t Eq (PeerCommand.perform ref (.read r)) (PeerCommand.perform ref (.read r)) := by
  refine alike_session.bind ?_
  rintro _ _ ⟨rfl, rfl⟩
  refine (alike_item h peers (fun _ => r.read) (fun s => s.peer_eq ref)
    hsame).bind ?_
  rintro x y ⟨_, _, -, -, hxy⟩
  exact alike_pure hxy

theorem alike_tracker {args : Value} {ref : TrackerRef} {r : TrackerReading}
    (hsame : ∀ a b, R ref.download a b → (Sight.tracker ref.index r).Same a b) :
    Alike e t Eq (TrackerCommand.perform args ref (.read r))
      (TrackerCommand.perform args ref (.read r)) := by
  refine alike_session.bind ?_
  rintro _ _ ⟨rfl, rfl⟩
  refine (alike_item h (fun d => d.trackers.trackers) (fun _ => r.read)
    (fun s => s.tracker_eq ref) hsame).bind ?_
  rintro x y ⟨_, _, -, -, hxy⟩
  exact alike_pure hxy

theorem alike_file {args : Value} {ref : FileRef} {r : FileReading}
    (hsame : ∀ a b, R ref.download a b → (Sight.file ref.index r).Same a b) :
    Alike e t Eq (FileCommand.perform args ref (.read r))
      (FileCommand.perform args ref (.read r)) := by
  refine alike_session.bind ?_
  rintro _ _ ⟨rfl, rfl⟩
  refine (alike_live h ref.download).bind fun a b hab => ?_
  refine (alike_item h (fun d => d.files.files)
    (fun d => r.read d.files ref.index) (fun s => s.file_eq ref) hsame).bind ?_
  rintro x y ⟨a', b', he, ht, hxy⟩
  cases Option.some.inj (hab.1.symm.trans he)
  cases Option.some.inj (hab.2.1.symm.trans ht)
  exact alike_pure hxy

theorem alike_cursor {ref : FileCursor} {r : CursorReading}
    (hsame : ∀ a b, R ref.download a b → Sight.fileCount.Same a b) :
    Alike e t Eq (CursorCommand.perform ref (.read r)) (CursorCommand.perform ref (.read r)) := by
  refine (alike_download h ref.download).bind fun a b hab => ?_
  rw [show b.files.files.length = a.files.files.length from hsame a b hab]
  dsimp only
  split
  · exact .inr ⟨_, rfl, rfl⟩
  · exact alike_pure rfl

/-! ### All that is looked up -/

theorem alike_hashes {args : Value} {perform : Errand args → Run Value}
    (hsame : ∀ id a b, R id a b → (Sight.reading .hash).Same a b) :
    Alike e t Eq ((GenericCommand.downloadList.plan : Plan (Errand args) Value).run perform)
      ((GenericCommand.downloadList.plan : Plan (Errand args) Value).run perform) := by
  rw [GenericCommand.plan, Plan.run_bind, Plan.run_lift]
  refine alike_session.bind ?_
  rintro _ _ ⟨rfl, rfl⟩
  refine alike_pure (congrArg Value.list ?_)
  have hids : t.session.order = e.session.order := h.ids
  rw [Session.toList, Session.toList, List.map_filterMap, List.map_filterMap, hids]
  refine List.filterMap_congr fun id _ => ?_
  rcases h.downloads id with ⟨he, ht⟩ | ⟨a, b, he, ht, hab⟩
  · rw [he, ht]
  · have hhash : b.hashText = a.hashText := by
      simpa [Sight.Same, DownloadReading.read] using hsame id a b hab
    rw [he, ht]
    exact congrArg (some ∘ Value.text) hhash.symm

theorem alike_exists {args : Value} {perform : Errand args → Run Value} :
    Alike e t Eq ((GenericCommand.existsMethod.plan : Plan (Errand args) Value).run perform)
      ((GenericCommand.existsMethod.plan : Plan (Errand args) Value).run perform) := by
  rw [GenericCommand.plan, Plan.run_bind, Plan.run_lift]
  refine (alike_lift _).bind ?_
  rintro key _ rfl
  have hget : Alike e t (fun f g : Engine => g.commands = f.commands)
      ((get : Plan (Errand args) Engine).run perform)
      ((get : Plan (Errand args) Engine).run perform) :=
    .inl ⟨e, t, h.commands, rfl, rfl⟩
  rw [Plan.run_bind]
  refine hget.bind fun f g hcommands => ?_
  rw [hcommands]
  exact alike_pure rfl

/-- **A command that reads is answered alike on engines that show the same where it looks.** -/
theorem Invocation.alike {inv : Invocation} {callable : Callable} {args : Value}
    {perform : Errand args → Run Value} (hof : inv.Of callable) (hlooks : callable.looks = true)
    (hsame : ∀ id sight, inv.Sees args id sight → ∀ a b, R id a b → sight.Same a b) :
    Alike e t Eq ((inv.plan : Plan (Errand args) Value).run perform)
      ((inv.plan : Plan (Errand args) Value).run perform) := by
  cases inv with
  | generic command =>
    cases hof
    cases command with
    | downloadList => exact alike_hashes h fun id => hsame id _ .hashes
    | existsMethod => exact alike_exists h
    | _ => cases hlooks
  | download command id =>
    cases hof
    cases command with
    | read r => exact alike_read h (hsame id _ .read)
    | list name operation =>
      cases operation with
      | items => exact alike_list h (.inl rfl) (hsame id _ .list)
      | has => exact alike_list h (.inr rfl) (hsame id _ .list)
      | _ => cases hlooks
    | custom => exact alike_custom h fun key hkey => hsame id _ (.custom hkey)
    | customOrFail => exact alike_customOrFail h fun key hkey => hsame id _ (.customOrFail hkey)
    | _ => cases hlooks
  | peer command ref =>
    obtain ⟨r⟩ := command
    rw [Invocation.plan, Plan.run_lift]
    exact alike_peer h (hsame ref.download _ .peer)
  | tracker command ref =>
    cases hof
    cases command with
    | read r =>
      rw [Invocation.plan, Plan.run_lift]
      exact alike_tracker h (hsame ref.download _ .tracker)
    | setEnabled => cases hlooks
  | file command ref =>
    cases hof
    cases command with
    | read r =>
      rw [Invocation.plan, Plan.run_lift]
      exact alike_file h (hsame ref.download _ .file)
    | setPriority => cases hlooks
  | cursor command ref =>
    obtain ⟨r⟩ := command
    rw [Invocation.plan, Plan.run_lift]
    exact alike_cursor h (hsame ref.download _ .cursor)
  | script | pair =>
    cases hof
    cases hlooks
  | hosted =>
    obtain ⟨_, rfl⟩ := hof
    cases hlooks

/-! ### Calls -/

section Calls

variable (hcount : ∀ id a b, R id a b → Sight.fileCount.Same a b)

include hcount

/-- Targets come to the same where downloads have as many files. -/
theorem aim_eq_of_paired (key : String) (target : Target) : t.aim key target = e.aim key target := by
  have heffective (kind : TargetKind) :
      effectiveTarget t.session key kind target = effectiveTarget e.session key kind target := by
    unfold effectiveTarget
    split
    · rfl
    split
    · rfl
    split
    · rename_i ref _ _
      rcases h.downloads ref.download with ⟨he, ht⟩ | ⟨a, b, he, ht, hab⟩
      · simp only [Session.download, he, ht]
      · have hlength : b.files.files.length = a.files.files.length := hcount _ a b hab
        simp only [Session.download, he, ht, bind, Except.bind, hlength]
    · rfl
  simp only [Engine.aim, h.commands, Callable.aim, heffective]

theorem answer_eq_of_paired {key : String} {entry : CommandEntry}
    (hentry : e.commands.find? key = some entry) (hlooks : entry.callable.looks = true)
    {target : Target} {args : Value}
    (hsame : ∀ inv, entry.callable.Receives e.session target inv →
      ∀ id sight, inv.Sees args id sight → ∀ a b, R id a b → sight.Same a b) (hops left : Nat) :
    (t.run ((Job.call key target args).run hops left)).1 =
      (e.run ((Job.call key target args).run hops left)).1 := by
  have haim := aim_eq_of_paired h hcount key target
  rcases Engine.aim_cases hentry target with ⟨inv, hreceives, hinv⟩ | ⟨c, hc⟩
  · rw [Task.run_call_of_aim hinv, Task.run_call_of_aim (haim.trans hinv)]
    exact (Invocation.alike h (Callable.of_aim (hreceives.aim key)) hlooks
      (hsame inv hreceives)).answer
  · rw [Task.run_call_refused hc, Task.run_call_refused (haim.trans hc)]

end Calls

end Looking

end TorrentControl
