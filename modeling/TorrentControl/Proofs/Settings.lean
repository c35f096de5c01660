import TorrentControl.Proofs.Frames
import TorrentControl.Proofs.Locality

/-! # Settings are read back

Each setting has a command that sets it and one that shows it, and the table of the built-in commands
joins the two by their names. A call that sets goes through with one download changed. From then on
the setting shows what was set, and all other commands that read answer as they did before, for every
target. -/

namespace TorrentControl

open Download

/-! ## Calls that change one download -/

namespace Engine

variable {e t : Engine} {id : DownloadId} {d d' : Download}

theorem run_bind_eq_ok_iff {α β : Type} {m : Run α} {f : α → Run β} {b : β} :
    e.run (m >>= f) = (.ok b, t) ↔ ∃ a u, e.run m = (.ok a, u) ∧ u.run (f a) = (.ok b, t) := by
  rcases hm : e.run m with ⟨h | a, u⟩
  · simp [run_bind_error e hm]
  · simp [run_bind_ok e hm]

theorem run_lift_eq_ok_iff {α : Type} {x : Except CommandError α} {a : α} :
    e.run (Run.lift x) = (.ok a, t) ↔ x = .ok a ∧ t = e := by
  cases x <;> simp [run_lift, Except.mapError, eq_comm]

/-- The second engine is the first one with another download under a handle. -/
structure Changes (e t : Engine) (id : DownloadId) (d d' : Download) : Prop where
  live : e.session.get? id = some d
  eq_put : t = e.put id (some d')

theorem exists_changes_of_onDownload {α : Type} {edit : Download.Edit α} {a : α}
    (h : e.run (Run.onDownload id edit) = (.ok a, t)) :
    ∃ d d', e.Changes t id d d' ∧ edit.run.run d = (.ok a, d') := by
  rw [Run.run_onDownload] at h
  cases hd : e.session.get? id with
  | none =>
    rw [hd] at h
    cases h
  | some d =>
    rw [hd] at h
    obtain ⟨hanswer, hput⟩ := Prod.mk.inj h
    refine ⟨d, edit.after d, ⟨hd, hput.symm⟩, ?_⟩
    rcases hrun : edit.run.run d with ⟨c | b, _⟩ <;> rw [hrun] at hanswer
    · cases hanswer
    · cases hanswer
      rw [Download.Edit.after, hrun]

theorem Changes.get?_self (h : e.Changes t id d d') : t.session.get? id = some d' := by
  rw [h.eq_put]
  exact get?_put h.live _

theorem Changes.paired (h : e.Changes t id d d') :
    e.Paired t fun other a b => (other = id ∧ a = d ∧ b = d') ∨ (other ≠ id ∧ a = b) where
  commands := by rw [h.eq_put]; rfl
  ids := by
    rw [h.eq_put, put, Session.ids_put]
    exact List.filter_eq_self.2 fun _ _ => by simp
  downloads other := by
    by_cases hother : other = id
    · subst hother
      exact .inr ⟨d, d', h.live, h.get?_self, .inl ⟨rfl, rfl, rfl⟩⟩
    · have hsame : t.session.get? other = e.session.get? other := by
        rw [h.eq_put, put, Session.get?_put, if_neg hother]
      rw [hsame]
      cases e.session.get? other with
      | none => exact .inl ⟨rfl, rfl⟩
      | some a => exact .inr ⟨a, a, rfl, rfl, .inr ⟨hother, rfl⟩⟩

/-- A built-in command that reads answers as before if what it looks at is shown as before. -/
theorem Changes.answer_eq (h : e.Changes t id d d') (hintact : e.commands.Intact) {b : Builtin}
    (hb : b ∈ Builtin.all) (hreads : b.readsOnly = true) (hcount : Sight.fileCount.Same d d')
    {target : Target} {args : Value}
    (hsame : ∀ inv, b.callable.Receives e.session target inv →
      ∀ sight, inv.Sees args id sight → sight.Same d d') (hops left : Nat) :
    (t.run ((Job.call b.key target args).run hops left)).1 =
      (e.run ((Job.call b.key target args).run hops left)).1 := by
  obtain ⟨entry, hentry, hcallable⟩ := hintact b hb
  refine answer_eq_of_paired h.paired ?_ hentry
    (hcallable ▸ Builtin.looks_of_readsOnly hb hreads) ?_ hops left
  · rintro other a b (⟨-, rfl, rfl⟩ | ⟨-, rfl⟩)
    · exact hcount
    · rfl
  · rw [hcallable]
    rintro inv hreceives other sight hsees a b (⟨rfl, rfl, rfl⟩ | ⟨-, rfl⟩)
    · exact hsame inv hreceives sight hsees
    · exact sight.same_self _

end Engine

/-- What a call that goes through ran on. -/
theorem Task.exists_receives_of_run_call {e t : Engine} {key : String} {entry : CommandEntry}
    (hentry : e.commands.find? key = some entry) {target : Target} {args v : Value} {hops left : Nat}
    (h : e.run ((Job.call key target args).run hops left) = (.ok v, t)) :
    ∃ inv, entry.callable.Receives e.session target inv ∧
      e.run ((inv.plan : Plan (Errand args) Value).run (errandRun hops left)) = (.ok v, t) := by
  rcases Engine.aim_cases hentry target with ⟨inv, hreceives, haim⟩ | ⟨c, haim⟩
  · exact ⟨inv, hreceives, (run_call_of_aim haim args hops left).symm.trans h⟩
  · cases (run_call_refused haim args hops left).symm.trans h

/-! ## What commands show -/

/-- What a call of the key answers, whatever it is allowed. -/
def Engine.Answers (e : Engine) (key : String) (target : Target) (args v : Value) : Prop :=
  ∀ hops left, e.run ((Job.call key target args).run hops left) = (.ok v, e)

/-- What a call of the key answers, whatever its arguments are. -/
def Engine.Shows (e : Engine) (key : String) (target : Target) (v : Value) : Prop :=
  ∀ args, e.Answers key target args v

/-- The built-in commands that read answer on the second engine as on the first one, but for the calls
that are excepted. -/
def Engine.ReadsAs (e t : Engine) (excepted : String → Target → Value → Prop) : Prop :=
  ∀ b ∈ Builtin.all, b.readsOnly = true → ∀ target args, ¬ excepted b.key target args →
    ∀ hops left, (t.run ((Job.call b.key target args).run hops left)).1 =
      (e.run ((Job.call b.key target args).run hops left)).1

/-- The readings of a download that a command looks at. -/
def Callable.readings : Callable → List DownloadReading
  | .download (.read r) => [r]
  | .download (.list name _) => [.variableNamed name]
  | .download .custom | .download .customOrFail => [.variableNamed "custom"]
  | .generic .downloadList => [.hash]
  | _ => []

theorem Invocation.Sees.reads {inv : Invocation} {callable : Callable} {args : Value}
    {id : DownloadId} {sight : Sight} {r : DownloadReading} (h : inv.Sees args id sight)
    (hof : inv.Of callable) (hdepends : sight.DependsOn r) : r ∈ callable.readings := by
  cases h with
  | read | list | custom | customOrFail | hashes =>
    cases hof
    cases hdepends
    exact List.mem_singleton.2 rfl
  | file | cursor | peer | tracker => cases hdepends

/-- Only the list of all hashes looks at a download that it was not called on. -/
theorem Invocation.Sees.target_eq {inv : Invocation} {callable : Callable} {s : Session}
    {target : Target} {args : Value} {id : DownloadId} {sight : Sight} {r : DownloadReading}
    (h : inv.Sees args id sight) (hreceives : callable.Receives s target inv)
    (hdepends : sight.DependsOn r) (hhash : sight ≠ .reading .hash) : target = .download id := by
  cases h with
  | read | list | custom | customOrFail =>
    cases hreceives with
    | download htarget => exact htarget
  | hashes => exact (hhash rfl).elim
  | file | cursor | peer | tracker => cases hdepends

/-! ## The table -/

/-- The settings that are flags. -/
def flagNames : List String :=
  ["hashing_failed", "peer_exchange"]

/-- What shows a setting besides the command that has its name. -/
def alsoShowing : String → List String
  | "priority" => ["d.get_priority_str"]
  | "peer_exchange" => ["d.is_pex_active"]
  | "directory_base" => ["d.get_directory", "d.get_base_path", "d.get_base_filename"]
  | _ => []

/-- The keys of the commands that show a setting. -/
def showing (name : String) : List String :=
  ("d.get_" ++ name) :: alsoShowing name

/-- The value that an argument stands for: an integer or a text, as the signature has it. Of a flag
it is whether it is set. -/
def denoted (signature : String) (isFlag : Bool) (args : Value) : Except CommandError Value :=
  if signature = "i:i" then do
    let n ← args.asIntArgument
    return if isFlag then .ofBool (n != 0) else .int n
  else do
    return .text (← args.asTextArgument)

/-- How a setting is wired: what its command takes, the reading that shows it, and the readings that
depend on it. -/
structure Wiring where
  signature : String
  isFlag : Bool
  shown : DownloadReading
  touched : List DownloadReading

def Callable.wiring : Callable → Option Wiring
  | .download (.setInt setting) => some ⟨"i:i", setting.isFlag, setting.shown, setting.touched⟩
  | .download (.setText setting) => setting.shown.map fun r => ⟨"i:s", false, r, setting.touched⟩
  | _ => none

/-- **The table joins setters to getters by their names.** What has the name of a setter takes what its
signature says. What has the name of the getter shows what is set, and all others that read do not
depend on it, but for those that show the setting too. -/
theorem Builtin.wired {b : Builtin} (hb : b ∈ all) {name : String} (hkey : b.key = "d.set_" ++ name)
    (hname : name ∉ ["directory", "custom"]) : ∃ w, b.callable.wiring = some w ∧
      b.signature = w.signature ∧ w.isFlag = decide (name ∈ flagNames) ∧
      (∃ g ∈ all, g.callable = .download (.read w.shown) ∧ g.key = "d.get_" ++ name) ∧
      ∀ g ∈ all, (∃ r ∈ w.touched, r ∈ g.callable.readings) → g.readsOnly = true →
        g.key ∈ showing name := by
  -- the prefix is compared byte by byte, since few keys have to be decoded then
  have table : ∀ b ∈ all,
      "d.set_".toByteArray.data.toList.isPrefixOf b.key.toByteArray.data.toList = true →
      String.ofList (b.key.toList.drop 6) ∉ ["directory", "custom"] →
      ∃ w ∈ b.callable.wiring.toList, b.signature = w.signature ∧
        w.isFlag = decide (String.ofList (b.key.toList.drop 6) ∈ flagNames) ∧
        (∃ g ∈ all, g.callable = .download (.read w.shown) ∧
          g.key = "d.get_" ++ String.ofList (b.key.toList.drop 6)) ∧
        ∀ g ∈ all, (∃ r ∈ w.touched, r ∈ g.callable.readings) → g.readsOnly = true →
          g.key ∈ showing (String.ofList (b.key.toList.drop 6)) := by decide +kernel
  have hdrop : String.ofList (b.key.toList.drop 6) = name := by
    rw [hkey, String.toList_append]
    exact String.ofList_toList
  have hprefix :
      "d.set_".toByteArray.data.toList.isPrefixOf b.key.toByteArray.data.toList = true := by
    rw [hkey, String.toByteArray_append, ByteArray.data_append, Array.toList_append]
    exact List.isPrefixOf_iff_prefix.2 (List.prefix_append ..)
  have hwired := table b hb hprefix
  rw [hdrop] at hwired
  obtain ⟨w, hw, hrest⟩ := hwired hname
  exact ⟨w, Option.mem_toList.1 hw, hrest⟩

/-! ## Settings of downloads -/

section Setters

variable {e t : Engine} {id : DownloadId} {d d' : Download} {args v w : Value} {hops left : Nat}

/-- What reads its argument, acts on a download and answers nothing. -/
theorem Engine.exists_changes_of_run {R α : Type} {x : Except CommandError α}
    {f : α → Download.Edit Unit} {perform : R → Run Value}
    (h : e.run ((do
      let a ← Run.lift x
      Run.onDownload id (f a)
      return .empty : Plan R Value).run perform) = (.ok v, t)) :
    ∃ a d d', x = .ok a ∧ e.Changes t id d d' ∧ (f a).run.run d = (.ok (), d') := by
  rw [Plan.run_bind, Plan.run_lift] at h
  obtain ⟨a, _, hlift, hrest⟩ := run_bind_eq_ok_iff.1 h
  obtain ⟨hx, rfl⟩ := run_lift_eq_ok_iff.1 hlift
  rw [Plan.run_bind, Plan.run_lift] at hrest
  obtain ⟨_, u, hset, hdone⟩ := run_bind_eq_ok_iff.1 hrest
  obtain ⟨d, d', hchanges, hedit⟩ := exists_changes_of_onDownload hset
  cases hdone
  exact ⟨a, d, d', hx, hchanges, hedit⟩

/-- What a setter changes that went through. -/
theorem Engine.exists_changes_of_setter {key : String} {entry : CommandEntry}
    (hentry : e.commands.find? key = some entry) {wiring : Wiring}
    (hwiring : entry.callable.wiring = some wiring)
    (h : e.run ((Job.call key (.download id) args).run hops left) = (.ok v, t)) :
    ∃ d d' w, e.Changes t id d d' ∧ Frames wiring.touched d d' ∧
      denoted wiring.signature wiring.isFlag args = .ok w ∧ wiring.shown.read d' = .ok w := by
  obtain ⟨inv, hreceives, hrun⟩ := Task.exists_receives_of_run_call hentry h
  cases hcallable : entry.callable with
  | download command =>
    rw [hcallable] at hwiring hreceives
    cases hreceives with
    | download htarget =>
      obtain rfl := Entity.download.inj (Target.entity.inj htarget)
      cases command with
      | setInt setting =>
        cases hwiring
        obtain ⟨n, d, d', hn, hchanges, hassign⟩ := exists_changes_of_run hrun
        obtain ⟨hframes, hshown⟩ := IntSetting.frames hassign
        refine ⟨d, d', setting.value n, hchanges, hframes, ?_, hshown⟩
        simp only [denoted, if_true, hn]
        rfl
      | setText setting =>
        obtain ⟨r, hr, rfl⟩ := Option.map_eq_some_iff.1 hwiring
        obtain ⟨s, d, d', hs, hchanges, hassign⟩ := exists_changes_of_run hrun
        obtain ⟨hframes, hshown⟩ := TextSetting.frames hr hassign
        refine ⟨d, d', .text s, hchanges, hframes, ?_, hshown⟩
        simp only [denoted, hs]
        rfl
      | _ => cases hwiring
  | _ =>
    rw [hcallable] at hwiring
    cases hwiring

/-- The registry is as it was, so built-in commands are found and receive what they received. -/
theorem Engine.Changes.aim (h : e.Changes t id d d') (hintact : e.commands.Intact) {b : Builtin}
    (hb : b ∈ Builtin.all) {target : Target} {inv : Invocation}
    (hreceives : b.callable.Receives t.session target inv) : t.aim b.key target = .ok inv := by
  have hcommands : t.commands = e.commands := h.paired.commands
  exact (Registry.Intact.aim (hcommands ▸ hintact) hb target).trans (hreceives.aim b.key)

/-- A built-in command that reads a live download answers what is read of it. -/
theorem Engine.run_read (hintact : e.commands.Intact) {b : Builtin} (hb : b ∈ Builtin.all)
    {r : DownloadReading} (hcallable : b.callable = .download (.read r))
    (hlive : e.session.get? id = some d) (args : Value) (hops left : Nat) :
    e.run ((Job.call b.key (.download id) args).run hops left) =
      (Except.mapError .failed (r.read d), e) := by
  obtain ⟨entry, hentry, hserves⟩ := hintact b hb
  have haim : e.aim b.key (.download id) = .ok (.download (.read r) id) :=
    aim_of_receives hentry (hserves.trans hcallable ▸ .download rfl)
  rw [Task.run_call_of_aim haim, Invocation.plan, DownloadCommand.plan, Plan.run_bind,
    Plan.run_lift, run_bind_ok e (run_download_of_get? hlive), Plan.run_lift, run_lift]

theorem Engine.shows_read (hintact : e.commands.Intact) {b : Builtin} (hb : b ∈ Builtin.all)
    {r : DownloadReading} (hcallable : b.callable = .download (.read r))
    (hlive : e.session.get? id = some d) {shown : Value} (hread : r.read d = .ok shown) :
    e.Shows b.key (.download id) shown := by
  intro args hops left
  rw [run_read hintact hb hcallable hlive, hread]
  rfl

theorem Engine.Changes.answers_read (h : e.Changes t id d d') (hintact : e.commands.Intact)
    {b : Builtin} (hb : b ∈ Builtin.all) {r : DownloadReading}
    (hcallable : b.callable = .download (.read r)) (hread : r.read d' = .ok w) :
    t.Answers b.key (.download id) args w := by
  have hcommands : t.commands = e.commands := h.paired.commands
  exact shows_read (hcommands ▸ hintact) hb hcallable h.get?_self hread args

/-- **A setting is read back, and all else that is read is as before.** -/
theorem Engine.setting_read_back (hintact : e.commands.Intact) {b : Builtin} (hb : b ∈ Builtin.all)
    {name : String} (hkey : b.key = "d.set_" ++ name) (hname : name ∉ ["directory", "custom"])
    (h : e.run ((Job.call b.key (.download id) args).run hops left) = (.ok v, t)) :
    ∃ w, denoted b.signature (name ∈ flagNames) args = .ok w ∧
      (∀ params, t.Answers ("d.get_" ++ name) (.download id) params w) ∧
      e.ReadsAs t fun key target _ => target = .download id ∧ key ∈ showing name := by
  obtain ⟨wiring, hwiring, hsignature, hflag, ⟨g, hg, hshows, hgetter⟩, hothers⟩ :=
    Builtin.wired hb hkey hname
  obtain ⟨entry, hentry, hcallable⟩ := hintact b hb
  obtain ⟨d, d', w, hchanges, hframes, hdenoted, hread⟩ :=
    exists_changes_of_setter hentry (hcallable ▸ hwiring) h
  refine ⟨w, ?_, fun params => ?_, fun c hc hreads target params hexcepted => ?_⟩
  · rw [hsignature, ← hflag, hdenoted]
  · rw [← hgetter]
    exact hchanges.answers_read hintact hg hshows hread
  · refine hchanges.answer_eq hintact hc hreads (congrArg List.length hframes.files) ?_
    intro inv hreceives sight hsees
    by_cases hhash : sight = .reading .hash
    · rw [hhash]
      exact hframes.same_hash
    · refine hframes.same fun r hr hdepends => hexcepted ⟨?_, ?_⟩
      · exact hsees.target_eq hreceives hdepends hhash
      · have hof := Callable.of_aim (hreceives.aim c.key)
        exact hothers c hc ⟨r, hr, hsees.reads hof hdepends⟩ hreads

/-! ## Custom fields -/

/-- The keys of the commands that show a custom field. -/
def customGetters : List String :=
  ["d.get_custom", "d.get_custom_throw"]

theorem customArguments_eq_ok {k s : String} (h : customArguments args = .ok (k, s)) :
    ∃ rest, args = .list (.text k :: .text s :: rest) := by
  cases args with
  | list items =>
    rcases items with _ | ⟨key, _ | ⟨text, rest⟩⟩
    · cases h
    · cases key <;> cases h
    · cases key with
      | text => cases text <;> cases h; exact ⟨rest, rfl⟩
      | _ => cases h
  | _ => cases h

/-- The commands that look at the custom fields are those that show one. -/
theorem Builtin.custom_of_readings {b : Builtin} (hb : b ∈ all)
    (h : .variableNamed "custom" ∈ b.callable.readings) : b.key ∈ customGetters ∧
      (b.callable = .download .custom ∨ b.callable = .download .customOrFail) := by
  have table : ∀ b ∈ all, .variableNamed "custom" ∈ b.callable.readings → b.key ∈ customGetters ∧
      (b.callable = .download .custom ∨ b.callable = .download .customOrFail) := by
    decide +kernel
  exact table b hb h

theorem Engine.Changes.answers_custom (h : e.Changes t id d d') (hintact : e.commands.Intact)
    {key : String} (hkey : key ∈ customGetters) {k s : String} (hfield : d'.customField? k = some s)
    (hargs : args.asTextArgument = .ok k) : t.Answers key (.download id) args (.text s) := by
  intro hops left
  have hlook := run_download_of_get? h.get?_self
  simp only [customGetters, List.mem_cons, List.not_mem_nil, or_false] at hkey
  rcases hkey with rfl | rfl
  · have hb : Builtin.published "d.get_custom" (.download .custom) "s:s" ∈ Builtin.all := by
      simp [Builtin.all, Builtin.customFields]
    have haim : t.aim "d.get_custom" (.download id) = .ok (.download .custom id) :=
      h.aim hintact hb (.download rfl)
    rw [Task.run_call_of_aim haim, Invocation.plan, DownloadCommand.plan, hargs, Plan.run_bind,
      Plan.run_lift, run_bind_ok t (run_lift t _), Plan.run_bind, Plan.run_lift,
      run_bind_ok t hlook, hfield]
    rfl
  · have hb : Builtin.published "d.get_custom_throw" (.download .customOrFail) "s:s" ∈
        Builtin.all := by
      simp [Builtin.all, Builtin.customFields]
    have haim : t.aim "d.get_custom_throw" (.download id) = .ok (.download .customOrFail id) :=
      h.aim hintact hb (.download rfl)
    rw [Task.run_call_of_aim haim, Invocation.plan, DownloadCommand.plan, hargs, Plan.run_bind,
      Plan.run_lift, run_bind_ok t (run_lift t _), Plan.run_bind, Plan.run_lift,
      run_bind_ok t hlook, hfield]
    rfl

theorem plan_setCustom : (DownloadCommand.setCustom.plan id : Plan (Errand args) Value) = do
    let field ← Run.lift (customArguments args)
    Run.onDownload id (setCustom field.1 field.2)
    return .empty :=
  rfl

/-- **A custom field is read back, and all else that is read is as before.** -/
theorem Engine.custom_read_back (hintact : e.commands.Intact)
    (h : e.run ((Job.call "d.set_custom" (.download id) args).run hops left) = (.ok v, t)) :
    ∃ k s rest, args = .list (.text k :: .text s :: rest) ∧
      (∀ key ∈ customGetters, ∀ params : Value, params.asTextArgument = .ok k →
        t.Answers key (.download id) params (.text s)) ∧
      e.ReadsAs t fun key target params =>
        target = .download id ∧ key ∈ customGetters ∧ params.asTextArgument = .ok k := by
  obtain ⟨entry, hentry, hcallable⟩ := hintact (.order "d.set_custom" .setCustom)
    (by simp [Builtin.all, Builtin.customFields])
  obtain ⟨inv, hreceives, hrun⟩ := Task.exists_receives_of_run_call hentry h
  rw [hcallable] at hreceives
  cases hreceives with
  | download htarget =>
    obtain rfl := Entity.download.inj (Target.entity.inj htarget)
    rw [Invocation.plan, plan_setCustom] at hrun
    obtain ⟨⟨k, s⟩, d, d', hargs, hchanges, hset⟩ := exists_changes_of_run hrun
    obtain ⟨rest, rfl⟩ := customArguments_eq_ok hargs
    obtain ⟨hframes, hfields⟩ := frames_setCustom hset
    refine ⟨k, s, rest, rfl, fun key hkey params hparams => ?_,
      fun b hb hreads target params hexcepted => ?_⟩
    · exact hchanges.answers_custom hintact hkey ((hfields k).trans (if_pos rfl)) hparams
    · refine hchanges.answer_eq hintact hb hreads (congrArg List.length hframes.files) ?_
      intro inv hreceives sight hsees
      by_cases hdepends : sight.DependsOn (.variableNamed "custom")
      · have hof := Callable.of_aim (hreceives.aim b.key)
        obtain ⟨hkey, hcustom⟩ := Builtin.custom_of_readings hb (hsees.reads hof hdepends)
        have htarget := hsees.target_eq hreceives hdepends (by rintro rfl; cases hdepends)
        cases hsees with
        | @custom other _ hother | @customOrFail other _ hother =>
          refine (hfields other).trans (if_neg ?_)
          rintro rfl
          exact hexcepted ⟨htarget, hkey, hother⟩
        | read | list | hashes =>
          rcases hcustom with hcustom | hcustom <;> cases hof.symm.trans hcustom
        | _ => cases hdepends
      · exact hframes.same fun r hr => List.mem_singleton.1 hr ▸ hdepends

/-! ## Settings of parts -/

/-- What reads its argument, looks a part up, changes the download of it and answers nothing. -/
theorem Engine.exists_changes_of_run_part {α β : Type} {x : Except CommandError α}
    {look : Session → Except CommandError β} {change : α → Download → Download}
    (h : e.run (do
      let a ← Run.lift x
      let _ ← Run.lift (look (← Run.session))
      Run.onDownload id (modify (change a))
      return .empty) = (.ok v, t)) :
    ∃ a part d, x = .ok a ∧ look e.session = .ok part ∧ e.Changes t id d (change a d) := by
  obtain ⟨a, _, hlift, hlooking⟩ := run_bind_eq_ok_iff.1 h
  obtain ⟨hx, rfl⟩ := run_lift_eq_ok_iff.1 hlift
  rw [run_bind_ok _ (run_session _)] at hlooking
  obtain ⟨part, _, hlook, hsetting⟩ := run_bind_eq_ok_iff.1 hlooking
  obtain ⟨hpart, rfl⟩ := run_lift_eq_ok_iff.1 hlook
  obtain ⟨_, u, hset, hdone⟩ := run_bind_eq_ok_iff.1 hsetting
  obtain ⟨d, d', hchanges, hmodify⟩ := exists_changes_of_onDownload hset
  cases hdone
  cases hmodify
  exact ⟨a, part, d, hx, hpart, hchanges⟩

/-! ### Priorities of files -/

/-- The target is a file, or a cursor that points at it. -/
def Target.IsFile (ref : FileRef) (target : Target) : Prop :=
  target = .file ref ∨
    ∃ cursor : FileCursor, target = .entity (.cursor cursor) ∧ cursor.current = ref

theorem Callable.Receives.isFile {s : Session} {target : Target} {callable : Callable}
    {command : FileCommand} {ref : FileRef}
    (h : callable.Receives s target (.file command ref)) : target.IsFile ref := by
  cases h with
  | file htarget => exact .inl htarget
  | current htarget => exact .inr ⟨_, htarget, rfl⟩

theorem Target.IsFile.receives {s : Session} {target : Target} {ref : FileRef}
    (h : target.IsFile ref) (hlive : s.get? ref.download = some d)
    (hindex : ref.index < d.files.files.length) (command : FileCommand) :
    (Callable.file command).Receives s target (.file command ref) := by
  rcases h with htarget | ⟨cursor, htarget, rfl⟩
  · exact .file htarget
  · exact .current htarget ⟨d, hlive, hindex⟩

theorem Session.file_eq_ok_iff {s : Session} {ref : FileRef} {file : File} :
    s.file ref = .ok file ↔
      ∃ d, s.get? ref.download = some d ∧ d.files.files[ref.index]? = some file := by
  rw [file_eq, Outcome.bind_eq_ok_iff]
  refine exists_congr fun d => and_congr download_ok_iff ?_
  cases d.files.files[ref.index]? <;> simp [throw, throwThe, MonadExceptOf.throw, pure, Except.pure]

theorem Session.tracker_eq_ok_iff {s : Session} {ref : TrackerRef} {tracker : Tracker} :
    s.tracker ref = .ok tracker ↔
      ∃ d, s.get? ref.download = some d ∧ d.trackers.trackers[ref.index]? = some tracker := by
  rw [tracker_eq, Outcome.bind_eq_ok_iff]
  refine exists_congr fun d => and_congr download_ok_iff ?_
  cases d.trackers.trackers[ref.index]? <;>
    simp [throw, throwThe, MonadExceptOf.throw, pure, Except.pure]

theorem filePriority_eq_ok {n : Int64} (h : filePriority args = .ok n) :
    args.asIntArgument = .ok n := by
  obtain ⟨m, hm, hrest⟩ := Outcome.bind_eq_ok_iff.1 h
  split at hrest
  · cases hrest
  · cases hrest
    exact hm

theorem Invocation.Sees.eq_file {inv : Invocation} {ref : FileRef} {r : FileReading}
    (h : inv.Sees args ref.download (.file ref.index r)) : inv = .file (.read r) ref := by
  obtain ⟨_, _⟩ := ref
  cases h
  rfl

theorem Builtin.key_of_priority {b : Builtin} (hb : b ∈ all)
    (h : b.callable = .file (.read .priority)) : b.key = "f.get_priority" := by
  have table : ∀ b ∈ all, b.callable = .file (.read .priority) → b.key = "f.get_priority" := by
    decide +kernel
  exact table b hb h

/-- **The priority of a file is read back, and all else that is read is as before.** -/
theorem Engine.filePriority_read_back (hintact : e.commands.Intact) {target : Target}
    (h : e.run ((Job.call "f.set_priority" target args).run hops left) = (.ok v, t)) :
    ∃ ref n, target.IsFile ref ∧ args.asIntArgument = .ok n ∧
      (∀ other : Target, other.IsFile ref → ∀ params,
        t.Answers "f.get_priority" other params (.int n)) ∧
      e.ReadsAs t fun key other _ => key = "f.get_priority" ∧ other.IsFile ref := by
  have hb : Builtin.published "f.set_priority" (.file .setPriority) "i:i" ∈ Builtin.all := by
    simp [Builtin.all, Builtin.files]
  obtain ⟨entry, hentry, hcallable⟩ := hintact _ hb
  obtain ⟨inv, hreceives, hrun⟩ := Task.exists_receives_of_run_call hentry h
  rw [hcallable] at hreceives
  obtain ⟨ref, rfl⟩ : ∃ ref, inv = .file .setPriority ref := by
    cases hreceives <;> exact ⟨_, rfl⟩
  rw [Invocation.plan, Plan.run_lift] at hrun
  obtain ⟨n, file, d, hn, hfound, hchanges⟩ := exists_changes_of_run_part hrun
  obtain ⟨_, hlive, hfile⟩ := Session.file_eq_ok_iff.1 hfound
  obtain rfl := Option.some.inj (hchanges.live.symm.trans hlive)
  refine ⟨ref, n, hreceives.isFile, filePriority_eq_ok hn, fun other hother params hops left => ?_,
    fun b hb hreads other params hexcepted => ?_⟩
  · have hset := d.files.getElem?_prioritize ref.index n ref.index
    simp only [hfile, Option.map_some, if_true] at hset
    have hindex := (List.getElem?_eq_some_iff.1 hset).1
    have haim : t.aim "f.get_priority" other = .ok (.file (.read .priority) ref) :=
      hchanges.aim hintact (b := .readFile "f.get_priority" .priority "i:")
        (by simp [Builtin.all, Builtin.files]) (hother.receives hchanges.get?_self hindex _)
    rw [Task.run_call_of_aim haim, Invocation.plan, Plan.run_lift, FileCommand.perform,
      run_bind_ok t (run_session t), run_bind_ok t (run_download_of_get? hchanges.get?_self),
      Session.file_eq_ok_iff.2 ⟨_, hchanges.get?_self, hset⟩]
    rfl
  · refine hchanges.answer_eq hintact hb hreads (List.length_modify ..) ?_
    intro inv hother sight hsees
    refine Sight.same_prioritized d ref.index n ?_
    rintro rfl
    obtain rfl := hsees.eq_file
    exact hexcepted ⟨Builtin.key_of_priority hb (Callable.of_aim (hother.aim b.key)), hother.isFile⟩

/-! ### Trackers -/

theorem Callable.Receives.eq_tracker {s : Session} {target : Target} {callable : Callable}
    {command : TrackerCommand} {ref : TrackerRef}
    (h : callable.Receives s target (.tracker command ref)) : target = .tracker ref := by
  cases h with
  | tracker htarget => exact htarget

theorem Invocation.Sees.eq_tracker {inv : Invocation} {ref : TrackerRef} {r : TrackerReading}
    (h : inv.Sees args ref.download (.tracker ref.index r)) : inv = .tracker (.read r) ref := by
  obtain ⟨_, _⟩ := ref
  cases h
  rfl

theorem Builtin.key_of_isEnabled {b : Builtin} (hb : b ∈ all)
    (h : b.callable = .tracker (.read .isEnabled)) : b.key = "t.is_enabled" := by
  have table : ∀ b ∈ all, b.callable = .tracker (.read .isEnabled) → b.key = "t.is_enabled" := by
    decide +kernel
  exact table b hb h

/-- **Whether a tracker is enabled is read back, and all else that is read is as before.** -/
theorem Engine.trackerEnabled_read_back (hintact : e.commands.Intact) {target : Target}
    (h : e.run ((Job.call "t.set_enabled" target args).run hops left) = (.ok v, t)) :
    ∃ ref n, target = .tracker ref ∧ args.asIntArgument = .ok n ∧
      (∀ params, t.Answers "t.is_enabled" (.tracker ref) params (.ofBool (n != 0))) ∧
      e.ReadsAs t fun key other _ => key = "t.is_enabled" ∧ other = .tracker ref := by
  have hb : Builtin.published "t.set_enabled" (.tracker .setEnabled) "i:i" ∈ Builtin.all := by
    simp [Builtin.all, Builtin.trackers]
  obtain ⟨entry, hentry, hcallable⟩ := hintact _ hb
  obtain ⟨inv, hreceives, hrun⟩ := Task.exists_receives_of_run_call hentry h
  rw [hcallable] at hreceives
  obtain ⟨ref, rfl⟩ : ∃ ref, inv = .tracker .setEnabled ref := by
    cases hreceives
    exact ⟨_, rfl⟩
  rw [Invocation.plan, Plan.run_lift] at hrun
  obtain ⟨n, tracker, d, hn, hfound, hchanges⟩ := exists_changes_of_run_part hrun
  obtain ⟨_, hlive, htracker⟩ := Session.tracker_eq_ok_iff.1 hfound
  obtain rfl := Option.some.inj (hchanges.live.symm.trans hlive)
  refine ⟨ref, n, hreceives.eq_tracker, hn, fun params hops left => ?_,
    fun b hb hreads other params hexcepted => ?_⟩
  · have hset : (d.trackers.trackers.modify ref.index fun tracker =>
        { tracker with isEnabled := n != 0 })[ref.index]? =
          some { tracker with isEnabled := n != 0 } := by
      simp only [List.getElem?_modify, htracker, if_true, Option.map_eq_map, Option.map_some]
    have haim : t.aim "t.is_enabled" (.tracker ref) = .ok (.tracker (.read .isEnabled) ref) :=
      hchanges.aim hintact (b := .readTracker "t.is_enabled" .isEnabled "i:")
        (by simp [Builtin.all, Builtin.trackers]) (.tracker rfl)
    rw [Task.run_call_of_aim haim, Invocation.plan, Plan.run_lift, TrackerCommand.perform,
      run_bind_ok t (run_session t),
      Session.tracker_eq_ok_iff.2 ⟨_, hchanges.get?_self, hset⟩]
    rfl
  · refine hchanges.answer_eq hintact hb hreads rfl ?_
    intro inv hother sight hsees
    refine Sight.same_enabled d ref.index (n != 0) ?_
    rintro rfl
    obtain rfl := hsees.eq_tracker
    exact hexcepted ⟨Builtin.key_of_isEnabled hb (Callable.of_aim (hother.aim b.key)),
      hother.eq_tracker⟩

end Setters

/-! ## All settings -/

/-- **What was set is read back, and nothing else that is read changes.** Where the built-in keys are
bound to the built-in commands and a call that sets goes through: the command that shows the setting
answers what the argument denotes, whatever its own arguments are, and every other built-in command
that reads answers as before, for every target. Only the commands that show the same setting are
excepted; of the custom fields, of the files and of the trackers, it is only the one that was set. -/
theorem Engine.settings_read_back {e : Engine} (hintact : e.commands.Intact) (args : Value)
    (hops left : Nat) (v : Value) (t : Engine) :
    (∀ b ∈ Builtin.all, ∀ name ∉ ["directory", "custom"], b.key = "d.set_" ++ name →
      ∀ id, e.run ((Job.call b.key (.download id) args).run hops left) = (.ok v, t) →
        ∃ w, denoted b.signature (name ∈ flagNames) args = .ok w ∧
          (∀ params, t.Answers ("d.get_" ++ name) (.download id) params w) ∧
          e.ReadsAs t fun key target _ => target = .download id ∧ key ∈ showing name) ∧
    (∀ id, e.run ((Job.call "d.set_custom" (.download id) args).run hops left) = (.ok v, t) →
      ∃ k s rest, args = .list (.text k :: .text s :: rest) ∧
        (∀ key ∈ customGetters, ∀ params : Value, params.asTextArgument = .ok k →
          t.Answers key (.download id) params (.text s)) ∧
        e.ReadsAs t fun key target params =>
          target = .download id ∧ key ∈ customGetters ∧ params.asTextArgument = .ok k) ∧
    (∀ target, e.run ((Job.call "f.set_priority" target args).run hops left) = (.ok v, t) →
      ∃ ref n, target.IsFile ref ∧ args.asIntArgument = .ok n ∧
        (∀ other : Target, other.IsFile ref → ∀ params,
          t.Answers "f.get_priority" other params (.int n)) ∧
        e.ReadsAs t fun key other _ => key = "f.get_priority" ∧ other.IsFile ref) ∧
    (∀ target, e.run ((Job.call "t.set_enabled" target args).run hops left) = (.ok v, t) →
      ∃ ref n, target = .tracker ref ∧ args.asIntArgument = .ok n ∧
        (∀ params, t.Answers "t.is_enabled" (.tracker ref) params (.ofBool (n != 0))) ∧
        e.ReadsAs t fun key other _ => key = "t.is_enabled" ∧ other = .tracker ref) :=
  ⟨fun _ hb _ hname hkey _ hrun => setting_read_back hintact hb hkey hname hrun,
    fun _ hrun => custom_read_back hintact hrun,
    fun _ hrun => filePriority_read_back hintact hrun,
    fun _ hrun => trackerEnabled_read_back hintact hrun⟩

/-- A fresh download with one file and one tracker. -/
def Download.furnished : Download :=
  { Download.fresh "a" .zero with
    files := { FileList.empty with files := [.ofPath "b" 1] }
    trackers := { TrackerList.empty with trackers := [.ofUrl "http://c" 0] } }

def Session.furnished : Session :=
  (Session.empty.insert .furnished).2

/-- On the furnished session a built-in command does what its invocation does. -/
theorem Engine.call_furnished {b : Builtin} (hb : b ∈ Builtin.all) (target : Target)
    {inv : Invocation} (hreceives : b.callable.Receives .furnished target inv) (args : Value)
    {v : Value} {t : Engine}
    (hrun : (withBuiltins .furnished .empty).run ((inv.plan : Plan (Errand args) Value).run
      (Task.errandRun hopLimit scriptLimit)) = (.ok v, t)) :
    (withBuiltins .furnished .empty).call b.key target args = (.ok v, t) := by
  have haim := ((intact_withBuiltins .furnished .empty).aim hb target).trans (hreceives.aim b.key)
  exact (Task.run_call_of_aim haim args hopLimit scriptLimit).trans hrun

/-- One setting of each kind: the priority of the download, a custom field, the priority of its file,
and whether its tracker is enabled. -/
theorem Engine.furnished_read_back : ∃ priority custom file tracker : Engine,
    (withBuiltins .furnished .empty).call "d.set_priority" (.download ⟨0, 0⟩) (.text "3") =
      (.ok .empty, priority) ∧
    (∀ params, priority.Answers "d.get_priority" (.download ⟨0, 0⟩) params (.int 3)) ∧
    (withBuiltins .furnished .empty).call "d.set_custom" (.download ⟨0, 0⟩)
      (.list [.text "k", .text "v"]) = (.ok .empty, custom) ∧
    custom.Answers "d.get_custom" (.download ⟨0, 0⟩) (.text "k") (.text "v") ∧
    (withBuiltins .furnished .empty).call "f.set_priority" (.file ⟨⟨0, 0⟩, 0⟩) (.int 2) =
      (.ok .empty, file) ∧
    (∀ params, file.Answers "f.get_priority" (.entity (.cursor ⟨⟨0, 0⟩, 0⟩)) params (.int 2)) ∧
    (withBuiltins .furnished .empty).call "t.set_enabled" (.tracker ⟨⟨0, 0⟩, 0⟩) (.int 5) =
      (.ok .empty, tracker) ∧
    ∀ params, tracker.Answers "t.is_enabled" (.tracker ⟨⟨0, 0⟩, 0⟩) params (.int 1) := by
  have hintact := intact_withBuiltins Session.furnished .empty
  have hmem : Builtin.setInt "d.set_priority" .priority ∈ Builtin.all := by
    simp [Builtin.all, Builtin.settings]
  have hpriority := call_furnished hmem (.download ⟨0, 0⟩) (.download rfl) (.text "3") rfl
  have hcustom := call_furnished (b := .order "d.set_custom" .setCustom)
    (by simp [Builtin.all, Builtin.customFields]) (.download ⟨0, 0⟩) (.download rfl)
    (.list [.text "k", .text "v"]) rfl
  have hfile := call_furnished (b := .published "f.set_priority" (.file .setPriority) "i:i")
    (by simp [Builtin.all, Builtin.files]) (.file ⟨⟨0, 0⟩, 0⟩) (.file rfl) (.int 2) rfl
  have htracker := call_furnished (b := .published "t.set_enabled" (.tracker .setEnabled) "i:i")
    (by simp [Builtin.all, Builtin.trackers]) (.tracker ⟨⟨0, 0⟩, 0⟩) (.tracker rfl) (.int 5) rfl
  obtain ⟨w, hw, hreads, -⟩ := (settings_read_back hintact _ hopLimit scriptLimit _ _).1 _ hmem
    "priority" (by decide) rfl _ hpriority
  obtain ⟨k, s, _, hargs, hfields, -⟩ :=
    (settings_read_back hintact _ hopLimit scriptLimit _ _).2.1 _ hcustom
  obtain ⟨ref, n, hisFile, hn, hpriorities, -⟩ :=
    (settings_read_back hintact _ hopLimit scriptLimit _ _).2.2.1 _ hfile
  obtain ⟨_, m, htarget, hm, henabled, -⟩ :=
    (settings_read_back hintact _ hopLimit scriptLimit _ _).2.2.2 _ htracker
  obtain rfl : ref = ⟨⟨0, 0⟩, 0⟩ := by
    rcases hisFile with htarget | ⟨_, htarget, -⟩ <;> cases htarget
    rfl
  cases htarget
  cases hargs
  cases Except.ok.inj hn
  cases Except.ok.inj hm
  have hdenoted : denoted "i:i" (decide ("priority" ∈ flagNames)) (.text "3") = .ok (.int 3) := by
    decide +kernel
  cases Except.ok.inj (hdenoted.symm.trans hw)
  exact ⟨_, _, _, _, hpriority, hreads, hcustom,
    hfields "d.get_custom" (List.mem_cons_self ..) (.text "k") rfl, hfile,
    hpriorities _ (.inr ⟨_, rfl, rfl⟩), htracker, henabled⟩

end TorrentControl
