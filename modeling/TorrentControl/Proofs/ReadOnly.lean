import TorrentControl.Proofs.Attempts
import TorrentControl.Proofs.Depth
import TorrentControl.Proofs.Multicall

/-! # Requests that only read

A command that reads leaves the engine as it was, whether it answers or fails. Multicalls and
comparisons execute the texts of their arguments and do nothing besides. So if all that these texts
spell is reading, at whatever depth, they leave the engine as it was too: the session, the registry,
the messages, the disk and the number of open scripts. The texts that are read on the way cannot
replace the commands that they name, for which it is enough that the built-in keys are bound to what
they were bound to. -/

namespace TorrentControl

/-! ## Runs that leave the engine as it was -/

namespace Run

variable {α β : Type} {e : Engine}

/-- From the engine the action answers or fails, and leaves the engine as it was. -/
def Quiet (e : Engine) (m : Run α) : Prop :=
  ∃ r : Except CommandError α, e.run m = (Except.mapError .failed r, e)

theorem Idle.quiet {m : Run α} (h : Idle m) (e : Engine) : Quiet e m := by
  obtain ⟨hne, he⟩ := h e
  rcases hrun : e.run m with ⟨(c | _) | a, t⟩ <;> rw [hrun] at hne he <;> cases he
  · exact ⟨.error c, hrun⟩
  · exact (hne rfl).elim
  · exact ⟨.ok a, hrun⟩

theorem Quiet.bind {m : Run α} {f : α → Run β} (hm : Quiet e m)
    (hf : ∀ a, e.run m = (.ok a, e) → Quiet e (f a)) : Quiet e (m >>= f) := by
  obtain ⟨c | a, hrun⟩ := hm
  · exact ⟨.error c, Engine.run_bind_error e hrun⟩
  · obtain ⟨r, hrest⟩ := hf a hrun
    exact ⟨r, (Engine.run_bind_ok e hrun).trans hrest⟩

end Run

theorem Plan.run_idle {R α : Type} {perform : R → Run Value} :
    ∀ {p : Plan R α}, p.Every Run.Idle (fun _ => False) → Run.Idle (p.run perform)
  | .answer a, _ => Run.idle_pure a
  | .act _ _, h => h.1.bind fun b => run_idle (h.2 b)
  | .ask _ _, h => h.1.elim

/-! ## Commands that read -/

/-- The callable looks something up and does nothing else. -/
def Callable.looks : Callable → Bool
  | .generic command =>
    match command with
    | .downloadList | .existsMethod => true
    | _ => false
  | .download command =>
    match command with
    | .read _ | .list _ .items | .list _ .has | .custom | .customOrFail => true
    | _ => false
  | .peer _ | .cursor _ | .tracker (.read _) | .file (.read _) => true
  | _ => false

namespace Invocation

variable {inv : Invocation} {callable : Callable}

/-- What looks something up has no act that changes the engine. Looking into a list writes the
download back as it was. -/
theorem act_of_looks (hof : inv.Of callable) (hlooks : callable.looks = true) {e t : Engine}
    (hact : e.Act inv t) : t = e := by
  cases hact with
  | idle => rfl
  | @amended id d f hinv hd =>
    have hwritten : f d = d := by
      cases hinv with
      | list name operation args =>
        cases hof
        cases operation with
        | items => exact Download.Edit.keeps_items (I := fun t => t = d) name args d rfl
        | has => exact Download.Edit.keeps_has (I := fun t => t = d) name args d rfl
        | remove | push | pushUnique => cases hlooks
      | setInt | setText | act | setCustom | setPriority | setEnabled =>
        cases hof
        cases hlooks
    rw [hwritten, Session.replace_self hd]
  | reported hinv =>
    unfold reports at hinv
    split at hinv
    · cases hof
      cases hlooks
    · cases hof
      cases hlooks
    · cases hinv
  | erased hinv =>
    unfold erasesKeys at hinv
    split at hinv
    · cases hof
      cases hlooks
    · obtain ⟨_, rfl⟩ := hof
      cases hlooks
    · cases hinv
  | removed hinv | unlinked hinv | inserted hinv | aliased hinv =>
    subst hinv
    cases hof
    cases hlooks

theorem sends_of_looks (hof : inv.Of callable) (hlooks : callable.looks = true) {args : Value}
    (errand : Errand args) : ¬ inv.Sends errand := by
  cases errand with
  | text target inner =>
    intro hsends
    simp only [Sends, executesTexts] at hsends
    split at hsends
    · cases hof
      cases hlooks
    · cases hof
      cases hlooks
    · cases hof
      cases hlooks
    · cases hsends
  | script target text =>
    rintro ⟨⟩
    cases hof
    cases hlooks
  | order key target params =>
    intro horder
    cases horder with
    | forward =>
      obtain ⟨_, rfl⟩ := hof
      cases hlooks
    | _ =>
      cases hof
      cases hlooks

theorem every_idle_of_looks (hof : inv.Of callable) (hlooks : callable.looks = true)
    {args : Value} : (inv.plan : Plan (Errand args) Value).Every Run.Idle fun _ => False :=
  inv.plan_obeys.mono (fun _ hacts => hacts.mono fun _ _ => act_of_looks hof hlooks)
    (sends_of_looks hof hlooks)

end Invocation

/-- Commands whose name behind the prefix begins with `get_` or `is_`, and four that list or look
up something. -/
def Builtin.readsOnly (b : Builtin) : Bool :=
  let name := (b.key.toList.dropWhile (· != '.')).drop 1
  "get_".toList.isPrefixOf name || "is_".toList.isPrefixOf name ||
    ["d.views", "d.views.has", "download_list", "method.exists"].contains b.key

theorem Builtin.looks_of_readsOnly {b : Builtin} (hb : b ∈ all) (h : b.readsOnly = true) :
    b.callable.looks = true := by
  have table : ∀ b ∈ all, b.callable.looks = true ∨ b.readsOnly = false := by
    set_option maxRecDepth 4096 in decide
  exact (table b hb).resolve_right (ne_false_of_eq_true h)

/-! ## Requests -/

/-- The keys of the multicalls. -/
def Collection.key : Collection → String
  | .downloads => "d.multicall"
  | .parts .files => "f.multicall"
  | .parts .peers => "p.multicall"
  | .parts .trackers => "t.multicall"

theorem Collection.builtin (c : Collection) :
    ∃ b ∈ Builtin.all, b.key = c.key ∧ b.callable = c.command := by
  rcases c with _ | (_ | _ | _) <;> set_option maxRecDepth 4096 in decide

/-- The keys of the comparisons. -/
def PairCommand.key : PairCommand → String
  | .less => "less"
  | .greater => "greater"
  | .compare => "compare"

theorem PairCommand.builtin (command : PairCommand) :
    ∃ b ∈ Builtin.all, b.key = command.key ∧ b.callable = .pair command := by
  cases command <;> set_option maxRecDepth 4096 in decide

/-- What only reads: a command that does, a multicall or a comparison of texts that only read, and a
text that spells such a call. A text that spells no call does nothing at all. -/
inductive Job.ReadsOnly : Job → Prop
  | reading {b : Builtin} (hb : b ∈ Builtin.all) (h : b.readsOnly = true) (target : Target)
      (args : Value) : ReadsOnly (.call b.key target args)
  | multicall (c : Collection) (target : Target) {args : Value}
      (h : ∀ text, .text text ∈ args.columns → ∀ x, ReadsOnly (.execute x text)) :
      ReadsOnly (.call c.key target args)
  | comparison (command : PairCommand) (target : Target) {args : Value}
      (h : ∀ text, args.argument = .text text → ∀ x, ReadsOnly (.execute x text)) :
      ReadsOnly (.call command.key target args)
  | execute {target : Target} {text : String}
      (h : ∀ statement, Statement.parse text = .ok statement →
        ReadsOnly (.call statement.key target statement.args)) : ReadsOnly (.execute target text)

theorem Job.ReadsOnly.of_parse {text : String} {statement : Statement}
    (hparse : Statement.parse text = .ok statement) {target : Target}
    (h : ReadsOnly (.call statement.key target statement.args)) : ReadsOnly (.execute target text) :=
  .execute fun _ hother => Except.ok.inj (hparse.symm.trans hother) ▸ h

theorem InnerText.ofValue_eq_ok {args v : Value} {h : ∀ text, v = .text text → args.Says text}
    {inner : InnerText args} (hv : ofValue v h = .ok inner) : v = .text inner.text := by
  cases v with
  | text text =>
    cases hv
    rfl
  | _ => cases hv

theorem argument_of_comparisonText {args : Value} {inner : InnerText args}
    (h : comparisonText args = .ok inner) : args.argument = .text inner.text := by
  unfold comparisonText at h
  cases hinner : InnerText.ofValue args.argument fun _ => Value.says_argument with
  | error c =>
    rw [hinner] at h
    cases h
  | ok said =>
    rw [hinner] at h
    simp only [bind, Except.bind] at h
    split at h <;> cases h
    exact InnerText.ofValue_eq_ok hinner

section Requests

open Run Plan TorrentControl.Task

variable {e : Engine} {hops left : Nat} {args : Value}

theorem quiet_call {key : String} {entry : CommandEntry} (hentry : e.commands.find? key = some entry)
    {target : Target} (h : ∀ inv, entry.callable.Receives e.session target inv →
      Quiet e ((inv.plan : Plan (Errand args) Value).run (errandRun hops left))) :
    Quiet e ((Job.call key target args).run hops left) := by
  rcases Engine.aim_cases hentry target with ⟨inv, hreceives, haim⟩ | ⟨c, haim⟩
  · obtain ⟨r, hrun⟩ := h inv hreceives
    exact ⟨r, (run_call_of_aim haim args hops left).trans hrun⟩
  · exact ⟨.error c, run_call_refused haim args hops left⟩

theorem quiet_reading {key : String} {entry : CommandEntry}
    (hentry : e.commands.find? key = some entry) (hlooks : entry.callable.looks = true)
    (target : Target) : Quiet e ((Job.call key target args).run hops left) := by
  refine quiet_call hentry fun inv hreceives => ?_
  have hof := Callable.of_aim (hreceives.aim key)
  exact (Plan.run_idle (Invocation.every_idle_of_looks hof hlooks)).quiet e

theorem quiet_execute {target : Target} {text : String}
    (h : ∀ statement, Statement.parse text = .ok statement →
      Quiet e ((Job.call statement.key target statement.args).run hops left)) :
    Quiet e ((Job.execute target text).run hops left) := by
  cases hparse : Statement.parse text with
  | error fault =>
    refine ⟨.error (.parse fault), ?_⟩
    rw [run_eq ⟨e, left, .execute target text⟩ hops]
    simp only [Task.plan, hparse, run_fail]
    rfl
  | ok statement =>
    obtain ⟨r, hrun⟩ := h statement hparse
    exact ⟨r, (run_execute hparse e target hops left).trans hrun⟩

theorem quiet_cell {cell : Cell} (h : ∀ text, cell.2 = .text text →
      Quiet e ((Job.execute cell.1 text).run hops left)) :
    ∃ r : Except CommandError Value,
      e.runCell hops left cell = (Except.mapError .failed r, e) := by
  unfold Engine.runCell
  split
  · rename_i text htext
    exact h text htext
  · exact ⟨.error (.value _), rfl⟩

/-- A multicall changes nothing that its cells do not. -/
theorem quiet_multicall {c : Collection} {key : String} {entry : CommandEntry}
    (hentry : e.commands.find? key = some entry) (hcallable : entry.callable = c.command)
    (target : Target) (h : ∀ text, .text text ∈ args.columns → ∀ x,
      Quiet e ((Job.execute x text).run hops left)) :
    Quiet e ((Job.call key target args).run hops left) := by
  cases hentities : c.entities e.session target with
  | none =>
    obtain ⟨error, hlost⟩ :=
      Engine.run_multicall_lost hentry hcallable target args hops left hentities
    exact ⟨.error error, hlost⟩
  | some entities =>
    rw [Quiet, Engine.run_multicall hentry hcallable target args hops left hentities]
    by_cases hcolumns : args.columns = []
    · exact ⟨.error args.lacksColumns, multicall_refused hcolumns entities e hops left⟩
    · obtain ⟨reserved, column, columns, rfl⟩ := Value.exists_of_columns hcolumns
      have hcell : ∀ cell ∈ entities ×ˢ (column :: columns), ∃ r : Except CommandError Value,
          e.runCell hops left cell = (Except.mapError .failed r, e) := fun cell hmem =>
        quiet_cell fun text htext => h text (htext ▸ (List.mem_product.1 hmem).2) cell.1
      have hkeeps : ∀ cell ∈ entities ×ˢ (column :: columns), ∀ t, t = e →
          (t.runCell hops left cell).2 = e := by
        rintro cell hmem _ rfl
        obtain ⟨r, hr⟩ := hcell cell hmem
        rw [hr]
      rcases executing_multicall entities reserved column columns e with
        ⟨_, v, t, hrun, hcells, -⟩ | ⟨halt, t, hrun, hstops⟩
      · cases hcells.keeps hkeeps rfl
        exact ⟨.ok v, hrun⟩
      · cases hstops.keeps hkeeps rfl
        -- the error is the one of the cell at which the call stopped
        obtain ⟨before, cell, after, values, t, hsplit, hbefore, hstopped⟩ := hstops
        have hmem : cell ∈ entities ×ˢ (column :: columns) := by rw [hsplit]; simp
        cases hbefore.keeps (fun other hother => hkeeps other (by rw [hsplit]; simp [hother])) rfl
        obtain ⟨r, hr⟩ := hcell cell hmem
        cases r with
        | error c =>
          cases hstopped.symm.trans hr
          exact ⟨.error c, hrun⟩
        | ok v => cases hstopped.symm.trans hr

theorem quiet_comparison {key : String} {entry : CommandEntry} {command : PairCommand}
    (hentry : e.commands.find? key = some entry) (hcallable : entry.callable = .pair command)
    (target : Target) (h : ∀ text, args.argument = .text text → ∀ x,
      Quiet e ((Job.execute x text).run hops left)) :
    Quiet e ((Job.call key target args).run hops left) := by
  refine quiet_call hentry fun inv hreceives => ?_
  rw [hcallable] at hreceives
  cases hreceives with
  | @pair _ first second =>
    have hexecute {inner : InnerText args} (hinner : comparisonText args = .ok inner)
        (x : Target) : Quiet e ((Plan.request (.text x inner) :
          Plan (Errand args) Value).run (errandRun hops left)) := by
      rw [Plan.run_request]
      exact h inner.text (argument_of_comparisonText hinner) x
    rw [Invocation.plan, PairCommand.plan]
    rcases hinner : comparisonText args with c | inner
    · exact ⟨.error c, rfl⟩
    · rw [run_lift_ok, Plan.run_bind]
      refine (hexecute hinner _).bind fun v _ => ?_
      rw [Plan.run_bind]
      refine (hexecute hinner _).bind fun w _ => ?_
      exact ((idle_lift _).bind fun _ => idle_pure _).quiet e

/-- **What only reads leaves the engine as it was.** -/
theorem Job.ReadsOnly.quiet {job : Job} (h : job.ReadsOnly) (hintact : e.commands.Intact)
    (hops left : Nat) : Quiet e (job.run hops left) := by
  induction h with
  | reading hb hreads target args =>
    obtain ⟨entry, hentry, hcallable⟩ := hintact _ hb
    exact quiet_reading hentry (hcallable ▸ Builtin.looks_of_readsOnly hb hreads) target
  | multicall c target _ ih =>
    obtain ⟨b, hb, hkey, hcallable⟩ := c.builtin
    obtain ⟨entry, hentry, hserves⟩ := hintact b hb
    exact quiet_multicall (hkey ▸ hentry) (hserves.trans hcallable) target ih
  | comparison command target _ ih =>
    obtain ⟨b, hb, hkey, hcallable⟩ := command.builtin
    obtain ⟨entry, hentry, hserves⟩ := hintact b hb
    exact quiet_comparison (hkey ▸ hentry) (hserves.trans hcallable) target ih
  | execute _ ih => exact quiet_execute ih

end Requests

/-- **A request that only reads comes to an end and changes nothing**, neither the engine nor the
number of open scripts, whether it answers or fails, for every target, and however many scripts are
open. -/
theorem Nested.reading_changes_nothing {job : Job} (h : job.ReadsOnly) {e : Engine}
    (hintact : e.commands.Intact) :
    (∀ hops left, ∃ r : Except CommandError Value,
      e.run (job.run hops left) = (Except.mapError .failed r, e)) ∧
    ∀ depth, (∃ r, Returns ⟨e, depth⟩ job r ⟨e, depth⟩) ∧
      ∀ r t, Returns ⟨e, depth⟩ job r t → t = ⟨e, depth⟩ := by
  refine ⟨h.quiet hintact, fun depth => ⟨?_, fun r t hreturns => ?_⟩⟩
  · obtain ⟨r, hrun⟩ := h.quiet hintact 0 (room ⟨e, depth⟩)
    exact ⟨r, returns_iff.2 ⟨rfl, 0, hrun⟩⟩
  · obtain ⟨hdepth, hops, hrun⟩ := returns_iff.1 hreturns
    obtain ⟨r', hquiet⟩ := h.quiet hintact hops (room ⟨e, depth⟩)
    have hengine : t.engine = e := congrArg Prod.snd (hrun.symm.trans hquiet)
    exact Nested.ext hengine hdepth

/-- The names of all downloads, and comparisons that no single download is a target of. -/
def Job.overview : Job :=
  .call "d.multicall" .generic
    (.list [.text "main", .text "d.get_name", .text "less=d.get_name"])

theorem Job.readsOnly_overview : overview.ReadsOnly := by
  have hname (x : Target) : ReadsOnly (.execute x "d.get_name") := by
    have hparse : Statement.parse "d.get_name" = .ok ⟨"d.get_name", .empty⟩ := rfl
    have hmem : Builtin.readText "d.get_name" .name ∈ Builtin.all := by
      simp [Builtin.all, Builtin.identity]
    exact .of_parse hparse (.reading hmem (by decide) x .empty)
  have hless (x : Target) : ReadsOnly (.execute x "less=d.get_name") := by
    have hparse : Statement.parse "less=d.get_name" = .ok ⟨"less", .text "d.get_name"⟩ :=
      Statement.parse_word (show Statement.IsKey "less" by decide)
        ⟨['d', '.', 'g', 'e', 't', '_', 'n', 'a', 'm', 'e'], List.all_eq_true.1 rfl, .cons rfl⟩
        ⟨'d', by decide, by decide⟩
    refine .of_parse hparse (.comparison .less x fun text htext y => ?_)
    cases htext
    exact hname y
  refine .multicall .downloads .generic fun text htext x => ?_
  rcases List.mem_cons.1 htext with hfirst | hsecond
  · cases hfirst
    exact hname x
  · cases List.mem_singleton.1 hsecond
    exact hless x

theorem Nested.overview_changes_nothing :
    Job.overview.ReadsOnly ∧ Engine.sample.commands.Intact ∧
      (∀ hops left, ∃ r : Except CommandError Value,
        Engine.sample.run (Job.overview.run hops left) =
          (Except.mapError .failed r, Engine.sample)) ∧
      ∀ depth, (∃ r, Returns ⟨Engine.sample, depth⟩ Job.overview r ⟨Engine.sample, depth⟩) ∧
        ∀ r t, Returns ⟨Engine.sample, depth⟩ Job.overview r t → t = ⟨Engine.sample, depth⟩ := by
  have hintact : Engine.sample.commands.Intact := by
    simp only [Engine.sample]
    exact Registry.intact_builtin
  exact ⟨Job.readsOnly_overview, hintact, reading_changes_nothing Job.readsOnly_overview hintact⟩

end TorrentControl
