import TorrentControl.Proofs.Addressing
import TorrentControl.Proofs.OneStatement

/-! # A value alone and the list of it

A command text with one argument passes the value itself, and a request passes a list. A command
that wants one value takes either, each in its own way: it unwraps its argument, goes through the
parts of it, or appends it. Only a command that counts the items tells the two apart. -/

namespace TorrentControl

/-! ## Arguments -/

namespace Value

variable {v : Value}

theorem argument_of_kind (h : v.kind ≠ .list) : v.argument = v := by
  cases v with
  | list => exact (h rfl).elim
  | _ => rfl

/-- Whatever unwraps its argument gets the value in both cases. -/
theorem argument_list (h : v.kind ≠ .list) : (Value.list [v]).argument = v.argument :=
  (argument_of_kind h).symm

theorem asIntArgument_list (h : v.kind ≠ .list) :
    (Value.list [v]).asIntArgument = v.asIntArgument := by
  rw [asIntArgument, argument_list h]
  rfl

theorem asTextArgument_list (h : v.kind ≠ .list) :
    (Value.list [v]).asTextArgument = v.asTextArgument := by
  rw [asTextArgument, argument_list h]
  rfl

theorem positional_list (h : v.kind ≠ .list) : positional (.list [v]) = positional v := by
  cases v with
  | list => exact (h rfl).elim
  | _ => rfl

theorem appended_list (h : v.kind ≠ .list) : appended (.list [v]) = appended v := by
  cases v with
  | list => exact (h rfl).elim
  | _ => rfl

theorem printed_list (h : v.kind ≠ .list) : printed (.list [v]) = printed v := by
  have hjoin : printed (.list [v]) = v.display := by simp [printed, String.join]
  cases v with
  | list => exact (h rfl).elim
  | _ => exact hjoin

end Value

theorem ListOperation.perform_list {v : Value} (h : v.kind ≠ .list) (name : String)
    (operation : ListOperation) : operation.perform name (.list [v]) = operation.perform name v := by
  cases operation with
  | items => rfl
  | has => simp only [perform, Value.argument_list h]
  | remove => simp only [perform, Value.argument_list h]
  | push => simp only [perform, Value.appended_list h]
  | pushUnique => simp only [perform, Value.argument_list h, Value.appended_list h]

/-! ## The text of a comparison -/

/-- The text that a comparison runs, read off the unwrapped argument. -/
def comparisonOf : Value → Except CommandError String
  | .text s => if s = "" then .error (.missingArgument .comparisonKey) else .ok s
  | v => .error (.value (v.mismatch .text))

theorem text_comparisonText (args : Value) :
    InnerText.text <$> comparisonText args = comparisonOf args.argument := by
  have hofValue {v : Value} (h : ∀ text, v = .text text → args.Says text) :
      InnerText.text <$> (do
        let inner ← InnerText.ofValue v h
        if inner.text = "" then throw (.missingArgument .comparisonKey)
        return inner) = comparisonOf v := by
    cases v with
    | text s =>
      rw [comparisonOf, InnerText.ofValue]
      by_cases hs : s = ""
      · subst hs
        rfl
      · rw [if_neg hs]
        exact congrArg (InnerText.text <$> ·) (if_neg hs)
    | _ => rfl
  exact hofValue _

/-! ## Commands -/

/-- The callable takes a value for the list of it. The others count the items of their argument, or
leave it to a host program what to do with it. -/
def Callable.unwraps : Callable → Bool
  | .generic .multicall | .download .setCustom | .download (.multicall _) | .hosted _ _ => false
  | _ => true

section

open Run TorrentControl.Task

variable {v : Value} {hops left : Nat}

theorem run_bind_congr {R R' α β : Type} {perform : R → Run Value} {perform' : R' → Run Value}
    {p : Plan R α} {q : Plan R' α} {f : α → Plan R β} {g : α → Plan R' β}
    (h : p.run perform = q.run perform') (hf : ∀ a, (f a).run perform = (g a).run perform') :
    (p >>= f).run perform = (q >>= g).run perform' := by
  rw [Plan.run_bind, Plan.run_bind, h]
  exact congrArg (_ >>= ·) (funext hf)

/-- What an invocation with the arguments does. -/
abbrev Invocation.perform (hops left : Nat) (args : Value) (inv : Invocation) : Run Value :=
  (inv.plan : Plan (Errand args) Value).run (errandRun hops left)

theorem perform_pair (hops left : Nat) (args : Value) (first second : DownloadId)
    (command : PairCommand) : (Invocation.pair command first second).perform hops left args = (do
      let text ← lift (comparisonOf args.argument)
      let a ← (Job.execute (.download first) text).run hops left
      let b ← (Job.execute (.download second) text).run hops left
      let order ← lift (CommandError.ofValue (a.order b))
      return command.verdict order) := by
  rw [Invocation.perform, Invocation.plan, PairCommand.plan, ← text_comparisonText]
  cases comparisonText args <;> rfl

theorem perform_generic (h : v.kind ≠ .list) {command : GenericCommand}
    (hcommand : (Callable.generic command).unwraps = true) :
    (Invocation.generic command).perform hops left (.list [v]) =
      (Invocation.generic command).perform hops left v := by
  cases command with
  | downloadList => rfl
  | multicall => cases hcommand
  | print =>
    simp only [Invocation.perform, Invocation.plan, GenericCommand.plan, Value.printed_list h]
    rfl
  | insertMethod =>
    simp only [Invocation.perform, Invocation.plan, GenericCommand.plan, insertMethod,
      Value.positional_list h]
    rfl
  | aliasMethod =>
    simp only [Invocation.perform, Invocation.plan, GenericCommand.plan, aliasMethod,
      Value.positional_list h]
    rfl
  | eraseMethod =>
    simp only [Invocation.perform, Invocation.plan, GenericCommand.plan, Value.asTextArgument_list h]
    rfl
  | existsMethod =>
    simp only [Invocation.perform, Invocation.plan, GenericCommand.plan, Value.asTextArgument_list h]
    rfl

theorem perform_download (h : v.kind ≠ .list) (id : DownloadId) {command : DownloadCommand}
    (hcommand : (Callable.download command).unwraps = true) :
    (Invocation.download command id).perform hops left (.list [v]) =
      (Invocation.download command id).perform hops left v := by
  cases command with
  | setCustom | multicall => cases hcommand
  | read | act | erase => rfl
  | setInt =>
    simp only [Invocation.perform, Invocation.plan, DownloadCommand.plan, Value.asIntArgument_list h]
    rfl
  | setText | custom =>
    simp only [Invocation.perform, Invocation.plan, DownloadCommand.plan, Value.asTextArgument_list h]
    rfl
  | list =>
    simp only [Invocation.perform, Invocation.plan, DownloadCommand.plan,
      ListOperation.perform_list h]
    rfl
  | customOrFail =>
    simp only [Invocation.perform, Invocation.plan, DownloadCommand.plan, Value.asTextArgument_list h]
    refine run_bind_congr rfl fun key => run_bind_congr rfl fun d => ?_
    cases d.customField? key <;> rfl
  | deleteTied =>
    refine run_bind_congr (run_bind_congr rfl fun tied => ?_) fun _ => rfl
    split <;> rfl
  | tryStart =>
    refine run_bind_congr rfl fun d => ?_
    dsimp only
    cases d.hasHashFailed with
    | true => rfl
    | false => exact run_bind_congr rfl fun ignores => by cases ignores <;> rfl
  | tryStop =>
    exact run_bind_congr rfl fun d => run_bind_congr rfl fun ignores => by cases ignores <;> rfl
  | tryClose =>
    exact run_bind_congr rfl fun d => run_bind_congr rfl fun ignores => by cases ignores <;> rfl

/-- **A callable that unwraps its argument does with the list of one value what it does with the
value**, in whatever it is run on. -/
theorem perform_list (h : v.kind ≠ .list) {callable : Callable} (hcallable : callable.unwraps = true)
    {inv : Invocation} (hinv : inv.Of callable) :
    inv.perform hops left (.list [v]) = inv.perform hops left v := by
  cases inv with
  | script | peer | cursor => rfl
  | generic command =>
    cases hinv
    exact perform_generic h hcallable
  | download command id =>
    cases hinv
    exact perform_download h id hcallable
  | tracker command ref =>
    cases command with
    | read => rfl
    | setEnabled =>
      simp only [Invocation.perform, Invocation.plan, TrackerCommand.perform,
        Value.asIntArgument_list h]
      rfl
  | file command ref =>
    cases command with
    | read => rfl
    | setPriority =>
      simp only [Invocation.perform, Invocation.plan, FileCommand.perform, filePriority,
        Value.asIntArgument_list h]
      rfl
  | pair command first second => rw [perform_pair, perform_pair, Value.argument_list h]
  | hosted action target =>
    obtain ⟨kind, rfl⟩ := hinv
    cases hcallable

theorem callEntry_list (h : v.kind ≠ .list) {entry : CommandEntry}
    (hentry : entry.callable.unwraps = true) (key : String) (target : Target) :
    (Reentry.within hops left).callEntry key entry target (.list [v]) =
      (Reentry.within hops left).callEntry key entry target v := by
  rw [callEntry_eq, callEntry_eq]
  refine congrArg (_ >>= ·) (funext fun s => ?_)
  cases haim : entry.callable.aim s key target with
  | error c => rfl
  | ok inv => exact perform_list h hentry (Callable.of_aim haim)

end

/-- Calls with a value and with the list of it answer the same and leave the same engine, whatever
the engine and the target are, by whatever key the callable is called, and however many calls and
scripts are open. -/
def Callable.TakesEither (callable : Callable) : Prop :=
  ∀ (e : Engine) (hops left : Nat) (key : String) (entry : CommandEntry) (target : Target) (v : Value),
    entry.callable = callable → v.kind ≠ .list →
      e.run ((Reentry.within hops left).callEntry key entry target (.list [v])) =
        e.run ((Reentry.within hops left).callEntry key entry target v)

theorem Callable.takesEither_of_unwraps {callable : Callable} (h : callable.unwraps = true) :
    callable.TakesEither := by
  rintro e hops left key entry target v rfl hv
  rw [callEntry_list hv h]

/-! ## Built-in commands -/

/-- The keys of the commands that count the items of their argument. -/
def Builtin.countingKeys : List String :=
  ["d.set_custom", "d.multicall", "f.multicall", "p.multicall", "t.multicall"]

theorem Builtin.unwraps {b : Builtin} (hb : b ∈ all) (h : b.key ∉ countingKeys) :
    b.callable.unwraps = true := by
  have table : ∀ b ∈ all, b.key ∉ countingKeys → b.callable.unwraps = true := by
    set_option maxRecDepth 4096 in decide
  exact table b hb h

/-- The other commands tell a text from the list of it, on a session with one download. -/
theorem Builtin.not_takesEither {b : Builtin} (hb : b ∈ all) (h : b.key ∈ countingKeys) :
    ¬ b.callable.TakesEither := by
  have table : ∀ b ∈ all, b.key ∈ countingKeys → b.callable ∈ [.download .setCustom,
      .generic .multicall, .download (.multicall .files), .download (.multicall .peers),
      .download (.multicall .trackers)] := by
    set_option maxRecDepth 4096 in decide
  have hcases := table b hb h
  let e := Engine.bare (Session.empty.insert (.fresh "a" .zero)).2 .empty
  intro heither
  have hsame := congrArg Prod.fst (heither e 0 0 b.key ⟨b.callable, 0, .none, "", ""⟩
    (.download ⟨0, 0⟩) (.text "") rfl nofun)
  rw [Task.callEntry_eq, Task.callEntry_eq] at hsame
  generalize b.callable = callable at hcases hsame
  simp only [List.mem_cons, List.not_mem_nil, or_false] at hcases
  rcases hcases with rfl | rfl | rfl | rfl | rfl <;> cases hsame

/-- An engine that has the command under its key. -/
def Engine.Binds (e : Engine) (b : Builtin) : Prop :=
  ∃ entry, e.commands.find? b.key = some entry ∧ entry.callable = b.callable

section

open Rpc.Reactor (answer listen)

variable {b : Builtin} {v : Value}

theorem Engine.call_list {e : Engine} (hbinds : e.Binds b) (hb : b.callable.TakesEither)
    (hv : v.kind ≠ .list) (target : Target) :
    e.call b.key target (.list [v]) = e.call b.key target v := by
  obtain ⟨entry, hentry, hcallable⟩ := hbinds
  rw [call_eq_callEntry hentry, call_eq_callEntry hentry]
  exact hb e hopLimit scriptLimit b.key entry target v hcallable hv

theorem Rpc.Reactor.handle_list {r : Rpc.Reactor} (hbinds : r.engine.Binds b) (hmem : b ∈ Builtin.all)
    (hb : b.callable.TakesEither) (hv : v.kind ≠ .list) (spec : Rpc.TargetSpec) :
    r.handle ⟨b.key, spec, .list [v]⟩ = r.handle ⟨b.key, spec, v⟩ := by
  have hsystem := (addressable_builtin hmem).not_system
  rw [handle_eq_call hsystem, handle_eq_call hsystem, Reactor.call, Reactor.call]
  refine ite_congr rfl (fun _ => ?_) fun _ => rfl
  cases spec.resolve r.engine.session with
  | error f => rfl
  | ok target => simp only [Engine.call_list hbinds hb hv]

/-- A request that gets to the engine does what the command text does that spells it. -/
theorem Rpc.Reactor.handle_eq_execute {r : Rpc.Reactor} {text : String} {spec : Rpc.TargetSpec}
    {target : Target} (hmem : b ∈ Builtin.all) (hlisted : KeyMap.contains r.methods b.key = true)
    (htarget : spec.resolve r.engine.session = .ok target)
    (hparse : Statement.parse text = .ok ⟨b.key, v⟩) :
    r.handle ⟨b.key, spec, v⟩ =
      let (outcome, engine) := r.engine.execute target text
      (answer outcome, listen r.methods engine) := by
  have hsame : r.engine.call b.key target v = r.engine.execute target text :=
    (Task.run_execute hparse r.engine target hopLimit scriptLimit).symm
  rw [handle_eq_call (addressable_builtin hmem).not_system, Reactor.call, if_pos hlisted, htarget]
  simp only [hsame]

end

/-- **A command takes a value on its own or in a list, unless it counts the items.** The five
commands that do so apart, every built-in command answers the same and leaves the same engine. So
where the key is bound to the command, a call or a request with the list of one value does what a
command text with the value alone does. -/
theorem Builtin.takes_value_or_list {b : Builtin} (hb : b ∈ all) :
    (b.callable.TakesEither ↔ b.key ∉ countingKeys) ∧
    (b.key ∉ countingKeys → ∀ (r : Rpc.Reactor) (v : Value), r.engine.Binds b → v.kind ≠ .list →
      (∀ target, r.engine.call b.key target (.list [v]) = r.engine.call b.key target v) ∧
      (∀ spec, r.handle ⟨b.key, spec, .list [v]⟩ = r.handle ⟨b.key, spec, v⟩) ∧
      ∀ text target, Statement.parse text = .ok ⟨b.key, v⟩ →
        r.engine.execute target text = r.engine.call b.key target (.list [v]) ∧
        ∀ spec : Rpc.TargetSpec, KeyMap.contains r.methods b.key = true →
          spec.resolve r.engine.session = .ok target →
            r.handle ⟨b.key, spec, .list [v]⟩ =
              let (outcome, engine) := r.engine.execute target text
              (Rpc.Reactor.answer outcome, Rpc.Reactor.listen r.methods engine)) := by
  have htakes (hkey : b.key ∉ countingKeys) : b.callable.TakesEither :=
    Callable.takesEither_of_unwraps (unwraps hb hkey)
  refine ⟨⟨fun h hkey => not_takesEither hb hkey h, htakes⟩, fun hkey r v hbinds hv => ?_⟩
  have hcall := Engine.call_list hbinds (htakes hkey) hv
  have hhandle := Rpc.Reactor.handle_list hbinds hb (htakes hkey) hv
  refine ⟨hcall, hhandle, fun text target hparse => ⟨?_, fun spec hlisted htarget => ?_⟩⟩
  · rw [hcall]
    exact Task.run_execute hparse r.engine target hopLimit scriptLimit
  · rw [hhandle, Rpc.Reactor.handle_eq_execute hb hlisted htarget hparse]

/-- Asking whether a key is there, in the two ways. -/
theorem Builtin.exists_takes_value_or_list :
    let b := published "method.exists" (.generic .existsMethod) "i:s"
    let r := Rpc.Reactor.start .empty .empty
    b ∈ all ∧ b.key ∉ countingKeys ∧ r.engine.Binds b ∧
      Statement.parse "method.exists=print" = .ok ⟨b.key, .text "print"⟩ ∧
      KeyMap.contains r.methods b.key = true ∧
      r.handle ⟨b.key, .generic, .list [.text "print"]⟩ =
        let (outcome, engine) := r.engine.execute .generic "method.exists=print"
        (Rpc.Reactor.answer outcome, Rpc.Reactor.listen r.methods engine) := by
  intro b r
  have hb : b ∈ all := by simp [b, all, sessionWide]
  have hkey : b.key ∉ countingKeys := by decide
  obtain ⟨entry, hentry, hserves⟩ := Registry.exists_builtin hb
  have hfind : r.engine.commands.find? b.key = some entry :=
    (Rpc.Reactor.find?_start .empty .empty b.key).trans hentry
  have hbinds : r.engine.Binds b := ⟨entry, hfind, hserves.callable⟩
  have hparse : Statement.parse "method.exists=print" = .ok ⟨b.key, .text "print"⟩ :=
    Statement.parse_word (show Statement.IsKey "method.exists" by decide)
      ⟨['p', 'r', 'i', 'n', 't'], List.all_eq_true.1 rfl, .cons rfl⟩ ⟨'p', by decide, by decide⟩
  have hsettled : Rpc.Reactor.Settled r := Rpc.Reactor.settled_start .empty .empty
  have hlisted : KeyMap.contains r.methods b.key = true :=
    hsettled.contains_iff.2 ((hsettled.mem_publicKeys _).2 ⟨entry, hfind, hserves.isPublic⟩)
  have hkind : (Value.text "print").kind ≠ .list := by decide
  obtain ⟨-, -, hspoken⟩ := (takes_value_or_list hb).2 hkey r (.text "print") hbinds hkind
  exact ⟨hb, hkey, hbinds, hparse, hlisted,
    (hspoken _ .generic hparse).2 .generic hlisted rfl⟩

end TorrentControl
