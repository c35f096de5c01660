import TorrentControl.Proofs.Aim
import TorrentControl.Proofs.Depth

/-! # Chains of scripts

However scripts, command texts and calls by key are nested, no more scripts are open at a time than
the limit says, and one more is refused before its first statement. A chain of scripts, each a call of
the next one, shows that the limit is met: with as many scripts as the limit it comes to what its last
script does, and with one more it is refused. What went wrong before makes no difference. -/

namespace TorrentControl

/-! ## The scripts that are open around a task -/

namespace Task

/-- The first task leads to the second one, inside of the jobs listed, the innermost one first. -/
inductive Around (t : Task) : List Job → Task → Prop where
  | here : Around t [] t
  | made {around : List Job} {u v : Task} (h : Around t around u) (hmakes : u.Makes v) :
      Around t (u.job :: around) v

/-- Every task that a run comes to is inside of some jobs. -/
theorem leads_iff_around {t u : Task} : t.Leads u ↔ ∃ around, t.Around around u := by
  constructor
  · intro h
    induction h with
    | refl => exact ⟨[], .here⟩
    | tail _ hmakes ih =>
      obtain ⟨around, h⟩ := ih
      exact ⟨_, h.made hmakes⟩
  · rintro ⟨around, h⟩
    induction h with
    | here => exact .refl
    | made _ hmakes ih => exact ih.tail hmakes

theorem Makes.left_eq {t u : Task} (h : t.Makes u) : u.left + t.job.isScript.toNat = t.left := by
  rcases h with hs | ⟨_, _, _, -, hs⟩
  · exact hs.left_eq
  · exact hs.left_eq

/-- Every script that is open takes one from the number of scripts that may be opened. -/
theorem Around.left_eq {t u : Task} {around : List Job} (h : t.Around around u) :
    u.left + around.countP Job.isScript = t.left := by
  induction h with
  | here => rfl
  | made _ hmakes ih =>
    have := hmakes.left_eq
    rw [List.countP_cons]
    cases hscript : Job.isScript _ <;> simp [hscript] at this ⊢ <;> omega

theorem Refused.run {t : Task} (h : t.Refused) (hops : Nat) :
    t.engine.run (t.job.run hops t.left) =
      (.error (.failed (.input (.scriptsTooDeep scriptLimit))), t.engine) := by
  cases h
  rfl

theorem Refused.not_makes {t : Task} (h : t.Refused) (u : Task) : ¬ t.Makes u := by
  cases h
  rintro (⟨_, _, _, hs⟩ | ⟨_, _, _, -, _, _, _, hs⟩)
  · exact hs
  · exact hs

/-- **No more scripts are open than the limit says**, and one more is refused. -/
theorem Around.scripts {e : Engine} {job : Job} {around : List Job} {u : Task}
    (h : Around ⟨e, scriptLimit, job⟩ around u) :
    around.countP Job.isScript ≤ scriptLimit ∧
      (around.countP Job.isScript = scriptLimit → u.job.isScript = true → u.Refused) := by
  have hleft := h.left_eq
  refine ⟨by simp only at hleft; omega, fun hfull hscript => ?_⟩
  obtain ⟨f, left, job'⟩ := u
  obtain rfl : left = 0 := by simp only at hleft; omega
  cases job' with
  | script target text => exact .intro f target text
  | _ => cases hscript

end Task

/-! ## Chains of scripts -/

/-- The script is one call of the key, apart from blank statements. -/
def Script.Calls (script key : String) : Prop :=
  ∃ statements line statement, split script = .ok statements ∧
    (statements.filter fun text => !Text.isBlankText text) = [line] ∧
      Statement.parse line = .ok statement ∧ statement.key = key

/-- The key is bound to the first of so many scripts, each of which calls the next one. -/
inductive Registry.Chain (r : Registry) (last : String) : Nat → String → Prop where
  | last {key : String} {entry : CommandEntry} (hentry : r.find? key = some entry)
      (hcallable : entry.callable = .script last) : Chain r last 1 key
  | next {n : Nat} {key following script : String} {entry : CommandEntry}
      (hentry : r.find? key = some entry) (hcallable : entry.callable = .script script)
      (hcalls : Script.Calls script following) (h : Chain r last n following) :
      Chain r last (n + 1) key

/-- A script that calls itself is a chain of any length. -/
theorem Registry.chain_self {r : Registry} {key script : String} {entry : CommandEntry}
    (hentry : r.find? key = some entry) (hcallable : entry.callable = .script script)
    (hcalls : Script.Calls script key) (n : Nat) : r.Chain script (n + 1) key := by
  induction n with
  | zero => exact .last hentry hcallable
  | succ n ih => exact .next hentry hcallable hcalls ih

theorem Target.orGeneric_idem (target : Target) : target.orGeneric.orGeneric = target.orGeneric := by
  by_cases hbound : target.isBound = true
  · simp only [orGeneric, if_pos hbound]
  · simp only [orGeneric, if_neg hbound]
    rfl

namespace Task

variable {e : Engine} {key script : String}

/-- A script that is a call runs the call, where one fewer script may be opened. -/
theorem run_script_calls (hcalls : Script.Calls script key) (e : Engine) (target : Target) : ∃ args,
    ∀ hops left, e.run ((Job.script target script).run hops (left + 1)) =
      e.run ((Job.call key target args).run hops left) := by
  obtain ⟨statements, line, statement, hsplit, hline, hparse, rfl⟩ := hcalls
  refine ⟨statement.args, fun hops left => ?_⟩
  rw [← run_execute hparse, run_eq ⟨e, left + 1, .script target script⟩]
  simp only [plan, hsplit, statementsPlan, hline, Plan.run_rename, List.foldlM_cons,
    List.foldlM_nil]
  exact congrArg e.run (bind_pure _)

/-- A chain of scripts runs the last one, if as many may be opened. -/
theorem run_chain {last : String} {n : Nat} (h : e.commands.Chain last n key) (target : Target)
    (args : Value) (hops left : Nat) :
    e.run ((Job.call key target args).run hops (left + n)) =
      e.run ((Job.script target.orGeneric last).run hops (left + 1)) := by
  induction h generalizing target args with
  | last hentry hcallable => exact run_call_script hentry hcallable target args hops (left + 1)
  | @next n _ following script _ hentry hcallable hcalls _ ih =>
    obtain ⟨inner, hinner⟩ := run_script_calls hcalls e target.orGeneric
    rw [run_call_script hentry hcallable, ← Nat.add_assoc, hinner, ih, Target.orGeneric_idem]

/-- A chain of more scripts than may be opened is refused and changes nothing. -/
theorem run_long_chain {last : String} {n : Nat} (h : e.commands.Chain last n key) (target : Target)
    (args : Value) (hops : Nat) {left : Nat} (hlong : left < n) :
    e.run ((Job.call key target args).run hops left) =
      (.error (.failed (.input (.scriptsTooDeep scriptLimit))), e) := by
  induction h generalizing target args left with
  | last hentry hcallable =>
    obtain rfl : left = 0 := by omega
    rw [run_call_script hentry hcallable]
    rfl
  | @next n _ following script _ hentry hcallable hcalls _ ih =>
    rw [run_call_script hentry hcallable]
    cases left with
    | zero => rfl
    | succ left =>
      obtain ⟨inner, hinner⟩ := run_script_calls hcalls e target.orGeneric
      rw [hinner, ih _ _ (Nat.lt_of_succ_lt_succ hlong)]

end Task

namespace Nested

variable {s t : Nested} {r : Except CommandError Value} {key last : String} {n : Nat}

/-- A chain that is not too long comes to what its last script does at the end of it. -/
theorem returns_chain (hdepth : s.depth = 0) (h : s.engine.commands.Chain last n key)
    (hle : n ≤ scriptLimit) (target : Target) (args : Value) :
    s.Returns (.call key target args) r t ↔ t.depth = 0 ∧
      Returns ⟨s.engine, n - 1⟩ (.script target.orGeneric last) r ⟨t.engine, n - 1⟩ := by
  have hn : 0 < n := by cases h <;> omega
  have hroom : s.room = (scriptLimit - n) + n := by
    rw [room, hdepth]
    omega
  have hlast : room ⟨s.engine, n - 1⟩ = (scriptLimit - n) + 1 := by
    simp only [room]
    omega
  rw [returns_iff, returns_iff, hroom, hlast, hdepth]
  simp only [Task.run_chain h, true_and]

theorem returns_long_chain (hdepth : s.depth = 0) (h : s.engine.commands.Chain last n key)
    (hlong : scriptLimit < n) (target : Target) (args : Value) :
    s.Returns (.call key target args) r t ↔
      r = .error (.input (.scriptsTooDeep scriptLimit)) ∧ t = s := by
  have hroom : s.room < n := by
    rw [room, hdepth]
    exact hlong
  rw [returns_iff]
  simp only [Task.run_long_chain h target args _ hroom, exists_const, Prod.mk.injEq]
  constructor
  · rintro ⟨hsame, hr, hengine⟩
    obtain ⟨f, depth⟩ := t
    obtain rfl : depth = s.depth := hsame
    cases r with
    | ok v => cases hr
    | error c =>
      cases hr
      exact ⟨rfl, congrArg (Nested.mk · s.depth) hengine.symm⟩
  · rintro ⟨rfl, rfl⟩
    exact ⟨rfl, rfl, rfl⟩

/-- **A chain of scripts succeeds exactly if no more scripts may be opened than the limit says and the
last one succeeds in its place.** -/
theorem chain_succeeds_iff (hdepth : s.depth = 0) (h : s.engine.commands.Chain last n key)
    (target : Target) (args : Value) : (∃ v t, s.Returns (.call key target args) (.ok v) t) ↔
      n ≤ scriptLimit ∧
        ∃ v t, Returns ⟨s.engine, n - 1⟩ (.script target.orGeneric last) (.ok v) t := by
  by_cases hle : n ≤ scriptLimit
  · simp only [hle, true_and, returns_chain hdepth h hle]
    constructor
    · rintro ⟨v, t, -, hreturns⟩
      exact ⟨v, _, hreturns⟩
    · rintro ⟨v, ⟨f, depth⟩, hreturns⟩
      obtain rfl : depth = n - 1 := hreturns.depth_eq
      exact ⟨v, ⟨f, 0⟩, rfl, hreturns⟩
  · simp only [hle, false_and, iff_false]
    rintro ⟨v, t, hreturns⟩
    cases ((returns_long_chain hdepth h (Nat.lt_of_not_le hle) target args).1 hreturns).1

/-- A script that calls its own key is refused, and the counter and the engine are as before. -/
theorem returns_self_call {script : String} {entry : CommandEntry} (hdepth : s.depth = 0)
    (hentry : s.engine.commands.find? key = some entry)
    (hcallable : entry.callable = .script script) (hcalls : Script.Calls script key)
    (target : Target) (args : Value) : s.Returns (.call key target args) r t ↔
      r = .error (.input (.scriptsTooDeep scriptLimit)) ∧ t = s :=
  returns_long_chain hdepth (Registry.chain_self hentry hcallable hcalls scriptLimit)
    (Nat.lt_succ_self _) target args

/-- **Scripts are nested up to the limit and no deeper, and nothing shrinks it.** Whatever a job
comes to on an engine of any depth, the counter of open scripts is as before, and such runs are the
runs of the engine, which are told how many more scripts may be opened. At every moment of a run that
starts where no script is open, no more scripts are open than the limit says, and one more fails
before any of its statements. So a chain of scripts succeeds exactly if it is no longer than the limit
and its last script succeeds, and after a failure a chain as long as the limit still does. -/
theorem scripts_nest_up_to_limit :
    (∀ (s t : Nested) (job : Job) (r : Except CommandError Value), s.Returns job r t →
      t.depth = s.depth ∧ ∃ hops, s.engine.run (job.run hops (scriptLimit - s.depth)) =
        (Except.mapError .failed r, t.engine)) ∧
    (∀ (e f : Engine) (depth : Nat) (job : Job) (r : Except CommandError Value) (hops : Nat),
      e.run (job.run hops (scriptLimit - depth)) = (Except.mapError .failed r, f) →
        Returns ⟨e, depth⟩ job r ⟨f, depth⟩) ∧
    (∀ (e : Engine) (job : Job) (around : List Job) (u : Task),
      Task.Around ⟨e, scriptLimit, job⟩ around u →
        around.countP Job.isScript ≤ scriptLimit ∧
          u.left = scriptLimit - around.countP Job.isScript ∧
          (around.countP Job.isScript = scriptLimit → u.job.isScript = true →
            (∀ hops, u.engine.run (u.job.run hops u.left) =
              (.error (.failed (.input (.scriptsTooDeep scriptLimit))), u.engine)) ∧
            ∀ v, ¬ u.Makes v)) ∧
    (∀ (s : Nested) (last key : String) (n : Nat), s.depth = 0 →
      s.engine.commands.Chain last n key → ∀ (target : Target) (args : Value),
        (∃ v t, s.Returns (.call key target args) (.ok v) t) ↔ n ≤ scriptLimit ∧
          ∃ v t, Returns ⟨s.engine, n - 1⟩ (.script target.orGeneric last) (.ok v) t) ∧
    (∀ (s t : Nested) (job : Job) (c : CommandError), s.depth = 0 → s.Returns job (.error c) t →
      ∀ last key : String, t.engine.commands.Chain last scriptLimit key →
        ∀ (target : Target) (args : Value),
          (∃ v u, t.Returns (.call key target args) (.ok v) u) ↔
            ∃ v u, Returns ⟨t.engine, scriptLimit - 1⟩ (.script target.orGeneric last) (.ok v) u) := by
  refine ⟨fun s t job r h => returns_iff.1 h,
    fun e f depth job r hops hrun => returns_iff.2 ⟨rfl, hops, hrun⟩,
    fun e job around u h => ?_,
    fun s last key n hdepth h target args => chain_succeeds_iff hdepth h target args,
    fun s t job c hdepth hfailed last key h target args => ?_⟩
  · obtain ⟨hcount, hfull⟩ := h.scripts
    refine ⟨hcount, Nat.eq_sub_of_add_eq h.left_eq, fun hlimit hscript => ?_⟩
    have hrefused := hfull hlimit hscript
    exact ⟨hrefused.run, hrefused.not_makes⟩
  · have hrestored : t.depth = 0 := hfailed.depth_eq.trans hdepth
    rw [chain_succeeds_iff hrestored h target args]
    simp

/-- A script that calls its own key never succeeds, since it is a chain of any length. -/
theorem loop_never_succeeds : ∃ (e : Engine) (entry : CommandEntry),
    e.commands.find? "x.loop" = some entry ∧ entry.callable = .script "x.loop" ∧
      ¬ ∃ v t, Returns ⟨e, 0⟩ (.call "x.loop" .generic .empty) (.ok v) t := by
  let entry : CommandEntry := ⟨.script "x.loop", 0, ⟨false, true, true⟩, "i:", ""⟩
  let e : Engine :=
    { Engine.bare .empty .empty with
      commands := { Registry.empty with entries := [("x.loop", entry)] } }
  have hentry : e.commands.find? "x.loop" = some entry := by decide
  have hcalls : Script.Calls "x.loop" "x.loop" :=
    ⟨["x.loop"], "x.loop", ⟨"x.loop", .empty⟩, rfl, rfl, rfl, rfl⟩
  have hchain : e.commands.Chain "x.loop" (scriptLimit + 1) "x.loop" :=
    Registry.chain_self hentry rfl hcalls scriptLimit
  obtain ⟨-, -, -, hsucceeds, -⟩ := scripts_nest_up_to_limit
  refine ⟨e, entry, hentry, rfl, ?_⟩
  rw [hsucceeds ⟨e, 0⟩ "x.loop" "x.loop" _ rfl hchain]
  exact fun h => absurd h.1 (Nat.not_succ_le_self scriptLimit)

end Nested

end TorrentControl
