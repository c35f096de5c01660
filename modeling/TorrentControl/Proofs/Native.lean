import TorrentControl.Proofs.Termination

/-! # What the built-in commands call

While no method is made at run time, a registry has only built-in entries, fewer and fewer of them.
Then a call comes from the request, from a command text within its parameters, to any depth, or from
one of few keys that built-in scripts and commands call themselves. Those keys are public. -/

namespace TorrentControl

/-! ## Registries of built-in commands -/

/-- Every entry is the one of a built-in command. -/
def Registry.Native (r : Registry) : Prop :=
  ∀ key entry, r.find? key = some entry → ∃ b ∈ Builtin.all, b.key = key ∧ Serves entry b

theorem Registry.native_builtin : builtin.Native :=
  fun _ _ h => find?_builtin h

theorem Registry.Native.edit {e f : Engine} {inv : Invocation} (h : e.commands.Native)
    (hedit : e.Edit inv f) (hinsert : inv ≠ .generic .insertMethod)
    (halias : inv ≠ .generic .aliasMethod) : f.commands.Native := by
  intro key entry hentry
  rcases hedit.binds hentry with hold | ⟨hinv, -⟩ | ⟨hinv, -⟩
  · exact h key entry hold
  · exact (hinsert hinv).elim
  · exact (halias hinv).elim

/-! ## The keys that built-in scripts and commands call -/

/-- The key of a statement, which may be no key at all. -/
def Statement.keyOf (text : String) : String :=
  String.ofList (Text.trimChars (Text.splitFirst '=' text.toList).1)

theorem Statement.key_of_parse {text : String} {statement : Statement}
    (h : parse text = .ok statement) : statement.key = keyOf text := by
  simp only [parse, bind, Except.bind, pure, Except.pure, throw, throwThe, MonadExceptOf.throw] at h
  split at h
  · cases h
  · split at h
    · cases h
    · split at h
      · cases h
        rfl
      · split at h
        · cases h
        · cases h
          rfl

/-- The keys that the statements of a script name. -/
def Callable.scriptKeys : Callable → List String
  | .script text =>
    match Script.split text with
    | .ok statements => statements.map Statement.keyOf
    | .error _ => []
  | _ => []

theorem Invocation.Of.executesTexts {inv : Invocation} {callable : Callable} (h : inv.Of callable)
    (hinv : inv.executesTexts = true) : callable.executesTexts = true := by
  unfold Invocation.executesTexts at hinv
  split at hinv
  · exact h ▸ rfl
  · exact h ▸ rfl
  · exact h ▸ rfl
  · cases hinv

/-- The keys that built-in commands order and that built-in scripts name. -/
def nativeKeys : List String :=
  orderedKeys ++
    ["d.set_hashing_failed", "d.views.push_back_unique", "d.views.remove", "d.resume", "d.pause"]

namespace Builtin

variable {b : Builtin}

theorem isPublic_of_native (hb : b ∈ all) (h : b.key ∈ nativeKeys) :
    b.isPublic = true ∧ b.callable.executesTexts = false := by
  -- the keys are compared only where the rest does not hold
  have table : ∀ b ∈ all, (b.isPublic = true ∧ b.callable.executesTexts = false) ∨
      b.key ∉ nativeKeys := by
    set_option maxRecDepth 4096 in decide
  exact (table b hb).resolve_right (not_not_intro h)

theorem scriptKeys_native (hb : b ∈ all) {key : String} (h : key ∈ b.callable.scriptKeys) :
    key ∈ nativeKeys := by
  have table : ∀ b ∈ all, ∀ key ∈ b.callable.scriptKeys, key ∈ nativeKeys := by
    set_option maxRecDepth 4096 in decide
  exact table b hb key h

/-! ### The built-in scripts -/

def startScript : String :=
  "d.set_hashing_failed=0 ;d.views.push_back_unique=started ;d.views.remove=stopped ;d.resume"

def stopScript : String :=
  "d.views.push_back_unique=stopped ;d.views.remove=started ;d.pause"

theorem start_mem : script "d.start" startScript ∈ all := by
  simp [all, scripts, startScript]

theorem stop_mem : script "d.stop" stopScript ∈ all := by
  simp [all, scripts, stopScript]

theorem script_cases (hb : b ∈ all) {text : String} (h : b.callable = .script text) :
    text = startScript ∨ text = stopScript := by
  have table : ∀ b ∈ all, (match b.callable with
      | .script text => text == startScript || text == stopScript
      | _ => true) = true := by
    set_option maxRecDepth 4096 in decide
  simpa [h] using table b hb

theorem split_start : Script.split startScript = .ok ["d.set_hashing_failed=0",
    "d.views.push_back_unique=started", "d.views.remove=stopped", "d.resume"] := by
  set_option maxRecDepth 4096 in decide

theorem split_stop : Script.split stopScript =
    .ok ["d.views.push_back_unique=stopped", "d.views.remove=started", "d.pause"] := by
  set_option maxRecDepth 4096 in decide

end Builtin

/-! ## Where calls come from -/

/-- The text stands in the parameters, or in the arguments of a command text that does. -/
inductive Spoken (params : Value) : String → Prop where
  | here {text : String} (h : params.Says text) : Spoken params text
  | within {text inner : String} {statement : Statement} (h : Spoken params text)
      (hparse : Statement.parse text = .ok statement) (hsaid : statement.args.Says inner) :
      Spoken params inner

/-- What a job can be when a request with these parameters leads to it. -/
inductive Descends (params : Value) : Job → Prop where
  | asked {key : String} {target : Target} {args : Value}
      (h : ∀ text, args.Says text → Spoken params text) : Descends params (.call key target args)
  | spoken {target : Target} {text : String} (h : Spoken params text) :
      Descends params (.execute target text)
  | native {key : String} {target : Target} {args : Value} (h : key ∈ nativeKeys) :
      Descends params (.call key target args)
  | script {target : Target} {text : String} {b : Builtin} (hb : b ∈ Builtin.all)
      (h : b.callable = .script text) : Descends params (.script target text)
  | line {target : Target} {text : String} (h : Statement.keyOf text ∈ nativeKeys) :
      Descends params (.execute target text)

namespace Task

variable {params : Value} {t u : Task}

/-- On a native registry an invocation is one of a built-in command. -/
theorem Invokes.builtin {inv : Invocation} {args : Value} (h : t.Invokes inv args)
    (hn : t.engine.commands.Native) :
    ∃ key target b, t.job = .call key target args ∧ b ∈ Builtin.all ∧ b.key = key ∧
      inv.Of b.callable := by
  obtain ⟨hjob, haim⟩ := h
  obtain ⟨entry, hentry, hof⟩ := Engine.find?_of_aim haim
  obtain ⟨b, hb, hkey, hserves⟩ := hn _ _ hentry
  exact ⟨_, _, b, hjob, hb, hkey, hserves.callable ▸ hof⟩

/-- What a task orders on a native registry, it orders by a native key. -/
theorem Orders.native (h : t.Orders u) (hn : t.engine.commands.Native) :
    ∃ key target args, u.job = .call key target args ∧ key ∈ nativeKeys := by
  obtain ⟨-, key, target, args, inv, _, hjob, hinv, horder⟩ := h.invokes
  obtain ⟨_, _, b, _, hb, _, hof⟩ := hinv.builtin hn
  refine ⟨key, target, args, hjob, ?_⟩
  rcases (horder.callable hof).2 with hkey | ⟨kind, hforward⟩
  · exact List.mem_append_left _ hkey
  · have := Builtin.not_hosted hb
    rw [hforward] at this
    cases this

/-- **On native registries all jobs descend from the request.** -/
theorem descends_of_makes (h : Descends params t.job) (hn : t.engine.commands.Native)
    (hu : t.Makes u) : Descends params u.job := by
  rcases hu with hu | hu
  · have holds := hu.allowed.2
    generalize u.job = job at holds ⊢
    cases holds with
    | text hinv hexecutes hsaid =>
      obtain ⟨key, _, b, hjob, hb, rfl, hof⟩ := hinv.builtin hn
      rw [hjob] at h
      cases h with
      | asked h => exact .spoken (h _ hsaid)
      | native hkey =>
        have := (Builtin.isPublic_of_native hb hkey).2
        rw [hof.executesTexts hexecutes] at this
        cases this
    | script hinv =>
      obtain ⟨_, _, b, _, hb, _, hof⟩ := hinv.builtin hn
      exact .script hb hof
    | statement hjob hparse =>
      rw [hjob] at h
      cases h with
      | spoken h => exact .asked fun _ hsaid => .within h hparse hsaid
      | line hkey => exact .native (Statement.key_of_parse hparse ▸ hkey)
    | line hjob hsplit hmem =>
      rw [hjob] at h
      cases h with
      | script hb hcallable =>
        refine .line (Builtin.scriptKeys_native hb ?_)
        rw [hcallable, Callable.scriptKeys, hsplit]
        exact List.mem_map_of_mem hmem
  · obtain ⟨key, target, args, hjob, hkey⟩ := hu.native hn
    exact hjob ▸ .native hkey

/-! ## Hidden entries -/

end Task

/-- A call of the key on the engine invokes the entry. -/
def Engine.Invokes (e : Engine) (key : String) (target : Target) (entry : CommandEntry) : Prop :=
  e.commands.find? key = some entry ∧
    ∃ inv, entry.callable.aim e.session key target = .ok inv

namespace Task

/-- The task is a call that invokes an entry which is not public. -/
def InvokesHidden (t : Task) : Prop :=
  ∃ key target args entry, t.job = .call key target args ∧ t.engine.Invokes key target entry ∧
    entry.isPublic = false

/-- The task executes a text of the parameters that names an entry which is not public. -/
def SpeaksHidden (params : Value) (t : Task) : Prop :=
  ∃ target text statement entry, t.job = .execute target text ∧ Spoken params text ∧
    Statement.parse text = .ok statement ∧ t.engine.Invokes statement.key target entry ∧
      entry.isPublic = false

theorem not_hidden_of_native {e : Engine} (hn : e.commands.Native) {key : String} {target : Target}
    {entry : CommandEntry} (hkey : key ∈ nativeKeys) (h : e.Invokes key target entry) :
    entry.isPublic = true := by
  obtain ⟨b, hb, rfl, hserves⟩ := hn _ _ h.1
  rw [hserves.isPublic]
  exact (Builtin.isPublic_of_native hb hkey).1

/-- Executing a text is calling its statement on the same engine. -/
theorem opens_execute_iff {t u : Task} {target : Target} {text : String}
    (hjob : t.job = .execute target text) : t.Opens u ↔ ∃ statement,
      Statement.parse text = .ok statement ∧
        u = ⟨t.engine, t.left, .call statement.key target statement.args⟩ := by
  simp only [Opens, Sends, plan, hjob]
  split
  · rename_i statement hparse
    constructor
    · rintro (⟨hsending, hengine⟩ | ⟨_, _, _, hreaches⟩)
      · obtain ⟨e, left, job⟩ := u
        cases hsending
        cases hengine
        exact ⟨statement, hparse, rfl⟩
      · exact hreaches.elim
    · rintro ⟨_, hparse', rfl⟩
      cases hparse.symm.trans hparse'
      exact .inl ⟨rfl, rfl⟩
  · rename_i fault hparse
    constructor
    · rintro ⟨_, _, _, hreaches⟩
      exact hreaches.elim
    · rintro ⟨_, hparse', _⟩
      cases hparse.symm.trans hparse'

/-- A call that a task makes is one by a native key, or the statement of a text that is spoken. -/
theorem key_of_makes {params args : Value} {t u : Task} {key : String} {target : Target}
    (h : Descends params t.job) (hn : t.engine.commands.Native) (hu : t.Makes u)
    (hjob : u.job = .call key target args) :
    key ∈ nativeKeys ∨ ∃ text statement, t.job = .execute target text ∧ Spoken params text ∧
      Statement.parse text = .ok statement ∧
        u = ⟨t.engine, t.left, .call statement.key target statement.args⟩ := by
  rcases hu with hu | hu
  · have holds := hu.allowed.2
    rw [hjob] at holds
    cases holds with
    | @statement target text statement htext hparse =>
      obtain ⟨_, hparse', rfl⟩ := (opens_execute_iff htext).1 hu
      cases hparse.symm.trans hparse'
      rw [htext] at h
      cases h with
      | spoken h => exact .inr ⟨text, statement, htext, h, hparse, rfl⟩
      | line hkey => exact .inl (Statement.key_of_parse hparse ▸ hkey)
  · obtain ⟨_, _, _, hjob', hkey⟩ := hu.native hn
    cases hjob.symm.trans hjob'
    exact .inl hkey

/-- A hidden entry that is not invoked by the request itself is invoked by a text of the
parameters. -/
theorem speaksHidden_of_makes {params : Value} {t u : Task} (h : Descends params t.job)
    (hn : t.engine.commands.Native) (hnu : u.engine.commands.Native) (hu : t.Makes u)
    (hhidden : u.InvokesHidden) : t.SpeaksHidden params := by
  obtain ⟨key, target, args, entry, hjob, hinvokes, hentry⟩ := hhidden
  rcases key_of_makes h hn hu hjob with hkey | ⟨text, statement, htext, hspoken, hparse, rfl⟩
  · exact nomatch hentry.symm.trans (not_hidden_of_native hnu hkey hinvokes)
  · cases hjob
    exact ⟨target, text, statement, entry, htext, hspoken, hparse, hinvokes, hentry⟩

/-! ## Commands that make methods -/

/-- The task makes a method or an alias. -/
def Registers (t : Task) : Prop :=
  ∃ args, t.Invokes (.generic .insertMethod) args ∨ t.Invokes (.generic .aliasMethod) args

theorem native_acts {t : Task} (ht : ¬ t.Registers) {e f : Engine} (he : e.commands.Native)
    (h : t.Acts e f) : f.commands.Native := by
  rcases h with _ | ⟨hinv, hact⟩
  · exact he
  · refine he.edit hact.edit ?_ ?_
    · rintro rfl
      exact ht ⟨_, .inl hinv⟩
    · rintro rfl
      exact ht ⟨_, .inr hinv⟩

/-- Where no method is made, every task runs on a native registry and descends from the request. -/
theorem Leads.native {params : Value} {t u : Task} (hu : t.Leads u)
    (hregisters : ∀ v, t.Leads v → ¬ v.Registers) (h : Descends params t.job)
    (hn : t.engine.commands.Native) : Descends params u.job ∧ u.engine.commands.Native := by
  have keeps := Leads.keeps (P := fun e => e.commands.Native)
    (J := fun v => t.Leads v ∧ Descends params v.job)
    (fun v w hv hn hw => ⟨hv.1.tail hw, descends_of_makes hv.2 hn hw⟩)
    (fun v e f hv _ he => native_acts (hregisters v hv.1) he) hu ⟨.refl, h⟩ hn
  exact ⟨keeps.1.2, keeps.2⟩

theorem native_run {t : Task} (hregisters : ∀ v, t.Leads v → ¬ v.Registers)
    (hn : t.engine.commands.Native) (hops : Nat) :
    (t.engine.run (t.job.run hops t.left)).2.commands.Native :=
  run_keeps (P := fun e => e.commands.Native) (J := t.Leads) (fun _ _ hv _ hw => hv.tail hw)
    (fun v _ _ hv _ he => native_acts (hregisters v hv) he) hops t .refl hn

/-- The keys of the commands that make methods. -/
def registerKeys : List String :=
  ["method.insert", "method.alias"]

theorem Registers.key {t : Task} (h : t.Registers) (hn : t.engine.commands.Native) :
    ∃ key target args, t.job = .call key target args ∧ key ∈ registerKeys := by
  have table : ∀ b ∈ Builtin.all,
      b.callable = .generic .insertMethod ∨ b.callable = .generic .aliasMethod →
        b.key ∈ registerKeys := by
    set_option maxRecDepth 4096 in decide
  obtain ⟨args, hinv | hinv⟩ := h
  · obtain ⟨_, _, b, hjob, hb, rfl, hof⟩ := hinv.builtin hn
    exact ⟨_, _, _, hjob, table b hb (.inl hof)⟩
  · obtain ⟨_, _, b, hjob, hb, rfl, hof⟩ := hinv.builtin hn
    exact ⟨_, _, _, hjob, table b hb (.inr hof)⟩

/-- **No method is made by a request that does not name a command that makes one**, neither as its
method nor in a command text of its parameters. -/
theorem not_registers {params : Value} {t u : Task} (hu : t.Leads u) (h : Descends params t.job)
    (hn : t.engine.commands.Native)
    (hmethod : ∀ key target args, t.job = .call key target args → key ∉ registerKeys)
    (hspoken : ∀ text, Spoken params text → Statement.keyOf text ∉ registerKeys) :
    ¬ u.Registers := by
  have hnative : ∀ key ∈ nativeKeys, key ∉ registerKeys := by decide
  let J (v : Task) : Prop := Descends params v.job ∧
    ∀ key target args, v.job = .call key target args → key ∉ registerKeys
  have hJ {v : Task} (hv : J v) (hn : v.engine.commands.Native) : ¬ v.Registers := by
    intro hregisters
    obtain ⟨key, target, args, hjob, hkey⟩ := hregisters.key hn
    exact hv.2 key target args hjob hkey
  have keeps := hu.keeps (P := fun e => e.commands.Native) (J := J)
    (fun v w hv hn hw => ⟨descends_of_makes hv.1 hn hw, fun key target args hjob => by
      rcases key_of_makes hv.1 hn hw hjob with hkey | ⟨text, statement, _, htext, hparse, rfl⟩
      · exact hnative key hkey
      · cases hjob
        exact Statement.key_of_parse hparse ▸ hspoken text htext⟩)
    (fun v e f hv hn he => native_acts (hJ hv hn) he) ⟨h, hmethod⟩ hn
  exact hJ keeps.1 keeps.2

end Task

end TorrentControl
