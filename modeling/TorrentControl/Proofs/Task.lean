import Mathlib.Logic.Relation
import TorrentControl.Proofs.Edit

/-! # Tasks

A task is a call, a command text or a script that is run on an engine, with a number of scripts that
may still be opened. Its plan says which tasks it makes: those that the text or script or the
arguments hold are smaller than the task itself, and those that it orders by key need not be. So all
that can be said of tasks by induction is said along the number of hops first and the size second. -/

namespace TorrentControl

open Run

inductive Job where
  | call (key : String) (target : Target) (args : Value)
  | execute (target : Target) (text : String)
  | script (target : Target) (text : String)
deriving DecidableEq

/-- Runs a job where `hops` calls by key and `left` scripts may be nested. -/
def Job.run (hops left : Nat) : Job → Run Value
  | .call key target args => (Reentry.within hops left).call key target args
  | .execute target text => (Reentry.within hops left).execute target text
  | .script target text => (Reentry.within hops left).runScript target text

/-- A run that a job asks for. A call by key is one hop away. -/
inductive Sending where
  | inner (left : Nat) (job : Job)
  | order (left : Nat) (key : String) (target : Target) (params : Value)

namespace Sending

def ofErrand {args : Value} (left : Nat) : Errand args → Sending
  | .text target said => .inner left (.execute target said.text)
  | .script target text => .inner left (.script target text)
  | .order key target params => .order left key target params

def run (hops : Nat) : Sending → Run Value
  | .inner left job => job.run hops left
  | .order left key target params => callKeyAt hops left key target params

end Sending

structure Task where
  engine : Engine
  left : Nat
  job : Job

/-- The invocation that a call comes to. -/
def Engine.aim (e : Engine) (key : String) (target : Target) : Except CommandError Invocation :=
  match e.commands.find? key with
  | some entry => entry.callable.aim e.session key target
  | none => .error (.unknownCommand key)

theorem Engine.aim_generic {e : Engine} {key : String} {entry : CommandEntry}
    {command : GenericCommand} (hentry : e.commands.find? key = some entry)
    (hcallable : entry.callable = .generic command) :
    e.aim key .generic = .ok (.generic command) := by
  simp only [aim, hentry, hcallable]
  rfl

/-- The invocation is one of the callable. -/
def Invocation.Of (callable : Callable) : Invocation → Prop
  | .script text _ => callable = .script text
  | .generic command => callable = .generic command
  | .download command _ => callable = .download command
  | .peer command _ => callable = .peer command
  | .tracker command _ => callable = .tracker command
  | .file command _ => callable = .file command
  | .cursor command _ => callable = .cursor command
  | .pair command _ _ => callable = .pair command
  | .hosted action _ => ∃ kind, callable = .hosted kind action

theorem Callable.of_on {callable : Callable} {target : Target} {inv : Invocation}
    (h : callable.on target = some inv) : inv.Of callable := by
  unfold on at h
  split at h <;> cases h <;> first | rfl | exact ⟨_, rfl⟩

theorem Callable.of_aim {callable : Callable} {session : Session} {key : String} {target : Target}
    {inv : Invocation} (h : callable.aim session key target = .ok inv) : inv.Of callable := by
  simp only [aim, bind, Except.bind] at h
  split at h
  · cases h
  · split at h
    · rename_i on hon
      cases h
      exact of_on hon
    · cases h

theorem Engine.find?_of_aim {e : Engine} {key : String} {target : Target} {inv : Invocation}
    (h : e.aim key target = .ok inv) :
    ∃ entry, e.commands.find? key = some entry ∧ inv.Of entry.callable := by
  unfold aim at h
  split at h
  · rename_i entry hentry
    exact ⟨entry, hentry, Callable.of_aim h⟩
  · cases h

def Invocation.sendings (inv : Invocation) (left : Nat) (args : Value) : Plan Sending Value :=
  (inv.plan : Plan (Errand args) Value).rename (Sending.ofErrand left)

namespace Task

/-- What a task does on its engine. -/
def plan (t : Task) : Plan Sending Value :=
  match t.job with
  | .call key target args =>
    match t.engine.aim key target with
    | .ok inv => inv.sendings t.left args
    | .error c => Run.fail c
  | .execute target text =>
    match Statement.parse text with
    | .ok statement => Plan.request (.inner t.left (.call statement.key target statement.args))
    | .error fault => Run.fail (.parse fault)
  | .script target text =>
    match t.left with
    | 0 => Run.fail (.input (.scriptsTooDeep scriptLimit))
    | left + 1 =>
      match Script.split text with
      | .ok statements =>
        (statementsPlan statements).rename fun statement => .inner left (.execute target statement)
      | .error fault => Run.fail (.parse fault)

/-! ## A task is run by its plan -/

theorem run_fail (e : Engine) (c : CommandError) (perform : Sending → Run Value) :
    e.run ((liftM (Run.fail c : Run Value) : Plan Sending Value).run perform) =
      (.error (.failed c), e) := rfl

theorem callEntry_eq (hops left : Nat) (key : String) (entry : CommandEntry) (target : Target)
    (args : Value) :
    (Reentry.within hops left).callEntry key entry target args = (do
      let inv ← Run.lift (entry.callable.aim (← Run.session) key target)
      inv.plan.run fun (errand : Errand args) => (Sending.ofErrand left errand).run hops) := by
  rw [Reentry.callEntry]
  refine congrArg (_ >>= ·) (funext fun s => congrArg (_ >>= ·) (funext fun inv => ?_))
  refine congrArg (inv.plan.run ·) (funext fun errand => ?_)
  cases errand with
  | text target said =>
    simp only [Sending.ofErrand, Sending.run, Job.run, Reentry.execute]
    split <;> rename_i h <;> rw [h] <;> rfl
  | script target script => rfl
  | order key target params => rfl

/-- **A task is run as its plan says.** -/
theorem run_eq (t : Task) (hops : Nat) :
    t.engine.run (t.job.run hops t.left) = t.engine.run (t.plan.run (Sending.run hops)) := by
  obtain ⟨e, left, job⟩ := t
  cases job with
  | call key target args =>
    simp only [Job.run, Reentry.call, Engine.run_bind, Engine.run_resolve, callEntry_eq, plan,
      Engine.aim]
    cases hfind : e.commands.find? key with
    | none => rfl
    | some entry =>
      simp only [Engine.run_session, Engine.run_lift]
      rcases haim : entry.callable.aim e.session key target with c | inv
      · rfl
      · simp only [Except.mapError, Invocation.sendings, Plan.run_rename]
  | execute target text =>
    simp only [Job.run, Reentry.execute, plan]
    rcases Statement.parse text with fault | statement
    · rfl
    · simp only [Plan.run_request]
      rfl
  | script target text =>
    cases left with
    | zero => rfl
    | succ left =>
      have hscript : Job.run hops (left + 1) (.script target text) =
          (scriptPlan text).run (Reentry.execute (Reentry.within hops left) target) := rfl
      simp only [plan, hscript, scriptPlan]
      rcases Script.split text with fault | statements
      · rfl
      · simp only [Plan.run_rename]
        rfl

/-! ## What a task makes is smaller -/

/-- The scripts that may be opened come first, then the length of what is still to be read. -/
def size (left : Nat) : Job → Nat × Nat
  | .call _ _ args => (2 * left + 1, 2 * args.weight + 1)
  | .execute _ text => (2 * left + 1, 2 * text.length)
  | .script _ _ => (2 * left, 0)

def Smaller : Nat × Nat → Nat × Nat → Prop :=
  Prod.Lex (· < ·) (· < ·)

theorem smaller_wf : WellFounded Smaller :=
  (Prod.lex ⟨_, Nat.lt_wfRel.wf⟩ ⟨_, Nat.lt_wfRel.wf⟩).wf

/-- The task is a call that comes to the invocation. -/
inductive Invokes (t : Task) (inv : Invocation) (args : Value) : Prop where
  | call {key : String} {target : Target} (hjob : t.job = .call key target args)
      (h : t.engine.aim key target = .ok inv)

theorem plan_of_invokes {t : Task} {inv : Invocation} {args : Value} (h : t.Invokes inv args) :
    t.plan = inv.sendings t.left args := by
  obtain ⟨hjob, haim⟩ := h
  simp only [plan, hjob, haim]

/-- What an invocation asks for is run by. -/
abbrev errandRun {args : Value} (hops left : Nat) (errand : Errand args) : Run Value :=
  (Sending.ofErrand left errand).run hops

/-- A call that comes to an invocation is run by the plan of it. -/
theorem run_call_of_aim {e : Engine} {key : String} {target : Target} {inv : Invocation}
    (haim : e.aim key target = .ok inv) (args : Value) (hops left : Nat) :
    e.run ((Job.call key target args).run hops left) =
      e.run ((inv.plan : Plan (Errand args) Value).run (errandRun hops left)) := by
  have hinvokes : Invokes ⟨e, left, .call key target args⟩ inv args := .call rfl haim
  have hrun := run_eq ⟨e, left, .call key target args⟩ hops
  rwa [plan_of_invokes hinvokes, Invocation.sendings, Plan.run_rename] at hrun

/-- A call that comes to nothing fails and changes nothing. -/
theorem run_call_refused {e : Engine} {key : String} {target : Target} {c : CommandError}
    (haim : e.aim key target = .error c) (args : Value) (hops left : Nat) :
    e.run ((Job.call key target args).run hops left) = (.error (.failed c), e) := by
  rw [run_eq ⟨e, left, .call key target args⟩ hops]
  simp only [plan, haim, run_fail]

/-- A command text is run as the call that it spells. -/
theorem run_execute {text : String} {statement : Statement}
    (hparse : Statement.parse text = .ok statement) (e : Engine) (target : Target)
    (hops left : Nat) : e.run ((Job.execute target text).run hops left) =
      e.run ((Job.call statement.key target statement.args).run hops left) := by
  rw [run_eq ⟨e, left, .execute target text⟩ hops]
  simp only [plan, hparse, Plan.run_request]
  rfl

/-- Where the jobs come from that a task opens. -/
inductive Holds (t : Task) : Job → Prop where
  | text {inv : Invocation} {args : Value} {target : Target} {text : String}
      (hinv : t.Invokes inv args) (h : inv.executesTexts = true) (hsaid : args.Says text) :
      Holds t (.execute target text)
  | script {args : Value} {target : Target} {text : String}
      (hinv : t.Invokes (.script text target) args) : Holds t (.script target text)
  | statement {target : Target} {text : String} {statement : Statement}
      (hjob : t.job = .execute target text) (h : Statement.parse text = .ok statement) :
      Holds t (.call statement.key target statement.args)
  | line {target : Target} {script text : String} {statements : List String}
      (hjob : t.job = .script target script) (h : Script.split script = .ok statements)
      (hmem : text ∈ statements) : Holds t (.execute target text)

/-- What a task may make: a smaller task that it holds, or an order of its invocation. -/
def Allows (t : Task) : Sending → Prop
  | .inner left job => Smaller (size left job) (size t.left t.job) ∧ t.Holds job
  | .order left key target params =>
    left = t.left ∧ ∃ inv args, t.Invokes inv args ∧ inv.Orders args key target params

/-- An act of the invocation of the task, if it is a call, or nothing. -/
inductive Acts (t : Task) (e : Engine) : Engine → Prop where
  | idle : Acts t e e
  | acted {inv : Invocation} {args : Value} {u : Engine} (h : t.Invokes inv args)
      (hact : e.Act inv u) : Acts t e u

theorem plan_every (t : Task) : t.plan.Every (Does t.Acts) t.Allows := by
  obtain ⟨e, left, job⟩ := t
  have fails (c : CommandError) {u : Task} :
      (liftM (Run.fail c : Run Value) : Plan Sending Value).Every (Does u.Acts) u.Allows :=
    Plan.every_lift ((idle_fail c).mono fun _ _ ht => ht ▸ .idle)
  cases job with
  | call key target args =>
    simp only [plan]
    split
    · rename_i inv haim
      have hinv : Invokes ⟨e, left, .call key target args⟩ inv args := .call rfl haim
      refine Plan.every_rename _
        (inv.plan_obeys.mono (fun m hm => hm.mono fun _ _ => .acted hinv) ?_)
      rintro (⟨target, said⟩ | ⟨target, text⟩ | ⟨key, target, params⟩) hs
      · have := said.said.length_le
        exact ⟨.right _ (by omega), .text hinv hs said.said⟩
      · obtain rfl : inv = .script text target := hs
        exact ⟨.left _ _ (Nat.lt_succ_self (2 * left)), .script hinv⟩
      · exact ⟨rfl, inv, args, hinv, hs⟩
    · exact fails _
  | execute target text =>
    simp only [plan]
    split
    · rename_i statement hparse
      have := Statement.weight_args_lt hparse
      exact Plan.every_request ⟨.right _ (by omega), .statement rfl hparse⟩
    · exact fails _
  | script target text =>
    cases left with
    | zero => exact fails _
    | succ left =>
      simp only [plan]
      split
      · rename_i statements hsplit
        have : 2 * left + 1 < 2 * (left + 1) := by omega
        refine Plan.every_rename _ (Plan.every_foldlM (fun _ text htext => ?_) _)
        have hmem := (List.mem_filter.1 htext).1
        exact Plan.every_request ⟨.left _ _ this, .line rfl hsplit hmem⟩
      · exact fails _

/-! ## More hops -/

theorem below_of_orders {hops : Nat} (orders : ∀ left key target params,
      Below (callKeyAt hops left key target params) (callKeyAt (hops + 1) left key target params))
    (left : Nat) (job : Job) : Below (job.run hops left) (job.run (hops + 1) left) := by
  induction h : size left job using smaller_wf.induction generalizing left job with
  | _ n ih =>
    intro e
    have requests : (plan ⟨e, left, job⟩).Every (Does (Acts ⟨e, left, job⟩))
        fun s => Below (s.run hops) (s.run (hops + 1)) := by
      refine (plan_every ⟨e, left, job⟩).mono (fun _ hm => hm) ?_
      rintro (⟨left, job⟩ | ⟨left, key, target, params⟩) hs
      · exact ih _ (h ▸ hs.1) left job rfl
      · exact orders left key target params
    rw [run_eq ⟨e, left, job⟩, run_eq ⟨e, left, job⟩]
    exact Plan.run_below requests e

theorem order_below : ∀ (hops left : Nat) (key : String) (target : Target) (params : Value),
    Below (callKeyAt hops left key target params) (callKeyAt (hops + 1) left key target params)
  | 0, _, _, _, _ => fun _ h => (h rfl).elim
  | hops + 1, left, key, target, params =>
    below_of_orders (order_below hops) left (.call key target params)

/-- **A run that is not overrun says the same when it is allowed more hops.** -/
theorem sending_below (hops : Nat) : ∀ s : Sending, Below (s.run hops) (s.run (hops + 1))
  | .inner left job => below_of_orders (order_below hops) left job
  | .order left key target params => order_below hops left key target params

/-! ## The tasks that a task makes -/

/-- Performing the task gets to a request, on the engine that it has made by then. -/
def Sends (t : Task) (s : Sending) (e : Engine) : Prop :=
  t.plan.Reaches (Plan.Returns Sending.run) t.engine s e

/-- The first task executes or runs the second one. -/
def Opens (t u : Task) : Prop :=
  t.Sends (.inner u.left u.job) u.engine

/-- The first task calls the second one by key. -/
def Orders (t u : Task) : Prop :=
  ∃ key target params, u.job = .call key target params ∧
    t.Sends (.order u.left key target params) u.engine

def Makes (t u : Task) : Prop :=
  t.Opens u ∨ t.Orders u

/-- What a task makes, what that makes, and so on. -/
def Leads : Task → Task → Prop :=
  Relation.ReflTransGen Makes

theorem Opens.allowed {t u : Task} (h : t.Opens u) :
    Smaller (size u.left u.job) (size t.left t.job) ∧ t.Holds u.job :=
  Plan.Reaches.every (Q := t.Allows) t.plan_every h

theorem Opens.smaller {t u : Task} (h : t.Opens u) :
    Smaller (size u.left u.job) (size t.left t.job) :=
  h.allowed.1

theorem Orders.invokes {t u : Task} (h : t.Orders u) :
    u.left = t.left ∧ ∃ key target params inv args, u.job = .call key target params ∧
      t.Invokes inv args ∧ inv.Orders args key target params := by
  obtain ⟨key, target, params, hjob, h⟩ := h
  obtain ⟨hleft, inv, args, hinv, horder⟩ := Plan.Reaches.every t.plan_every h
  exact ⟨hleft, key, target, params, inv, args, hjob, hinv, horder⟩

/-- Runs of tasks by induction: of what a task sends for, its run allows what it opens as many hops,
and what it orders one hop less. -/
theorem run_induction {M : Nat → Task → Prop}
    (step : ∀ hops t, (∀ u, t.Opens u → M hops u) →
      (∀ u, t.Orders u → ∀ fewer, hops = fewer + 1 → M fewer u) → M hops t)
    (hops : Nat) (t : Task) : M hops t := by
  have opened (hops : Nat) (nearer : ∀ fewer, hops = fewer + 1 → ∀ t, M fewer t) (t : Task) :
      M hops t := by
    induction hsize : size t.left t.job using smaller_wf.induction generalizing t with
    | _ n ih =>
      exact step hops t (fun u hu => ih _ (hsize ▸ hu.smaller) u rfl)
        fun u _ fewer hfewer => nearer fewer hfewer u
  induction hops generalizing t with
  | zero => exact opened 0 nofun t
  | succ hops nearer => exact opened (hops + 1) (fun _ h => Nat.succ.inj h ▸ nearer) t

/-! ## What tasks keep -/

section Keeps

variable {P : Engine → Prop} {J : Task → Prop}

/-- Runs keep what acts keep, whatever relation the acts are known to be in. -/
theorem run_keeps_of {E : Task → Engine → Engine → Prop}
    (every : ∀ t : Task, t.plan.Every (Does (E t)) t.Allows)
    (makes : ∀ t u, J t → P t.engine → t.Makes u → J u)
    (acts : ∀ t e f, J t → P t.engine → P e → E t e f → P f) (hops : Nat) (t : Task) (hJ : J t)
    (hP : P t.engine) : P (t.engine.run (t.job.run hops t.left)).2 := by
  induction hops, t using run_induction with
  | step hops t opens orders =>
    rw [run_eq]
    refine Plan.run_keeps (every t) (acts t · · hJ hP) (fun s e hs he => ?_) hP
    cases s with
    | inner left job =>
      exact opens ⟨e, left, job⟩ hs (makes _ _ hJ hP (.inl hs)) he
    | order left key target params =>
      have horders : t.Orders ⟨e, left, .call key target params⟩ := ⟨_, _, _, rfl, hs⟩
      cases hops with
      | zero => exact he
      | succ hops => exact orders _ horders hops rfl (makes _ _ hJ hP (.inr horders)) he

/- Tasks in `J` on engines in `P` make tasks in `J`, and their acts lead from `P` to `P`. -/
variable (makes : ∀ t u, J t → P t.engine → t.Makes u → J u)
  (acts : ∀ t e f, J t → P t.engine → P e → t.Acts e f → P f)

include makes acts

theorem run_keeps (hops : Nat) (t : Task) (hJ : J t) (hP : P t.engine) :
    P (t.engine.run (t.job.run hops t.left)).2 :=
  run_keeps_of plan_every makes acts hops t hJ hP

theorem sending_keeps (hops : Nat) (t : Task) (hJ : J t) (hP : P t.engine) (s : Sending)
    (e : Engine) (hs : t.Sends s e) (he : P e) : P (e.run (s.run hops)).2 := by
  cases s with
  | inner left job => exact run_keeps makes acts hops ⟨e, left, job⟩ (makes _ _ hJ hP (.inl hs)) he
  | order left key target params =>
    cases hops with
    | zero => exact he
    | succ hops =>
      exact run_keeps makes acts hops ⟨e, left, .call key target params⟩
        (makes _ _ hJ hP (.inr ⟨_, _, _, rfl, hs⟩)) he

/-- **What the acts of tasks keep holds for every task that a task leads to.** -/
theorem Leads.keeps {t u : Task} (hu : t.Leads u) (hJ : J t) (hP : P t.engine) :
    J u ∧ P u.engine := by
  induction hu with
  | refl => exact ⟨hJ, hP⟩
  | @tail u v _ huv ih =>
    obtain ⟨hJ, hP⟩ := ih
    have reached (s : Sending) (e : Engine) (hs : u.Sends s e) : P e := by
      refine Plan.Reaches.keeps u.plan_every (acts u · · hJ hP) (fun s e hs he w f hf => ?_) hs hP
      obtain ⟨hops, hf⟩ := hf
      have := sending_keeps makes acts hops u hJ hP s e hs he
      rwa [hf] at this
    refine ⟨makes u v hJ hP huv, ?_⟩
    rcases huv with hs | ⟨key, target, params, -, hs⟩
    · exact reached _ _ hs
    · exact reached _ _ hs

end Keeps

/-! ## The end of a task -/

/-- With enough hops the task is not overrun. -/
def Ends (t : Task) : Prop :=
  ∃ hops, (t.engine.run (t.job.run hops t.left)).1 ≠ .error .overrun

theorem ends_of_makes {t : Task} (h : ∀ u, t.Makes u → u.Ends) : t.Ends := by
  have sendings (s : Sending) (e : Engine) (hs : t.Sends s e) :
      ∃ hops, (e.run (s.run hops)).1 ≠ .error .overrun := by
    cases s with
    | inner left job => exact h ⟨e, left, job⟩ (.inl hs)
    | order left key target params =>
      obtain ⟨hops, hne⟩ := h ⟨e, left, .call key target params⟩ (.inr ⟨_, _, _, rfl, hs⟩)
      exact ⟨hops + 1, hne⟩
  obtain ⟨hops, hne⟩ := Plan.exists_halts sending_below
    (t.plan_every.mono (fun _ hm => hm.halts) fun _ hs => hs) sendings
  exact ⟨hops, by rwa [run_eq]⟩

theorem Sends.halts {t : Task} {s : Sending} {e : Engine} (hs : t.Sends s e) {hops : Nat}
    (h : (t.engine.run (t.job.run hops t.left)).1 ≠ .error .overrun) :
    (e.run (s.run hops)).1 ≠ .error .overrun := by
  rw [run_eq] at h
  exact Plan.Reaches.halts sending_below hs h

/-- A set of tasks that is closed under opening is well founded if its orders are. -/
theorem acc_of_orders {P : Task → Prop} (opens : ∀ t u, P t → t.Opens u → P u)
    (orders : ∀ t u, P t → t.Orders u → Acc (fun u t => Makes t u) u) :
    ∀ t, P t → Acc (fun u t => Makes t u) t := by
  intro t
  induction hsize : size t.left t.job using smaller_wf.induction generalizing t with
  | _ n ih =>
    intro ht
    refine ⟨t, fun u hu => ?_⟩
    rcases hu with hu | hu
    · exact ih _ (hsize ▸ hu.smaller) u rfl (opens t u ht hu)
    · exact orders t u ht hu

theorem acc_of_halts (hops : Nat) : ∀ t : Task,
    (t.engine.run (t.job.run hops t.left)).1 ≠ .error .overrun →
      Acc (fun u t => Makes t u) t := by
  induction hops with
  | zero =>
    refine acc_of_orders (fun t u h hu => Sends.halts hu h) fun t u h hu => ?_
    obtain ⟨key, target, params, -, hu⟩ := hu
    exact (Sends.halts hu h rfl).elim
  | succ hops nearer =>
    refine acc_of_orders (fun t u h hu => Sends.halts hu h) fun t u h hu => nearer u ?_
    obtain ⟨key, target, params, hjob, hu⟩ := hu
    rw [hjob]
    exact Sends.halts hu h

/-- **A task ends exactly if the tasks that it leads to are a finite tree.** -/
theorem ends_iff_acc {t : Task} : t.Ends ↔ Acc (fun u t => Makes t u) t := by
  constructor
  · rintro ⟨hops, h⟩
    exact acc_of_halts hops t h
  · intro h
    induction h with
    | intro t _ ih => exact ends_of_makes ih

end Task

end TorrentControl
