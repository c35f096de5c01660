import TorrentControl.Proofs.Nesting

/-! # How deep scripts are nested

A run is told how many more scripts may be opened, and so has nothing to undo when a script ends or
fails. Here the same runs are described with a counter that is a part of the state: opening a script
raises it, or is refused where it has reached the limit, and the end of the script lowers it, however
the script ends. Both descriptions give the same outcomes, so the counter is always back where it was
when a job returns. -/

namespace TorrentControl

/-! ## The jobs that a job asks for -/

namespace Job

def isScript : Job → Bool
  | .script _ _ => true
  | _ => false

/-- The job that an errand asks for. -/
def ofErrand {args : Value} : Errand args → Job
  | .text target inner => .execute target inner.text
  | .script target text => .script target text
  | .order key target params => .call key target params

/-- What a job does on an engine once it was entered. -/
def plan (e : Engine) : Job → Plan Job Value
  | .call key target args =>
    match e.aim key target with
    | .ok inv => (inv.plan : Plan (Errand args) Value).rename ofErrand
    | .error c => Run.fail c
  | .execute target text =>
    match Statement.parse text with
    | .ok statement => Plan.request (.call statement.key target statement.args)
    | .error fault => Run.fail (.parse fault)
  | .script target text =>
    match Script.split text with
    | .ok statements => (statementsPlan statements).rename (.execute target)
    | .error fault => Run.fail (.parse fault)

end Job

namespace Sending

def job : Sending → Job
  | .inner _ job => job
  | .order _ key target params => .call key target params

/-- How many more scripts may be opened where the job is run. -/
def left : Sending → Nat
  | .inner left _ => left
  | .order left _ _ _ => left

end Sending

namespace Task

/-- A task that is not refused does what its job does. -/
theorem rename_plan {t : Task} (h : ¬ t.Refused) :
    t.plan.rename Sending.job = t.job.plan t.engine := by
  obtain ⟨e, left, job⟩ := t
  cases job with
  | call key target args =>
    simp only [plan, Job.plan]
    cases e.aim key target with
    | error c => rfl
    | ok inv =>
      have hjob : (fun errand : Errand args => (Sending.ofErrand left errand).job) = Job.ofErrand :=
        funext fun errand => by cases errand <;> rfl
      simp only [Invocation.sendings, Plan.rename_rename, hjob]
  | execute target text =>
    simp only [plan, Job.plan]
    cases Statement.parse text <;> rfl
  | script target text =>
    cases left with
    | zero => exact (h (.intro e target text)).elim
    | succ left =>
      simp only [plan, Job.plan]
      cases Script.split text with
      | error fault => rfl
      | ok statements => exact Plan.rename_rename _ _ _

/-- What a task asks for is run where one fewer script may be opened if the task is a script. -/
theorem every_left (t : Task) :
    t.plan.Every (fun _ => True) fun s => s.left + t.job.isScript.toNat = t.left := by
  obtain ⟨e, left, job⟩ := t
  have fails (c : CommandError) {Q : Sending → Prop} :
      (liftM (Run.fail c : Run Value) : Plan Sending Value).Every (fun _ => True) Q :=
    Plan.every_lift trivial
  cases job with
  | call key target args =>
    simp only [plan]
    split
    · rename_i inv _
      refine Plan.every_rename _ (inv.plan_obeys.mono (fun _ _ => trivial) fun errand _ => ?_)
      cases errand <;> rfl
    · exact fails _
  | execute target text =>
    simp only [plan]
    split
    · exact Plan.every_request rfl
    · exact fails _
  | script target text =>
    cases left with
    | zero => exact fails _
    | succ left =>
      simp only [plan]
      split
      · refine Plan.every_rename _ (Plan.every_foldlM (fun _ _ _ => ?_) _)
        exact Plan.every_request rfl
      · exact fails _

theorem Sends.left_eq {t : Task} {s : Sending} {e : Engine} (h : t.Sends s e) :
    s.left + t.job.isScript.toNat = t.left :=
  Plan.Reaches.every (P := fun _ => True) (Q := fun s => s.left + t.job.isScript.toNat = t.left)
    t.every_left h

end Task

/-! ## Runs with a counter -/

/-- An engine and the number of scripts that are open on it. -/
@[ext]
structure Nested where
  engine : Engine
  depth : Nat

namespace Nested

/-- A script counts as open while its statements run, and is refused where too many are. -/
def enter (s : Nested) (job : Job) : Option Nested :=
  if job.isScript then
    if scriptLimit ≤ s.depth then none else some { s with depth := s.depth + 1 }
  else some s

/-- The end of a job, whatever its outcome is. -/
def leave (s : Nested) (job : Job) : Nested :=
  if job.isScript then { s with depth := s.depth - 1 } else s

end Nested

/-- Performing a plan of jobs comes to an outcome and leaves an engine and a depth. -/
inductive Nested.Performs : {α : Type} → Nested → Plan Job α → Except CommandError α → Nested → Prop
  | answer {α : Type} (s : Nested) (a : α) : Performs s (.answer a) (.ok a) s
  | act {α β : Type} {s t : Nested} {m : Run β} {next : β → Plan Job α} {b : β} {e : Engine}
      {r : Except CommandError α} (hact : s.engine.run m = (.ok b, e))
      (hnext : Performs { s with engine := e } (next b) r t) : Performs s (.act m next) r t
  | actFails {α β : Type} {s : Nested} {m : Run β} {next : β → Plan Job α} {c : CommandError}
      {e : Engine} (hact : s.engine.run m = (.error (.failed c), e)) :
      Performs s (.act m next) (.error c) { s with engine := e }
  | ask {α : Type} {s entered t u : Nested} {job : Job} {next : Value → Plan Job α} {v : Value}
      {r : Except CommandError α} (henter : s.enter job = some entered)
      (hjob : Performs entered (job.plan s.engine) (.ok v) t)
      (hnext : Performs (t.leave job) (next v) r u) : Performs s (.ask job next) r u
  | askFails {α : Type} {s entered t : Nested} {job : Job} {next : Value → Plan Job α}
      {c : CommandError} (henter : s.enter job = some entered)
      (hjob : Performs entered (job.plan s.engine) (.error c) t) :
      Performs s (.ask job next) (.error c) (t.leave job)
  | refused {α : Type} {s : Nested} {job : Job} {next : Value → Plan Job α}
      (henter : s.enter job = none) :
      Performs s (.ask job next) (.error (.input (.scriptsTooDeep scriptLimit))) s

/-- A job returns a value or an error, and leaves an engine and a depth. -/
def Nested.Returns (s : Nested) (job : Job) (r : Except CommandError Value) (t : Nested) : Prop :=
  s.Performs (Plan.request job) r t

namespace Nested

variable {α : Type} {s t u entered : Nested} {job : Job} {p : Plan Job α} {next : Value → Plan Job α}
  {r : Except CommandError α}

/-! ## The counter is restored -/

theorem enter_eq_some (h : s.enter job = some entered) :
    entered = ⟨s.engine, s.depth + job.isScript.toNat⟩ := by
  unfold enter at h
  split at h
  · rename_i hscript
    split at h
    · cases h
    · cases h
      rw [hscript, Bool.toNat_true]
  · rename_i hscript
    cases h
    rw [eq_false_of_ne_true hscript, Bool.toNat_false, Nat.add_zero]

theorem enter_eq_none : s.enter job = none ↔ job.isScript = true ∧ scriptLimit ≤ s.depth := by
  cases hscript : job.isScript <;> simp [enter, hscript]

theorem leave_eq (t : Nested) (job : Job) :
    t.leave job = ⟨t.engine, t.depth - job.isScript.toNat⟩ := by
  unfold leave
  cases job.isScript <;> rfl

theorem depth_leave (henter : s.enter job = some entered) (h : t.depth = entered.depth) :
    (t.leave job).depth = s.depth := by
  rw [leave_eq, h, enter_eq_some henter]
  exact Nat.add_sub_cancel ..

/-- **Whatever a plan comes to, the counter is as it was before.** -/
theorem Performs.depth_eq (h : s.Performs p r t) : t.depth = s.depth := by
  induction h with
  | answer | actFails | refused => rfl
  | act _ _ ih => exact ih
  | ask henter _ _ ihjob ihnext => exact ihnext.trans (depth_leave henter ihjob)
  | askFails henter _ ihjob => exact depth_leave henter ihjob

/-! ## Runs with a counter are runs -/

/-- How many more scripts may be opened. -/
def room (s : Nested) : Nat :=
  scriptLimit - s.depth

theorem room_enter (h : s.enter job = some entered) :
    s.room = entered.room + job.isScript.toNat := by
  have hentered := enter_eq_some h
  subst hentered
  cases hscript : job.isScript with
  | false => rfl
  | true =>
    have hlimit : ¬ scriptLimit ≤ s.depth := fun hle =>
      nomatch h.symm.trans (enter_eq_none.2 ⟨hscript, hle⟩)
    simp only [room, Bool.toNat_true]
    omega

theorem room_leave (henter : s.enter job = some entered) (h : t.depth = entered.depth) :
    (t.leave job).room = s.room :=
  congrArg (scriptLimit - ·) (depth_leave henter h)

theorem not_refused (h : s.enter job = some entered) : ¬ Task.Refused ⟨s.engine, s.room, job⟩ := by
  have hroom := room_enter h
  generalize s.room = left at hroom
  rintro ⟨⟩
  cases hroom

/-- A job that is entered does what its plan says, with one more hop for what it orders. -/
theorem run_of_plan {hops : Nat} {r : Except CommandError Value} {f : Engine}
    (henter : s.enter job = some entered)
    (hplan : entered.engine.run ((job.plan s.engine).run fun j => j.run hops entered.room) =
      (Except.mapError .failed r, f)) :
    s.engine.run (job.run (hops + 1) s.room) = (Except.mapError .failed r, f) := by
  have hroom := room_enter henter
  have hjob := Task.rename_plan (not_refused henter)
  rw [show entered.engine = s.engine by rw [enter_eq_some henter], ← hjob, Plan.run_rename] at hplan
  rw [Task.run_eq ⟨s.engine, s.room, job⟩, ← hplan]
  refine Plan.run_below ((Task.every_left _).mono (fun _ h => h) fun sending hleft => ?_) s.engine
    (by rw [hplan]; cases r <;> nofun)
  have hleft : sending.left = entered.room := Nat.add_right_cancel (hleft.trans hroom)
  rw [← hleft]
  cases sending with
  | inner left job => exact Task.sending_below hops (.inner left job)
  | order left key target params => exact .refl _

theorem Performs.run (h : s.Performs p r t) : ∃ hops,
    s.engine.run (p.run fun j => j.run hops s.room) = (Except.mapError .failed r, t.engine) := by
  induction h with
  | answer s a => exact ⟨0, rfl⟩
  | act hact _ ih =>
    obtain ⟨hops, hrun⟩ := ih
    exact ⟨hops, (Engine.run_bind_ok _ hact).trans hrun⟩
  | actFails hact => exact ⟨0, Engine.run_bind_error _ hact⟩
  | @ask _ s entered t u job next v r henter hjob _ ihjob ihnext =>
    obtain ⟨n, hplan⟩ := ihjob
    obtain ⟨m, hrest⟩ := ihnext
    have hrun := run_of_plan henter hplan
    rw [room_leave henter hjob.depth_eq, leave_eq] at hrest
    -- the job needs `n + 1` hops and the rest `m`
    refine ⟨max (n + 1) m, ?_⟩
    have more {k : Nat} (hk : k ≤ max (n + 1) m) (j : Job) :
        Run.Below (j.run k s.room) (j.run (max (n + 1) m) s.room) :=
      Plan.below_of_le Task.sending_below hk (.inner s.room j)
    have hall := more (Nat.le_max_left _ _) job s.engine (by rw [hrun]; nofun)
    have hnext := Plan.run_below_of_forall (more (Nat.le_max_right _ _)) (next v) t.engine
      (by rw [hrest]; cases r <;> nofun)
    rw [Plan.run, Engine.run_bind_ok _ (hall.trans hrun)]
    exact hnext.trans hrest
  | @askFails _ s entered t job next c henter _ ihjob =>
    obtain ⟨n, hplan⟩ := ihjob
    rw [leave_eq]
    exact ⟨n + 1, Engine.run_bind_error _ (run_of_plan henter hplan)⟩
  | @refused _ s job next henter =>
    obtain ⟨hscript, hdepth⟩ := enter_eq_none.1 henter
    refine ⟨0, Engine.run_bind_error _ ?_⟩
    cases job with
    | script target text =>
      rw [room, Nat.sub_eq_zero_of_le hdepth]
      rfl
    | _ => cases hscript

/-- What a job comes to that is asked for before others. -/
theorem Returns.bind {v : Value} (h : s.Returns job (.ok v) t) (hnext : t.Performs (next v) r u) :
    s.Performs (.ask job next) r u := by
  cases h with
  | ask henter hjob hanswer =>
    cases hanswer
    exact .ask henter hjob hnext

theorem Returns.fails {c : CommandError} (h : s.Returns job (.error c) t) :
    s.Performs (.ask job next) (.error c) t := by
  cases h with
  | ask _ _ hanswer => cases hanswer
  | askFails henter hjob => exact .askFails henter hjob
  | refused henter => exact .refused henter

theorem Returns.of_performs {r : Except CommandError Value} (henter : s.enter job = some entered)
    (h : entered.Performs (job.plan s.engine) r t) : s.Returns job r (t.leave job) := by
  cases r with
  | error c => exact .askFails henter h
  | ok v => exact .ask henter h (.answer _ v)

/-- A plan performs what its run does, if that is so for every job that it gets to. -/
theorem performs_of_run {hops depth : Nat} {f : Engine} {r : Except CommandError α} :
    ∀ {q : Plan Sending α} {e : Engine},
      e.run (q.run (Sending.run hops)) = (Except.mapError .failed r, f) →
      (∀ sending e', q.Reaches (Plan.Returns Sending.run) e sending e' → ∀ r f,
        e'.run (sending.run hops) = (Except.mapError .failed r, f) →
          Returns ⟨e', depth⟩ sending.job r ⟨f, depth⟩) →
      Performs ⟨e, depth⟩ (q.rename Sending.job) r ⟨f, depth⟩
  | .answer a, e, hrun, _ => by
    cases r with
    | error c => cases hrun
    | ok b =>
      cases hrun
      exact .answer _ _
  | .act m next, e, hrun, hjobs => by
    rcases hm : e.run m with ⟨h | b, e'⟩
    · rw [Plan.run, Engine.run_bind_error e hm] at hrun
      cases r with
      | ok a => cases hrun
      | error c =>
        cases hrun
        exact .actFails hm
    · rw [Plan.run, Engine.run_bind_ok e hm] at hrun
      have hrest := performs_of_run hrun fun sending e'' hs => hjobs sending e'' ⟨b, e', hm, hs⟩
      exact .act hm hrest
  | .ask sending next, e, hrun, hjobs => by
    have hjob := hjobs sending e (.inl ⟨rfl, rfl⟩)
    rcases hs : e.run (sending.run hops) with ⟨h | v, e'⟩
    · rw [Plan.run, Engine.run_bind_error e hs] at hrun
      cases r with
      | ok a => cases hrun
      | error c =>
        cases hrun
        exact (hjob (.error c) f hs).fails
    · rw [Plan.run, Engine.run_bind_ok e hs] at hrun
      refine (hjob (.ok v) e' hs).bind (performs_of_run hrun fun other e'' hother => ?_)
      exact hjobs other e'' (.inr ⟨v, e', ⟨hops, hs⟩, hother⟩)

theorem returns_of_run (hops : Nat) (t : Task) : ∀ depth, scriptLimit - depth = t.left → ∀ r f,
    t.engine.run (t.job.run hops t.left) = (Except.mapError .failed r, f) →
      Returns ⟨t.engine, depth⟩ t.job r ⟨f, depth⟩ := by
  induction hops, t using Task.run_induction with
  | step hops t opens orders =>
    intro depth hleft r f hrun
    cases henter : enter ⟨t.engine, depth⟩ t.job with
    | none =>
      obtain ⟨hscript, hdepth⟩ := enter_eq_none.1 henter
      obtain ⟨e, left, job⟩ := t
      obtain rfl : left = 0 := hleft.symm.trans (Nat.sub_eq_zero_of_le hdepth)
      cases job with
      | script target text =>
        cases r with
        | ok v => cases hrun
        | error c =>
          cases hrun
          exact .refused henter
      | _ => cases hscript
    | some entered =>
      have hroom := room_enter henter
      have hplan := Task.rename_plan (not_refused henter)
      rw [show (⟨t.engine, room ⟨t.engine, depth⟩, t.job⟩ : Task) = t from
        congrArg (Task.mk t.engine · t.job) hleft] at hplan
      have hentered := enter_eq_some henter
      subst hentered
      rw [Task.run_eq] at hrun
      -- the statements of a script run one level deeper
      have hjobs (sending : Sending) (e : Engine) (hs : t.Sends sending e)
          (r : Except CommandError Value) (f : Engine)
          (hsent : e.run (sending.run hops) = (Except.mapError .failed r, f)) :
          Returns ⟨e, depth + t.job.isScript.toNat⟩ sending.job r
            ⟨f, depth + t.job.isScript.toNat⟩ := by
        have hsleft : scriptLimit - (depth + t.job.isScript.toNat) = sending.left :=
          Nat.add_right_cancel ((hroom.symm.trans hleft).trans hs.left_eq.symm)
        cases sending with
        | inner left job => exact opens ⟨e, left, job⟩ hs _ hsleft r f hsent
        | order left key target params =>
          cases hops with
          | zero => cases r <;> cases hsent
          | succ hops =>
            exact orders ⟨e, left, .call key target params⟩ ⟨_, _, _, rfl, hs⟩ hops rfl _ hsleft r f
              hsent
      have hperforms := performs_of_run hrun hjobs
      rw [hplan] at hperforms
      have hreturns := Returns.of_performs henter hperforms
      rwa [leave_eq, Nat.add_sub_cancel] at hreturns

/-- **A run with a counter is a run that is told how many more scripts may be opened**, and leaves the
counter as it was. -/
theorem returns_iff {r : Except CommandError Value} : s.Returns job r t ↔ t.depth = s.depth ∧
    ∃ hops, s.engine.run (job.run hops s.room) = (Except.mapError .failed r, t.engine) := by
  constructor
  · intro h
    refine ⟨h.depth_eq, ?_⟩
    obtain ⟨hops, hrun⟩ := Performs.run h
    exact ⟨hops, by rwa [Plan.run_request] at hrun⟩
  · obtain ⟨f, depth⟩ := t
    rintro ⟨rfl, hops, hrun⟩
    exact returns_of_run hops ⟨s.engine, s.room, job⟩ s.depth rfl r f hrun

end Nested

end TorrentControl
