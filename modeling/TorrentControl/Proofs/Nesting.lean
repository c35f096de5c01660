import TorrentControl.Proofs.Task

/-! # The limit on nested scripts

A script that is opened where no more may be is refused. A run in which no script is refused does not
depend on how many more scripts might have been opened. -/

namespace TorrentControl

namespace Plan

variable {R R' R'' α : Type}

theorem rename_rename (f : R → R') (g : R' → R'') :
    ∀ p : Plan R α, (p.rename f).rename g = p.rename fun r => g (f r)
  | .answer _ => rfl
  | .act m next => congrArg (act m) (funext fun b => rename_rename f g (next b))
  | .ask r next => congrArg (ask (g (f r))) (funext fun v => rename_rename f g (next v))

/-- What performs the requests alike that a plan gets to performs the plan alike. -/
theorem run_congr {returns : R → Engine → Value → Engine → Prop} {f g : R → Run Value}
    (hreturns : ∀ r e v t, e.run (g r) = (.ok v, t) → returns r e v t) :
    ∀ {p : Plan R α} {e : Engine},
      (∀ r t, p.Reaches returns e r t → t.run (f r) = t.run (g r)) →
        e.run (p.run f) = e.run (p.run g)
  | .answer _, _, _ => rfl
  | .act m next, e, h => by
    rcases hm : e.run m with ⟨x | b, s⟩
    · rw [run, run, Engine.run_bind_error e hm, Engine.run_bind_error e hm]
    · rw [run, run, Engine.run_bind_ok e hm, Engine.run_bind_ok e hm]
      exact run_congr hreturns fun r t hr => h r t ⟨b, s, hm, hr⟩
  | .ask q next, e, h => by
    have hq := h q e (.inl ⟨rfl, rfl⟩)
    rcases hg : e.run (g q) with ⟨x | v, s⟩
    · rw [run, run, Engine.run_bind_error e (hq.trans hg), Engine.run_bind_error e hg]
    · rw [run, run, Engine.run_bind_ok e (hq.trans hg), Engine.run_bind_ok e hg]
      exact run_congr hreturns fun r t hr => h r t (.inr ⟨v, s, hreturns q e v s hg, hr⟩)

end Plan

/-- The same run where one more script may be opened. -/
def Sending.deepen : Sending → Sending
  | .inner left job => .inner (left + 1) job
  | .order left key target params => .order (left + 1) key target params

theorem Sending.deepen_ofErrand {args : Value} (left : Nat) (errand : Errand args) :
    (ofErrand left errand).deepen = ofErrand (left + 1) errand := by
  cases errand <;> rfl

namespace Task

/-- The same task where one more script may be opened. -/
def deepen (t : Task) : Task :=
  { t with left := t.left + 1 }

/-- A script is to be opened where no more may be. -/
inductive Refused : Task → Prop where
  | intro (e : Engine) (target : Target) (text : String) : Refused ⟨e, 0, .script target text⟩

/-- The task or one that it leads to is refused. -/
def HitsLimit (t : Task) : Prop :=
  ∃ u, t.Leads u ∧ u.Refused

theorem HitsLimit.of_makes {t u : Task} (h : t.Makes u) (hu : u.HitsLimit) : t.HitsLimit := by
  obtain ⟨v, hv, hrefused⟩ := hu
  exact ⟨v, .head h hv, hrefused⟩

theorem hitsLimit_iff {t : Task} :
    t.HitsLimit ↔ t.Refused ∨ ∃ u, t.Makes u ∧ u.HitsLimit := by
  constructor
  · rintro ⟨v, hv, hrefused⟩
    rcases hv.cases_head with rfl | ⟨u, hu, hv⟩
    · exact .inl hrefused
    · exact .inr ⟨u, hu, v, hv, hrefused⟩
  · rintro (hrefused | ⟨u, hu, hlimit⟩)
    · exact ⟨t, .refl, hrefused⟩
    · exact .of_makes hu hlimit

/-- A task that is not refused sends for the same where one more script may be opened. -/
theorem plan_deepen {t : Task} (h : ¬ t.Refused) : t.deepen.plan = t.plan.rename Sending.deepen := by
  obtain ⟨e, left, job⟩ := t
  cases job with
  | call key target args =>
    simp only [plan, deepen]
    split
    · rename_i inv haim
      simp only [Invocation.sendings, Plan.rename_rename, Sending.deepen_ofErrand]
    · rfl
  | execute target text =>
    simp only [plan, deepen]
    split <;> rfl
  | script target text =>
    cases left with
    | zero => exact (h (.intro e target text)).elim
    | succ left =>
      simp only [plan, deepen]
      split
      · rw [Plan.rename_rename]
        rfl
      · rfl

/-- **Where no script is refused, one more may be opened and the run is the same.** -/
theorem run_deepen (hops : Nat) (t : Task) (h : ¬ t.HitsLimit) :
    t.engine.run (t.job.run hops (t.left + 1)) = t.engine.run (t.job.run hops t.left) := by
  induction hops, t using run_induction with
  | step hops t opens orders =>
    have hplan := plan_deepen fun hrefused => h ⟨t, .refl, hrefused⟩
    have hdeep := run_eq t.deepen hops
    rw [hplan, Plan.run_rename] at hdeep
    rw [run_eq t hops]
    have returns (s : Sending) (e : Engine) (v : Value) (u : Engine)
        (hs : e.run (s.run hops) = (.ok v, u)) : Plan.Returns Sending.run s e v u :=
      ⟨hops, hs⟩
    refine hdeep.trans (Plan.run_congr returns fun s e hs => ?_)
    cases s with
    | inner left job =>
      have hopens : t.Opens ⟨e, left, job⟩ := hs
      exact opens _ hopens fun hlimit => h (.of_makes (.inl hopens) hlimit)
    | order left key target params =>
      have horders : t.Orders ⟨e, left, .call key target params⟩ := ⟨_, _, _, rfl, hs⟩
      cases hops with
      | zero => rfl
      | succ hops =>
        exact orders _ horders hops rfl fun hlimit => h (.of_makes (.inr horders) hlimit)

end Task

end TorrentControl
