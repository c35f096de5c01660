import TorrentControl.Proofs.Run

/-! # Plans, step by step

What a plan acts and asks for, whatever the engine, and which requests it gets to when it is performed
from a given engine. Performing is monotone in the runs that are given for the requests. Where these
runs are the stages of a limit, a plan ends at some stage exactly when every request that it gets to
does. -/

namespace TorrentControl.Plan

variable {R R' α β : Type}

/-! ## Composed plans -/

@[simp] theorem lift_eq (m : Run α) : (liftM m : Plan R α) = .act m .answer := rfl

@[simp] theorem answer_bind (a : α) (f : α → Plan R β) : Plan.answer a >>= f = f a := rfl

@[simp] theorem act_bind {γ : Type} (m : Run γ) (next : γ → Plan R α) (f : α → Plan R β) :
    act m next >>= f = act m fun c => next c >>= f := rfl

@[simp] theorem ask_bind (r : R) (next : Value → Plan R α) (f : α → Plan R β) :
    ask r next >>= f = ask r fun v => next v >>= f := rfl

/-- The same plan with its requests put in other words. -/
def rename (f : R → R') : Plan R α → Plan R' α
  | .answer a => .answer a
  | .act m next => .act m fun b => (next b).rename f
  | .ask r next => .ask (f r) fun v => (next v).rename f

theorem run_rename (f : R → R') (perform : R' → Run Value) :
    ∀ p : Plan R α, (p.rename f).run perform = p.run fun r => perform (f r)
  | .answer _ => rfl
  | .act _ next => congrArg (_ >>= ·) (funext fun b => run_rename f perform (next b))
  | .ask _ next => congrArg (_ >>= ·) (funext fun v => run_rename f perform (next v))

theorem run_bind (perform : R → Run Value) (f : α → Plan R β) :
    ∀ p : Plan R α, (p >>= f).run perform = p.run perform >>= fun a => (f a).run perform
  | .answer a => (pure_bind a fun a => (f a).run perform).symm
  | .act m next => by
    simp only [act_bind, run, bind_assoc]
    exact congrArg (m >>= ·) (funext fun b => run_bind perform f (next b))
  | .ask r next => by
    simp only [ask_bind, run, bind_assoc]
    exact congrArg (perform r >>= ·) (funext fun v => run_bind perform f (next v))

theorem run_request (perform : R → Run Value) (r : R) : (request r).run perform = perform r :=
  bind_pure _

/-! ## What a plan acts and asks for -/

/-- Whatever is answered before them, every act of the plan satisfies `P` and every request `Q`. -/
def Every (P : ∀ {β : Type}, Run β → Prop) (Q : R → Prop) : Plan R α → Prop
  | .answer _ => True
  | .act m next => P m ∧ ∀ b, (next b).Every P Q
  | .ask r next => Q r ∧ ∀ v, (next v).Every P Q

section Every

variable {P P' : ∀ {β : Type}, Run β → Prop} {Q Q' : R → Prop}

theorem every_pure (a : α) : (pure a : Plan R α).Every P Q :=
  trivial

theorem every_lift {m : Run α} (h : P m) : (liftM m : Plan R α).Every P Q :=
  ⟨h, fun _ => trivial⟩

theorem every_request {r : R} (h : Q r) : (request r).Every P Q :=
  ⟨h, fun _ => trivial⟩

theorem Every.bind {f : α → Plan R β} :
    ∀ {p : Plan R α}, p.Every P Q → (∀ a, (f a).Every P Q) → (p >>= f).Every P Q
  | .answer a, _, hf => hf a
  | .act _ _, h, hf => ⟨h.1, fun b => bind (h.2 b) hf⟩
  | .ask _ _, h, hf => ⟨h.1, fun v => bind (h.2 v) hf⟩

theorem every_mapM {f : α → Plan R β} {l : List α} (hf : ∀ a ∈ l, (f a).Every P Q) :
    (l.mapM f).Every P Q := by
  induction l with
  | nil => trivial
  | cons a l ih =>
    rw [List.mapM_cons]
    exact (hf a (.head _)).bind fun b =>
      (ih fun c hc => hf c (.tail _ hc)).bind fun _ => every_pure _

theorem every_foldlM {f : β → α → Plan R β} :
    ∀ {l : List α}, (∀ b, ∀ a ∈ l, (f b a).Every P Q) → ∀ b, (l.foldlM f b).Every P Q
  | [], _, b => every_pure b
  | a :: l, hf, b => by
    rw [List.foldlM_cons]
    exact (hf b a (.head _)).bind fun c => every_foldlM (fun b d hd => hf b d (.tail _ hd)) c

theorem Every.mono (hP : ∀ {β : Type} (m : Run β), P m → P' m) (hQ : ∀ r, Q r → Q' r) :
    ∀ {p : Plan R α}, p.Every P Q → p.Every P' Q'
  | .answer _, _ => trivial
  | .act m _, h => ⟨hP m h.1, fun b => (h.2 b).mono hP hQ⟩
  | .ask r _, h => ⟨hQ r h.1, fun v => (h.2 v).mono hP hQ⟩

theorem every_rename {Q : R' → Prop} (f : R → R') :
    ∀ {p : Plan R α}, p.Every P (fun r => Q (f r)) → (p.rename f).Every P Q
  | .answer _, _ => trivial
  | .act _ _, h => ⟨h.1, fun b => every_rename f (h.2 b)⟩
  | .ask _ _, h => ⟨h.1, fun v => every_rename f (h.2 v)⟩

end Every

/-! ## Larger runs for the requests -/

theorem run_below {P : ∀ {β : Type}, Run β → Prop} {f g : R → Run Value} :
    ∀ {p : Plan R α}, p.Every P (fun r => Run.Below (f r) (g r)) → Run.Below (p.run f) (p.run g)
  | .answer _, _ => .refl _
  | .act m _, h => (Run.Below.refl m).bind fun b => run_below (h.2 b)
  | .ask _ _, h => h.1.bind fun v => run_below (h.2 v)

theorem run_below_of_forall {f g : R → Run Value} (h : ∀ r, Run.Below (f r) (g r)) :
    ∀ p : Plan R α, Run.Below (p.run f) (p.run g)
  | .answer _ => .refl _
  | .act m next => (Run.Below.refl m).bind fun b => run_below_of_forall h (next b)
  | .ask r next => (h r).bind fun v => run_below_of_forall h (next v)

/-! ## The requests that a plan gets to -/

/-- From the engine `e` the plan gets to the request `r`, on the engine `t`, if the requests before
it return as `returns` says. -/
def Reaches (returns : R → Engine → Value → Engine → Prop) :
    Plan R α → (e : Engine) → (r : R) → (t : Engine) → Prop
  | .answer _, _, _, _ => False
  | .act m next, e, r, t => ∃ b s, e.run m = (.ok b, s) ∧ (next b).Reaches returns s r t
  | .ask q next, e, r, t =>
    (r = q ∧ t = e) ∨ ∃ v s, returns q e v s ∧ (next v).Reaches returns s r t

/-- A single request is reached at once, and no other one is. -/
theorem reaches_request_iff {returns : R → Engine → Value → Engine → Prop} {q r : R}
    {e t : Engine} : (request q).Reaches returns e r t ↔ r = q ∧ t = e := by
  constructor
  · rintro (h | ⟨_, _, _, h⟩)
    · exact h
    · exact h.elim
  · exact .inl

theorem Reaches.every {returns : R → Engine → Value → Engine → Prop}
    {P : ∀ {β : Type}, Run β → Prop} {Q : R → Prop} {r : R} {t : Engine} :
    ∀ {p : Plan R α} {e : Engine}, p.Every P Q → p.Reaches returns e r t → Q r
  | .act _ _, _, hq, ⟨b, _, _, h⟩ => h.every (hq.2 b)
  | .ask _ _, _, hq, .inl ⟨hr, _⟩ => hr ▸ hq.1
  | .ask _ _, _, hq, .inr ⟨v, _, _, h⟩ => h.every (hq.2 v)

/-! ## Stages of a limit -/

/-- At some stage the request returns a value and leaves an engine. -/
def Returns (f : Nat → R → Run Value) (r : R) (e : Engine) (v : Value) (t : Engine) : Prop :=
  ∃ n, e.run (f n r) = (.ok v, t)

theorem below_of_le {f : Nat → R → Run Value} (hf : ∀ n r, Run.Below (f n r) (f (n + 1) r))
    {m n : Nat} (h : m ≤ n) (r : R) : Run.Below (f m r) (f n r) := by
  induction h with
  | refl => exact .refl _
  | step _ ih =>
    intro e he
    have hm := ih e he
    rw [← hm] at he ⊢
    exact hf _ r e he

/-- What a request returns at some stage, it returns at every stage that is not overrun. -/
theorem Returns.run_eq {f : Nat → R → Run Value} (hf : ∀ n r, Run.Below (f n r) (f (n + 1) r))
    {r : R} {e t : Engine} {v : Value} (h : Returns f r e v t) {n : Nat}
    (hn : (e.run (f n r)).1 ≠ .error .overrun) : e.run (f n r) = (.ok v, t) := by
  obtain ⟨m, hm⟩ := h
  rcases Nat.le_total m n with hle | hle
  · rw [below_of_le hf hle r e (by rw [hm]; simp), hm]
  · rw [← below_of_le hf hle r e hn, hm]

/-- A request that a plan gets to ends at every stage at which the plan does. -/
theorem Reaches.halts {f : Nat → R → Run Value} (hf : ∀ n r, Run.Below (f n r) (f (n + 1) r))
    {n : Nat} {r : R} {t : Engine} : ∀ {p : Plan R α} {e : Engine},
      p.Reaches (Returns f) e r t → (e.run (p.run (f n))).1 ≠ .error .overrun →
        (t.run (f n r)).1 ≠ .error .overrun
  | .act m next, e, ⟨b, s, hm, h⟩, hn => by
    rw [run, Engine.run_bind_ok e hm] at hn
    exact h.halts hf hn
  | .ask q next, e, h, hn => by
    have hq : (e.run (f n q)).1 ≠ .error .overrun := by
      intro hc
      rcases he : e.run (f n q) with ⟨x, s⟩
      rw [he] at hc
      rw [run, Engine.run_bind_error e (he.trans (Prod.ext hc rfl))] at hn
      exact hn rfl
    rcases h with ⟨rfl, rfl⟩ | ⟨v, s, hv, h⟩
    · exact hq
    · rw [run, Engine.run_bind_ok e (hv.run_eq hf hq)] at hn
      exact h.halts hf hn

/-- If every request that a plan gets to ends at some stage, so does the plan. -/
theorem exists_halts {f : Nat → R → Run Value} (hf : ∀ n r, Run.Below (f n r) (f (n + 1) r))
    {Q : R → Prop} :
    ∀ {p : Plan R α} {e : Engine}, p.Every Run.Halts Q →
      (∀ r t, p.Reaches (Returns f) e r t → ∃ n, (t.run (f n r)).1 ≠ .error .overrun) →
        ∃ n, (e.run (p.run (f n))).1 ≠ .error .overrun
  | .answer _, _, _, _ => ⟨0, by simp [run]⟩
  | .act m next, e, ha, h => by
    rcases he : e.run m with ⟨b | c, s⟩
    · refine ⟨0, ?_⟩
      rw [run, Engine.run_bind_error e he]
      have := ha.1 e
      rw [he] at this
      rintro ⟨⟩
      exact this rfl
    · obtain ⟨n, hn⟩ := exists_halts hf (ha.2 c) fun r t hr => h r t ⟨c, s, he, hr⟩
      exact ⟨n, by rwa [run, Engine.run_bind_ok e he]⟩
  | .ask q next, e, ha, h => by
    obtain ⟨m, hm⟩ := h q e (.inl ⟨rfl, rfl⟩)
    rcases he : e.run (f m q) with ⟨x | v, s⟩
    · refine ⟨m, ?_⟩
      rw [run, Engine.run_bind_error e he]
      rw [he] at hm
      rintro ⟨⟩
      exact hm rfl
    · obtain ⟨n, hn⟩ := exists_halts hf (ha.2 v) fun r t hr => h r t (.inr ⟨v, s, ⟨m, he⟩, hr⟩)
      -- the request needs `m` stages and the rest `n`
      refine ⟨max m n, ?_⟩
      have hq : e.run (f (max m n) q) = (.ok v, s) :=
        (below_of_le hf (Nat.le_max_left m n) q e hm).trans he
      rw [run, Engine.run_bind_ok e hq,
        run_below_of_forall (below_of_le hf (Nat.le_max_right m n)) (next v) s hn]
      exact hn

/-! ## What a plan keeps -/

section Keeps

variable {P : Engine → Prop} {E : Engine → Engine → Prop} {Q : R → Prop}

/-- What the acts of a plan keep, and the runs that it gets to, holds wherever it gets to. -/
theorem Reaches.keeps {returns : R → Engine → Value → Engine → Prop} {r : R} {t : Engine} :
    ∀ {p : Plan R α} {e : Engine}, p.Every (Run.Does E) Q → (∀ e t, P e → E e t → P t) →
      (∀ q s, p.Reaches returns e q s → P s → ∀ v u, returns q s v u → P u) →
        p.Reaches returns e r t → P e → P t
  | .act m next, e, hp, hE, hq, ⟨b, s, hm, h⟩, he => by
    refine h.keeps (hp.2 b) hE (fun q u hu => hq q u ⟨b, s, hm, hu⟩) ?_
    have := hE e _ he (hp.1 e).2
    rwa [hm] at this
  | .ask q next, e, hp, hE, hq, .inl ⟨_, ht⟩, he => ht ▸ he
  | .ask q next, e, hp, hE, hq, .inr ⟨v, s, hv, h⟩, he =>
    h.keeps (hp.2 v) hE (fun r u hu => hq r u (.inr ⟨v, s, hv, hu⟩))
      (hq q e (.inl ⟨rfl, rfl⟩) he v s hv)

theorem run_keeps {f : Nat → R → Run Value} {n : Nat} :
    ∀ {p : Plan R α} {e : Engine}, p.Every (Run.Does E) Q → (∀ e t, P e → E e t → P t) →
      (∀ q s, p.Reaches (Returns f) e q s → P s → P (s.run (f n q)).2) →
        P e → P (e.run (p.run (f n))).2
  | .answer _, _, _, _, _, he => he
  | .act m next, e, hp, hE, hq, he => by
    have hm := hE e _ he (hp.1 e).2
    rcases hrun : e.run m with ⟨c | b, s⟩
    · rw [hrun] at hm
      rwa [run, Engine.run_bind_error e hrun]
    · rw [hrun] at hm
      rw [run, Engine.run_bind_ok e hrun]
      exact run_keeps (hp.2 b) hE (fun q u hu => hq q u ⟨b, s, hrun, hu⟩) hm
  | .ask q next, e, hp, hE, hq, he => by
    have hm := hq q e (.inl ⟨rfl, rfl⟩) he
    rcases hrun : e.run (f n q) with ⟨c | v, s⟩
    · rw [hrun] at hm
      rwa [run, Engine.run_bind_error e hrun]
    · rw [hrun] at hm
      rw [run, Engine.run_bind_ok e hrun]
      exact run_keeps (hp.2 v) hE (fun q u hu => hq q u (.inr ⟨v, s, ⟨n, hrun⟩, hu⟩)) hm

end Keeps

end TorrentControl.Plan
