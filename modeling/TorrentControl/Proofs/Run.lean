import TorrentControl.Engine.Plan
import TorrentControl.Engine.Call

/-! # Runs, step by step

What running an action on an engine gives, for the ways in which actions are put together. Two runs
are compared where the first one is not overrun: a run that is allowed more says the same there. -/

namespace TorrentControl

namespace Engine

variable {α β : Type} (e : Engine)

@[simp] theorem run_pure (a : α) : e.run (pure a) = (.ok a, e) := rfl

@[simp] theorem run_fail (c : CommandError) :
    e.run (Run.fail c : Run α) = (.error (.failed c), e) := rfl

@[simp] theorem run_session : e.run Run.session = (.ok e.session, e) := rfl

@[simp] theorem run_get : e.run (get : Run Engine) = (.ok e, e) := rfl

theorem run_bind (m : Run α) (f : α → Run β) :
    e.run (m >>= f) = match e.run m with
      | (.ok a, t) => t.run (f a)
      | (.error h, t) => (.error h, t) := by
  change (ExceptT.bind m f).run.run e = _
  simp only [ExceptT.bind, ExceptT.run, ExceptT.mk, StateT.run, bind, StateT.bind, run]
  rcases m e with ⟨_ | _, _⟩ <;> rfl

theorem run_bind_ok {m : Run α} {f : α → Run β} {a : α} {t : Engine} (h : e.run m = (.ok a, t)) :
    e.run (m >>= f) = t.run (f a) := by
  rw [run_bind, h]

theorem run_bind_error {m : Run α} {f : α → Run β} {h : Halt} {t : Engine}
    (hm : e.run m = (.error h, t)) : e.run (m >>= f) = (.error h, t) := by
  rw [run_bind, hm]

theorem run_lift (x : Except CommandError α) :
    e.run (Run.lift x) = (Except.mapError .failed x, e) := by
  cases x <;> rfl

theorem run_download (id : DownloadId) :
    e.run (Run.download id) = (Except.mapError .failed (e.session.download id), e) := by
  rw [Run.download, run_bind_ok e (run_session e), run_lift]

theorem run_resolve (key : String) :
    e.run (Run.resolve key) = match e.commands.find? key with
      | some entry => (.ok entry, e)
      | none => (.error (.failed (.unknownCommand key)), e) := by
  rw [Run.resolve, run_bind_ok e (run_get e)]
  cases e.commands.find? key <;> rfl

end Engine

namespace Run

variable {α β : Type}

/-- Where the first action is not overrun, the second one does the same. -/
def Below (m m' : Run α) : Prop :=
  ∀ e : Engine, (e.run m).1 ≠ .error .overrun → e.run m' = e.run m

theorem Below.refl (m : Run α) : Below m m := fun _ _ => rfl

theorem Below.bind {m m' : Run α} {f f' : α → Run β} (hm : Below m m')
    (hf : ∀ a, Below (f a) (f' a)) : Below (m >>= f) (m' >>= f') := by
  intro e h
  rcases he : e.run m with ⟨a | h', t⟩
  · rw [Engine.run_bind_error e he] at h ⊢
    have hm' : (e.run m).1 ≠ .error .overrun := by
      rw [he]
      rintro ⟨⟩
      exact h rfl
    exact Engine.run_bind_error e ((hm e hm').trans he)
  · rw [Engine.run_bind_ok e he] at h ⊢
    rw [Engine.run_bind_ok e ((hm e (by rw [he]; simp)).trans he)]
    exact hf _ t h

/-- The action ends on every engine. -/
def Halts (m : Run α) : Prop :=
  ∀ e : Engine, (e.run m).1 ≠ .error .overrun

/-- The action ends, and the engines before and after it are in the relation. -/
def Does (E : Engine → Engine → Prop) (m : Run α) : Prop :=
  ∀ e : Engine, (e.run m).1 ≠ .error .overrun ∧ E e (e.run m).2

theorem Does.halts {E : Engine → Engine → Prop} {m : Run α} (h : Does E m) : Halts m :=
  fun e => (h e).1

theorem Does.mono {E F : Engine → Engine → Prop} (hEF : ∀ e t, E e t → F e t) {m : Run α}
    (h : Does E m) : Does F m :=
  fun e => ⟨(h e).1, hEF _ _ (h e).2⟩

end Run

end TorrentControl
