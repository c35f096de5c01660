import TorrentControl.Proofs.Task

/-! # The keys that runs bring in

Only the two commands that make methods bring in a key, and it is the one that their arguments begin
with. So what holds of all keys of a registry, and of each key that a method is made under, holds of
all keys for good. -/

namespace TorrentControl

open Run

/-! ## Keys that acts bring in -/

/-- The key is the first of the arguments. -/
def Value.BeginsWith (args : Value) (key : String) : Prop :=
  ∃ rest, positional args = .text key :: rest

theorem eq_text_of_asText {v : Value} {s : String} (h : asText v = .ok s) : v = .text s := by
  cases v <;> cases h
  rfl

/-- The second engine has no keys but those of the first one and some of these. -/
def Engine.Gains (keys : String → Prop) (e f : Engine) : Prop :=
  ∀ key entry, f.commands.find? key = some entry →
    (∃ old, e.commands.find? key = some old) ∨ keys key

namespace Engine

variable {keys : String → Prop} {e : Engine}

theorem gains_refl (e : Engine) : e.Gains keys e :=
  fun _ entry h => .inl ⟨entry, h⟩

theorem gains_insertEntry {r commands : Registry} {key : String} {entry : CommandEntry}
    (hkey : keys key) (h : r.insertEntry key entry = .ok commands)
    (hr : r.find? = e.commands.find?) : e.Gains keys { e with commands } := by
  intro other found hfound
  rw [Registry.find?_insertEntry h, hr] at hfound
  split at hfound
  · rename_i heq
    exact .inr (heq ▸ hkey)
  · exact .inl ⟨found, hfound⟩

/-- The two commands that make methods aside, no invocation brings in a key. -/
theorem Act.gains {f : Engine} {inv : Invocation} (h : e.Act inv f)
    (hinsert : inv ≠ .generic .insertMethod) (halias : inv ≠ .generic .aliasMethod) :
    e.Gains keys f := by
  intro key entry hentry
  rcases h.edit.binds hentry with hold | ⟨hinv, -⟩ | ⟨hinv, -⟩
  · exact .inl ⟨entry, hold⟩
  · exact (hinsert hinv).elim
  · exact (halias hinv).elim

end Engine

namespace Run

open Engine (gains_refl gains_insertEntry)

variable {keys : String → Prop} {α β : Type} {args : Value}

theorem Idle.gains {m : Run α} (h : Idle m) : Does (Engine.Gains keys) m :=
  h.mono fun e t ht => by
    obtain rfl : t = e := ht
    exact gains_refl t

theorem gains_lift_bind {x : Except CommandError α} {f : α → Run β}
    (hf : ∀ a, x = .ok a → Does (Engine.Gains keys) (f a)) :
    Does (Engine.Gains keys) (lift x >>= f) := by
  cases x with
  | error c => exact fun e => ⟨nofun, gains_refl e⟩
  | ok a => exact hf a rfl

theorem gains_insertMethod : Does (Engine.Gains args.BeginsWith) (insertMethod args) := by
  unfold insertMethod
  split
  · rename_i rest hargs
    refine gains_lift_bind fun key hkey => (idle_lift _).bind_does gains_refl fun kind =>
      (idle_lift _).bind_does gains_refl fun script =>
        (idle_lift _).bind_does gains_refl fun isPublic => ?_
    have hbegins : args.BeginsWith key := ⟨_, eq_text_of_asText hkey ▸ hargs⟩
    split
    · exact (idle_fail _).gains
    · exact does_register gains_refl fun e commands h => gains_insertEntry hbegins h rfl
  · exact (idle_fail _).gains

theorem gains_aliasMethod : Does (Engine.Gains args.BeginsWith) (aliasMethod args) := by
  unfold aliasMethod
  split
  · rename_i rest hargs
    refine gains_lift_bind fun key hkey => (idle_lift _).bind_does gains_refl fun source => ?_
    have hbegins : args.BeginsWith key := ⟨_, eq_text_of_asText hkey ▸ hargs⟩
    refine does_register gains_refl fun e commands h => ?_
    obtain ⟨entry, -, hinsert⟩ := Registry.insertAlias_ok h
    exact gains_insertEntry hbegins hinsert rfl
  · exact (idle_fail _).gains

end Run

namespace Task

/-- The task makes a method or an alias, and its arguments begin with the key. -/
def RegistersAs (t : Task) (key : String) : Prop :=
  ∃ args, (t.Invokes (.generic .insertMethod) args ∨ t.Invokes (.generic .aliasMethod) args) ∧
    args.BeginsWith key

/-- **A task brings in no key but the one that it makes a method under.** -/
theorem plan_gains (t : Task) : t.plan.Every (Does (Engine.Gains t.RegistersAs)) t.Allows := by
  have widen {args : Value} (h : ∀ key, args.BeginsWith key → t.RegistersAs key) {α : Type}
      {m : Run α} (hm : Does (Engine.Gains args.BeginsWith) m) :
      Does (Engine.Gains t.RegistersAs) m :=
    hm.mono fun _ _ hgains key entry hentry => (hgains key entry hentry).imp_right (h key)
  by_cases hinsert : ∃ args, t.Invokes (.generic .insertMethod) args
  · obtain ⟨args, hinv⟩ := hinsert
    rw [plan_of_invokes hinv]
    exact Plan.every_rename _ <| (Plan.every_lift (widen (fun _ h => ⟨args, .inl hinv, h⟩)
      Run.gains_insertMethod)).bind fun _ => Plan.every_pure _
  by_cases halias : ∃ args, t.Invokes (.generic .aliasMethod) args
  · obtain ⟨args, hinv⟩ := halias
    rw [plan_of_invokes hinv]
    exact Plan.every_rename _ <| (Plan.every_lift (widen (fun _ h => ⟨args, .inr hinv, h⟩)
      Run.gains_aliasMethod)).bind fun _ => Plan.every_pure _
  -- what else a task can do to the registry is to erase a key
  refine t.plan_every.mono (fun _ hm => hm.mono fun e f hacts => ?_) fun _ hs => hs
  rcases hacts with _ | ⟨hinv, hact⟩
  · exact Engine.gains_refl e
  · refine hact.gains ?_ ?_
    · rintro rfl
      exact hinsert ⟨_, hinv⟩
    · rintro rfl
      exact halias ⟨_, hinv⟩

/-- **A run leaves no keys but those that were there and those that its tasks make methods under.** -/
theorem run_gains {G : String → Prop} {t : Task}
    (hmade : ∀ u key, t.Leads u → u.RegistersAs key → G key)
    (h : ∀ key entry, t.engine.commands.find? key = some entry → G key) (hops : Nat) :
    ∀ key entry, (t.engine.run (t.job.run hops t.left)).2.commands.find? key = some entry →
      G key := by
  refine run_keeps_of (P := fun e => ∀ key entry, e.commands.find? key = some entry → G key)
    (J := t.Leads) plan_gains (fun _ _ hu _ hv => hu.tail hv) ?_ hops t .refl h
  intro u e f hu _ he hgains key entry hentry
  rcases hgains key entry hentry with ⟨old, hold⟩ | hkey
  · exact he key old hold
  · exact hmade u key hu hkey

end Task

end TorrentControl
