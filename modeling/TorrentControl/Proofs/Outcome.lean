/-! # Outcomes of steps that may fail

A sequence of steps has the outcome of its last step, or that of the first step that fails. -/

namespace TorrentControl.Outcome

variable {ε α β : Type} {x : Except ε α}

theorem bind_eq_ok_iff {f : α → Except ε β} {b : β} :
    x >>= f = .ok b ↔ ∃ a, x = .ok a ∧ f a = .ok b := by
  cases x with
  | error c => exact ⟨nofun, nofun⟩
  | ok a =>
    constructor
    · exact fun h => ⟨a, rfl, h⟩
    · rintro ⟨_, ⟨⟩, h⟩
      exact h

theorem bind_eq_error_iff {f : α → Except ε β} {e : ε} :
    x >>= f = .error e ↔ x = .error e ∨ ∃ a, x = .ok a ∧ f a = .error e := by
  cases x with
  | error c =>
    constructor
    · rintro ⟨⟩
      exact .inl rfl
    · rintro (⟨⟨⟩⟩ | ⟨_, ⟨⟩, _⟩)
      rfl
  | ok a =>
    constructor
    · exact fun h => .inr ⟨a, rfl, h⟩
    · rintro (⟨⟨⟩⟩ | ⟨_, ⟨⟩, h⟩)
      exact h

/-- What follows a part that fails is not reached. -/
theorem bind_eq_error_of {γ : Type} {f : α → Except ε β} {e : ε} (h : x >>= f = .error e)
    (g : α → β → Except ε γ) :
    (x >>= fun a => f a >>= g a) = .error e := by
  rcases bind_eq_error_iff.1 h with hx | ⟨a, hx, hf⟩
  · exact bind_eq_error_iff.2 (.inl hx)
  · exact bind_eq_error_iff.2 (.inr ⟨a, hx, bind_eq_error_iff.2 (.inl hf)⟩)

theorem map_eq_ok_iff {f : α → β} {b : β} : f <$> x = .ok b ↔ ∃ a, x = .ok a ∧ f a = b := by
  cases x with
  | error c => exact ⟨nofun, nofun⟩
  | ok a =>
    constructor
    · exact fun h => ⟨a, rfl, Except.ok.inj h⟩
    · rintro ⟨_, ⟨⟩, rfl⟩
      rfl

theorem map_eq_error_iff {f : α → β} {e : ε} : f <$> x = .error e ↔ x = .error e := by
  cases x with
  | error c =>
    constructor <;>
    · rintro ⟨⟩
      rfl
  | ok a => exact ⟨nofun, nofun⟩

end TorrentControl.Outcome
