/-!
# Computations that may fail

A computation in `Except` runs its steps in order and stops at the first that
fails. Where it returns, every step returned, and a proof takes it apart one
step at a time (`bind_eq_ok`). So for a list of steps: where it returns, it has
returned what every one of them returns (`mapM_eq_ok`).
-/

set_option autoImplicit false

namespace Retrovert.Fallible

universe u v

variable {ε : Type u} {α β : Type v} {first : Except ε α} {result : β}

/-- Two steps return when the first returns something that the second returns on. -/
theorem bind_eq_ok {next : α → Except ε β} :
    (first >>= next) = .ok result ↔ ∃ value, first = .ok value ∧ next value = .ok result := by
  cases first with
  | error error => exact ⟨fun same => (nomatch same), fun ⟨_, same, _⟩ => (nomatch same)⟩
  | ok value => exact ⟨fun same => ⟨value, rfl, same⟩, fun ⟨_, rfl, same⟩ => same⟩

/-- Two steps fail when the first fails, or the second on what the first returns. -/
theorem bind_eq_error {next : α → Except ε β} {failure : ε} :
    (first >>= next) = .error failure ↔
      first = .error failure ∨ ∃ value, first = .ok value ∧ next value = .error failure := by
  cases first with
  | error error =>
      constructor
      · intro same
        cases same
        exact .inl rfl
      · rintro (same | ⟨_, same, _⟩) <;> cases same
        rfl
  | ok value =>
      constructor
      · intro failed
        exact .inr ⟨value, rfl, failed⟩
      · rintro (same | ⟨_, same, failed⟩) <;> cases same
        exact failed

/-- The steps of a list return when each does, here something that is known of it. -/
theorem mapM_eq_ok {step : α → Except ε β} {known : α → β}
    (only : ∀ element value, step element = .ok value → value = known element) {list : List α}
    {results : List β} (mapped : list.mapM step = .ok results) :
    results = list.map known ∧ ∀ element ∈ list, step element = .ok (known element) := by
  induction list generalizing results with
  | nil =>
      cases mapped
      exact ⟨rfl, nofun⟩
  | cons first rest ih =>
      rw [List.mapM_cons, bind_eq_ok] at mapped
      obtain ⟨value, found, mapped⟩ := mapped
      obtain ⟨values, others, same⟩ := bind_eq_ok.mp mapped
      obtain ⟨rfl, all⟩ := ih others
      cases only first value found
      cases same
      exact ⟨rfl, List.forall_mem_cons.mpr ⟨found, all⟩⟩

end Retrovert.Fallible
