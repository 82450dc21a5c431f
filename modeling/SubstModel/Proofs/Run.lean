import SubstModel.Evaluation

/-!
# Steps that are taken

* `Run.bind_of_ok`, `Run.bind_of_error` — the second of two steps is taken where the first has a result, and only there;
* `Run.bind_eq_ok`, `Run.bind_eq_error` — what the end of two steps says about them.
-/

namespace SubstModel.Run

variable {ε σ α β : Type} {m : EStateM ε σ α} {next : α → EStateM ε σ β} {s s' : σ} {a : α} {b : β} {f : ε}

theorem bind_of_ok (h : m s = .ok a s') : (m >>= next) s = next a s' := by
  show EStateM.bind m next s = next a s'
  rw [EStateM.bind, h]

theorem bind_of_error (h : m s = .error f s') : (m >>= next) s = .error f s' := by
  show EStateM.bind m next s = .error f s'
  rw [EStateM.bind, h]

theorem bind_eq_ok : (m >>= next) s = .ok b s' ↔ ∃ a s₁, m s = .ok a s₁ ∧ next a s₁ = .ok b s' := by
  constructor
  · intro h
    cases hm : m s with
    | ok a s₁ => exact ⟨a, s₁, rfl, (bind_of_ok hm).symm.trans h⟩
    | error f s₁ => cases (bind_of_error hm).symm.trans h
  · rintro ⟨a, s₁, hm, hnext⟩
    exact (bind_of_ok hm).trans hnext

theorem bind_eq_error :
    (m >>= next) s = .error f s' ↔ m s = .error f s' ∨ ∃ a s₁, m s = .ok a s₁ ∧ next a s₁ = .error f s' := by
  constructor
  · intro h
    cases hm : m s with
    | ok a s₁ => exact .inr ⟨a, s₁, rfl, (bind_of_ok hm).symm.trans h⟩
    | error f' s₁ =>
      cases (bind_of_error hm).symm.trans h
      exact .inl rfl
  · rintro (hm | ⟨a, s₁, hm, hnext⟩)
    · exact bind_of_error hm
    · exact (bind_of_ok hm).trans hnext

end SubstModel.Run
