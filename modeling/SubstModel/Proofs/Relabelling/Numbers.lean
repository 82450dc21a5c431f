import SubstModel.Proofs.Relabelling.Evaluation
import SubstModel.Proofs.Language.Ledger

/-!
# Renumbering — the relabellings that a change of numbers gives

* `renumber` — a generated name with another number;
* `Relabelling.ofNumbers` — generated names renumbered, and references changed, one for one;
* `Language.handedOut` — what has names and references that were handed out only;
* `Relabelling.fixes_handedOut`, `Relabelling.shifts_ofNumbers` — what stays, and what is shifted.
-/

namespace SubstModel

/-! ### Numbers of names -/

/-- The name with another number, if it is generated. -/
def renumber (ν : Nat → Nat) (x : String) : String :=
  if x = freshName (numberPart x) x then freshName (ν (numberPart x)) x else x

theorem HasNumber.eq {x : String} {n : Nat} (h : HasNumber x n) :
    x = freshName (numberPart x) x ∧ numberPart x = n := by
  obtain ⟨base, rfl⟩ := h
  rw [numberPart_freshName, freshName_freshName]
  exact ⟨rfl, rfl⟩

theorem renumber_freshName (ν : Nat → Nat) (n : Nat) (x : String) :
    renumber ν (freshName n x) = freshName (ν n) x := by
  have hx := (hasNumber_freshName_iff.2 rfl : HasNumber (freshName n x) n).eq
  rw [renumber, if_pos hx.1, hx.2, freshName_freshName]

theorem renumber_of_not_hasNumber (ν : Nat → Nat) {x : String} (h : ∀ n, ¬ HasNumber x n) : renumber ν x = x :=
  if_neg fun heq => h _ ⟨x, heq⟩

/-- A name is generated, or it has no number. -/
theorem generated_or_written (x : String) : (∃ n base, x = freshName n base) ∨ ∀ n, ¬ HasNumber x n := by
  by_cases h : ∃ n, HasNumber x n
  · exact .inl h
  · exact .inr fun n hn => h ⟨n, hn⟩

theorem renumber_injective {ν : Nat → Nat} (hν : Function.Injective ν) : Function.Injective (renumber ν) := by
  intro x y heq
  rcases generated_or_written x with ⟨m, base, rfl⟩ | hx
  · rw [renumber_freshName] at heq
    rcases generated_or_written y with ⟨n, base', rfl⟩ | hy
    · rw [renumber_freshName, freshName_eq_iff] at heq
      exact freshName_eq_iff.2 ⟨hν heq.1, heq.2⟩
    · rw [renumber_of_not_hasNumber ν hy] at heq
      exact absurd ⟨base, heq.symm⟩ (hy (ν m))
  · rw [renumber_of_not_hasNumber ν hx] at heq
    rcases generated_or_written y with ⟨n, base', rfl⟩ | hy
    · rw [renumber_freshName] at heq
      exact absurd ⟨base', heq⟩ (hx (ν n))
    · rwa [renumber_of_not_hasNumber ν hy] at heq

theorem stem_renumber (ν : Nat → Nat) (x : String) : stem (renumber ν x) = stem x := by
  rw [renumber]
  split
  · exact stem_freshName _ x
  · rfl

/-! ### Relabellings -/

/-- Generated names renumbered, and references changed, one for one. -/
def Relabelling.ofNumbers {ν γ : Nat → Nat} (hν : Function.Injective ν) (hγ : Function.Injective γ) :
    Relabelling where
  name := renumber ν
  ref := γ
  name_injective := renumber_injective hν
  ref_injective := hγ
  stem_name := stem_renumber ν
  name_written _ := renumber_of_not_hasNumber ν

/-- Names and references that were handed out. -/
def Language.handedOut (s : Supply) : Language where
  name := NumberedUpTo s.issued
  ref r := r < s.allocated

theorem Language.handedOut_grows : Language.Grows Language.handedOut where
  mono h := ⟨fun hx => hx.mono h.1, id, id, id, id, id, fun hr => Nat.lt_of_lt_of_le hr h.2, id, id, id, id⟩
  name h := numberedUpTo_freshName.2 h
  binders := trivial
  ref h := h

namespace Relabelling

variable {ν γ : Nat → Nat} (hν : Function.Injective ν) (hγ : Function.Injective γ)

theorem name_ofNumbers (x : String) : (ofNumbers hν hγ).name x = renumber ν x := rfl

theorem ref_ofNumbers (r : Ref) : (ofNumbers hν hγ).ref r = γ r := rfl

theorem fixes_handedOut {s : Supply} (hnumbers : ∀ n ≤ s.issued, ν n = n)
    (hrefs : ∀ r < s.allocated, γ r = r) : (ofNumbers hν hγ).Fixes (.handedOut s) := by
  constructor
  · intro x hx
    rw [name_ofNumbers]
    rcases generated_or_written x with ⟨n, base, rfl⟩ | hx'
    · rw [renumber_freshName, hnumbers n (numberedUpTo_freshName.1 hx)]
    · exact renumber_of_not_hasNumber ν hx'
  · intro r hr
    rw [ref_ofNumbers, hrefs r hr]

theorem shifts_ofNumbers {n n' count : Nat} (h : ∀ i < count, ν (n + i + 1) = n' + i + 1) :
    (ofNumbers hν hγ).Shifts n n' count := by
  intro i x hi
  rw [name_ofNumbers, renumber_freshName, h i hi]

end Relabelling

end SubstModel
