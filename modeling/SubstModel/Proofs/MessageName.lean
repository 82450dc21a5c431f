import SubstModel.Dispatcher
import SubstModel.Proofs.Names
import Mathlib.Data.Finset.Card
import Mathlib.Data.Nat.Find

/-!
# The name of the message captures nothing

More candidates are tried than there are places of names in a class, and no two candidates are equal, so one of them is
unused: the search for a name of the message always finds one.

* `messageCandidate_eq`, `messageCandidate_injective` — what the candidates are, and that they are distinct;
* `isUnused_iff` — a name is unused when it stands nowhere in the class;
* `exists_first_candidate` — finitely many names leave a candidate free, and soon;
* `exists_messageName?` — the search finds the first unused candidate;
* `isUnused_messageName` — **the name of the message is unused**.
-/

namespace SubstModel

theorem toList_messageCandidate_succ (n : Nat) :
    (messageCandidate (n + 1)).toList = "msg".toList ++ Nat.toDigits 10 (n + 1) := by
  rw [messageCandidate, String.toList_ofList]

theorem messageCandidate_succ_ne_zero (n : Nat) : messageCandidate (n + 1) ≠ messageCandidate 0 := by
  intro heq
  have hlist := congrArg String.toList heq
  rw [toList_messageCandidate_succ] at hlist
  have hdigits : Nat.toDigits 10 (n + 1) = [] := List.append_cancel_left (hlist.trans (List.append_nil _).symm)
  have hnumber : Nat.ofDigitChars 10 (Nat.toDigits 10 (n + 1)) 0 = n + 1 := Nat.ofDigitChars_ten_toDigits
  rw [hdigits] at hnumber
  cases hnumber

/-- The candidates are `msg`, `msg1`, `msg2`, and so on. -/
theorem messageCandidate_eq (n : Nat) : messageCandidate n = if n = 0 then "msg" else "msg" ++ toString n := by
  cases n with
  | zero => rfl
  | succ n =>
    have hdigits : (toString (n + 1)).toList = Nat.toDigits 10 (n + 1) := String.toList_ofList
    apply String.toList_inj.1
    rw [toList_messageCandidate_succ, if_neg n.succ_ne_zero, String.toList_append, hdigits]

/-- The candidates are distinct. -/
theorem messageCandidate_injective : Function.Injective messageCandidate := by
  intro m n heq
  cases m with
  | zero => cases n with
    | zero => rfl
    | succ n => exact absurd heq.symm (messageCandidate_succ_ne_zero n)
  | succ m => cases n with
    | zero => exact absurd heq (messageCandidate_succ_ne_zero m)
    | succ n =>
      have hlist := congrArg String.toList heq
      rw [toList_messageCandidate_succ, toList_messageCandidate_succ] at hlist
      have hnumber := congrArg (fun ds => Nat.ofDigitChars 10 ds 0) (List.append_cancel_left hlist)
      simpa using hnumber

/-- A name is unused when it stands nowhere among the fields and in the methods. -/
theorem isUnused_iff {fields : List String} {methods : List (String × Expr)} {x : String} :
    isUnused fields methods x = true ↔ x ∉ fields ∧ x ∉ Expr.namesPairs methods := by
  rw [isUnused, Bool.and_eq_true, Bool.not_eq_true', Bool.not_eq_true', ← Bool.not_eq_true,
    ← Bool.not_eq_true, List.contains_iff_mem, Expr.mentionsPairs_iff]

/-! ### The search -/

/-- Among distinct candidates no more can be in use than there are names. -/
theorem le_card_of_candidates {names : Finset String} {k : Nat} (h : ∀ m < k, messageCandidate m ∈ names) :
    k ≤ names.card := by
  have hcard : (Finset.range k).card ≤ names.card := by
    apply Finset.card_le_card_of_injOn messageCandidate
    · intro m hm
      exact h m (Finset.mem_range.1 hm)
    · exact messageCandidate_injective.injOn
  simpa using hcard

/-- The first candidate outside of finitely many names. -/
theorem exists_first_candidate (names : Finset String) :
    ∃ n ≤ names.card, messageCandidate n ∉ names ∧ ∀ m < n, messageCandidate m ∈ names := by
  have hsome : ∃ n, messageCandidate n ∉ names := by
    by_contra hnone
    rw [not_exists] at hnone
    have hle : names.card + 1 ≤ names.card := le_card_of_candidates fun m _ => not_not.1 (hnone m)
    omega
  have hbefore : ∀ m < Nat.find hsome, messageCandidate m ∈ names := fun m hm => not_not.1 (Nat.find_min hsome hm)
  exact ⟨Nat.find hsome, le_card_of_candidates hbefore, Nat.find_spec hsome, hbefore⟩

/-- The search finds the first unused candidate, and tries at most one more than there are different names in the
class. -/
theorem exists_messageName? (fields : List String) (methods : List (String × Expr)) :
    ∃ n ≤ (fields ++ Expr.namesPairs methods).toFinset.card,
      messageName? fields methods = some (messageCandidate n) ∧
        isUnused fields methods (messageCandidate n) = true ∧
        ∀ m < n, isUnused fields methods (messageCandidate m) = false := by
  obtain ⟨n, hle, hfree, hbefore⟩ := exists_first_candidate (fields ++ Expr.namesPairs methods).toFinset
  have hiff : ∀ x, isUnused fields methods x = true ↔ x ∉ (fields ++ Expr.namesPairs methods).toFinset := by
    intro x
    rw [isUnused_iff, List.mem_toFinset, List.mem_append, not_or]
  have hused : ∀ m < n, isUnused fields methods (messageCandidate m) = false := by
    intro m hm
    rw [Bool.eq_false_iff, Ne, hiff, not_not]
    exact hbefore m hm
  -- The bound on the search counts every place of a name, so it is not reached.
  have hbound : n < candidateCount fields methods := by
    have hlength := List.toFinset_card_le (fields ++ Expr.namesPairs methods)
    rw [List.length_append, Expr.length_namesPairs] at hlength
    rw [candidateCount]
    omega
  have hfind : (List.range (candidateCount fields methods)).find?
      (fun n => isUnused fields methods (messageCandidate n)) = some n := by
    rw [List.find?_range_eq_some]
    refine ⟨(hiff _).2 hfree, List.mem_range.2 hbound, fun m hm => ?_⟩
    rw [hused m hm, Bool.not_false]
  refine ⟨n, hle, ?_, (hiff _).2 hfree, hused⟩
  rw [messageName?, hfind, Option.map_some]

/-- **The name of the message is unused.** -/
theorem isUnused_messageName (fields : List String) (methods : List (String × Expr)) :
    isUnused fields methods (messageName fields methods) = true := by
  obtain ⟨n, -, hname, hunused, -⟩ := exists_messageName? fields methods
  rwa [messageName, hname, Option.getD_some]

end SubstModel
