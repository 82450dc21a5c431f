import SubstModel.Fresh

/-!
# Generated names — their numbers tell them apart

A generated name is read back from its characters: the stem stands in front of the first `#`, and the number behind
it.  So two generated names are equal only when their numbers and their stems are.

* `HasNumber` — the name is a generated name with that number;
* `NumberedUpTo` — the name is no generated name with a higher number, which is what it takes to be older than all
  names that are handed out from there on;
* `freshName_eq_iff` — **generated names differ where their numbers differ**;
* `mem_freshNames`, `nodup_freshNames`, `freshNames_append` — what is handed out for a list of binders.
-/

namespace SubstModel

/-! ### Reading a generated name back -/

theorem toList_freshName (n : Nat) (x : String) :
    (freshName n x).toList = stem x ++ '#' :: Nat.toDigits 10 n := by
  rw [freshName, String.toList_ofList]

theorem stem_freshName (n : Nat) (x : String) : stem (freshName n x) = stem x := by
  have hstem : ∀ c ∈ stem x, (c != '#') = true := List.all_eq_true.1 List.all_takeWhile
  rw [stem, toList_freshName, List.takeWhile_append_of_pos hstem]
  simp

theorem hash_mem_freshName (n : Nat) (x : String) : '#' ∈ (freshName n x).toList := by
  rw [toList_freshName]
  simp

/-- The number that stands in a name behind its first `#`. -/
def numberPart (x : String) : Nat :=
  Nat.ofDigitChars 10 ((x.toList.drop (stem x).length).drop 1) 0

theorem numberPart_freshName (n : Nat) (x : String) : numberPart (freshName n x) = n := by
  rw [numberPart, stem_freshName, toList_freshName, List.drop_left]
  exact Nat.ofDigitChars_ten_toDigits

/-- **Generated names differ where their numbers or their stems differ.** -/
theorem freshName_eq_iff {m n : Nat} {x y : String} :
    freshName m x = freshName n y ↔ m = n ∧ stem x = stem y := by
  constructor
  · intro h
    constructor
    · rw [← numberPart_freshName m x, h, numberPart_freshName]
    · rw [← stem_freshName m x, h, stem_freshName]
  · rintro ⟨rfl, hs⟩
    rw [freshName, freshName, hs]

/-- A name that is generated anew loses its old number. -/
theorem freshName_freshName (m n : Nat) (x : String) :
    freshName m (freshName n x) = freshName m x :=
  freshName_eq_iff.2 ⟨rfl, stem_freshName n x⟩

/-! ### Numbers of names -/

/-- The name is generated and has that number. -/
def HasNumber (x : String) (n : Nat) : Prop :=
  ∃ base, x = freshName n base

/-- The name has no number above `n`. -/
def NumberedUpTo (n : Nat) (x : String) : Prop :=
  ∀ k, HasNumber x k → k ≤ n

theorem hasNumber_freshName_iff {m n : Nat} {x : String} :
    HasNumber (freshName n x) m ↔ m = n := by
  constructor
  · rintro ⟨base, h⟩
    exact (freshName_eq_iff.1 h).1.symm
  · rintro rfl
    exact ⟨x, rfl⟩

theorem numberedUpTo_freshName {m n : Nat} {x : String} :
    NumberedUpTo m (freshName n x) ↔ n ≤ m := by
  constructor
  · intro h
    exact h n ⟨x, rfl⟩
  · intro h k hk
    rw [hasNumber_freshName_iff.1 hk]
    exact h

theorem NumberedUpTo.mono {m n : Nat} {x : String} (h : NumberedUpTo m x) (hmn : m ≤ n) :
    NumberedUpTo n x :=
  fun k hk => Nat.le_trans (h k hk) hmn

/-- A name without the mark `#` has no number. -/
theorem numberedUpTo_of_no_hash {x : String} (h : '#' ∉ x.toList) (n : Nat) : NumberedUpTo n x := by
  rintro k ⟨base, rfl⟩
  exact absurd (hash_mem_freshName k base) h

theorem NumberedUpTo.ne_freshName {m n : Nat} {x y : String} (h : NumberedUpTo m x) (hn : m < n) :
    x ≠ freshName n y := by
  rintro rfl
  exact absurd (numberedUpTo_freshName.1 h) (by omega)

/-! ### Names for a list of binders -/

theorem mem_freshNames {issued : Nat} {xs : List String} {y : String} (h : y ∈ freshNames issued xs) :
    ∃ n, issued < n ∧ n ≤ issued + xs.length ∧ ∃ x ∈ xs, y = freshName n x := by
  induction xs generalizing issued with
  | nil => simp [freshNames] at h
  | cons x xs ih =>
    rcases List.mem_cons.1 h with rfl | h
    · exact ⟨issued + 1, by omega, by simp, x, by simp, rfl⟩
    · obtain ⟨n, hlo, hhi, z, hz, rfl⟩ := ih h
      exact ⟨n, by omega, by simp only [List.length_cons]; omega, z, by simp [hz], rfl⟩

theorem nodup_freshNames (issued : Nat) (xs : List String) : (freshNames issued xs).Nodup := by
  induction xs generalizing issued with
  | nil => simp [freshNames]
  | cons x xs ih =>
    rw [freshNames, List.nodup_cons]
    refine ⟨?_, ih (issued + 1)⟩
    intro hmem
    obtain ⟨n, hlo, -, y, -, heq⟩ := mem_freshNames hmem
    have := (freshName_eq_iff.1 heq).1
    omega

theorem freshNames_append (n : Nat) (xs ys : List String) :
    freshNames n (xs ++ ys) = freshNames n xs ++ freshNames (n + xs.length) ys := by
  induction xs generalizing n with
  | nil => rfl
  | cons x xs ih =>
    rw [List.cons_append, freshNames, ih, freshNames, List.length_cons, Nat.add_right_comm, Nat.add_assoc]
    rfl

theorem getElem?_freshNames (n : Nat) (xs : List String) (i : Nat) :
    (freshNames n xs)[i]? = xs[i]?.map (freshName (n + 1 + i)) := by
  induction xs generalizing n i with
  | nil => rfl
  | cons x xs ih =>
    cases i with
    | zero => rfl
    | succ i => rw [freshNames, List.getElem?_cons_succ, ih, List.getElem?_cons_succ, Nat.add_right_comm (n + 1)]; rfl

theorem map_numberPart_freshNames (n : Nat) (xs : List String) :
    (freshNames n xs).map numberPart = List.range' (n + 1) xs.length := by
  induction xs generalizing n with
  | nil => rfl
  | cons x xs ih => rw [freshNames, List.map_cons, numberPart_freshName, ih, List.length_cons, List.range'_succ]

/-- Names that are handed out anew keep nothing of older numbers. -/
theorem freshNames_freshNames (m n : Nat) (xs : List String) :
    freshNames m (freshNames n xs) = freshNames m xs := by
  induction xs generalizing m n with
  | nil => rfl
  | cons x xs ih => rw [freshNames, freshNames, freshNames, ih, freshName_freshName]

end SubstModel
