import SubstModel.Proofs.FreeVariables

/-!
# What renaming and substitution leave alone

Renaming under a scope, and substitution, act on an expression through its free variables only.  Whatever a scope or a
substitution says of other names has no effect.

* `Expr.rename_congr` — a renaming depends on what becomes of the free variables;
* `Expr.rename_of_binderCount` — **an expression without binders is left as it is by a renaming that keeps its free
  variables**;
* `Expr.substitute_of_occursFree` — **replacements for names that are not free are without effect**.
-/

namespace SubstModel

/-! ### Renaming -/

namespace Scope

theorem resolve_enter (Γ : Scope) (binders renamed : List String) (x : String) :
    (Γ.enter binders renamed).resolve x = ((argumentPairs binders renamed).lookup x).getD (Γ.resolve x) := by
  show ((argumentPairs binders renamed ++ Γ).lookup x).getD x = _
  rw [List.lookup_append, resolve]
  cases (argumentPairs binders renamed).lookup x <;> rfl

theorem resolve_enter_of_not_mem {Γ : Scope} {binders renamed : List String} {x : String} (hx : x ∉ binders) :
    (Γ.enter binders renamed).resolve x = Γ.resolve x := by
  have hnone : x ∉ (argumentPairs binders renamed).map Prod.fst := by
    rw [argumentPairs, List.map_reverse, List.mem_reverse]
    exact not_mem_map_fst_zip hx renamed
  rw [resolve_enter, lookup_eq_none_of_not_mem hnone, Option.getD_none]

theorem resolve_enter_congr {Γ Δ : Scope} {binders renamed : List String}
    (hlen : binders.length = renamed.length) {x : String} (h : x ∉ binders → Γ.resolve x = Δ.resolve x) :
    (Γ.enter binders renamed).resolve x = (Δ.enter binders renamed).resolve x := by
  by_cases hx : x ∈ binders
  · have hsome : ((argumentPairs binders renamed).lookup x).isSome := by
      rw [lookup_isSome_iff_mem, argumentPairs, List.map_reverse, List.map_fst_zip (Nat.le_of_eq hlen),
        List.mem_reverse]
      exact hx
    obtain ⟨y, hy⟩ := Option.isSome_iff_exists.1 hsome
    rw [resolve_enter, resolve_enter, hy, Option.getD_some, Option.getD_some]
  · rw [resolve_enter_of_not_mem hx, resolve_enter_of_not_mem hx, h hx]

end Scope

mutual

/-- **A renaming depends on what becomes of the free variables.** -/
theorem Expr.rename_congr : ∀ (e : Expr) {n : Nat} {Γ Δ : Scope},
    (∀ x, e.OccursFree x → Γ.resolve x = Δ.resolve x) → e.rename n Γ = e.rename n Δ
  | .number _, _, _, _, _ | .boolean _, _, _, _, _ | .string _, _, _, _, _ | .primitive _, _, _, _, _
  | .quoted _, _, _, _, _ => rfl
  | .var x, _, _, _, h => congrArg Expr.var (h x rfl)
  | .cond a b c, _, _, _, h => by
    rw [Expr.rename, Expr.rename_congr a fun x hx => h x (.inl hx),
      Expr.rename_congr b fun x hx => h x (.inr (.inl hx)),
      Expr.rename_congr c fun x hx => h x (.inr (.inr hx)), Expr.rename]
  | .lambda params body, n, Γ, Δ, h => by
    have hbody := Expr.renameAll_congr body (n := n + params.length) fun x hx =>
      Scope.resolve_enter_congr (length_freshNames n params).symm fun hparam => h x ⟨hparam, hx⟩
    simp only [Expr.rename, hbody]
  | .app f es, _, _, _, h => by
    rw [Expr.rename, Expr.rename_congr f fun x hx => h x (.inl hx),
      Expr.renameAll_congr es fun x hx => h x (.inr hx), Expr.rename]
  | .letIn bs body, n, Γ, Δ, h => by
    have hbs := Expr.renamePairs_congr bs (n := n) fun x hx => h x (.inl hx)
    have hbody := Expr.renameAll_congr body
      (n := n + Expr.binderCountPairs bs + (bs.map Prod.fst).length) fun x hx =>
        Scope.resolve_enter_congr (length_freshNames (n + Expr.binderCountPairs bs) (bs.map Prod.fst)).symm
          fun hname => h x (.inr ⟨hname, hx⟩)
    simp only [Expr.rename, hbs, hbody]
  | .define x e, _, _, _, h => congrArg (Expr.define x) (Expr.rename_congr e h)
  | .classDef fields methods, n, Γ, Δ, h => by
    have hmethods := Expr.renamePairs_congr methods (n := n + fields.length) fun x hx =>
      Scope.resolve_enter_congr (length_freshNames n fields).symm fun hfield => h x ⟨hfield, hx⟩
    simp only [Expr.rename, hmethods]
termination_by structural e => e

theorem Expr.renameAll_congr : ∀ (es : List Expr) {n : Nat} {Γ Δ : Scope},
    (∀ x, Expr.OccursFreeAny x es → Γ.resolve x = Δ.resolve x) → Expr.renameAll n Γ es = Expr.renameAll n Δ es
  | [], _, _, _, _ => rfl
  | e :: es, _, _, _, h => by
    rw [Expr.renameAll, Expr.rename_congr e fun x hx => h x (.inl hx),
      Expr.renameAll_congr es fun x hx => h x (.inr hx), Expr.renameAll]
termination_by structural es => es

theorem Expr.renamePairs_congr : ∀ (bs : List (String × Expr)) {n : Nat} {Γ Δ : Scope},
    (∀ x, Expr.OccursFreePairs x bs → Γ.resolve x = Δ.resolve x) →
      Expr.renamePairs n Γ bs = Expr.renamePairs n Δ bs
  | [], _, _, _, _ => rfl
  | (_, e) :: bs, _, _, _, h => by
    rw [Expr.renamePairs, Expr.rename_congr e fun x hx => h x (.inl hx),
      Expr.renamePairs_congr bs fun x hx => h x (.inr hx), Expr.renamePairs]
termination_by structural bs => bs

end

mutual

/-- An expression without binders is renamed to itself, where there is no scope. -/
theorem Expr.rename_nil_of_binderCount : ∀ (e : Expr) {n : Nat}, e.binderCount = 0 → e.rename n [] = e
  | .number _, _, _ | .boolean _, _, _ | .string _, _, _ | .primitive _, _, _ | .quoted _, _, _ | .var _, _, _ => rfl
  | .cond a b c, _, h => by
    rw [Expr.binderCount, Nat.add_eq_zero_iff, Nat.add_eq_zero_iff] at h
    rw [Expr.rename, Expr.rename_nil_of_binderCount a h.1.1, Expr.rename_nil_of_binderCount b h.1.2,
      Expr.rename_nil_of_binderCount c h.2]
  | .lambda params body, n, h => by
    rw [Expr.binderCount, Nat.add_eq_zero_iff, List.length_eq_zero_iff] at h
    obtain ⟨rfl, hbody⟩ := h
    exact congrArg (Expr.lambda []) (Expr.renameAll_nil_of_binderCount body hbody)
  | .app f es, _, h => by
    rw [Expr.binderCount, Nat.add_eq_zero_iff] at h
    rw [Expr.rename, Expr.rename_nil_of_binderCount f h.1, Expr.renameAll_nil_of_binderCount es h.2]
  | .letIn bs body, n, h => by
    rw [Expr.binderCount, Nat.add_eq_zero_iff, Nat.add_eq_zero_iff, List.length_eq_zero_iff] at h
    obtain ⟨⟨-, rfl⟩, hbody⟩ := h
    exact congrArg (Expr.letIn []) (Expr.renameAll_nil_of_binderCount body hbody)
  | .define x e, _, h => congrArg (Expr.define x) (Expr.rename_nil_of_binderCount e h)
  | .classDef fields methods, n, h => by
    rw [Expr.binderCount, Nat.add_eq_zero_iff, List.length_eq_zero_iff] at h
    obtain ⟨rfl, hmethods⟩ := h
    exact congrArg (Expr.classDef []) (Expr.renamePairs_nil_of_binderCount methods hmethods)
termination_by structural e => e

theorem Expr.renameAll_nil_of_binderCount : ∀ (es : List Expr) {n : Nat}, Expr.binderCountAll es = 0 →
    Expr.renameAll n [] es = es
  | [], _, _ => rfl
  | e :: es, _, h => by
    rw [Expr.binderCountAll, Nat.add_eq_zero_iff] at h
    rw [Expr.renameAll, Expr.rename_nil_of_binderCount e h.1, Expr.renameAll_nil_of_binderCount es h.2]
termination_by structural es => es

theorem Expr.renamePairs_nil_of_binderCount : ∀ (bs : List (String × Expr)) {n : Nat},
    Expr.binderCountPairs bs = 0 → Expr.renamePairs n [] bs = bs
  | [], _, _ => rfl
  | (_, e) :: bs, _, h => by
    rw [Expr.binderCountPairs, Nat.add_eq_zero_iff] at h
    rw [Expr.renamePairs, Expr.rename_nil_of_binderCount e h.1, Expr.renamePairs_nil_of_binderCount bs h.2]
termination_by structural bs => bs

end

section Kept

variable {e : Expr} {Γ : Scope} (hΓ : ∀ x, e.OccursFree x → Γ.resolve x = x)

include hΓ

theorem Expr.rename_eq_rename_nil (n : Nat) : e.rename n Γ = e.rename n [] :=
  Expr.rename_congr e hΓ

/-- **An expression without binders is left as it is by a renaming that keeps its free variables.** -/
theorem Expr.rename_of_binderCount {n : Nat} (h : e.binderCount = 0) : e.rename n Γ = e := by
  rw [Expr.rename_eq_rename_nil hΓ, Expr.rename_nil_of_binderCount e h]

end Kept

/-! ### Substitution -/

theorem Substitution.lookup_without_eq_none {σ : Substitution} {x : String} (h : σ.lookup x = none)
    (binders : List String) : (σ.without binders).lookup x = none := by
  rw [Substitution.lookup_without, h, ite_self]

theorem Substitution.lookup_without_of_free {σ : Substitution} {binders : List String} {P : String → Prop}
    (h : ∀ x, x ∉ binders ∧ P x → σ.lookup x = none) (x : String) (hx : P x) :
    (σ.without binders).lookup x = none := by
  rw [Substitution.lookup_without]
  split
  · rfl
  · next hbinder => exact h x ⟨hbinder, hx⟩

mutual

/-- **Replacements for names that are not free in an expression leave it as it is.** -/
theorem Expr.substitute_of_occursFree : ∀ (e : Expr) {σ : Substitution},
    (∀ x, e.OccursFree x → σ.lookup x = none) → e.substitute σ = e
  | .number _, _, _ | .boolean _, _, _ | .string _, _, _ | .primitive _, _, _ | .quoted _, _, _ => rfl
  | .var x, σ, h => by rw [Expr.substitute, Substitution.apply, h x rfl, Option.getD_none]
  | .cond a b c, _, h => by
    rw [Expr.substitute, Expr.substitute_of_occursFree a fun x hx => h x (.inl hx),
      Expr.substitute_of_occursFree b fun x hx => h x (.inr (.inl hx)),
      Expr.substitute_of_occursFree c fun x hx => h x (.inr (.inr hx))]
  | .lambda params body, _, h => by
    rw [Expr.substitute, Expr.substituteAll_of_occursFree body (Substitution.lookup_without_of_free h)]
  | .app f es, _, h => by
    rw [Expr.substitute, Expr.substitute_of_occursFree f fun x hx => h x (.inl hx),
      Expr.substituteAll_of_occursFree es fun x hx => h x (.inr hx)]
  | .letIn bs body, _, h => by
    rw [Expr.substitute, Expr.substitutePairs_of_occursFree bs fun x hx => h x (.inl hx),
      Expr.substituteAll_of_occursFree body (Substitution.lookup_without_of_free fun x hx => h x (.inr hx))]
  | .define x e, _, h => congrArg (Expr.define x) (Expr.substitute_of_occursFree e h)
  | .classDef fields methods, _, h => by
    rw [Expr.substitute, Expr.substitutePairs_of_occursFree methods (Substitution.lookup_without_of_free h)]
termination_by structural e => e

theorem Expr.substituteAll_of_occursFree : ∀ (es : List Expr) {σ : Substitution},
    (∀ x, Expr.OccursFreeAny x es → σ.lookup x = none) → Expr.substituteAll σ es = es
  | [], _, _ => rfl
  | e :: es, _, h => by
    rw [Expr.substituteAll, Expr.substitute_of_occursFree e fun x hx => h x (.inl hx),
      Expr.substituteAll_of_occursFree es fun x hx => h x (.inr hx)]
termination_by structural es => es

theorem Expr.substitutePairs_of_occursFree : ∀ (bs : List (String × Expr)) {σ : Substitution},
    (∀ x, Expr.OccursFreePairs x bs → σ.lookup x = none) → Expr.substitutePairs σ bs = bs
  | [], _, _ => rfl
  | (_, e) :: bs, _, h => by
    rw [Expr.substitutePairs, Expr.substitute_of_occursFree e fun x hx => h x (.inl hx),
      Expr.substitutePairs_of_occursFree bs fun x hx => h x (.inr hx)]
termination_by structural bs => bs

end

/-- Nothing is put in for no names. -/
theorem substitute_nil (es : List Expr) : substitute [] [] es = es :=
  Expr.substituteAll_of_occursFree es fun _ _ => rfl

end SubstModel
