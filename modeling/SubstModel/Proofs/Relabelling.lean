import SubstModel.Expr.Same
import SubstModel.Proofs.Binding
import SubstModel.Proofs.GeneratedName
import SubstModel.Proofs.Language

/-!
# Relabelling — other generated names and other references, one for one

Which numbers the generated names have, and which references the procedures, does not matter: what is done to an
expression before it is evaluated can as well be done to the expression with other ones.

* `Relabelling` — other names and references, one for one; a written name stays;
* `Expr.relabel`, `Value.relabel` — the same tree with other names and references;
* `Relabelling.Shifts` — names that are handed out become the names that are handed out at another count;
* `Expr.relabel_rename`, `Expr.relabel_substitute` — **renaming and substitution go through a relabelling**;
* `Value.same_relabel`, `Value.identical_relabel` — both equalities are kept;
* `Relabelling.Agrees`, `Expr.relabel_congr` — **relabellings that agree on what occurs do the same**;
* `Expr.relabel_of_within` — an expression whose names and references stay is left as it is.
-/

namespace SubstModel

/-- Other names and other references, one for one.  A written name stays, and a generated name keeps its stem. -/
structure Relabelling where
  name : String → String
  ref : Ref → Ref
  name_injective : Function.Injective name
  ref_injective : Function.Injective ref
  stem_name : ∀ x, stem (name x) = stem x
  name_written : ∀ x, (∀ n, ¬ HasNumber x n) → name x = x

/-! ### Relabelled trees -/

mutual

/-- The expression with other names and references.  The names of methods stay. -/
def Expr.relabel (ρ : Relabelling) : Expr → Expr
  | .number x => .number x
  | .boolean b => .boolean b
  | .string s => .string s
  | .primitive p => .primitive p
  | .var x => .var (ρ.name x)
  | .cond test onTrue onFalse =>
    .cond (Expr.relabel ρ test) (Expr.relabel ρ onTrue) (Expr.relabel ρ onFalse)
  | .lambda params body => .lambda (params.map ρ.name) (Expr.relabelAll ρ body)
  | .app operator operands => .app (Expr.relabel ρ operator) (Expr.relabelAll ρ operands)
  | .letIn bindings body => .letIn (Expr.relabelPairs ρ ρ.name bindings) (Expr.relabelAll ρ body)
  | .quoted v => .quoted (Value.relabel ρ v)
  | .define x value => .define (ρ.name x) (Expr.relabel ρ value)
  | .classDef fields methods => .classDef (fields.map ρ.name) (Expr.relabelPairs ρ id methods)
termination_by structural e => e

/-- Several expressions with other names and references. -/
def Expr.relabelAll (ρ : Relabelling) : List Expr → List Expr
  | [] => []
  | e :: es => Expr.relabel ρ e :: Expr.relabelAll ρ es
termination_by structural es => es

/-- Pairs whose expressions have other names and references, with `f` applied to what they are paired with. -/
def Expr.relabelPairs (ρ : Relabelling) (f : String → String) : List (String × Expr) → List (String × Expr)
  | [] => []
  | (x, e) :: bs => (f x, Expr.relabel ρ e) :: Expr.relabelPairs ρ f bs
termination_by structural bs => bs

/-- The value with other names and references. -/
def Value.relabel (ρ : Relabelling) : Value → Value
  | .number x => .number x
  | .boolean b => .boolean b
  | .string s => .string s
  | .symbol s => .symbol s
  | .list items => .list (Value.relabelAll ρ items)
  | .primitive p => .primitive p
  | .closure r params body => .closure (ρ.ref r) (params.map ρ.name) (Expr.relabelAll ρ body)
  | .classDef r fields methods =>
    .classDef (ρ.ref r) (fields.map ρ.name) (Expr.relabelPairs ρ id methods)
  | .object r fields methods => .object (ρ.ref r) (fields.map ρ.name) (Expr.relabelPairs ρ id methods)
termination_by structural v => v

/-- Several values with other names and references. -/
def Value.relabelAll (ρ : Relabelling) : List Value → List Value
  | [] => []
  | v :: vs => Value.relabel ρ v :: Value.relabelAll ρ vs
termination_by structural vs => vs

end

section Maps

variable (ρ : Relabelling)

theorem Expr.relabelAll_eq_map (es : List Expr) : Expr.relabelAll ρ es = es.map (Expr.relabel ρ) := by
  induction es with
  | nil => rfl
  | cons e es ih => rw [Expr.relabelAll, ih, List.map_cons]

theorem Expr.relabelPairs_eq_map (f : String → String) (bs : List (String × Expr)) :
    Expr.relabelPairs ρ f bs = bs.map fun b => (f b.1, b.2.relabel ρ) := by
  induction bs with
  | nil => rfl
  | cons b bs ih => rw [Expr.relabelPairs, ih, List.map_cons]

theorem Value.relabelAll_eq_map (vs : List Value) : Value.relabelAll ρ vs = vs.map (Value.relabel ρ) := by
  induction vs with
  | nil => rfl
  | cons v vs ih => rw [Value.relabelAll, ih, List.map_cons]

theorem Expr.map_fst_relabelPairs (f : String → String) (bs : List (String × Expr)) :
    (Expr.relabelPairs ρ f bs).map Prod.fst = (bs.map Prod.fst).map f := by
  rw [Expr.relabelPairs_eq_map, List.map_map, List.map_map]
  rfl

theorem Expr.map_snd_relabelPairs (f : String → String) (bs : List (String × Expr)) :
    (Expr.relabelPairs ρ f bs).map Prod.snd = Expr.relabelAll ρ (bs.map Prod.snd) := by
  rw [Expr.relabelPairs_eq_map, Expr.relabelAll_eq_map, List.map_map, List.map_map]
  rfl

theorem Expr.length_relabelPairs (f : String → String) (bs : List (String × Expr)) :
    (Expr.relabelPairs ρ f bs).length = bs.length := by
  rw [Expr.relabelPairs_eq_map, List.length_map]

theorem Expr.relabelPairs_zip (f : String → String) (xs : List String) (es : List Expr) :
    Expr.relabelPairs ρ f (xs.zip es) = (xs.map f).zip (Expr.relabelAll ρ es) := by
  rw [Expr.relabelPairs_eq_map, Expr.relabelAll_eq_map, List.zip_map]
  rfl

/-- An expression that evaluates to a value is relabelled as the value is. -/
theorem Value.relabel_toExpr (v : Value) : v.toExpr.relabel ρ = (v.relabel ρ).toExpr := by
  cases v <;> rfl

theorem Value.map_relabel_toExpr (vs : List Value) :
    Expr.relabelAll ρ (vs.map Value.toExpr) = (Value.relabelAll ρ vs).map Value.toExpr := by
  rw [Expr.relabelAll_eq_map, Value.relabelAll_eq_map, List.map_map, List.map_map]
  exact List.map_congr_left fun v _ => Value.relabel_toExpr ρ v

end Maps

/-! ### Renaming -/

mutual

theorem Expr.binderCount_relabel (ρ : Relabelling) :
    ∀ e : Expr, (e.relabel ρ).binderCount = e.binderCount
  | .number _ | .boolean _ | .string _ | .primitive _ | .var _ | .quoted _ => rfl
  | .cond a b c => by
    rw [Expr.relabel, Expr.binderCount, Expr.binderCount_relabel ρ a, Expr.binderCount_relabel ρ b,
      Expr.binderCount_relabel ρ c, Expr.binderCount]
  | .lambda params body => by
    rw [Expr.relabel, Expr.binderCount, List.length_map, Expr.binderCountAll_relabel ρ body, Expr.binderCount]
  | .app f es => by
    rw [Expr.relabel, Expr.binderCount, Expr.binderCount_relabel ρ f, Expr.binderCountAll_relabel ρ es,
      Expr.binderCount]
  | .letIn bs body => by
    rw [Expr.relabel, Expr.binderCount, Expr.binderCountPairs_relabel ρ ρ.name bs, Expr.length_relabelPairs,
      Expr.binderCountAll_relabel ρ body, Expr.binderCount]
  | .define x e => by
    rw [Expr.relabel, Expr.binderCount, Expr.binderCount_relabel ρ e, Expr.binderCount]
  | .classDef fields methods => by
    rw [Expr.relabel, Expr.binderCount, List.length_map, Expr.binderCountPairs_relabel ρ id methods,
      Expr.binderCount]
termination_by structural e => e

theorem Expr.binderCountAll_relabel (ρ : Relabelling) :
    ∀ es, Expr.binderCountAll (Expr.relabelAll ρ es) = Expr.binderCountAll es
  | [] => rfl
  | e :: es => by
    rw [Expr.relabelAll, Expr.binderCountAll, Expr.binderCount_relabel ρ e, Expr.binderCountAll_relabel ρ es,
      Expr.binderCountAll]
termination_by structural es => es

theorem Expr.binderCountPairs_relabel (ρ : Relabelling) (f : String → String) :
    ∀ bs, Expr.binderCountPairs (Expr.relabelPairs ρ f bs) = Expr.binderCountPairs bs
  | [] => rfl
  | (x, e) :: bs => by
    rw [Expr.relabelPairs, Expr.binderCountPairs, Expr.binderCount_relabel ρ e,
      Expr.binderCountPairs_relabel ρ f bs, Expr.binderCountPairs]
termination_by structural bs => bs

end

/-- The names that are handed out behind the count `n` become those that are handed out behind `n'`, so many of them. -/
def Relabelling.Shifts (ρ : Relabelling) (n n' count : Nat) : Prop :=
  ∀ i x, i < count → ρ.name (freshName (n + i + 1) x) = freshName (n' + i + 1) x

namespace Relabelling

variable {ρ : Relabelling} {n n' count : Nat}

theorem Shifts.take (h : ρ.Shifts n n' count) {count' : Nat} (hc : count' ≤ count) : ρ.Shifts n n' count' :=
  fun i x hi => h i x (by omega)

theorem Shifts.part (h : ρ.Shifts n n' count) (offset : Nat) {count' : Nat} (hc : offset + count' ≤ count) :
    ρ.Shifts (n + offset) (n' + offset) count' := by
  intro i x hi
  have hshift := h (offset + i) x (by omega)
  rwa [← Nat.add_assoc, ← Nat.add_assoc] at hshift

theorem Shifts.freshNames {xs : List String} (h : ρ.Shifts n n' xs.length) :
    (freshNames n xs).map ρ.name = SubstModel.freshNames n' (xs.map ρ.name) := by
  induction xs generalizing n n' with
  | nil => rfl
  | cons x xs ih =>
    rw [List.length_cons] at h
    have hx : ρ.name (freshName (n + 1) x) = freshName (n' + 1) (ρ.name x) := by
      rw [show n + 1 = n + 0 + 1 from rfl, h 0 x (by omega)]
      exact freshName_eq_iff.2 ⟨rfl, (ρ.stem_name x).symm⟩
    rw [SubstModel.freshNames, List.map_cons, hx, ih (h.part 1 (by omega)), List.map_cons,
      SubstModel.freshNames]

end Relabelling

/-- The renamings of the relabelled names. -/
def Scope.relabel (ρ : Relabelling) (Γ : Scope) : Scope :=
  Γ.map fun b => (ρ.name b.1, ρ.name b.2)

theorem Scope.relabel_enter (ρ : Relabelling) (Γ : Scope) (binders renamed : List String) :
    (Γ.enter binders renamed).relabel ρ
      = (Γ.relabel ρ).enter (binders.map ρ.name) (renamed.map ρ.name) := by
  rw [Scope.relabel, Scope.enter, List.map_append, List.map_reverse, Scope.enter, List.zip_map]
  rfl

theorem Scope.relabel_resolve (ρ : Relabelling) (Γ : Scope) (x : String) :
    (Γ.relabel ρ).resolve (ρ.name x) = ρ.name (Γ.resolve x) := by
  rw [Scope.resolve, Scope.relabel, lookup_map_of_injective ρ.name_injective ρ.name, Scope.resolve]
  cases Γ.lookup x <;> rfl

section Renaming

variable {ρ : Relabelling}

mutual

/-- **An expression made fresh and relabelled is the relabelled expression made fresh.** -/
theorem Expr.relabel_rename : ∀ (e : Expr) {n n' : Nat} {Γ : Scope}, ρ.Shifts n n' e.binderCount →
    (e.rename n Γ).relabel ρ = (e.relabel ρ).rename n' (Γ.relabel ρ)
  | .number _, _, _, _, _ | .boolean _, _, _, _, _ | .string _, _, _, _, _ | .primitive _, _, _, _, _
  | .quoted _, _, _, _, _ => rfl
  | .var x, _, _, Γ, _ => congrArg Expr.var (Scope.relabel_resolve ρ Γ x).symm
  | .cond a b c, n, n', Γ, h => by
    simp only [Expr.binderCount] at h
    have ha := Expr.relabel_rename a (Γ := Γ) (h.take (by omega))
    have hb := Expr.relabel_rename b (Γ := Γ) (h.part a.binderCount (by omega))
    have hc := Expr.relabel_rename c (Γ := Γ) (h.part (a.binderCount + b.binderCount) (by omega))
    rw [← Nat.add_assoc, ← Nat.add_assoc] at hc
    rw [Expr.rename, Expr.relabel, ha, hb, hc, Expr.relabel, Expr.rename, Expr.binderCount_relabel,
      Expr.binderCount_relabel]
  | .lambda params body, n, n', Γ, h => by
    simp only [Expr.binderCount] at h
    have hparams : (freshNames n params).map ρ.name = freshNames n' (params.map ρ.name) :=
      Relabelling.Shifts.freshNames (h.take (by omega))
    have hbody := Expr.relabelAll_rename body (Γ := Γ.enter params (freshNames n params))
      (h.part params.length (by omega))
    rw [Scope.relabel_enter, hparams] at hbody
    simp only [Expr.rename, Expr.relabel, hparams, hbody, List.length_map]
  | .app f es, n, n', Γ, h => by
    simp only [Expr.binderCount] at h
    have hf := Expr.relabel_rename f (Γ := Γ) (h.take (by omega))
    have hes := Expr.relabelAll_rename es (Γ := Γ) (h.part f.binderCount (by omega))
    rw [Expr.rename, Expr.relabel, hf, hes, Expr.relabel, Expr.rename, Expr.binderCount_relabel]
  | .letIn bs body, n, n', Γ, h => by
    simp only [Expr.binderCount] at h
    have hlen : (bs.map Prod.fst).length = bs.length := List.length_map _
    have hbs := Expr.relabelPairs_rename ρ.name bs (Γ := Γ) (h.take (by omega))
    have hnames : (freshNames (n + Expr.binderCountPairs bs) (bs.map Prod.fst)).map ρ.name
        = freshNames (n' + Expr.binderCountPairs bs) ((bs.map Prod.fst).map ρ.name) :=
      Relabelling.Shifts.freshNames (h.part (Expr.binderCountPairs bs) (by omega))
    have hbody := Expr.relabelAll_rename body
      (Γ := Γ.enter (bs.map Prod.fst) (freshNames (n + Expr.binderCountPairs bs) (bs.map Prod.fst)))
      (h.part (Expr.binderCountPairs bs + bs.length) (by omega))
    rw [Scope.relabel_enter, hnames, ← Nat.add_assoc, ← Nat.add_assoc] at hbody
    have hvalues : Expr.relabelAll ρ ((Expr.renamePairs n Γ bs).map Prod.snd)
        = (Expr.renamePairs n' (Γ.relabel ρ) (Expr.relabelPairs ρ ρ.name bs)).map Prod.snd := by
      rw [← Expr.map_snd_relabelPairs ρ ρ.name]
      exact congrArg (List.map Prod.snd) hbs
    simp only [Expr.rename, Expr.relabel, Expr.map_fst_relabelPairs, Expr.binderCountPairs_relabel,
      List.length_map, hbody, Expr.relabelPairs_zip, hnames, hvalues]
  | .define x e, n, n', Γ, h => by
    rw [Expr.rename, Expr.relabel, Expr.relabel_rename e h, Expr.relabel, Expr.rename]
  | .classDef fields methods, n, n', Γ, h => by
    simp only [Expr.binderCount] at h
    have hfields : (freshNames n fields).map ρ.name = freshNames n' (fields.map ρ.name) :=
      Relabelling.Shifts.freshNames (h.take (by omega))
    have hmethods := Expr.relabelPairs_rename id methods (Γ := Γ.enter fields (freshNames n fields))
      (h.part fields.length (by omega))
    rw [Scope.relabel_enter, hfields] at hmethods
    simp only [Expr.rename, Expr.relabel, hfields, hmethods, List.length_map]
termination_by structural e => e

theorem Expr.relabelAll_rename : ∀ (es : List Expr) {n n' : Nat} {Γ : Scope},
    ρ.Shifts n n' (Expr.binderCountAll es) →
    Expr.relabelAll ρ (Expr.renameAll n Γ es) = Expr.renameAll n' (Γ.relabel ρ) (Expr.relabelAll ρ es)
  | [], _, _, _, _ => rfl
  | e :: es, n, n', Γ, h => by
    simp only [Expr.binderCountAll] at h
    have he := Expr.relabel_rename e (Γ := Γ) (h.take (by omega))
    have hes := Expr.relabelAll_rename es (Γ := Γ) (h.part e.binderCount (by omega))
    rw [Expr.renameAll, Expr.relabelAll, he, hes, Expr.relabelAll, Expr.renameAll, Expr.binderCount_relabel]
termination_by structural es => es

theorem Expr.relabelPairs_rename (f : String → String) :
    ∀ (bs : List (String × Expr)) {n n' : Nat} {Γ : Scope}, ρ.Shifts n n' (Expr.binderCountPairs bs) →
    Expr.relabelPairs ρ f (Expr.renamePairs n Γ bs)
      = Expr.renamePairs n' (Γ.relabel ρ) (Expr.relabelPairs ρ f bs)
  | [], _, _, _, _ => rfl
  | (x, e) :: bs, n, n', Γ, h => by
    simp only [Expr.binderCountPairs] at h
    have he := Expr.relabel_rename e (Γ := Γ) (h.take (by omega))
    have hbs := Expr.relabelPairs_rename f bs (Γ := Γ) (h.part e.binderCount (by omega))
    rw [Expr.renamePairs, Expr.relabelPairs, he, hbs, Expr.relabelPairs, Expr.renamePairs,
      Expr.binderCount_relabel]
termination_by structural bs => bs

end

end Renaming

/-! ### Substitution -/

/-- The replacements of the relabelled names. -/
def Substitution.relabel (ρ : Relabelling) (σ : Substitution) : Substitution :=
  σ.map fun b => (ρ.name b.1, b.2.relabel ρ)

namespace Substitution

variable (ρ : Relabelling)

theorem relabel_apply (σ : Substitution) (x : String) :
    (σ.relabel ρ).apply (ρ.name x) = (σ.apply x).relabel ρ := by
  rw [apply, relabel, lookup_map_of_injective ρ.name_injective (Expr.relabel ρ), apply]
  cases σ.lookup x <;> rfl

theorem relabel_without (σ : Substitution) (binders : List String) :
    (σ.without binders).relabel ρ = (σ.relabel ρ).without (binders.map ρ.name) := by
  rw [without, relabel, relabel, without, List.filter_map]
  congr 1
  refine List.filter_congr fun b _ => congrArg Bool.not ?_
  show binders.contains b.1 = (binders.map ρ.name).contains (ρ.name b.1)
  rw [Bool.eq_iff_iff, List.contains_iff_mem, List.contains_iff_mem,
    List.mem_map_of_injective ρ.name_injective]

theorem relabel_zip (names : List String) (es : List Expr) :
    Substitution.relabel ρ (names.zip es) = (names.map ρ.name).zip (Expr.relabelAll ρ es) := by
  rw [relabel, Expr.relabelAll_eq_map, List.zip_map]
  rfl

end Substitution

section Substitution

variable (ρ : Relabelling)

mutual

/-- **What substitution gives is relabelled by relabelling what is put in, and what it is put into.** -/
theorem Expr.relabel_substitute : ∀ (e : Expr) (σ : Substitution),
    (e.substitute σ).relabel ρ = (e.relabel ρ).substitute (σ.relabel ρ)
  | .number _, _ | .boolean _, _ | .string _, _ | .primitive _, _ | .quoted _, _ => rfl
  | .var x, σ => (Substitution.relabel_apply ρ σ x).symm
  | .cond a b c, σ => by
    rw [Expr.substitute, Expr.relabel, Expr.relabel_substitute a, Expr.relabel_substitute b,
      Expr.relabel_substitute c, Expr.relabel, Expr.substitute]
  | .lambda params body, σ => by
    rw [Expr.substitute, Expr.relabel, Expr.relabelAll_substitute body, Substitution.relabel_without,
      Expr.relabel, Expr.substitute]
  | .app f es, σ => by
    rw [Expr.substitute, Expr.relabel, Expr.relabel_substitute f, Expr.relabelAll_substitute es,
      Expr.relabel, Expr.substitute]
  | .letIn bs body, σ => by
    rw [Expr.substitute, Expr.relabel, Expr.relabelPairs_substitute ρ.name bs,
      Expr.relabelAll_substitute body, Substitution.relabel_without, Expr.relabel, Expr.substitute,
      Expr.map_fst_relabelPairs]
  | .define x e, σ => by
    rw [Expr.substitute, Expr.relabel, Expr.relabel_substitute e, Expr.relabel, Expr.substitute]
  | .classDef fields methods, σ => by
    rw [Expr.substitute, Expr.relabel, Expr.relabelPairs_substitute id methods,
      Substitution.relabel_without, Expr.relabel, Expr.substitute]
termination_by structural e => e

theorem Expr.relabelAll_substitute : ∀ (es : List Expr) (σ : Substitution),
    Expr.relabelAll ρ (Expr.substituteAll σ es)
      = Expr.substituteAll (σ.relabel ρ) (Expr.relabelAll ρ es)
  | [], _ => rfl
  | e :: es, σ => by
    rw [Expr.substituteAll, Expr.relabelAll, Expr.relabel_substitute e, Expr.relabelAll_substitute es,
      Expr.relabelAll, Expr.substituteAll]
termination_by structural es => es

theorem Expr.relabelPairs_substitute (f : String → String) :
    ∀ (bs : List (String × Expr)) (σ : Substitution),
    Expr.relabelPairs ρ f (Expr.substitutePairs σ bs)
      = Expr.substitutePairs (σ.relabel ρ) (Expr.relabelPairs ρ f bs)
  | [], _ => rfl
  | (x, e) :: bs, σ => by
    rw [Expr.substitutePairs, Expr.relabelPairs, Expr.relabel_substitute e, Expr.relabelPairs_substitute f bs,
      Expr.relabelPairs, Expr.substitutePairs]
termination_by structural bs => bs

end

end Substitution

/-- **Arguments that are put in for parameters are relabelled with what they are put into.** -/
theorem relabel_substitute (ρ : Relabelling) (names : List String) (args : List Value) (es : List Expr) :
    Expr.relabelAll ρ (substitute names (args.map Value.toExpr) es)
      = substitute (names.map ρ.name) ((args.map (Value.relabel ρ)).map Value.toExpr)
          (Expr.relabelAll ρ es) := by
  rw [substitute, substitute, Expr.relabelAll_substitute, Substitution.relabel_zip, Value.map_relabel_toExpr,
    Value.relabelAll_eq_map]

/-! ### Equalities -/

section Equalities

variable (ρ : Relabelling)

theorem Relabelling.name_beq (x y : String) : (ρ.name x == ρ.name y) = (x == y) := by
  rw [Bool.eq_iff_iff, beq_iff_eq, beq_iff_eq]
  exact ρ.name_injective.eq_iff

theorem Relabelling.ref_beq (r s : Ref) : (ρ.ref r == ρ.ref s) = (r == s) := by
  rw [Bool.eq_iff_iff, beq_iff_eq, beq_iff_eq]
  exact ρ.ref_injective.eq_iff

theorem Relabelling.names_beq (xs ys : List String) : (xs.map ρ.name == ys.map ρ.name) = (xs == ys) := by
  rw [Bool.eq_iff_iff, beq_iff_eq, beq_iff_eq]
  exact (List.map_injective_iff.2 ρ.name_injective).eq_iff

mutual

theorem Expr.same_relabel : ∀ e e' : Expr, (e.relabel ρ).same (e'.relabel ρ) = e.same e'
  | .number _, e' | .boolean _, e' | .string _, e' | .primitive _, e' => by cases e' <;> rfl
  | .var x, e' => by
    cases e' with
    | var y => exact ρ.name_beq x y
    | _ => rfl
  | .cond a b c, e' => by
    cases e' with
    | cond a' b' c' =>
      rw [Expr.relabel, Expr.relabel, Expr.same, Expr.same_relabel a, Expr.same_relabel b, Expr.same_relabel c,
        Expr.same]
    | _ => rfl
  | .lambda params body, e' => by
    cases e' with
    | lambda params' body' =>
      rw [Expr.relabel, Expr.relabel, Expr.same, ρ.names_beq, Expr.sameAll_relabel body, Expr.same]
    | _ => rfl
  | .app f es, e' => by
    cases e' with
    | app f' es' =>
      rw [Expr.relabel, Expr.relabel, Expr.same, Expr.same_relabel f, Expr.sameAll_relabel es, Expr.same]
    | _ => rfl
  | .letIn bs body, e' => by
    cases e' with
    | letIn bs' body' =>
      rw [Expr.relabel, Expr.relabel, Expr.same, Expr.samePairs_relabel ρ.name ρ.name_beq bs,
        Expr.sameAll_relabel body, Expr.same]
    | _ => rfl
  | .quoted v, e' => by
    cases e' with
    | quoted w => rw [Expr.relabel, Expr.relabel, Expr.same, Value.same_relabel v, Expr.same]
    | _ => rfl
  | .define x e, e' => by
    cases e' with
    | define y e' =>
      rw [Expr.relabel, Expr.relabel, Expr.same, ρ.name_beq, Expr.same_relabel e, Expr.same]
    | _ => rfl
  | .classDef fields methods, e' => by
    cases e' with
    | classDef fields' methods' =>
      rw [Expr.relabel, Expr.relabel, Expr.same, ρ.names_beq,
        Expr.samePairs_relabel id (fun _ _ => rfl) methods, Expr.same]
    | _ => rfl
termination_by structural e => e

theorem Expr.sameAll_relabel : ∀ es es' : List Expr,
    Expr.sameAll (Expr.relabelAll ρ es) (Expr.relabelAll ρ es') = Expr.sameAll es es'
  | [], es' => by cases es' <;> rfl
  | e :: es, es' => by
    cases es' with
    | nil => rfl
    | cons e' es' =>
      rw [Expr.relabelAll, Expr.relabelAll, Expr.sameAll, Expr.same_relabel e, Expr.sameAll_relabel es,
        Expr.sameAll]
termination_by structural es => es

theorem Expr.samePairs_relabel (f : String → String) (hf : ∀ x y, (f x == f y) = (x == y)) :
    ∀ bs bs' : List (String × Expr),
    Expr.samePairs (Expr.relabelPairs ρ f bs) (Expr.relabelPairs ρ f bs') = Expr.samePairs bs bs'
  | [], bs' => by cases bs' <;> rfl
  | (x, e) :: bs, bs' => by
    cases bs' with
    | nil => rfl
    | cons b' bs' =>
      rw [Expr.relabelPairs, Expr.relabelPairs, Expr.samePairs, hf, Expr.same_relabel e,
        Expr.samePairs_relabel f hf bs, Expr.samePairs]
termination_by structural bs => bs

/-- **Values have the same contents when the relabelled values have.** -/
theorem Value.same_relabel : ∀ v w : Value, (v.relabel ρ).same (w.relabel ρ) = v.same w
  | .number _, w | .boolean _, w | .string _, w | .symbol _, w | .primitive _, w => by cases w <;> rfl
  | .list vs, w => by
    cases w with
    | list ws => rw [Value.relabel, Value.relabel, Value.same, Value.sameAll_relabel vs, Value.same]
    | _ => rfl
  | .closure r params body, w => by
    cases w with
    | closure r' params' body' =>
      rw [Value.relabel, Value.relabel, Value.same, ρ.names_beq, Expr.sameAll_relabel body, Value.same]
    | _ => rfl
  | .classDef r fields methods, w => by
    cases w with
    | classDef r' fields' methods' =>
      rw [Value.relabel, Value.relabel, Value.same, ρ.names_beq,
        Expr.samePairs_relabel id (fun _ _ => rfl) methods, Value.same]
    | _ => rfl
  | .object r fields methods, w => by
    cases w with
    | object r' fields' methods' =>
      rw [Value.relabel, Value.relabel, Value.same, ρ.names_beq,
        Expr.samePairs_relabel id (fun _ _ => rfl) methods, Value.same]
    | _ => rfl
termination_by structural v => v

theorem Value.sameAll_relabel : ∀ vs ws : List Value,
    Value.sameAll (Value.relabelAll ρ vs) (Value.relabelAll ρ ws) = Value.sameAll vs ws
  | [], ws => by cases ws <;> rfl
  | v :: vs, ws => by
    cases ws with
    | nil => rfl
    | cons w ws =>
      rw [Value.relabelAll, Value.relabelAll, Value.sameAll, Value.same_relabel v, Value.sameAll_relabel vs,
        Value.sameAll]
termination_by structural vs => vs

end

/-- **Values are one and the same when the relabelled values are.** -/
theorem Value.identical_relabel (v w : Value) : (v.relabel ρ).identical (w.relabel ρ) = v.identical w := by
  cases v with
  | list vs => cases w with
    | list ws => cases vs <;> cases ws <;> rfl
    | _ => rfl
  | closure r params body => cases w with
    | closure r' params' body' => exact ρ.ref_beq r r'
    | _ => rfl
  | classDef r fields methods => cases w with
    | classDef r' fields' methods' => exact ρ.ref_beq r r'
    | _ => rfl
  | object r fields methods => cases w with
    | object r' fields' methods' => exact ρ.ref_beq r r'
    | _ => rfl
  | number | boolean | string | symbol | primitive => cases w <;> rfl

end Equalities

/-! ### Agreement -/

/-- The two give the same names and references to those of the language. -/
structure Relabelling.Agrees (ρ ρ' : Relabelling) (L : Language) : Prop where
  name : ∀ {x}, L.name x → ρ.name x = ρ'.name x
  ref : ∀ {r}, L.ref r → ρ.ref r = ρ'.ref r

theorem Relabelling.Agrees.binds {ρ ρ' : Relabelling} {L : Language} (h : ρ.Agrees ρ' L) {xs : List String}
    (hxs : L.Binds xs) : xs.map ρ.name = xs.map ρ'.name :=
  List.map_congr_left fun x hx => h.name (hxs.2 x hx)

section Agreement

variable {ρ ρ' : Relabelling} {L : Language}

mutual

/-- **An expression is relabelled alike by relabellings that agree on its names and references.** -/
theorem Expr.relabel_congr (h : ρ.Agrees ρ' L) :
    ∀ (e : Expr) {scope : List String}, e.Within L scope → e.relabel ρ = e.relabel ρ'
  | .number _, _, _ | .boolean _, _, _ | .string _, _, _ | .primitive _, _, _ => rfl
  | .var x, _, ⟨hx, _⟩ => congrArg Expr.var (h.name hx)
  | .cond a b c, _, ⟨ha, hb, hc⟩ => by
    rw [Expr.relabel, Expr.relabel_congr h a ha, Expr.relabel_congr h b hb, Expr.relabel_congr h c hc, Expr.relabel]
  | .lambda params body, _, ⟨hp, _, hb⟩ => by
    rw [Expr.relabel, h.binds hp, Expr.relabelAll_congr h body hb, Expr.relabel]
  | .app f es, _, ⟨hf, hes⟩ => by
    rw [Expr.relabel, Expr.relabel_congr h f hf, Expr.relabelAll_congr h es hes, Expr.relabel]
  | .letIn bs body, _, ⟨_, hp, _, hbs, hb⟩ => by
    have hnames : ∀ b ∈ bs, ρ.name b.1 = ρ'.name b.1 := fun b hmem => h.name (hp.2 b.1 (List.mem_map_of_mem hmem))
    rw [Expr.relabel, Expr.relabelPairs_congr h bs hnames hbs, Expr.relabelAll_congr h body hb, Expr.relabel]
  | .quoted v, _, hv => by
    rw [Expr.relabel, Value.relabel_congr h v hv, Expr.relabel]
  | .define x e, _, ⟨_, hx, he⟩ => by
    rw [Expr.relabel, h.name hx, Expr.relabel_congr h e he, Expr.relabel]
  | .classDef fields methods, _, ⟨_, hf, _, hm⟩ => by
    rw [Expr.relabel, h.binds hf, Expr.relabelPairs_congr h methods (fun _ _ => rfl) hm, Expr.relabel]
termination_by structural e => e

theorem Expr.relabelAll_congr (h : ρ.Agrees ρ' L) : ∀ (es : List Expr) {scope : List String},
    Expr.WithinAll L scope es → Expr.relabelAll ρ es = Expr.relabelAll ρ' es
  | [], _, _ => rfl
  | e :: es, _, ⟨he, hes⟩ => by
    rw [Expr.relabelAll, Expr.relabel_congr h e he, Expr.relabelAll_congr h es hes, Expr.relabelAll]
termination_by structural es => es

theorem Expr.relabelPairs_congr (h : ρ.Agrees ρ' L) :
    ∀ (bs : List (String × Expr)) {f f' : String → String} {scope : List String},
      (∀ b ∈ bs, f b.1 = f' b.1) → Expr.WithinPairs L scope bs →
        Expr.relabelPairs ρ f bs = Expr.relabelPairs ρ' f' bs
  | [], _, _, _, _, _ => rfl
  | (x, e) :: bs, _, _, _, hf, ⟨he, hbs⟩ => by
    rw [List.forall_mem_cons] at hf
    rw [Expr.relabelPairs, hf.1, Expr.relabel_congr h e he, Expr.relabelPairs_congr h bs hf.2 hbs, Expr.relabelPairs]
termination_by structural bs => bs

theorem Value.relabel_congr (h : ρ.Agrees ρ' L) : ∀ v : Value, v.Within L → v.relabel ρ = v.relabel ρ'
  | .number _, _ | .boolean _, _ | .string _, _ | .symbol _, _ | .primitive _, _ => rfl
  | .list vs, hvs => by
    rw [Value.relabel, Value.relabelAll_congr h vs hvs, Value.relabel]
  | .closure r params body, ⟨hr, hp, _, hb⟩ => by
    rw [Value.relabel, h.ref hr, h.binds hp, Expr.relabelAll_congr h body hb, Value.relabel]
  | .classDef r fields methods, ⟨_, hr, hf, _, hm⟩ => by
    rw [Value.relabel, h.ref hr, h.binds hf, Expr.relabelPairs_congr h methods (fun _ _ => rfl) hm, Value.relabel]
  | .object r fields methods, ⟨_, hr, hf, _, hm⟩ => by
    rw [Value.relabel, h.ref hr, h.binds hf, Expr.relabelPairs_congr h methods (fun _ _ => rfl) hm, Value.relabel]
termination_by structural v => v

theorem Value.relabelAll_congr (h : ρ.Agrees ρ' L) :
    ∀ vs, Value.WithinAll L vs → Value.relabelAll ρ vs = Value.relabelAll ρ' vs
  | [], _ => rfl
  | v :: vs, ⟨hv, hvs⟩ => by
    rw [Value.relabelAll, Value.relabel_congr h v hv, Value.relabelAll_congr h vs hvs, Value.relabelAll]
termination_by structural vs => vs

end

end Agreement

/-! ### What stays -/

/-- The relabelling that changes nothing. -/
def Relabelling.refl : Relabelling where
  name := id
  ref := id
  name_injective := Function.injective_id
  ref_injective := Function.injective_id
  stem_name _ := rfl
  name_written _ _ := rfl

theorem Relabelling.map_name_refl (xs : List String) : xs.map Relabelling.refl.name = xs :=
  List.map_id xs

mutual

theorem Expr.relabel_refl : ∀ e : Expr, e.relabel .refl = e
  | .number _ | .boolean _ | .string _ | .primitive _ | .var _ => rfl
  | .cond a b c => by
    rw [Expr.relabel, Expr.relabel_refl a, Expr.relabel_refl b, Expr.relabel_refl c]
  | .lambda params body => by
    rw [Expr.relabel, Relabelling.map_name_refl, Expr.relabelAll_refl body]
  | .app f es => by
    rw [Expr.relabel, Expr.relabel_refl f, Expr.relabelAll_refl es]
  | .letIn bs body => by
    rw [Expr.relabel, Expr.relabelAll_refl body]
    exact congrArg (Expr.letIn · body) (Expr.relabelPairs_refl bs)
  | .quoted v => congrArg Expr.quoted (Value.relabel_refl v)
  | .define x e => congrArg (Expr.define x) (Expr.relabel_refl e)
  | .classDef fields methods => by
    rw [Expr.relabel, Relabelling.map_name_refl, Expr.relabelPairs_refl methods]
termination_by structural e => e

theorem Expr.relabelAll_refl : ∀ es : List Expr, Expr.relabelAll .refl es = es
  | [] => rfl
  | e :: es => by
    rw [Expr.relabelAll, Expr.relabel_refl e, Expr.relabelAll_refl es]
termination_by structural es => es

theorem Expr.relabelPairs_refl : ∀ bs : List (String × Expr), Expr.relabelPairs .refl id bs = bs
  | [] => rfl
  | (x, e) :: bs => by
    rw [Expr.relabelPairs, Expr.relabel_refl e, Expr.relabelPairs_refl bs]
    rfl
termination_by structural bs => bs

theorem Value.relabel_refl : ∀ v : Value, v.relabel .refl = v
  | .number _ | .boolean _ | .string _ | .symbol _ | .primitive _ => rfl
  | .list vs => congrArg Value.list (Value.relabelAll_refl vs)
  | .closure r params body => by
    rw [Value.relabel, Relabelling.map_name_refl, Expr.relabelAll_refl body]
    rfl
  | .classDef r fields methods | .object r fields methods => by
    rw [Value.relabel, Relabelling.map_name_refl, Expr.relabelPairs_refl methods]
    rfl
termination_by structural v => v

theorem Value.relabelAll_refl : ∀ vs : List Value, Value.relabelAll .refl vs = vs
  | [] => rfl
  | v :: vs => by
    rw [Value.relabelAll, Value.relabel_refl v, Value.relabelAll_refl vs]
termination_by structural vs => vs

end

/-- The names and the references of the language stay. -/
structure Relabelling.Fixes (ρ : Relabelling) (L : Language) : Prop where
  name : ∀ {x}, L.name x → ρ.name x = x
  ref : ∀ {r}, L.ref r → ρ.ref r = r

section Fixed

variable {ρ : Relabelling} {L : Language} (h : ρ.Fixes L)

include h

theorem Relabelling.Fixes.agrees : ρ.Agrees .refl L :=
  ⟨h.name, h.ref⟩

theorem Relabelling.Fixes.binds {xs : List String} (hxs : L.Binds xs) : xs.map ρ.name = xs :=
  (h.agrees.binds hxs).trans (Relabelling.map_name_refl xs)

/-- **An expression whose names and references stay is left as it is.** -/
theorem Expr.relabel_of_within (e : Expr) {scope : List String} (he : e.Within L scope) : e.relabel ρ = e :=
  (Expr.relabel_congr h.agrees e he).trans (Expr.relabel_refl e)

theorem Expr.relabelAll_of_within (es : List Expr) {scope : List String} (hes : Expr.WithinAll L scope es) :
    Expr.relabelAll ρ es = es :=
  (Expr.relabelAll_congr h.agrees es hes).trans (Expr.relabelAll_refl es)

theorem Expr.relabelPairs_of_within (f : String → String) (bs : List (String × Expr)) {scope : List String}
    (hf : ∀ b ∈ bs, f b.1 = b.1) (hbs : Expr.WithinPairs L scope bs) : Expr.relabelPairs ρ f bs = bs :=
  (Expr.relabelPairs_congr h.agrees bs hf hbs).trans (Expr.relabelPairs_refl bs)

theorem Value.relabel_of_within (v : Value) (hv : v.Within L) : v.relabel ρ = v :=
  (Value.relabel_congr h.agrees v hv).trans (Value.relabel_refl v)

theorem Value.relabelAll_of_within (vs : List Value) (hvs : Value.WithinAll L vs) : Value.relabelAll ρ vs = vs :=
  (Value.relabelAll_congr h.agrees vs hvs).trans (Value.relabelAll_refl vs)

end Fixed

end SubstModel
