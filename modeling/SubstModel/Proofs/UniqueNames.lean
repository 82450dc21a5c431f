import SubstModel.Symbol
import SubstModel.Proofs.Nameless.Substitution
import SubstModel.Proofs.Renaming

/-!
# Unique names — renaming is alpha-conversion

Renaming gives every binder a name of its own and takes nothing else from an expression.  It may be repeated, with
whatever other names are handed out in between, and still every variable has the binder that it had at first.

* `Expr.AlphaEquivalent` — every variable belongs to the binder at the same place;
* `Expr.occursFree_nameless` — **the free variables are those of the nameless form**, so equivalent expressions share
  them;
* `Expr.skeleton` — all of an expression but its variables and what it binds;
* `Expr.SameUpToBinders` — what a renaming keeps, and `Expr.forall₂_renameAll` — that it does;
* `Renamings`, `Renamings.sameUpToBinders` — **any number of renamings keeps as much**;
* `NewName` — what the names are that a renaming hands out;
* `rename_alpha_unique` — **renaming is alpha-conversion to names that are all distinct**.
-/

namespace SubstModel

variable {ι : Type}

/-! ### Free variables of terms -/

mutual

/-- The term has a variable of the name that nothing binds, quotations apart. -/
def Term.OccursFree (x : String) : Term ι → Prop
  | .number _ | .boolean _ | .string _ | .primitive _ | .bound _ | .quoted _ => False
  | .free y => x = y
  | .cond test onTrue onFalse => Term.OccursFree x test ∨ Term.OccursFree x onTrue ∨ Term.OccursFree x onFalse
  | .lambda _ body => Term.OccursFreeAny x body
  | .app operator operands => Term.OccursFree x operator ∨ Term.OccursFreeAny x operands
  | .letIn values body => Term.OccursFreeAny x values ∨ Term.OccursFreeAny x body
  | .define _ value => Term.OccursFree x value
  | .classDef _ _ methods => Term.OccursFreeAny x methods
termination_by structural t => t

/-- One of the terms has a variable of the name that nothing binds. -/
def Term.OccursFreeAny (x : String) : List (Term ι) → Prop
  | [] => False
  | t :: ts => Term.OccursFree x t ∨ Term.OccursFreeAny x ts
termination_by structural ts => ts

end

theorem Term.occursFree_ofVar {x y : String} {scope : List String} :
    (Term.ofVar ([] : Standins ι) scope y).OccursFree x ↔ x = y ∧ x ∉ scope := by
  by_cases hy : y ∈ scope
  · rw [Term.ofVar_of_mem [] hy]
    refine ⟨False.elim, ?_⟩
    rintro ⟨rfl, hx⟩
    exact hx hy
  · rw [Term.ofVar_of_free hy rfl]
    refine ⟨fun h => ⟨h, ?_⟩, And.left⟩
    rwa [show x = y from h]

/-- What is free behind binders, and in the scope around them. -/
theorem free_behind_iff {binders scope : List String} {x : String} {P : Prop} :
    P ∧ x ∉ binders.reverse ++ scope ↔ (x ∉ binders ∧ P) ∧ x ∉ scope := by
  rw [List.mem_append, List.mem_reverse, not_or, ← and_assoc, and_comm (a := P)]

mutual

/-- **The variables that nothing binds in the nameless form are the free variables.** -/
theorem Expr.occursFree_nameless {x : String} (g : Ref → ι) : ∀ (e : Expr) (scope : List String),
    (e.nameless g [] scope).OccursFree x ↔ e.OccursFree x ∧ x ∉ scope
  | .number _, _ | .boolean _, _ | .string _, _ | .primitive _, _ | .quoted _, _ => (false_and _).to_iff.symm
  | .var _, _ => Term.occursFree_ofVar
  | .cond a b c, scope => by
    rw [Expr.OccursFree, or_and_right, or_and_right]
    exact or_congr (Expr.occursFree_nameless g a scope)
      (or_congr (Expr.occursFree_nameless g b scope) (Expr.occursFree_nameless g c scope))
  | .lambda params body, scope => (Expr.occursFree_namelessAll g body (params.reverse ++ scope)).trans free_behind_iff
  | .app f es, scope => by
    rw [Expr.OccursFree, or_and_right]
    exact or_congr (Expr.occursFree_nameless g f scope) (Expr.occursFree_namelessAll g es scope)
  | .letIn bs body, scope => by
    rw [Expr.OccursFree, or_and_right]
    exact or_congr (Expr.occursFree_namelessPairs g bs scope)
      ((Expr.occursFree_namelessAll g body ((bs.map Prod.fst).reverse ++ scope)).trans free_behind_iff)
  | .define _ e, scope => Expr.occursFree_nameless g e scope
  | .classDef fields methods, scope =>
    (Expr.occursFree_namelessPairs g methods (fields.reverse ++ scope)).trans free_behind_iff
termination_by structural e => e

theorem Expr.occursFree_namelessAll {x : String} (g : Ref → ι) : ∀ (es : List Expr) (scope : List String),
    Term.OccursFreeAny x (Expr.namelessAll g [] scope es) ↔ Expr.OccursFreeAny x es ∧ x ∉ scope
  | [], _ => (false_and _).to_iff.symm
  | e :: es, scope => by
    rw [Expr.OccursFreeAny, or_and_right]
    exact or_congr (Expr.occursFree_nameless g e scope) (Expr.occursFree_namelessAll g es scope)
termination_by structural es => es

theorem Expr.occursFree_namelessPairs {x : String} (g : Ref → ι) :
    ∀ (bs : List (String × Expr)) (scope : List String),
      Term.OccursFreeAny x (Expr.namelessPairs g [] scope bs) ↔ Expr.OccursFreePairs x bs ∧ x ∉ scope
  | [], _ => (false_and _).to_iff.symm
  | (_, e) :: bs, scope => by
    rw [Expr.OccursFreePairs, or_and_right]
    exact or_congr (Expr.occursFree_nameless g e scope) (Expr.occursFree_namelessPairs g bs scope)
termination_by structural bs => bs

end

/-! ### Equality up to bound names -/

namespace Expr

/-- The expressions differ in the names of parameters, local names and fields only: each variable is bound by the
binder at the same place in both, or it is free in both.  Of two equal names in one list of binders the later binds. -/
def AlphaEquivalent (e e' : Expr) : Prop :=
  e.nameless unmarked [] [] = e'.nameless unmarked [] []

theorem AlphaEquivalent.occursFree_iff {e e' : Expr} (h : e.AlphaEquivalent e') (x : String) :
    e'.OccursFree x ↔ e.OccursFree x := by
  have hiff : ∀ e : Expr, (e.nameless unmarked [] []).OccursFree x ↔ e.OccursFree x := fun e => by
    rw [occursFree_nameless, and_iff_left List.not_mem_nil]
  rw [← hiff, ← hiff, h]

/-- The later of two parameters of one name binds the variable. -/
example : (Expr.lambda ["x", "x"] [.var "x"]).AlphaEquivalent (.lambda ["x#1", "x#2"] [.var "x#2"]) := by
  rfl

/-! ### Skeletons -/

mutual

/-- The expression with blanks for its variables and for what it binds: its shape, its constants and quotations, and
the names of its methods and definitions. -/
def skeleton : Expr → Expr
  | .number x => .number x
  | .boolean b => .boolean b
  | .string s => .string s
  | .primitive p => .primitive p
  | .var _ => .var ""
  | .quoted v => .quoted v
  | .cond test onTrue onFalse => .cond (skeleton test) (skeleton onTrue) (skeleton onFalse)
  | .lambda params body => .lambda (List.replicate params.length "") (skeletonAll body)
  | .app operator operands => .app (skeleton operator) (skeletonAll operands)
  | .letIn bindings body =>
    .letIn ((skeletonPairs bindings).map fun b => ("", b.2)) (skeletonAll body)
  | .define x value => .define x (skeleton value)
  | .classDef fields methods => .classDef (List.replicate fields.length "") (skeletonPairs methods)
termination_by structural e => e

/-- Several expressions with blanks. -/
def skeletonAll : List Expr → List Expr
  | [] => []
  | e :: es => skeleton e :: skeletonAll es
termination_by structural es => es

/-- Bindings with blanks in their values. -/
def skeletonPairs : List (String × Expr) → List (String × Expr)
  | [] => []
  | (x, e) :: bs => (x, skeleton e) :: skeletonPairs bs
termination_by structural bs => bs

end

/-- With their names blanked, bindings are told by their values. -/
theorem blank_skeletonPairs (bs : List (String × Expr)) :
    (skeletonPairs bs).map (fun b => ("", b.2)) = (bs.map Prod.snd).map fun e => ("", e.skeleton) := by
  induction bs with
  | nil => rfl
  | cons b bs ih => rw [skeletonPairs, List.map_cons, ih, List.map_cons, List.map_cons]

mutual

/-- **Renaming keeps the skeleton.** -/
theorem skeleton_rename : ∀ (e : Expr) (n : Nat) (Γ : Scope), (e.rename n Γ).skeleton = e.skeleton
  | .number _, _, _ | .boolean _, _, _ | .string _, _, _ | .primitive _, _, _ | .var _, _, _
  | .quoted _, _, _ => rfl
  | .cond a b c, n, Γ => by
    rw [rename, skeleton, skeleton_rename a, skeleton_rename b, skeleton_rename c, skeleton]
  | .lambda params body, n, Γ => by
    rw [rename, skeleton, length_freshNames, skeletonAll_rename body, skeleton]
  | .app f es, n, Γ => by
    rw [rename, skeleton, skeleton_rename f, skeletonAll_rename es, skeleton]
  | .letIn bs body, n, Γ => by
    have hlen : (renamePairs n Γ bs).length
        = (freshNames (n + binderCountPairs bs) (bs.map Prod.fst)).length := by
      rw [length_freshNames, List.length_map, length_renamePairs]
    rw [rename, skeleton, blank_skeletonPairs, List.map_snd_zip (by rw [List.length_map]; exact Nat.le_of_eq hlen),
      ← blank_skeletonPairs, skeletonPairs_rename bs, skeletonAll_rename body, skeleton]
  | .define x e, n, Γ => by
    rw [rename, skeleton, skeleton_rename e, skeleton]
  | .classDef fields methods, n, Γ => by
    rw [rename, skeleton, length_freshNames, skeletonPairs_rename methods, skeleton]
termination_by structural e => e

theorem skeletonAll_rename : ∀ (es : List Expr) (n : Nat) (Γ : Scope),
    skeletonAll (renameAll n Γ es) = skeletonAll es
  | [], _, _ => rfl
  | e :: es, n, Γ => by
    rw [renameAll, skeletonAll, skeleton_rename e, skeletonAll_rename es, skeletonAll]
termination_by structural es => es

theorem skeletonPairs_rename : ∀ (bs : List (String × Expr)) (n : Nat) (Γ : Scope),
    skeletonPairs (renamePairs n Γ bs) = skeletonPairs bs
  | [], _, _ => rfl
  | (x, e) :: bs, n, Γ => by
    rw [renamePairs, skeletonPairs, skeleton_rename e, skeletonPairs_rename bs, skeletonPairs]
termination_by structural bs => bs

end

/-! ### What a renaming keeps -/

/-- The second expression is the first one with other names for what it binds. -/
structure SameUpToBinders (e e' : Expr) : Prop where
  alpha : e.AlphaEquivalent e'
  free : ∀ x, e'.OccursFree x ↔ e.OccursFree x
  /-- Constants, quotations and the names of methods and definitions are untouched. -/
  skeleton : e'.skeleton = e.skeleton

theorem SameUpToBinders.trans {e e' e'' : Expr} (h : e.SameUpToBinders e') (h' : e'.SameUpToBinders e'') :
    e.SameUpToBinders e'' where
  alpha := Eq.trans h.alpha h'.alpha
  free x := (h'.free x).trans (h.free x)
  skeleton := h'.skeleton.trans h.skeleton

theorem sameUpToBinders_rename {e : Expr} {k n : Nat} (hk : k ≤ n)
    (he : ∀ x, e.OccursFree x → NumberedUpTo k x) : e.SameUpToBinders (e.rename n []) := by
  have halpha : e.AlphaEquivalent (e.rename n []) :=
    (nameless_rename unmarked [] [] e hk (Scope.apart_nil k n) fun x hx => .inr (he x hx)).symm
  exact ⟨halpha, halpha.occursFree_iff, skeleton_rename e n []⟩

theorem forall₂_renameAll {k : Nat} (es : List Expr) {n : Nat} (hk : k ≤ n)
    (hes : ∀ x, OccursFreeAny x es → NumberedUpTo k x) :
    List.Forall₂ SameUpToBinders es (renameAll n [] es) := by
  induction es generalizing n with
  | nil => exact .nil
  | cons e es ih =>
    have he := sameUpToBinders_rename hk fun x hx => hes x (.inl hx)
    exact .cons he (ih (Nat.le_trans hk (Nat.le_add_right n e.binderCount)) fun x hx => hes x (.inr hx))

theorem forall₂_trans {es es' es'' : List Expr} (h : List.Forall₂ SameUpToBinders es es')
    (h' : List.Forall₂ SameUpToBinders es' es'') : List.Forall₂ SameUpToBinders es es'' := by
  induction h generalizing es'' with
  | nil => exact h'
  | cons he _ ih =>
    cases h' with
    | cons he' h' => exact .cons (he.trans he') (ih h')

theorem occursFreeAny_iff_of_forall₂ {x : String} {es es' : List Expr}
    (h : List.Forall₂ SameUpToBinders es es') : OccursFreeAny x es' ↔ OccursFreeAny x es := by
  induction h with
  | nil => exact Iff.rfl
  | cons he _ ih => exact or_congr (he.free x) ih

end Expr

/-! ### Renaming again and again -/

/-- The second list comes from the first one by renamings, which hand out names from some count up to another one.
Other names may be handed out in between. -/
inductive Renamings (n : Nat) (es : List Expr) : Nat → List Expr → Prop
  | none : Renamings n es n es
  | next {m m' : Nat} {es' : List Expr} (h : Renamings n es m es') (hm : m ≤ m') :
    Renamings n es (issuedAfter m' es') (rename m' es')

/-- **However often expressions are renamed, they stay the same up to what they bind**, if no number of a free variable
is above the count at the start. -/
theorem Renamings.sameUpToBinders {n m : Nat} {es es' : List Expr} (h : Renamings n es m es')
    (hes : ∀ x, Expr.OccursFreeAny x es → NumberedUpTo n x) :
    n ≤ m ∧ List.Forall₂ Expr.SameUpToBinders es es' := by
  induction h with
  | none => exact ⟨Nat.le_refl n, List.forall₂_same.2 fun e _ => ⟨rfl, fun _ => Iff.rfl, rfl⟩⟩
  | @next m m' es' _ hm ih =>
    obtain ⟨hle, hsame⟩ := ih
    have hn : n ≤ m' := Nat.le_trans hle hm
    have hagain : List.Forall₂ Expr.SameUpToBinders es' (rename m' es') :=
      Expr.forall₂_renameAll es' hn fun x hx => hes x ((Expr.occursFreeAny_iff_of_forall₂ hsame).1 hx)
    exact ⟨Nat.le_add_right_of_le hn, Expr.forall₂_trans hsame hagain⟩

/-! ### Unique names -/

/-- A name that a renamed expression binds: no symbol, with a number that was handed out and the stem of a name that the
expression bound before. -/
structure NewName (n : Nat) (es : List Expr) (y : String) : Prop where
  notSymbol : isSymbol y = false
  number : ∃ k base, n < k ∧ k ≤ issuedAfter n es ∧ base ∈ Expr.boundNamesAll es ∧ y = freshName k base

theorem newName_of_mem {n : Nat} {es : List Expr} {y : String} (h : y ∈ Expr.boundNamesAll (rename n es)) :
    NewName n es y := by
  rw [rename, Expr.boundNamesAll_rename] at h
  obtain ⟨k, hlo, hhi, base, hbase, rfl⟩ := mem_freshNames h
  rw [Expr.length_boundNamesAll] at hhi
  exact ⟨not_isSymbol_of_hash (hash_mem_freshName k base), k, base, hlo, hhi, hbase, rfl⟩

/-- **Renaming is alpha-conversion to unique names.**  If no free variable of the expressions has a number above the
count of the names handed out, renaming keeps each of them up to what it binds, and so do any further renamings.  The
names that the renamed expressions bind are distinct, over all of them, each is generated with a number that was handed
out now, and there are as many of them as the count has grown by. -/
theorem rename_alpha_unique {n : Nat} {es : List Expr} (hes : ∀ x, Expr.OccursFreeAny x es → NumberedUpTo n x) :
    List.Forall₂ Expr.SameUpToBinders es (rename n es) ∧
      (∀ m es', Renamings n es m es' → List.Forall₂ Expr.SameUpToBinders es es') ∧
      (Expr.boundNamesAll (rename n es)).Nodup ∧
      (∀ y ∈ Expr.boundNamesAll (rename n es), NewName n es y) ∧
      issuedAfter n es = n + (Expr.boundNamesAll (rename n es)).length := by
  refine ⟨Expr.forall₂_renameAll es (Nat.le_refl n) hes, fun m es' h => (h.sameUpToBinders hes).2, ?_,
    fun y => newName_of_mem, ?_⟩
  · rw [rename, Expr.boundNamesAll_rename]
    exact nodup_freshNames n _
  · rw [rename, Expr.length_boundNamesAll, Expr.binderCountAll_rename]
    rfl

/-- A `let` that hides a name with a number, and a class with two fields of one name. -/
theorem rename_alpha_unique_shadowed :
    let es : List Expr := [.letIn [("x#1", .var "x#1")] [.lambda ["x"] [.var "x#1", .var "x"]],
      .classDef ["a", "a"] [("get", .lambda [] [.var "a"])]]
    (∀ x, Expr.OccursFreeAny x es → NumberedUpTo 1 x) ∧
      rename 1 es = [.letIn [("x#2", .var "x#1")] [.lambda ["x#3"] [.var "x#2", .var "x#3"]],
        .classDef ["a#4", "a#5"] [("get", .lambda [] [.var "a#5"])]] ∧
      List.Forall₂ Expr.SameUpToBinders es (rename 1 es) ∧ (Expr.boundNamesAll (rename 1 es)).Nodup := by
  intro es
  have hes : ∀ x, Expr.OccursFreeAny x es → NumberedUpTo 1 x := by
    intro x hx
    have hname : x = "x#1" := by
      simp only [es, Expr.OccursFreeAny, Expr.OccursFree, Expr.OccursFreePairs, List.map_cons] at hx
      grind
    rw [hname, show "x#1" = freshName 1 "x" by rfl]
    exact numberedUpTo_freshName.2 (Nat.le_refl 1)
  obtain ⟨hsame, -, hnodup, -⟩ := rename_alpha_unique hes
  exact ⟨hes, rfl, hsame, hnodup⟩

end SubstModel
