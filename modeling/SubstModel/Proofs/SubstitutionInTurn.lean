import SubstModel.Proofs.Language.Substitution
import SubstModel.Proofs.Unchanged

/-!
# Substitution at once and in turn

Replacements can be made all at once, or some of them first and the others in what has become of the expressions.  The
second substitution goes over what the first has put in, under whatever binders that now stands, so it must find none of
its names there.  Then the two ways agree to the letter.  Binders play no part: each of them hides its names from both
substitutions alike.

* `Substitution.Avoids` — nothing is put in by the one that the other would replace;
* `Substitution.apply_append` — a single variable;
* `Expr.substitute_append` — **at once is the same as in turn**, by the recursion of substitution;
* `substitution_splits` — **the same for names and replacements, and what substitution leaves alone**.
-/

namespace SubstModel

namespace Substitution

/-- No variable that `τ` replaces is free in what `σ` puts in. -/
def Avoids (σ τ : Substitution) : Prop :=
  ∀ b ∈ σ, ∀ x, b.2.OccursFree x → τ.lookup x = none

theorem without_append (σ τ : Substitution) (binders : List String) :
    Substitution.without (σ ++ τ) binders = σ.without binders ++ τ.without binders :=
  List.filter_append σ τ

/-- Under binders there is less that the one puts in, and less that the other replaces. -/
theorem Avoids.without {σ τ : Substitution} (h : σ.Avoids τ) (binders : List String) :
    (σ.without binders).Avoids (τ.without binders) := by
  intro b hb x hx
  have hσ : b ∈ σ := List.mem_of_mem_filter hb
  exact lookup_without_eq_none (h b hσ x hx) binders

/-- The replacement of a variable, if it has one, is left alone by the second substitution. -/
theorem apply_append {σ τ : Substitution} (h : σ.Avoids τ) (x : String) :
    Substitution.apply (σ ++ τ) x = (σ.apply x).substitute τ := by
  show ((σ ++ τ).lookup x).getD (.var x) = Expr.substitute τ ((σ.lookup x).getD (.var x))
  rw [List.lookup_append]
  cases hr : σ.lookup x with
  | some r =>
    have hkept : r.substitute τ = r := Expr.substitute_of_occursFree r (h (x, r) (mem_of_lookup_eq_some hr))
    simp only [Option.some_or, Option.getD_some, hkept]
  | none =>
    simp only [Option.none_or, Option.getD_none, Expr.substitute]
    rfl

end Substitution

mutual

/-- **Two substitutions at once are the same as one after the other**, if nothing that the second replaces is free in
what the first puts in. -/
theorem Expr.substitute_append : ∀ (e : Expr) {σ τ : Substitution}, σ.Avoids τ →
    e.substitute (σ ++ τ) = (e.substitute σ).substitute τ
  | .number _, _, _, _ | .boolean _, _, _, _ | .string _, _, _, _ | .primitive _, _, _, _ | .quoted _, _, _, _ => rfl
  | .var x, σ, τ, h => by
    rw [Expr.substitute, Expr.substitute, Substitution.apply_append h]
  | .cond a b c, σ, τ, h => by
    simp only [Expr.substitute, Expr.substitute_append a h, Expr.substitute_append b h, Expr.substitute_append c h]
  | .lambda params body, σ, τ, h => by
    have hbody := Expr.substituteAll_append body (h.without params)
    simp only [Expr.substitute, Substitution.without_append, hbody]
  | .app f es, σ, τ, h => by
    simp only [Expr.substitute, Expr.substitute_append f h, Expr.substituteAll_append es h]
  | .letIn bs body, σ, τ, h => by
    -- The first substitution keeps the names that are bound, so the second is hidden from the same ones.
    have hbody := Expr.substituteAll_append body (h.without (bs.map Prod.fst))
    simp only [Expr.substitute, Substitution.without_append, Expr.map_fst_substitutePairs,
      Expr.substitutePairs_append bs h, hbody]
  | .define x e, σ, τ, h => by
    simp only [Expr.substitute, Expr.substitute_append e h]
  | .classDef fields methods, σ, τ, h => by
    have hmethods := Expr.substitutePairs_append methods (h.without fields)
    simp only [Expr.substitute, Substitution.without_append, hmethods]
termination_by structural e => e

theorem Expr.substituteAll_append : ∀ (es : List Expr) {σ τ : Substitution}, σ.Avoids τ →
    Expr.substituteAll (σ ++ τ) es = Expr.substituteAll τ (Expr.substituteAll σ es)
  | [], _, _, _ => rfl
  | e :: es, σ, τ, h => by
    simp only [Expr.substituteAll, Expr.substitute_append e h, Expr.substituteAll_append es h]
termination_by structural es => es

theorem Expr.substitutePairs_append : ∀ (bs : List (String × Expr)) {σ τ : Substitution}, σ.Avoids τ →
    Expr.substitutePairs (σ ++ τ) bs = Expr.substitutePairs τ (Expr.substitutePairs σ bs)
  | [], _, _, _ => rfl
  | (x, e) :: bs, σ, τ, h => by
    simp only [Expr.substitutePairs, Expr.substitute_append e h, Expr.substitutePairs_append bs h]
termination_by structural bs => bs

end

/-! ### Names and replacements -/

/-- Names that are free in no replacement are avoided by all of them. -/
theorem Substitution.Avoids.zip {xs ys : List String} {rs : List Expr} (ss : List Expr)
    (h : ∀ r ∈ rs, ∀ y ∈ ys, ¬ r.OccursFree y) : Substitution.Avoids (xs.zip rs) (ys.zip ss) := by
  intro b hb x hx
  have hr : b.2 ∈ rs := (List.of_mem_zip hb).2
  have hxs : x ∉ ys := fun hmem => h b.2 hr x hmem hx
  exact lookup_eq_none_of_not_mem (not_mem_map_fst_zip hxs ss)

/-- What is put in for names that are not free does not matter. -/
theorem substitute_of_occursFreeAny {xs : List String} {es : List Expr}
    (h : ∀ x ∈ xs, ¬ Expr.OccursFreeAny x es) (rs : List Expr) : substitute xs rs es = es := by
  refine Expr.substituteAll_of_occursFree es fun x hx => ?_
  have hxs : x ∉ xs := fun hmem => h x hmem hx
  exact lookup_eq_none_of_not_mem (not_mem_map_fst_zip hxs rs)

/-- **A simultaneous substitution can be split in two.**  The names `ys` must be free in none of the replacements of
`xs`.  Nothing is asked of the expressions or of the binders in them, and the names may repeat: of replacements for one
name the first counts, at once as well as in turn.  In particular, nothing changes where none of the names is free. -/
theorem substitution_splits (es : List Expr) :
    (∀ (xs ys : List String) (rs ss : List Expr), xs.length = rs.length →
        (∀ r ∈ rs, ∀ y ∈ ys, ¬ r.OccursFree y) →
          substitute (xs ++ ys) (rs ++ ss) es = substitute ys ss (substitute xs rs es)) ∧
      ∀ (xs : List String) (rs : List Expr), (∀ x ∈ xs, ¬ Expr.OccursFreeAny x es) → substitute xs rs es = es := by
  constructor
  · intro xs ys rs ss hlen hfree
    show Expr.substituteAll ((xs ++ ys).zip (rs ++ ss)) es = _
    rw [List.zip_append hlen]
    exact Expr.substituteAll_append es (Substitution.Avoids.zip ss hfree)
  · intro xs rs hunused
    exact substitute_of_occursFreeAny hunused rs

/-- The replacement of `x` binds `y` itself, and its own `z` is bound where it is put in; the replacement of `y` is the
name that was replaced first; and the `let` binds `y` again. -/
theorem substitution_splits_rebound :
    let es : List Expr := [.lambda ["z"] [.var "x", .var "y"], .letIn [("y", .var "x")] [.var "y"]]
    let r : Expr := .app (.var "z") [.lambda ["y"] [.var "y"]]
    (∀ r' ∈ [r], ∀ y ∈ ["y"], ¬ r'.OccursFree y) ∧
      substitute ["x", "y"] [r, .var "x"] es = [.lambda ["z"] [r, .var "x"], .letIn [("y", r)] [.var "y"]] ∧
      substitute ["y"] [.var "x"] (substitute ["x"] [r] es)
        = [.lambda ["z"] [r, .var "x"], .letIn [("y", r)] [.var "y"]] ∧
      (∀ x ∈ ["z"], ¬ Expr.OccursFreeAny x es) ∧ substitute ["z"] [.var "x"] es = es := by
  intro es r
  have hfree : ∀ r' ∈ [r], ∀ y ∈ ["y"], ¬ r'.OccursFree y := by
    simp [r, Expr.OccursFree, Expr.OccursFreeAny]
  have hunused : ∀ x ∈ ["z"], ¬ Expr.OccursFreeAny x es := by
    simp [es, Expr.OccursFree, Expr.OccursFreeAny, Expr.OccursFreePairs]
  have hsplit := (substitution_splits es).1 ["x"] ["y"] [r] [.var "x"] rfl hfree
  exact ⟨hfree, rfl, hsplit.symm, hunused, (substitution_splits es).2 ["z"] [.var "x"] hunused⟩

end SubstModel
