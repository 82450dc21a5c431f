import SubstModel.Proofs.Nameless.Instantiation

/-!
# Replacement — what substitution should be

On nameless terms there is nothing to capture: a free variable is told by its name, a bound one by its place, and
values have no variables that are bound outside of them.  To replace free variables is to walk through the term.
Renaming and plain substitution of named expressions are this replacement, when names are forgotten.

* `Term.replace` — a term with values in the place of free variables;
* `Expr.replace_nameless` — **names that stand for values leave the term in which they are replaced**;
* `Value.closed_nameless` — a value has no variables that are bound outside of it;
* `substitution_avoids_capture` — **renaming and then substituting is capture-avoiding substitution**.
-/

namespace SubstModel

variable {ι : Type}

/-! ### Replacement -/

mutual

/-- The term with values in the place of the free variables that stand for them, all at once: what is put in is not gone
over again.  Other variables stay, and quoted values are left as they are. -/
def Term.replace (σ : Standins ι) : Term ι → Term ι
  | .number x => .number x
  | .boolean b => .boolean b
  | .string s => .string s
  | .primitive p => .primitive p
  | .free x =>
    match σ.lookup x with
    | some v => v.toTerm
    | none => .free x
  | .bound i => .bound i
  | .cond test onTrue onFalse => .cond (Term.replace σ test) (Term.replace σ onTrue) (Term.replace σ onFalse)
  | .lambda n body => .lambda n (Term.replaceAll σ body)
  | .app operator operands => .app (Term.replace σ operator) (Term.replaceAll σ operands)
  | .letIn values body => .letIn (Term.replaceAll σ values) (Term.replaceAll σ body)
  | .quoted v => .quoted v
  | .define x value => .define x (Term.replace σ value)
  | .classDef n labels methods => .classDef n labels (Term.replaceAll σ methods)
termination_by structural t => t

/-- The terms with values in the place of free variables. -/
def Term.replaceAll (σ : Standins ι) : List (Term ι) → List (Term ι)
  | [] => []
  | t :: ts => Term.replace σ t :: Term.replaceAll σ ts
termination_by structural ts => ts

end

theorem Term.replace_ofVar (σ : Standins ι) (scope : List String) (x : String) :
    (Term.ofVar [] scope x).replace σ = Term.ofVar σ scope x := by
  by_cases hx : x ∈ scope
  · rw [Term.ofVar_of_mem [] hx, Term.ofVar_of_mem σ hx, Term.replace]
  · rw [Term.ofVar_of_free hx rfl, Term.replace]
    cases hv : σ.lookup x with
    | some v => exact (Term.ofVar_of_lookup hx hv).symm
    | none => exact (Term.ofVar_of_free hx hv).symm

mutual

/-- **Names that stand for values leave the term in which they are replaced.** -/
theorem Expr.replace_nameless (g : Ref → ι) (σ : Standins ι) :
    ∀ (e : Expr) (scope : List String), (e.nameless g [] scope).replace σ = e.nameless g σ scope
  | .number _, _ | .boolean _, _ | .string _, _ | .primitive _, _ | .quoted _, _ => rfl
  | .var x, scope => Term.replace_ofVar σ scope x
  | .cond a b c, scope => by
    rw [Expr.nameless, Term.replace, Expr.replace_nameless g σ a, Expr.replace_nameless g σ b,
      Expr.replace_nameless g σ c, Expr.nameless]
  | .lambda params body, scope => by
    rw [Expr.nameless, Term.replace, Expr.replaceAll_nameless g σ body, Expr.nameless]
  | .app f es, scope => by
    rw [Expr.nameless, Term.replace, Expr.replace_nameless g σ f, Expr.replaceAll_nameless g σ es, Expr.nameless]
  | .letIn bs body, scope => by
    rw [Expr.nameless, Term.replace, Expr.replacePairs_nameless g σ bs, Expr.replaceAll_nameless g σ body,
      Expr.nameless]
  | .define x e, scope => by
    rw [Expr.nameless, Term.replace, Expr.replace_nameless g σ e, Expr.nameless]
  | .classDef fields methods, scope => by
    rw [Expr.nameless, Term.replace, Expr.replacePairs_nameless g σ methods, Expr.nameless]
termination_by structural e => e

theorem Expr.replaceAll_nameless (g : Ref → ι) (σ : Standins ι) :
    ∀ (es : List Expr) (scope : List String),
      Term.replaceAll σ (Expr.namelessAll g [] scope es) = Expr.namelessAll g σ scope es
  | [], _ => rfl
  | e :: es, scope => by
    rw [Expr.namelessAll, Term.replaceAll, Expr.replace_nameless g σ e, Expr.replaceAll_nameless g σ es,
      Expr.namelessAll]
termination_by structural es => es

theorem Expr.replacePairs_nameless (g : Ref → ι) (σ : Standins ι) :
    ∀ (bs : List (String × Expr)) (scope : List String),
      Term.replaceAll σ (Expr.namelessPairs g [] scope bs) = Expr.namelessPairs g σ scope bs
  | [], _ => rfl
  | (_, e) :: bs, scope => by
    rw [Expr.namelessPairs, Term.replaceAll, Expr.replace_nameless g σ e, Expr.replacePairs_nameless g σ bs,
      Expr.namelessPairs]
termination_by structural bs => bs

end

/-! ### What is put in -/

/-- A value has no variables that are bound outside of it: its term is the same under any binders. -/
theorem Value.closed_nameless (g : Ref → ι) (v : Value) : (v.nameless g).Closed := by
  cases v with
  | closure r params body => exact TermValue.closed_closure g Standins.closed_nil (g r) params body
  | number | boolean | string | symbol | list | primitive | classDef | object => exact fun _ _ => rfl

/-! ### Renaming and then substituting -/

/-- **Renaming and then substituting is capture-avoiding substitution.**  When names are forgotten, what is left is the
body in which each free variable that is a parameter is replaced by the argument at its place, and nothing else is.  No
free variable of an argument is bound where it is put in, and the term of an argument is the same under any binders. -/
theorem substitution_avoids_capture (g : Ref → ι) {issued : Nat} {params : List String} {body : List Expr}
    {args : List Value} (hbody : ∀ x, Expr.FreeInAny x body → NumberedUpTo issued x)
    (hargs : ∀ v ∈ args, ∀ x, v.toExpr.FreeIn x → NumberedUpTo issued x) :
    Expr.namelessAll g [] [] (substitute params (args.map Value.toExpr) (rename issued body))
        = Term.replaceAll (params.zip (args.map (Value.nameless g))) (Expr.namelessAll g [] [] body) ∧
      Expr.CaptureFreeAll (params.zip (args.map Value.toExpr)) [] (rename issued body) ∧
      ∀ v ∈ args, (v.nameless g).Closed := by
  refine ⟨?_, captureFree_rename hargs body, fun v _ => v.closed_nameless g⟩
  rw [nameless_applied (Substitution.Puts.zip g params args) hbody hargs, Expr.replaceAll_nameless]

/-- The free variable of the argument has the name of a parameter that is bound around the first place, and the name of
the parameter is bound again around the last one. -/
theorem substitution_avoids_capture_shadowed :
    let body : List Expr := [.lambda ["y"] [.app (.var "x") [.var "y"]], .letIn [("x", .var "x")] [.var "x"]]
    let arg : Value := .closure 0 [] [.var "y"]
    let stand : Term Unit := .lambda 0 [.free "y"]
    (∀ x, Expr.FreeInAny x body → NumberedUpTo 0 x) ∧ (∀ x, arg.toExpr.FreeIn x → NumberedUpTo 0 x) ∧
      Expr.namelessAll unmarked [] [] (substitute ["x"] [arg.toExpr] (rename 0 body))
        = [.lambda 1 [.app stand [.bound 0]], .letIn [stand] [.bound 0]] := by
  intro body arg stand
  have hbody : ∀ x, Expr.FreeInAny x body → NumberedUpTo 0 x := by
    intro x hx
    have hfree : x ≠ "y" ∧ (x = "x" ∨ x = "y") ∨ x = "x" := by
      simpa [body, Expr.FreeInAny, Expr.FreeIn, Expr.FreeInPairs] using hx
    have hname : x = "x" := hfree.elim (fun h => h.2.resolve_right h.1) id
    exact hname ▸ numberedUpTo_of_no_hash (by decide) 0
  have harg : ∀ x, arg.toExpr.FreeIn x → NumberedUpTo 0 x := by
    intro x hx
    have hname : x = "y" := by simpa [arg, Value.toExpr, Expr.FreeInAny, Expr.FreeIn] using hx
    exact hname ▸ numberedUpTo_of_no_hash (by decide) 0
  have hargs : ∀ v ∈ [arg], ∀ x, v.toExpr.FreeIn x → NumberedUpTo 0 x := by
    rintro v (_ | ⟨_, hv⟩)
    · exact harg
    · exact absurd hv List.not_mem_nil
  exact ⟨hbody, harg, (substitution_avoids_capture unmarked hbody hargs).1.trans rfl⟩

end SubstModel
