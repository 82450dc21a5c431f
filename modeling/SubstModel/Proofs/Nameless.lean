import SubstModel.Dispatcher
import SubstModel.Proofs.Binding

/-!
# Nameless terms — what is left of expressions when bound names are forgotten

A variable that something binds is told by how many binders stand between; a variable that nothing binds keeps its name.
Besides, some names may stand for values, which are then in the place of their variables: so one and the same term is
left of a body with arguments put in for its parameters, and of the body beside the arguments.

* `Term`, `TermValue` — nameless expressions and values, with marks in the place of references;
* `TermValue.toTerm` — what stands in the place of a variable;
* `Term.ofVar` — a variable in a scope of binders, the innermost first, when some names stand for values;
* `Expr.nameless`, `Value.nameless` — the nameless forms;
* `Value.nameless_toExpr` — an expression that evaluates to a value is what stands for it;
* `eq_define_of_nameless`, `nameless_letApplication` — definitions and local bindings are such in their terms.
-/

namespace SubstModel

/-! ### Terms -/

mutual

/-- A nameless expression. -/
inductive Term (ι : Type) where
  | number (x : Float)
  | boolean (b : Bool)
  | string (s : String)
  | primitive (p : Primitive)
  | free (x : String)
  /-- A variable with so many binders between its own one and itself. -/
  | bound (i : Nat)
  | cond (test onTrue onFalse : Term ι)
  | lambda (arity : Nat) (body : List (Term ι))
  | app (operator : Term ι) (operands : List (Term ι))
  | letIn (values : List (Term ι)) (body : List (Term ι))
  | quoted (v : TermValue ι)
  | define (name : String) (value : Term ι)
  | classDef (fields : Nat) (labels : List String) (methods : List (Term ι))

/-- A nameless value, with marks of the type `ι` in the place of references. -/
inductive TermValue (ι : Type) where
  | number (x : Float)
  | boolean (b : Bool)
  | string (s : String)
  | symbol (s : String)
  | list (items : List (TermValue ι))
  | primitive (p : Primitive)
  | closure (mark : ι) (arity : Nat) (body : List (Term ι))
  | classDef (mark : ι) (fields : Nat) (labels : List String) (methods : List (Term ι))
  | object (mark : ι) (fields : Nat) (labels : List String) (methods : List (Term ι))

end

variable {ι : Type}

/-- The term that evaluates to the value. -/
def TermValue.toTerm : TermValue ι → Term ι
  | .number x => .number x
  | .boolean b => .boolean b
  | .string s => .string s
  | .primitive p => .primitive p
  | .closure _ n body => .lambda n body
  | v => .quoted v

/-- Names with the values they stand for.  Of two with one name the first counts. -/
abbrev Standins (ι : Type) := List (String × TermValue ι)

/-- The term of a variable: bound in the scope, or standing for a value, or free. -/
def Term.ofVar (σ : Standins ι) (scope : List String) (x : String) : Term ι :=
  if x ∈ scope then .bound (scope.idxOf x)
  else
    match σ.lookup x with
    | some v => v.toTerm
    | none => .free x

theorem Term.ofVar_of_mem (σ : Standins ι) {scope : List String} {x : String} (hx : x ∈ scope) :
    Term.ofVar σ scope x = .bound (scope.idxOf x) :=
  if_pos hx

theorem Term.ofVar_of_not_mem (σ : Standins ι) {scope : List String} {x : String} (hx : x ∉ scope) :
    Term.ofVar σ scope x =
      match σ.lookup x with
      | some v => v.toTerm
      | none => .free x :=
  if_neg hx

theorem Term.ofVar_of_lookup {σ : Standins ι} {scope : List String} {x : String} (hx : x ∉ scope)
    {v : TermValue ι} (hv : σ.lookup x = some v) : Term.ofVar σ scope x = v.toTerm := by
  rw [Term.ofVar_of_not_mem σ hx, hv]

theorem Term.ofVar_of_free {σ : Standins ι} {scope : List String} {x : String} (hx : x ∉ scope)
    (hv : σ.lookup x = none) : Term.ofVar σ scope x = .free x := by
  rw [Term.ofVar_of_not_mem σ hx, hv]

/-! ### Forgetting names -/

/-- References are forgotten. -/
def unmarked : Ref → Unit :=
  fun _ => ()

mutual

/-- The nameless form of an expression, with the mark `g r` in the place of the reference `r`. -/
def Expr.nameless (g : Ref → ι) (σ : Standins ι) (scope : List String) : Expr → Term ι
  | .number x => .number x
  | .boolean b => .boolean b
  | .string s => .string s
  | .primitive p => .primitive p
  | .var x => .ofVar σ scope x
  | .cond test onTrue onFalse =>
    .cond (Expr.nameless g σ scope test) (Expr.nameless g σ scope onTrue)
      (Expr.nameless g σ scope onFalse)
  | .lambda params body =>
    .lambda params.length (Expr.namelessAll g σ (params.reverse ++ scope) body)
  | .app operator operands =>
    .app (Expr.nameless g σ scope operator) (Expr.namelessAll g σ scope operands)
  | .letIn bindings body =>
    .letIn (Expr.namelessPairs g σ scope bindings)
      (Expr.namelessAll g σ ((bindings.map Prod.fst).reverse ++ scope) body)
  | .quoted v => .quoted (Value.nameless g v)
  | .define x value => .define x (Expr.nameless g σ scope value)
  | .classDef fields methods =>
    .classDef fields.length (methods.map Prod.fst)
      (Expr.namelessPairs g σ (fields.reverse ++ scope) methods)
termination_by structural e => e

/-- The nameless forms of several expressions. -/
def Expr.namelessAll (g : Ref → ι) (σ : Standins ι) (scope : List String) : List Expr → List (Term ι)
  | [] => []
  | e :: es => Expr.nameless g σ scope e :: Expr.namelessAll g σ scope es
termination_by structural es => es

/-- The nameless forms of the values of bindings. -/
def Expr.namelessPairs (g : Ref → ι) (σ : Standins ι) (scope : List String) :
    List (String × Expr) → List (Term ι)
  | [] => []
  | (_, e) :: bs => Expr.nameless g σ scope e :: Expr.namelessPairs g σ scope bs
termination_by structural bs => bs

/-- The nameless form of a value. -/
def Value.nameless (g : Ref → ι) : Value → TermValue ι
  | .number x => .number x
  | .boolean b => .boolean b
  | .string s => .string s
  | .symbol s => .symbol s
  | .list items => .list (Value.namelessAll g items)
  | .primitive p => .primitive p
  | .closure r params body => .closure (g r) params.length (Expr.namelessAll g [] params.reverse body)
  | .classDef r fields methods =>
    .classDef (g r) fields.length (methods.map Prod.fst) (Expr.namelessPairs g [] fields.reverse methods)
  | .object r fields methods =>
    .object (g r) fields.length (methods.map Prod.fst) (Expr.namelessPairs g [] [] methods)
termination_by structural v => v

/-- The nameless forms of several values. -/
def Value.namelessAll (g : Ref → ι) : List Value → List (TermValue ι)
  | [] => []
  | v :: vs => Value.nameless g v :: Value.namelessAll g vs
termination_by structural vs => vs

end

theorem Expr.namelessAll_eq_map (g : Ref → ι) (σ : Standins ι) (scope : List String) (es : List Expr) :
    Expr.namelessAll g σ scope es = es.map (Expr.nameless g σ scope) := by
  induction es with
  | nil => rfl
  | cons e es ih => rw [Expr.namelessAll, ih, List.map_cons]

theorem Expr.namelessPairs_eq_map (g : Ref → ι) (σ : Standins ι) (scope : List String)
    (bs : List (String × Expr)) :
    Expr.namelessPairs g σ scope bs = bs.map fun b => b.2.nameless g σ scope := by
  induction bs with
  | nil => rfl
  | cons b bs ih => rw [Expr.namelessPairs, ih, List.map_cons]

theorem Expr.namelessPairs_eq_namelessAll (g : Ref → ι) (σ : Standins ι) (scope : List String)
    (bs : List (String × Expr)) :
    Expr.namelessPairs g σ scope bs = Expr.namelessAll g σ scope (bs.map Prod.snd) := by
  rw [Expr.namelessPairs_eq_map, Expr.namelessAll_eq_map, List.map_map]
  rfl

theorem Value.namelessAll_eq_map (g : Ref → ι) (vs : List Value) :
    Value.namelessAll g vs = vs.map (Value.nameless g) := by
  induction vs with
  | nil => rfl
  | cons v vs ih => rw [Value.namelessAll, ih, List.map_cons]

/-- An expression that evaluates to a value leaves what stands for the value. -/
theorem Value.nameless_toExpr (g : Ref → ι) (v : Value) :
    v.toExpr.nameless g [] [] = (v.nameless g).toTerm := by
  cases v with
  | closure r params body =>
    show Term.lambda params.length (Expr.namelessAll g [] (params.reverse ++ []) body) = _
    rw [List.append_nil]
    rfl
  | number | boolean | string | symbol | list | primitive | classDef | object => rfl

/-! ### Definitions and local bindings -/

theorem Term.ofVar_ne_define (σ : Standins ι) (scope : List String) (x y : String) (t : Term ι) :
    Term.ofVar σ scope x ≠ .define y t := by
  by_cases hx : x ∈ scope
  · rw [Term.ofVar_of_mem σ hx]
    exact nofun
  · cases hv : σ.lookup x with
    | some v =>
      rw [Term.ofVar_of_lookup hx hv]
      cases v <;> exact nofun
    | none =>
      rw [Term.ofVar_of_free hx hv]
      exact nofun

/-- An expression whose term is a definition is a definition. -/
theorem eq_define_of_nameless {g : Ref → ι} {e : Expr} {σ : Standins ι} {scope : List String} {x : String}
    {t : Term ι} (h : e.nameless g σ scope = .define x t) :
    ∃ value, e = .define x value ∧ value.nameless g σ scope = t := by
  cases e with
  | define y value => cases h; exact ⟨value, rfl, rfl⟩
  | var y => exact absurd h (Term.ofVar_ne_define σ scope y x t)
  | _ => cases h

theorem nameless_ne_define {g : Ref → ι} {e : Expr} {σ : Standins ι} {scope : List String}
    (hdef : ∀ x value, e ≠ .define x value) (x : String) (t : Term ι) : e.nameless g σ scope ≠ .define x t := by
  intro ht
  obtain ⟨value, hvalue, -⟩ := eq_define_of_nameless ht
  exact hdef x value hvalue

/-- A `let` as the application of a procedure to the values. -/
def Term.letApplication (values body : List (Term ι)) : Term ι :=
  .app (.lambda values.length body) values

/-- The term of a `let` determines that of the application that it is evaluated as. -/
theorem nameless_letApplication (g : Ref → ι) (σ : Standins ι) (scope : List String)
    (bindings : List (String × Expr)) (body : List Expr) :
    (letApplication bindings body).nameless g σ scope
      = Term.letApplication (Expr.namelessPairs g σ scope bindings)
        (Expr.namelessAll g σ ((bindings.map Prod.fst).reverse ++ scope) body) := by
  have hlen : (bindings.map Prod.fst).length = (Expr.namelessPairs g σ scope bindings).length := by
    rw [Expr.namelessPairs_eq_map, List.length_map, List.length_map]
  rw [letApplication, Expr.nameless, Expr.nameless, ← Expr.namelessPairs_eq_namelessAll, hlen, Term.letApplication]

end SubstModel
