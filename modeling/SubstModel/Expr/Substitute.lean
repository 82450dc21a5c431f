import SubstModel.Expr

/-!
# Substitution — expressions in place of variables

* `Expr.substitute` — simultaneous replacement of free variables: what is put in is not gone over again, a binder
  hides the replacements of its names, and quoted values stay;
* `substitute` — the same for a list of expressions, from names and replacements;
* `Value.toExpr` — an expression that evaluates to a given value, which is what is put in for a parameter.

Nothing keeps a binder from capturing a variable of what is put in.  Expressions are renamed first, and then the
binders have names that occur nowhere else.
-/

namespace SubstModel

/-- Replacements for variables.  Of two with one name the first counts. -/
abbrev Substitution := List (String × Expr)

namespace Substitution

/-- The replacement of the variable `x`, which stays if there is none. -/
def apply (σ : Substitution) (x : String) : Expr :=
  (σ.lookup x).getD (.var x)

/-- The replacements that binders with the given names leave in force. -/
def without (σ : Substitution) (binders : List String) : Substitution :=
  σ.filter fun b => !binders.contains b.1

end Substitution

namespace Expr

mutual

/-- An expression with its free variables replaced. -/
def substitute (σ : Substitution) : Expr → Expr
  | .number x => .number x
  | .boolean b => .boolean b
  | .string s => .string s
  | .primitive p => .primitive p
  | .var x => σ.apply x
  | .quoted v => .quoted v
  | .cond test onTrue onFalse =>
    .cond (substitute σ test) (substitute σ onTrue) (substitute σ onFalse)
  | .lambda params body => .lambda params (substituteAll (σ.without params) body)
  | .app operator operands => .app (substitute σ operator) (substituteAll σ operands)
  | .letIn bindings body =>
    .letIn (substitutePairs σ bindings) (substituteAll (σ.without (bindings.map Prod.fst)) body)
  | .define x value => .define x (substitute σ value)
  | .classDef fields methods => .classDef fields (substitutePairs (σ.without fields) methods)
termination_by structural e => e

/-- Several expressions with their free variables replaced. -/
def substituteAll (σ : Substitution) : List Expr → List Expr
  | [] => []
  | e :: es => substitute σ e :: substituteAll σ es
termination_by structural es => es

/-- Bindings with the free variables of their values replaced. -/
def substitutePairs (σ : Substitution) : List (String × Expr) → List (String × Expr)
  | [] => []
  | (x, e) :: bs => (x, substitute σ e) :: substitutePairs σ bs
termination_by structural bs => bs

end

end Expr

/-- Expressions in which the free occurrences of each name are replaced by the replacement at its place. -/
def substitute (names : List String) (replacements : List Expr) (es : List Expr) : List Expr :=
  Expr.substituteAll (names.zip replacements) es

/-- An expression that evaluates to the value: constants and primitives as themselves, a closure as a procedure, and
all else quoted. -/
def Value.toExpr : Value → Expr
  | .number x => .number x
  | .boolean b => .boolean b
  | .string s => .string s
  | .primitive p => .primitive p
  | .closure _ params body => .lambda params body
  | v => .quoted v

end SubstModel
