import SubstModel.Expr
import SubstModel.Fresh

/-!
# Renaming — fresh names for everything that is bound

Every parameter, local name and field gets a generated name, and with it every variable it binds.  Free variables,
the names of methods and of definitions, and quoted values stay.

Numbers are given in the order of the text: the binders of a procedure before its body, the values of a `let` before
its names and these before its body, the fields of a class before its methods.  So the number of a binder is the
number of names handed out before, plus the count of the binders in front of it, and no state is passed along.

* `Expr.binderCount` — how many names the renaming of an expression hands out;
* `Expr.rename` — one expression under a scope of renamings;
* `rename` — a list of expressions under no scope.
-/

namespace SubstModel

/-! ### Counting binders -/

namespace Expr

mutual

/-- How many binders an expression has, quoted values apart. -/
def binderCount : Expr → Nat
  | .number _ | .boolean _ | .string _ | .primitive _ | .var _ | .quoted _ => 0
  | .cond test onTrue onFalse => binderCount test + binderCount onTrue + binderCount onFalse
  | .lambda params body => params.length + binderCountAll body
  | .app operator operands => binderCount operator + binderCountAll operands
  | .letIn bindings body => binderCountPairs bindings + bindings.length + binderCountAll body
  | .define _ value => binderCount value
  | .classDef fields methods => fields.length + binderCountPairs methods
termination_by structural e => e

/-- How many binders several expressions have. -/
def binderCountAll : List Expr → Nat
  | [] => 0
  | e :: es => binderCount e + binderCountAll es
termination_by structural es => es

/-- How many binders the values of several bindings have. -/
def binderCountPairs : List (String × Expr) → Nat
  | [] => 0
  | (_, e) :: bs => binderCount e + binderCountPairs bs
termination_by structural bs => bs

end

end Expr

/-! ### Renaming -/

/-- The renamings in force, innermost first. -/
abbrev Scope := List (String × String)

namespace Scope

/-- The name that stands for `x`: its innermost renaming, or `x` itself where it is free. -/
def resolve (scope : Scope) (x : String) : String :=
  (scope.lookup x).getD x

/-- The scope inside binders that are renamed one by one.  Of two binders with one name the later wins. -/
def enter (scope : Scope) (binders renamed : List String) : Scope :=
  (binders.zip renamed).reverse ++ scope

end Scope

namespace Expr

mutual

/-- An expression with fresh names for its binders, numbered on from `issued`, under a scope of renamings. -/
def rename (issued : Nat) (scope : Scope) : Expr → Expr
  | .number x => .number x
  | .boolean b => .boolean b
  | .string s => .string s
  | .primitive p => .primitive p
  | .var x => .var (scope.resolve x)
  | .quoted v => .quoted v
  | .cond test onTrue onFalse =>
    .cond (rename issued scope test)
      (rename (issued + binderCount test) scope onTrue)
      (rename (issued + binderCount test + binderCount onTrue) scope onFalse)
  | .lambda params body =>
    let renamed := freshNames issued params
    .lambda renamed (renameAll (issued + params.length) (scope.enter params renamed) body)
  | .app operator operands =>
    .app (rename issued scope operator) (renameAll (issued + binderCount operator) scope operands)
  | .letIn bindings body =>
    let names := bindings.map Prod.fst
    let start := issued + binderCountPairs bindings
    let renamed := freshNames start names
    .letIn (renamed.zip ((renamePairs issued scope bindings).map Prod.snd))
      (renameAll (start + names.length) (scope.enter names renamed) body)
  | .define x value => .define x (rename issued scope value)
  | .classDef fields methods =>
    let renamed := freshNames issued fields
    .classDef renamed (renamePairs (issued + fields.length) (scope.enter fields renamed) methods)
termination_by structural e => e

/-- Several expressions renamed one after another. -/
def renameAll (issued : Nat) (scope : Scope) : List Expr → List Expr
  | [] => []
  | e :: es => rename issued scope e :: renameAll (issued + binderCount e) scope es
termination_by structural es => es

/-- Bindings whose values are renamed one after another, under the names they have. -/
def renamePairs (issued : Nat) (scope : Scope) : List (String × Expr) → List (String × Expr)
  | [] => []
  | (x, e) :: bs => (x, rename issued scope e) :: renamePairs (issued + binderCount e) scope bs
termination_by structural bs => bs

end

end Expr

/-- Expressions with fresh names for all that they bind, when `issued` names have been handed out before. -/
def rename (issued : Nat) (es : List Expr) : List Expr :=
  Expr.renameAll issued [] es

/-- How many names have been handed out after expressions are renamed. -/
def issuedAfter (issued : Nat) (es : List Expr) : Nat :=
  issued + Expr.binderCountAll es

end SubstModel
