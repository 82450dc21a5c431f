import SubstModel.Expr

/-!
# Mentions — the names that occur in an expression

A name is mentioned where it stands as a variable or where it is bound: as a parameter, a local name, a field or a
definition.  The names of methods and whatever is quoted do not count.

* `Expr.mentions` — the test;
* `Expr.nameCount` — how many places in an expression hold a name, a bound on the names that it mentions.
-/

namespace SubstModel.Expr

mutual

/-- The expression mentions the name. -/
def mentions (x : String) : Expr → Bool
  | .number _ | .boolean _ | .string _ | .primitive _ | .quoted _ => false
  | .var y => y == x
  | .cond test onTrue onFalse => mentions x test || mentions x onTrue || mentions x onFalse
  | .lambda params body => params.contains x || mentionsAny x body
  | .app operator operands => mentions x operator || mentionsAny x operands
  | .letIn bindings body =>
    (bindings.map Prod.fst).contains x || mentionsPairs x bindings || mentionsAny x body
  | .define y value => y == x || mentions x value
  | .classDef fields methods => fields.contains x || mentionsPairs x methods
termination_by structural e => e

/-- One of the expressions mentions the name. -/
def mentionsAny (x : String) : List Expr → Bool
  | [] => false
  | e :: es => mentions x e || mentionsAny x es
termination_by structural es => es

/-- The value of one of the bindings mentions the name. -/
def mentionsPairs (x : String) : List (String × Expr) → Bool
  | [] => false
  | (_, e) :: bs => mentions x e || mentionsPairs x bs
termination_by structural bs => bs

end

mutual

/-- How many places of the expression hold a variable or a bound name. -/
def nameCount : Expr → Nat
  | .number _ | .boolean _ | .string _ | .primitive _ | .quoted _ => 0
  | .var _ => 1
  | .cond test onTrue onFalse => nameCount test + nameCount onTrue + nameCount onFalse
  | .lambda params body => params.length + nameCountAll body
  | .app operator operands => nameCount operator + nameCountAll operands
  | .letIn bindings body => bindings.length + nameCountPairs bindings + nameCountAll body
  | .define _ value => 1 + nameCount value
  | .classDef fields methods => fields.length + nameCountPairs methods
termination_by structural e => e

/-- How many places of the expressions hold a variable or a bound name. -/
def nameCountAll : List Expr → Nat
  | [] => 0
  | e :: es => nameCount e + nameCountAll es
termination_by structural es => es

/-- How many places in the values of the bindings hold a variable or a bound name. -/
def nameCountPairs : List (String × Expr) → Nat
  | [] => 0
  | (_, e) :: bs => nameCount e + nameCountPairs bs
termination_by structural bs => bs

end

end SubstModel.Expr
