import SubstModel.Expr

/-!
# Equality — of contents and of identity

Two relations on values, and the first also on expressions.

* `Expr.same`, `Value.same` — equal contents, compared all the way down; references play no part;
* `Value.identical` — constants, symbols and primitives by content, closures, classes and objects by reference;
  two lists are identical only when both are empty.

Numbers are compared as numbers: `0` and `-0` are equal, and the undefined number differs from itself, wherever
it stands.
-/

namespace SubstModel

mutual

/-- Two expressions have the same contents. -/
def Expr.same : Expr → Expr → Bool
  | .number x, .number y => x == y
  | .boolean a, .boolean b => a == b
  | .string s, .string t => s == t
  | .primitive p, .primitive q => p == q
  | .var x, .var y => x == y
  | .cond a b c, .cond a' b' c' => a.same a' && b.same b' && c.same c'
  | .lambda ps body, .lambda qs body' => ps == qs && Expr.sameAll body body'
  | .app f args, .app g args' => f.same g && Expr.sameAll args args'
  | .letIn bs body, .letIn bs' body' => Expr.samePairs bs bs' && Expr.sameAll body body'
  | .quoted v, .quoted w => v.same w
  | .define x e, .define y e' => x == y && e.same e'
  | .classDef fs ms, .classDef gs ns => fs == gs && Expr.samePairs ms ns
  | _, _ => false
termination_by structural e => e

/-- Two lists of expressions have the same contents, one by one. -/
def Expr.sameAll : List Expr → List Expr → Bool
  | [], [] => true
  | e :: es, e' :: es' => e.same e' && Expr.sameAll es es'
  | _, _ => false
termination_by structural es => es

/-- Two lists of bindings have the same names and contents, one by one. -/
def Expr.samePairs : List (String × Expr) → List (String × Expr) → Bool
  | [], [] => true
  | (x, e) :: bs, (y, e') :: bs' => x == y && e.same e' && Expr.samePairs bs bs'
  | _, _ => false
termination_by structural bs => bs

/-- Two values have the same contents. -/
def Value.same : Value → Value → Bool
  | .number x, .number y => x == y
  | .boolean a, .boolean b => a == b
  | .string s, .string t => s == t
  | .symbol s, .symbol t => s == t
  | .list vs, .list ws => Value.sameAll vs ws
  | .primitive p, .primitive q => p == q
  | .closure _ ps body, .closure _ qs body' => ps == qs && Expr.sameAll body body'
  | .classDef _ fs ms, .classDef _ gs ns => fs == gs && Expr.samePairs ms ns
  | .object _ fs ms, .object _ gs ns => fs == gs && Expr.samePairs ms ns
  | _, _ => false
termination_by structural v => v

/-- Two lists of values have the same contents, one by one. -/
def Value.sameAll : List Value → List Value → Bool
  | [], [] => true
  | v :: vs, w :: ws => v.same w && Value.sameAll vs ws
  | _, _ => false
termination_by structural vs => vs

end

/-- Two programs have the same forms. -/
def Program.same (p q : Program) : Bool :=
  Expr.sameAll p.forms q.forms

/-- Two values are one and the same: equal constants, or procedures with one reference. -/
def Value.identical : Value → Value → Bool
  | .number x, .number y => x == y
  | .boolean a, .boolean b => a == b
  | .string s, .string t => s == t
  | .symbol s, .symbol t => s == t
  | .list vs, .list ws => vs.isEmpty && ws.isEmpty
  | .primitive p, .primitive q => p == q
  | .closure r _ _, .closure r' _ _ => r == r'
  | .classDef r _ _, .classDef r' _ _ => r == r'
  | .object r _ _, .object r' _ _ => r == r'
  | _, _ => false

end SubstModel
