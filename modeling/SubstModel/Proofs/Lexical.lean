import SubstModel.Proofs.Binding
import SubstModel.Proofs.Primitive.View

/-!
# Evaluation with local environments

The textbook evaluator, which never substitutes: a closure is made with the local environment around it, its body is
evaluated in that environment and its arguments, and a variable is looked up there first and then among the definitions
of the top level at the time.  It has no supply, for it hands out neither names nor references.

* `LexValue`, `LexFailure` — its values, and the failures as far as they are told apart;
* `Lexical.apply` — a value applied to values;
* `Lexical.eval`, `Lexical.sequence` — evaluation with a number of nested steps left, counted at the places where
  evaluation by substitution counts them;
* `Lexical.program` — the value of a program.

There are no classes, and the two equalities, which see more of procedures than a closure shows, are left out.
-/

namespace SubstModel

/-- A value. -/
inductive LexValue where
  | number (x : Float)
  | boolean (b : Bool)
  | string (s : String)
  | symbol (s : String)
  | list (items : List LexValue)
  | primitive (p : Primitive)
  /-- A procedure with the local environment that it was made in. -/
  | closure (params : List String) (body : List Expr) (locals : List (String × LexValue))

/-- A failure. -/
inductive LexFailure where
  | depth
  | unbound (x : String)
  | other (kind : Failure.Kind)
  deriving DecidableEq, Repr

/-- Names with values, the latest first. -/
abbrev LexBindings := List (String × LexValue)

namespace LexValue

/-- Every value but `#f` counts as true. -/
def isTrue : LexValue → Bool
  | .boolean false => false
  | _ => true

/-- What is seen of a value. -/
def view : LexValue → View LexValue
  | .number x => .number x
  | .boolean b => .boolean b
  | .string s => .string s
  | .symbol s => .symbol s
  | .list vs => .list vs
  | .primitive _ | .closure .. => .procedure

instance : Viewed LexValue := ⟨view, .number, .boolean, .list⟩

mutual

/-- The value of a quotation.  A procedure that is quoted was made where nothing is local. -/
def ofValue? : Value → Option LexValue
  | .number x => some (.number x)
  | .boolean b => some (.boolean b)
  | .string s => some (.string s)
  | .symbol s => some (.symbol s)
  | .primitive p => some (.primitive p)
  | .closure _ params body => some (.closure params body [])
  | .list items => (ofValues? items).map .list
  | .classDef .. | .object .. => none

/-- The values of several quotations. -/
def ofValues? : List Value → Option (List LexValue)
  | [] => some []
  | v :: vs =>
    match ofValue? v, ofValues? vs with
    | some w, some ws => some (w :: ws)
    | _, _ => none

end

end LexValue

namespace Lexical

/-- The value of a variable: local, or else of the top level. -/
def lookup (globals locals : LexBindings) (x : String) : Except LexFailure LexValue :=
  match (locals.lookup x).or (globals.lookup x) with
  | some w => .ok w
  | none => .error (.unbound x)

/-- A sequence of forms, of which definitions extend the top level for the forms behind them. -/
def forms (eval : LexBindings → Expr → Except LexFailure LexValue) (globals : LexBindings) :
    List Expr → Except LexFailure LexValue
  | [] => .error (.other .eval)
  | .define x e :: rest => do
    let w ← eval globals e
    forms eval ((x, w) :: globals) rest
  | [e] => eval globals e
  | e :: rest => do
    let _ ← eval globals e
    forms eval globals rest

/-- A value applied to values, with `run` to evaluate a body in a local environment. -/
def apply (run : LexBindings → List Expr → Except LexFailure LexValue) :
    LexValue → List LexValue → Except LexFailure LexValue
  | .primitive p, args => (p.applyOn args).mapError .other
  | .closure params body locals, args =>
    if params.length = args.length then run (argumentPairs params args ++ locals) body
    else .error (.other .arity)
  | _, _ => .error (.other .notAProcedure)

/-- One step of evaluation: `eval` evaluates the parts of the expression, and `run` the bodies of procedures. -/
def step (eval : LexBindings → LexBindings → Expr → Except LexFailure LexValue)
    (run : LexBindings → LexBindings → List Expr → Except LexFailure LexValue)
    (globals locals : LexBindings) : Expr → Except LexFailure LexValue
  | .number x => .ok (.number x)
  | .boolean b => .ok (.boolean b)
  | .string s => .ok (.string s)
  | .primitive p => .ok (.primitive p)
  | .quoted v =>
    match LexValue.ofValue? v with
    | some w => .ok w
    | none => .error (.other .unsupported)
  | .var x => lookup globals locals x
  | .cond test onTrue onFalse => do
    let w ← eval globals locals test
    if w.isTrue then eval globals locals onTrue else eval globals locals onFalse
  | .lambda params body => .ok (.closure params body locals)
  | .app operator operands => do
    let procedure ← eval globals locals operator
    let args ← operands.mapM (eval globals locals)
    apply (run globals) procedure args
  | .letIn bindings body =>
    -- a procedure of the bound names, applied at once to their values
    eval globals locals (.app (.lambda (bindings.map Prod.fst) body) (bindings.map Prod.snd))
  | .define _ _ => .error (.other .eval)
  | .classDef _ _ => .error (.other .unsupported)

mutual

/-- An expression evaluated with the given number of nested steps left. -/
def eval : Nat → LexBindings → LexBindings → Expr → Except LexFailure LexValue
  | 0, _, _, _ => .error .depth
  | n + 1, globals, locals, e =>
    step (eval n)
      (fun globals locals body =>
        match n with
        | 0 => .error .depth
        | m + 1 => sequence m globals locals body)
      globals locals e

/-- A sequence of forms evaluated with the given number of nested steps left, of which the sequence is one. -/
def sequence : Nat → LexBindings → LexBindings → List Expr → Except LexFailure LexValue
  | 0, _, _, _ => .error .depth
  | n + 1, globals, locals, es => forms (fun globals e => eval n globals locals e) globals es

end

theorem eval_succ (n : Nat) (globals locals : LexBindings) (e : Expr) :
    eval (n + 1) globals locals e = step (eval n) (sequence (n - 1)) globals locals e := by
  cases n <;> rfl

/-- The value of a program. -/
def program (maxDepth : Nat) (p : Program) : Except LexFailure LexValue :=
  sequence maxDepth [] [] p.forms

end Lexical

end SubstModel
