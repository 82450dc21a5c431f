import SubstModel.Proofs.Nameless.Dispatcher
import SubstModel.Proofs.Nameless.Instantiation
import SubstModel.Proofs.Primitive.View

/-!
# Evaluation without names

An evaluator of nameless terms.  To apply a procedure it instantiates the variables that the procedure binds, so it has
nothing to rename, and nothing can be captured.  It hands out marks, one after another, where evaluation by
substitution hands out references, and of failures it has the kinds.

* `TermValue.view`, `TermValue.identical` — what primitives see of a nameless value, and identity by marks;
* `Nameless.Steps` — steps that hand out marks and may fail;
* `Nameless.apply` — a value applied to values;
* `Nameless.eval`, `Nameless.sequence` — evaluation with a number of nested steps left, counted at the places where
  evaluation by substitution counts them;
* `Nameless.program` — the value of the forms of a program.

The names that are left are those of the top level.  What is missing is `equal?`, which compares the names that are
forgotten here.
-/

namespace SubstModel

/-! ### Nameless values -/

namespace TermValue

variable {ι : Type}

/-- Every value but `#f` counts as true. -/
def isTrue : TermValue ι → Bool
  | .boolean false => false
  | _ => true

/-- What is seen of a value. -/
def view : TermValue ι → View (TermValue ι)
  | .number x => .number x
  | .boolean b => .boolean b
  | .string s => .string s
  | .symbol s => .symbol s
  | .list vs => .list vs
  | .primitive _ | .closure .. | .classDef .. | .object .. => .procedure

instance : Viewed (TermValue ι) := ⟨view, .number, .boolean, .list⟩

/-- Two values are one and the same: equal constants, or procedures with one mark. -/
def identical [DecidableEq ι] : TermValue ι → TermValue ι → Bool
  | .number x, .number y => x == y
  | .boolean a, .boolean b => a == b
  | .string s, .string t => s == t
  | .symbol s, .symbol t => s == t
  | .list vs, .list ws => vs.isEmpty && ws.isEmpty
  | .primitive p, .primitive q => p == q
  | .closure i _ _, .closure j _ _ => decide (i = j)
  | .classDef i _ _ _, .classDef j _ _ _ => decide (i = j)
  | .object i _ _ _, .object j _ _ _ => decide (i = j)
  | _, _ => false

end TermValue

/-- The term is that of a procedure. -/
def Term.isLambda {ι : Type} : Term ι → Bool
  | .lambda _ _ => true
  | _ => false

namespace Nameless

/-- Names with the values they are defined as, the latest first. -/
abbrev Globals := List (String × TermValue Nat)

/-- Steps that hand out marks and may fail. -/
abbrev Steps := EStateM Failure.Kind Nat

/-- A mark that has not been handed out before. -/
def newMark : Steps Nat :=
  modifyGet fun k => (k, k + 1)

/-- A result or the kind of a failure, as a step that hands out nothing. -/
def ofExcept {α : Type} : Except Failure.Kind α → Steps α
  | .ok a => pure a
  | .error kind => throw kind

/-! ### Sequences -/

/-- A sequence of forms, of which definitions extend the top level for the forms behind them. -/
def forms (eval : Globals → Term Nat → Steps (TermValue Nat)) (globals : Globals) :
    List (Term Nat) → Steps (TermValue Nat)
  | [] => throw .eval
  | .define x t :: rest => do
    let w ← eval globals t
    forms eval ((x, w) :: globals) rest
  | [t] => eval globals t
  | t :: rest => do
    let _ ← eval globals t
    forms eval globals rest

/-! ### Application -/

/-- A primitive applied to values.  Identity looks at marks, and `equal?` is left out. -/
def applyPrimitive : Primitive → List (TermValue Nat) → Except Failure.Kind (TermValue Nat)
  | .identical, [v, w] => .ok (.boolean (v.identical w))
  | p, args => p.applyOn args

/-- A body with values in the place of the variables that its procedure binds, evaluated by `run`. -/
def applyBody (run : List (Term Nat) → Steps (TermValue Nat)) (arity : Nat) (body : List (Term Nat))
    (args : List (TermValue Nat)) : Steps (TermValue Nat) :=
  if arity = args.length then run (Term.instantiateAll 0 args.reverse body) else throw .arity

/-- The object of a class with the arguments put in for the fields. -/
def instantiate (fields : Nat) (labels : List String) (methods : List (Term Nat))
    (args : List (TermValue Nat)) : Steps (TermValue Nat) :=
  if fields = args.length then
    let specialised := Term.instantiateAll 0 args.reverse methods
    if specialised.all Term.isLambda then do
      let mark ← newMark
      return .object mark fields labels specialised
    else throw .malformedInstance
  else throw .arity

/-- The method that a message names, applied to the rest of the arguments. -/
def send (run : List (Term Nat) → Steps (TermValue Nat)) (labels : List String) (methods : List (Term Nat)) :
    List (TermValue Nat) → Steps (TermValue Nat)
  | [] => throw .unrecognizedMethod
  | .symbol name :: args =>
    match (labels.zip methods).lookup name with
    | none => throw .unrecognizedMethod
    | some (.lambda n body) => applyBody run n body args
    | some _ => throw .eval
  | _ :: _ => throw .unrecognizedMethod

/-- A value applied to values, with `run` to evaluate the body of a procedure. -/
def apply (run : List (Term Nat) → Steps (TermValue Nat)) :
    TermValue Nat → List (TermValue Nat) → Steps (TermValue Nat)
  | .primitive p, args => ofExcept (applyPrimitive p args)
  | .closure _ n body, args => applyBody run n body args
  | .classDef _ n labels methods, args => instantiate n labels methods args
  | .object _ _ labels methods, args => send run labels methods args
  | _, _ => throw .notAProcedure

/-! ### Evaluation -/

/-- The value of a name of the top level. -/
def lookup (globals : Globals) (x : String) : Except Failure.Kind (TermValue Nat) :=
  match globals.lookup x with
  | some w => .ok w
  | none => .error .unboundVariable

/-- One step of evaluation: `eval` evaluates the parts of the term, and `run` the bodies of procedures. -/
def step (config : Config) (eval : Globals → Term Nat → Steps (TermValue Nat))
    (run : Globals → List (Term Nat) → Steps (TermValue Nat)) (globals : Globals) :
    Term Nat → Steps (TermValue Nat)
  | .number x => pure (.number x)
  | .boolean b => pure (.boolean b)
  | .string s => pure (.string s)
  | .primitive p => pure (.primitive p)
  | .quoted v => pure v
  | .free x => ofExcept (lookup globals x)
  | .bound _ => throw .unboundVariable
  | .cond test onTrue onFalse => do
    let w ← eval globals test
    if w.isTrue then eval globals onTrue else eval globals onFalse
  | .lambda n body => do
    let mark ← newMark
    return .closure mark n body
  | .classDef n labels methods => do
    let mark ← newMark
    return .classDef mark n labels methods
  | .app operator operands => do
    let procedure ← eval globals operator
    let args ← operands.mapM (eval globals)
    apply (run globals) procedure args
  | .letIn values body =>
    match config.lets with
    | .expand => eval globals (Term.letApplication values body)
    | .reject => throw .unsupported
  | .define _ _ => throw .eval

mutual

/-- A term evaluated with the given number of nested steps left. -/
def eval (config : Config) : Nat → Globals → Term Nat → Steps (TermValue Nat)
  | 0, _, _ => throw .eval
  | n + 1, globals, t =>
    step config (eval config n)
      (fun globals body =>
        match n with
        | 0 => throw .eval
        | m + 1 => sequence config m globals body)
      globals t

/-- A sequence of forms evaluated with the given number of nested steps left, of which the sequence is one. -/
def sequence (config : Config) : Nat → Globals → List (Term Nat) → Steps (TermValue Nat)
  | 0, _, _ => throw .eval
  | n + 1, globals, ts => forms (eval config n) globals ts

end

theorem eval_succ (config : Config) (n : Nat) (globals : Globals) (t : Term Nat) :
    eval config (n + 1) globals t = step config (eval config n) (sequence config (n - 1)) globals t := by
  cases n <;> rfl

/-- The forms of a program as they are evaluated: with their classes, or with dispatchers in their place. -/
def prepared (config : Config) (ts : List (Term Nat)) : List (Term Nat) :=
  match config.classes with
  | .objects => ts
  | .dispatchers => Term.withoutClassesAll ts

/-- The value of the forms of a program. -/
def program (config : Config) (ts : List (Term Nat)) : Steps (TermValue Nat) :=
  sequence config config.maxDepth [] (prepared config ts)

end Nameless

end SubstModel
