import SubstModel.Dispatcher
import SubstModel.Environment
import SubstModel.Expr.Rename
import SubstModel.Expr.Substitute
import SubstModel.Primitive.Apply

/-!
# Evaluation by substitution

To apply a procedure, the names that its body binds are made fresh, the arguments are put in for the parameters, and
what results is evaluated.  There are no local environments; the one environment holds the definitions of the top
level.

* `Config` — the limit on nested steps, and what becomes of `let` and of classes;
* `Supply` — the names and references handed out so far, all the state there is;
* `Run` — steps on the supply that may fail; what a failing step has handed out stays handed out;
* `evalForms` — a sequence of forms, of which definitions extend the environment of the later ones;
* `applyProcedure` — a value applied to values;
* `evalStep` — one step of evaluation, given the evaluation of parts;
* `eval`, `evalSequence` — evaluation with a number of nested steps left.

The steps that are left are what evaluation recurses on: the limit of the configuration is the reason that it ends.
-/

namespace SubstModel

/-! ### Configuration and state -/

/-- What becomes of the classes of a program. -/
inductive ClassMode where
  /-- Classes are values, and applying one makes an object. -/
  | objects
  /-- Classes are replaced by dispatchers before the program is evaluated. -/
  | dispatchers
  deriving DecidableEq, Repr

/-- What becomes of `let`. -/
inductive LetMode where
  /-- A `let` is evaluated as the application of a procedure. -/
  | expand
  /-- A `let` is refused. -/
  | reject
  deriving DecidableEq, Repr

/-- How programs are evaluated. -/
structure Config where
  /-- The number of steps that may be nested. -/
  maxDepth : Nat := 256
  classes : ClassMode := .objects
  lets : LetMode := .expand
  deriving DecidableEq, Repr

/-- What has been handed out so far. -/
structure Supply where
  /-- The count of generated names. -/
  issued : Nat := 0
  /-- The count of references of closures, classes and objects. -/
  allocated : Nat := 0
  deriving DecidableEq, Repr

/-- Steps that hand out names and references and may fail. -/
abbrev Run := EStateM Failure Supply

namespace Run

/-- An outcome as a step that hands out nothing. -/
def ofOutcome {α : Type} : Outcome α → Run α
  | .ok a => pure a
  | .error e => throw e

/-- A reference that has not been handed out before. -/
def newRef : Run Ref :=
  modifyGet fun s => (s.allocated, { s with allocated := s.allocated + 1 })

/-- Expressions with fresh names for what they bind. -/
def renamed (es : List Expr) : Run (List Expr) :=
  modifyGet fun s => (rename s.issued es, { s with issued := issuedAfter s.issued es })

end Run

/-! ### Sequences -/

/-- A sequence of forms, each evaluated by `eval`: a definition extends the environment of the forms behind it, and the
last form gives the value. -/
def evalForms (eval : Environment → Expr → Run Value) (env : Environment) : List Expr → Run Value
  | [] => throw (.eval .emptySequence)
  | .define x e :: rest => do
    let v ← eval env e
    evalForms eval (env.extend x v) rest
  | [e] => eval env e
  | e :: rest => do
    let _ ← eval env e
    evalForms eval env rest

/-! ### Application -/

/-- A body with its binders made fresh and the arguments put in for the parameters, evaluated by `run`. -/
def applyBody (run : List Expr → Run Value) (params : List String) (body : List Expr)
    (args : List Value) : Run Value := do
  let body ← Run.renamed body
  run (substitute params (args.map Value.toExpr) body)

/-- Refuses methods of which one is no procedure; the first such is reported. -/
def requireLambdas : List (String × Expr) → Outcome Unit
  | [] => .ok ()
  | (name, e) :: rest =>
    if e.isLambda then requireLambdas rest
    else .error (.malformedInstance (.methodNotLambda name e))

/-- The object of a class with the arguments put in for the fields. -/
def instantiate (fields : List String) (methods : List (String × Expr)) (args : List Value) :
    Run Value :=
  if fields.length = args.length then do
    let bodies ← Run.renamed (methods.map Prod.snd)
    let specialised :=
      (methods.map Prod.fst).zip (substitute fields (args.map Value.toExpr) bodies)
    Run.ofOutcome (requireLambdas specialised)
    let ref ← Run.newRef
    return .object ref fields specialised
  else
    throw (.arity fields.length args.length (some .classConstructor))

/-- The method that a message names, applied to the rest of the arguments. -/
def send (run : List Expr → Run Value) (methods : List (String × Expr)) : List Value → Run Value
  | [] => throw (.unrecognizedMethod .missing)
  | .symbol name :: args =>
    match findMethod? methods name with
    | none => throw (.unrecognizedMethod (.unknown name))
    | some (.lambda params body) =>
      if params.length = args.length then applyBody run params body args
      else throw (.arity params.length args.length (some (.method name)))
    | some _ => throw (.eval (.methodNotProcedure name))
  | v :: _ => throw (.unrecognizedMethod (.notASymbol v))

/-- A value applied to values, with `run` to evaluate the body of a procedure. -/
def applyProcedure (run : List Expr → Run Value) : Value → List Value → Run Value
  | .primitive p, args => Run.ofOutcome (p.apply args)
  | .closure _ params body, args =>
    if params.length = args.length then applyBody run params body args
    else throw (.arity params.length args.length (some .procedure))
  | .classDef _ fields methods, args => instantiate fields methods args
  | .object _ _ methods, args => send run methods args
  | v, _ => throw (.notAProcedure v.text)

/-! ### Evaluation -/

/-- One step of evaluation: `eval` evaluates the parts of the expression, and `run` the bodies of procedures. -/
def evalStep (config : Config) (eval : Environment → Expr → Run Value)
    (run : Environment → List Expr → Run Value) (env : Environment) : Expr → Run Value
  | .number x => pure (.number x)
  | .boolean b => pure (.boolean b)
  | .string s => pure (.string s)
  | .primitive p => pure (.primitive p)
  | .quoted v => pure v
  | .var x => Run.ofOutcome (env.lookup x)
  | .cond test onTrue onFalse => do
    let v ← eval env test
    if v.isTrue then eval env onTrue else eval env onFalse
  | .lambda params body => do
    let ref ← Run.newRef
    return .closure ref params body
  | .classDef fields methods => do
    let ref ← Run.newRef
    return .classDef ref fields methods
  | .app operator operands => do
    let procedure ← eval env operator
    let args ← operands.mapM (eval env)
    applyProcedure (run env) procedure args
  | .letIn bindings body =>
    match config.lets with
    | .expand => eval env (letApplication bindings body)
    | .reject => throw (.unsupported "\"let\"")
  | .define x _ => throw (.eval (.misplacedDefine x))

/-- The failure of a step for which nothing is left. -/
def depthFailure (config : Config) : Failure :=
  .eval (.depthLimit config.maxDepth)

mutual

/-- An expression evaluated with the given number of nested steps left.  Its parts have one step less, and the body of
a procedure that it applies has two steps less. -/
def eval (config : Config) : Nat → Environment → Expr → Run Value
  | 0, _, _ => throw (depthFailure config)
  | n + 1, env, e =>
    evalStep config (eval config n)
      (fun env body =>
        match n with
        | 0 => throw (depthFailure config)
        | m + 1 => evalSequence config m env body)
      env e

/-- A sequence of forms evaluated with the given number of nested steps left, of which the sequence is one. -/
def evalSequence (config : Config) : Nat → Environment → List Expr → Run Value
  | 0, _, _ => throw (depthFailure config)
  | n + 1, env, es => evalForms (eval config n) env es

end

theorem eval_zero (config : Config) (env : Environment) (e : Expr) :
    eval config 0 env e = throw (depthFailure config) := rfl

/-- Where a step is left, the parts of an expression have one less and a body has two less. -/
theorem eval_succ (config : Config) (n : Nat) (env : Environment) (e : Expr) :
    eval config (n + 1) env e =
      evalStep config (eval config n) (evalSequence config (n - 1)) env e := by
  cases n <;> rfl

theorem evalSequence_zero (config : Config) (env : Environment) (es : List Expr) :
    evalSequence config 0 env es = throw (depthFailure config) := rfl

theorem evalSequence_succ (config : Config) (n : Nat) (env : Environment) (es : List Expr) :
    evalSequence config (n + 1) env es = evalForms (eval config n) env es := rfl

end SubstModel
