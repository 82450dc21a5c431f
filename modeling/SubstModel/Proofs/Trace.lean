import SubstModel.Interpreter

/-!
# Traced evaluation — every renaming and every lookup is noted

The evaluator once more, on a ledger: the supply together with the renamings and the lookups so far.  Each renaming is
noted before it is made, with what is renamed, the names that are then replaced, the arguments, and the environment.
What an evaluation that fails has noted stays noted.

* `Call`, `Ledger`, `Traced` — a note of a renaming, all notes, and steps that keep them;
* `Traced.renamed` — the only step that hands out names, and the only one that notes a renaming;
* `Traced.lookup` — the only step that looks at the environment, and the only one that notes a lookup;
* `Traced.eval`, `Traced.evalSequence`, `Traced.evaluateText`, `Traced.evaluateTexts` — the evaluator;
* `Erases` — a traced step does what a step does, when the notes are forgotten;
* `erases_eval`, `erase_evaluateTexts` — **tracing changes no result, no failure and no supply**.
-/

namespace SubstModel

/-- A renaming: what was handed out before it, and what it is for. -/
structure Call where
  supply : Supply
  /-- The parameters or fields that are replaced after the renaming. -/
  binders : List String
  /-- What is renamed: a body, or the methods of a class. -/
  exprs : List Expr
  args : List Value
  env : Environment

/-- How many names a renaming hands out. -/
def Call.count (c : Call) : Nat :=
  Expr.binderCountAll c.exprs

/-- The supply and the notes so far, the latest first. -/
structure Ledger where
  supply : Supply
  calls : List Call
  /-- The variables that were looked up, each with what was handed out before. -/
  reads : List (Supply × String)

/-- A ledger without notes. -/
def Ledger.blank (s : Supply) : Ledger :=
  ⟨s, [], []⟩

/-- Steps that keep a ledger. -/
abbrev Traced := EStateM Failure Ledger

namespace Traced

/-! ### Steps -/

/-- A step that takes no note. -/
def ofRun {α : Type} (m : Run α) : Traced α := fun l =>
  match m l.supply with
  | .ok a s => .ok a { l with supply := s }
  | .error f s => .error f { l with supply := s }

/-- The note of a renaming. -/
def note (env : Environment) (binders : List String) (args : List Value) (es : List Expr) :
    Traced Unit :=
  modify fun l => { l with calls := ⟨l.supply, binders, es, args, env⟩ :: l.calls }

/-- Expressions with fresh names for what they bind. -/
def renamed (env : Environment) (binders : List String) (args : List Value) (es : List Expr) :
    Traced (List Expr) := do
  note env binders args es
  ofRun (Run.renamed es)

/-- The value of a variable, with a note of the lookup. -/
def lookup (env : Environment) (x : String) : Traced Value := do
  modify fun l => { l with reads := (l.supply, x) :: l.reads }
  ofRun (Run.ofOutcome (env.lookup x))

/-! ### The evaluator -/

/-- A sequence of forms. -/
def evalForms (eval : Environment → Expr → Traced Value) (env : Environment) :
    List Expr → Traced Value
  | [] => throw (.eval .emptySequence)
  | .define x e :: rest => do
    let v ← eval env e
    evalForms eval (env.extend x v) rest
  | [e] => eval env e
  | e :: rest => do
    let _ ← eval env e
    evalForms eval env rest

/-- A body with its binders made fresh and the arguments put in for the parameters. -/
def applyBody (run : Environment → List Expr → Traced Value) (env : Environment)
    (params : List String) (body : List Expr) (args : List Value) : Traced Value := do
  let body ← renamed env params args body
  run env (substitute params (args.map Value.toExpr) body)

/-- The object of a class with the arguments put in for the fields. -/
def instantiate (env : Environment) (fields : List String) (methods : List (String × Expr))
    (args : List Value) : Traced Value :=
  if fields.length = args.length then do
    let bodies ← renamed env fields args (methods.map Prod.snd)
    let specialised :=
      (methods.map Prod.fst).zip (substitute fields (args.map Value.toExpr) bodies)
    ofRun (Run.ofOutcome (requireLambdas specialised))
    let ref ← ofRun Run.newRef
    return .object ref fields specialised
  else
    throw (.arity fields.length args.length (some .classConstructor))

/-- The method that a message names, applied to the rest of the arguments. -/
def send (run : Environment → List Expr → Traced Value) (env : Environment)
    (methods : List (String × Expr)) : List Value → Traced Value
  | [] => throw (.unrecognizedMethod .missing)
  | .symbol name :: args =>
    match findMethod? methods name with
    | none => throw (.unrecognizedMethod (.unknown name))
    | some (.lambda params body) =>
      if params.length = args.length then applyBody run env params body args
      else throw (.arity params.length args.length (some (.method name)))
    | some _ => throw (.eval (.methodNotProcedure name))
  | v :: _ => throw (.unrecognizedMethod (.notASymbol v))

/-- A value applied to values. -/
def applyProcedure (run : Environment → List Expr → Traced Value) (env : Environment) :
    Value → List Value → Traced Value
  | .primitive p, args => ofRun (Run.ofOutcome (p.apply args))
  | .closure _ params body, args =>
    if params.length = args.length then applyBody run env params body args
    else throw (.arity params.length args.length (some .procedure))
  | .classDef _ fields methods, args => instantiate env fields methods args
  | .object _ _ methods, args => send run env methods args
  | v, _ => throw (.notAProcedure v.text)

/-- One step of evaluation. -/
def evalStep (config : Config) (eval : Environment → Expr → Traced Value)
    (run : Environment → List Expr → Traced Value) (env : Environment) : Expr → Traced Value
  | .number x => pure (.number x)
  | .boolean b => pure (.boolean b)
  | .string s => pure (.string s)
  | .primitive p => pure (.primitive p)
  | .quoted v => pure v
  | .var x => lookup env x
  | .cond test onTrue onFalse => do
    let v ← eval env test
    if v.isTrue then eval env onTrue else eval env onFalse
  | .lambda params body => do
    let ref ← ofRun Run.newRef
    return .closure ref params body
  | .classDef fields methods => do
    let ref ← ofRun Run.newRef
    return .classDef ref fields methods
  | .app operator operands => do
    let procedure ← eval env operator
    let args ← operands.mapM (eval env)
    applyProcedure run env procedure args
  | .letIn bindings body =>
    match config.lets with
    | .expand => eval env (letApplication bindings body)
    | .reject => throw (.unsupported "\"let\"")
  | .define x _ => throw (.eval (.misplacedDefine x))

mutual

/-- An expression evaluated with the given number of nested steps left. -/
def eval (config : Config) : Nat → Environment → Expr → Traced Value
  | 0, _, _ => throw (depthFailure config)
  | n + 1, env, e =>
    evalStep config (eval config n)
      (fun env body =>
        match n with
        | 0 => throw (depthFailure config)
        | m + 1 => evalSequence config m env body)
      env e

/-- A sequence of forms evaluated with the given number of nested steps left. -/
def evalSequence (config : Config) : Nat → Environment → List Expr → Traced Value
  | 0, _, _ => throw (depthFailure config)
  | n + 1, env, es => evalForms (eval config n) env es

end

theorem eval_succ (config : Config) (n : Nat) (env : Environment) (e : Expr) :
    eval config (n + 1) env e =
      evalStep config (eval config n) (evalSequence config (n - 1)) env e := by
  cases n <;> rfl

/-- The value of a program. -/
def evaluateProgram (config : Config) (p : Program) : Traced Value := do
  let prepared ← ofRun (Run.ofOutcome (p.prepare config))
  evalSequence config config.maxDepth .empty prepared.forms

theorem evaluateProgram_eq (config : Config) (p : Program) :
    evaluateProgram config p = evalSequence config config.maxDepth .empty (p.prepared config).forms := by
  rw [evaluateProgram, Program.prepare_eq]
  rfl

/-- The value of the program that a text spells. -/
def evaluateText (config : Config) (text : String) : Traced Value := do
  let p ← ofRun (Run.ofOutcome (Program.ofText text))
  evaluateProgram config p

/-- What texts that are evaluated one after another by one interpreter come to, and the ledger after them.  A text that
fails does not end the session. -/
def evaluateTexts (config : Config) : List String → Ledger → List (Outcome Value) × Ledger
  | [], l => ([], l)
  | text :: texts, l =>
    match evaluateText config text l with
    | .ok v l' => let (rest, last) := evaluateTexts config texts l'; (.ok v :: rest, last)
    | .error f l' => let (rest, last) := evaluateTexts config texts l'; (.error f :: rest, last)

end Traced

/-- What texts that are evaluated one after another by one interpreter come to, and the supply after them.  A text that
fails does not end the session. -/
def evaluateTexts (config : Config) : List String → Supply → List (Outcome Value) × Supply
  | [], s => ([], s)
  | text :: texts, s =>
    match evaluateText config text s with
    | .ok v s' => let (rest, last) := evaluateTexts config texts s'; (.ok v :: rest, last)
    | .error f s' => let (rest, last) := evaluateTexts config texts s'; (.error f :: rest, last)

/-- The ledger behind a step, whether it fails or not. -/
def ledgerAfter {α : Type} : EStateM.Result Failure Ledger α → Ledger
  | .ok _ l => l
  | .error _ l => l

/-! ### Forgetting the notes -/

/-- How a traced step ends, without its notes. -/
def eraseNotes {α : Type} : EStateM.Result Failure Ledger α → EStateM.Result Failure Supply α
  | .ok a l => .ok a l.supply
  | .error f l => .error f l.supply

/-- The traced step does what the step does. -/
def Erases {α : Type} (t : Traced α) (m : Run α) : Prop :=
  ∀ l, eraseNotes (t l) = m l.supply

namespace Erases

variable {α β : Type}

theorem pure (a : α) : Erases (Pure.pure a : Traced α) (Pure.pure a) :=
  fun _ => rfl

theorem throw (f : Failure) : Erases (throwThe Failure f : Traced α) (throwThe Failure f) :=
  fun _ => rfl

theorem ofRun (m : Run α) : Erases (Traced.ofRun m) m := by
  intro l
  show eraseNotes (match m l.supply with
    | .ok a s => .ok a { l with supply := s }
    | .error f s => .error f { l with supply := s }) = m l.supply
  cases m l.supply <;> rfl

theorem bind {t : Traced α} {m : Run α} {f : α → Traced β} {g : α → Run β} (h : Erases t m)
    (hfg : ∀ a, Erases (f a) (g a)) : Erases (t >>= f) (m >>= g) := by
  intro l
  have hl := h l
  show eraseNotes (EStateM.bind t f l) = EStateM.bind m g l.supply
  rw [EStateM.bind, EStateM.bind, ← hl]
  cases t l with
  | ok a l' => exact hfg a l'
  | error f l' => rfl

theorem mapM {f : β → Traced α} {g : β → Run α} (h : ∀ b, Erases (f b) (g b)) (bs : List β) :
    Erases (bs.mapM f) (bs.mapM g) := by
  induction bs with
  | nil => exact pure []
  | cons b bs ih =>
    rw [List.mapM_cons, List.mapM_cons]
    exact (h b).bind fun a => ih.bind fun as => pure (a :: as)

end Erases

theorem erases_renamed (env : Environment) (binders : List String) (args : List Value)
    (es : List Expr) : Erases (Traced.renamed env binders args es) (Run.renamed es) :=
  fun _ => rfl

theorem erases_lookup (env : Environment) (x : String) :
    Erases (Traced.lookup env x) (Run.ofOutcome (env.lookup x)) :=
  fun l => Erases.ofRun (Run.ofOutcome (env.lookup x)) { l with reads := (l.supply, x) :: l.reads }

section Step

variable {config : Config} {evalT : Environment → Expr → Traced Value}
  {evalR : Environment → Expr → Run Value} {runT : Environment → List Expr → Traced Value}
  {runR : Environment → List Expr → Run Value}

theorem erases_evalForms (heval : ∀ env e, Erases (evalT env e) (evalR env e)) :
    ∀ env es, Erases (Traced.evalForms evalT env es) (evalForms evalR env es) := by
  intro env es
  fun_induction evalForms evalR env es with
  | case1 env => exact Erases.throw _
  | case2 env x e rest ih => exact (heval env e).bind ih
  | case3 env e hdef =>
    rw [Traced.evalForms]
    · exact heval env e
    · exact hdef
  | case4 env e rest hdef hne ih =>
    rw [Traced.evalForms]
    · exact (heval env e).bind fun _ => ih
    · exact hdef
    · exact hne

theorem erases_applyBody (hrun : ∀ env es, Erases (runT env es) (runR env es)) (env : Environment)
    (params : List String) (body : List Expr) (args : List Value) :
    Erases (Traced.applyBody runT env params body args) (applyBody (runR env) params body args) :=
  (erases_renamed env params args body).bind fun _ => hrun env _

theorem erases_instantiate (env : Environment) (fields : List String)
    (methods : List (String × Expr)) (args : List Value) :
    Erases (Traced.instantiate env fields methods args) (instantiate fields methods args) := by
  rw [Traced.instantiate, instantiate]
  by_cases hlen : fields.length = args.length
  · rw [if_pos hlen, if_pos hlen]
    refine (erases_renamed env fields args _).bind fun bodies => ?_
    exact (Erases.ofRun _).bind fun _ => (Erases.ofRun _).bind fun ref => Erases.pure _
  · rw [if_neg hlen, if_neg hlen]
    exact Erases.throw _

theorem erases_send (hrun : ∀ env es, Erases (runT env es) (runR env es)) (env : Environment)
    (methods : List (String × Expr)) (args : List Value) :
    Erases (Traced.send runT env methods args) (send (runR env) methods args) := by
  fun_cases send (runR env) methods args with
  | case1 => exact Erases.throw _
  | case2 name args hm =>
    rw [Traced.send, hm]
    exact Erases.throw _
  | case3 name args params body hm hlen =>
    rw [Traced.send, hm]
    show Erases (if params.length = args.length then _ else _) _
    rw [if_pos hlen]
    exact erases_applyBody hrun env params body args
  | case4 name args params body hm hlen =>
    rw [Traced.send, hm]
    show Erases (if params.length = args.length then _ else _) _
    rw [if_neg hlen]
    exact Erases.throw _
  | case5 name args method hlam hm =>
    rw [Traced.send, hm]
    cases method with
    | lambda params body => exact absurd rfl (hlam params body)
    | _ => exact Erases.throw _
  | case6 v args hsym =>
    rw [Traced.send]
    · exact Erases.throw _
    · exact hsym

theorem erases_applyProcedure (hrun : ∀ env es, Erases (runT env es) (runR env es))
    (env : Environment) (v : Value) (args : List Value) :
    Erases (Traced.applyProcedure runT env v args) (applyProcedure (runR env) v args) := by
  cases v with
  | primitive p => exact Erases.ofRun _
  | closure ref params body =>
    rw [Traced.applyProcedure, applyProcedure]
    by_cases hlen : params.length = args.length
    · rw [if_pos hlen, if_pos hlen]
      exact erases_applyBody hrun env params body args
    · rw [if_neg hlen, if_neg hlen]
      exact Erases.throw _
  | classDef ref fields methods => exact erases_instantiate env fields methods args
  | object ref fields methods => exact erases_send hrun env methods args
  | number | boolean | string | symbol | list => exact Erases.throw _

theorem erases_evalStep (heval : ∀ env e, Erases (evalT env e) (evalR env e))
    (hrun : ∀ env es, Erases (runT env es) (runR env es)) (env : Environment) (e : Expr) :
    Erases (Traced.evalStep config evalT runT env e) (evalStep config evalR runR env e) := by
  cases e with
  | number | boolean | string | primitive | quoted => exact Erases.pure _
  | var x => exact erases_lookup env x
  | cond test onTrue onFalse =>
    refine (heval env test).bind fun v => ?_
    split
    · exact heval env onTrue
    · exact heval env onFalse
  | lambda params body => exact (Erases.ofRun _).bind fun ref => Erases.pure _
  | classDef fields methods => exact (Erases.ofRun _).bind fun ref => Erases.pure _
  | app operator operands =>
    refine (heval env operator).bind fun procedure => ?_
    refine (Erases.mapM (heval env) operands).bind fun args => ?_
    exact erases_applyProcedure hrun env procedure args
  | letIn bindings body =>
    rw [Traced.evalStep, evalStep]
    cases config.lets with
    | expand => exact heval env _
    | reject => exact Erases.throw _
  | define x value => exact Erases.throw _

end Step

/-- **Tracing changes nothing about the evaluation of an expression or of a sequence.** -/
theorem erases_eval (config : Config) :
    ∀ n, (∀ env e, Erases (Traced.eval config n env e) (eval config n env e)) ∧
      ∀ env es, Erases (Traced.evalSequence config n env es) (evalSequence config n env es) := by
  intro n
  induction n using Nat.strongRecOn with
  | ind n ih =>
    cases n with
    | zero => exact ⟨fun _ _ => Erases.throw _, fun _ _ => Erases.throw _⟩
    | succ n =>
      have hparts := (ih n (by omega)).1
      refine ⟨fun env e => ?_, fun env es => erases_evalForms hparts env es⟩
      rw [Traced.eval_succ, eval_succ]
      exact erases_evalStep hparts (ih (n - 1) (by omega)).2 env e

theorem erases_evaluateText (config : Config) (text : String) :
    Erases (Traced.evaluateText config text) (evaluateText config text) :=
  (Erases.ofRun _).bind fun _ => (Erases.ofRun _).bind fun prepared =>
    (erases_eval config config.maxDepth).2 .empty prepared.forms

/-- **Tracing changes nothing about a session.** -/
theorem erase_evaluateTexts (config : Config) (texts : List String) (l : Ledger) :
    evaluateTexts config texts l.supply
      = ((Traced.evaluateTexts config texts l).1, (Traced.evaluateTexts config texts l).2.supply) := by
  induction texts generalizing l with
  | nil => rfl
  | cons text texts ih =>
    have htext := erases_evaluateText config text l
    rw [evaluateTexts, Traced.evaluateTexts, ← htext]
    cases Traced.evaluateText config text l with
    | ok v l' => simp only [eraseNotes, ih l']
    | error f l' => simp only [eraseNotes, ih l']

end SubstModel
