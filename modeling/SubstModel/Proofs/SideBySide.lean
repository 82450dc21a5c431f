import SubstModel.Proofs.Language.Evaluation
import SubstModel.Proofs.Run

/-!
# Two evaluations side by side

An evaluation does what another one does that sees the same definitions of all that it looks up, unless it is cut off
where the other one goes on.  What an evaluation looks up, and what it can come to, is told by an invariant: properties
of expressions and of values that hold of all that is made on the way, whichever names are handed out.

* `SideBySide` — the second of two steps does what the first one does, unless that one is cut off, with a lemma for each
  way to combine steps;
* `Invariant`, `Invariant.Kept` — properties of what is evaluated, and what it takes that evaluation keeps them;
* `Invariant.anything` — the invariant that asks for nothing;
* `Environment.Agrees` — the same definitions of all that may be looked up;
* `Looser` — when one evaluation may go on where another one is cut off;
* `sideBySide_applyProcedure`, `sideBySide_evalStep` — a value applied to values, and one step;
* `sideBySide_eval` — **the looser evaluation does what the other one does, and what that one comes to has the
  invariant**.
-/

namespace SubstModel

/-! ### Steps -/

/-- The first step ends with a result that satisfies `Q` or with a failure that satisfies `E`.  The second one ends the
same way, unless the first one is cut off. -/
def SideBySide {α : Type} (cut E : Failure → Prop) (Q : α → Prop) (m m' : Run α) : Prop :=
  ∀ s, match m s with
    | .ok a t => Q a ∧ m' s = .ok a t
    | .error f t => E f ∧ (cut f ∨ m' s = .error f t)

namespace SideBySide

variable {α β : Type} {cut E : Failure → Prop} {Q : α → Prop} {Q' : β → Prop}

theorem pure {a : α} (h : Q a) : SideBySide cut E Q (Pure.pure a) (Pure.pure a) :=
  fun _ => ⟨h, rfl⟩

theorem throw {f : Failure} (h : E f) : SideBySide cut E Q (throwThe Failure f) (throwThe Failure f) :=
  fun _ => ⟨h, .inr rfl⟩

theorem cutOff {f : Failure} (h : E f) (hcut : cut f) (m' : Run α) :
    SideBySide cut E Q (throwThe Failure f) m' :=
  fun _ => ⟨h, .inl hcut⟩

theorem imp {E' : Failure → Prop} {Q' : α → Prop} {m m' : Run α} (h : SideBySide cut E Q m m')
    (hE : ∀ f, E f → E' f) (hQ : ∀ a, Q a → Q' a) : SideBySide cut E' Q' m m' := by
  intro s
  have hs := h s
  cases hm : m s with
  | ok a t =>
    rw [hm] at hs
    exact hs.imp_left (hQ a)
  | error f t =>
    rw [hm] at hs
    exact hs.imp_left (hE f)

/-- A run that is not cut off is the run that is compared with it. -/
theorem eq {m m' : Run α} (h : SideBySide cut E Q m m') {s : Supply} (hcut : ∀ f t, m s = .error f t → ¬ cut f) :
    m' s = m s := by
  have hs := h s
  cases hm : m s with
  | ok a t =>
    rw [hm] at hs
    exact hs.2
  | error f t =>
    rw [hm] at hs
    exact hs.2.resolve_left (hcut f t hm)

theorem bind {m m' : Run α} {next next' : α → Run β} (h : SideBySide cut E Q m m')
    (hnext : ∀ a, Q a → SideBySide cut E Q' (next a) (next' a)) :
    SideBySide cut E Q' (m >>= next) (m' >>= next') := by
  intro s
  have hs := h s
  cases hm : m s with
  | ok a t =>
    rw [hm] at hs
    rw [Run.bind_of_ok hm, Run.bind_of_ok hs.2]
    exact hnext a hs.1 t
  | error f t =>
    rw [hm] at hs
    rw [Run.bind_of_error hm]
    exact ⟨hs.1, hs.2.imp_right Run.bind_of_error⟩

theorem mapM {step step' : α → Run β} (as : List α)
    (h : ∀ a ∈ as, SideBySide cut E Q' (step a) (step' a)) :
    SideBySide cut E (fun bs => ∀ b ∈ bs, Q' b) (as.mapM step) (as.mapM step') := by
  induction as with
  | nil => exact pure fun b hb => absurd hb List.not_mem_nil
  | cons a as ih =>
    rw [List.mapM_cons, List.mapM_cons]
    refine (h a List.mem_cons_self).bind fun b hb => ?_
    refine (ih fun a' ha' => h a' (List.mem_cons_of_mem a ha')).bind fun bs hbs => pure ?_
    exact List.forall_mem_cons.2 ⟨hb, hbs⟩

theorem ofOutcome {o : Outcome α} (hok : ∀ a, o = .ok a → Q a) (herror : ∀ f, o = .error f → E f) :
    SideBySide cut E Q (Run.ofOutcome o) (Run.ofOutcome o) := by
  cases o with
  | ok a => exact pure (hok a rfl)
  | error f => exact throw (herror f rfl)

theorem newRef : SideBySide cut E (fun _ => True) Run.newRef Run.newRef :=
  fun _ => ⟨trivial, rfl⟩

theorem renamed (es : List Expr) :
    SideBySide cut E (fun es' => ∃ issued, es' = rename issued es) (Run.renamed es) (Run.renamed es) :=
  fun s => ⟨⟨s.issued, rfl⟩, rfl⟩

end SideBySide

/-! ### Invariants -/

/-- Properties of what is evaluated. -/
structure Invariant where
  /-- Variables that may be looked up. -/
  name : String → Prop
  /-- Expressions around which nothing binds. -/
  expr : Expr → Prop
  value : Value → Prop
  failure : Failure → Prop

/-- The failures that any evaluation may end in.  Left out are those that the evaluator never gives, and the message to
an object whose method is no procedure. -/
def Failure.Foreseen : Failure → Prop
  | .eval (.methodNotProcedure _) | .eval .noComparison | .eval (.remark _) => False
  | _ => True

theorem Failure.IsOfPrimitive.foreseen {f : Failure} (h : f.IsOfPrimitive) : f.Foreseen := by
  cases f with
  | eval fault =>
    cases fault with
    | methodNotProcedure | noComparison | remark => exact h
    | _ => trivial
  | _ => trivial

namespace Invariant

/-- Whatever names are handed out, the body has the property when arguments that have it are put in for the
parameters. -/
def Applies (I : Invariant) (params : List String) (body : List Expr) : Prop :=
  ∀ (issued : Nat) (args : List Value), params.length = args.length → (∀ v ∈ args, I.value v) →
    ∀ e ∈ substitute params (args.map Value.toExpr) (rename issued body), I.expr e

/-- Every step of evaluation keeps the properties. -/
structure Kept (I : Invariant) : Prop where
  cond : ∀ {test onTrue onFalse}, I.expr (.cond test onTrue onFalse) →
    I.expr test ∧ I.expr onTrue ∧ I.expr onFalse
  app : ∀ {operator operands}, I.expr (.app operator operands) →
    I.expr operator ∧ ∀ e ∈ operands, I.expr e
  letIn : ∀ {bindings body}, I.expr (.letIn bindings body) → I.expr (letApplication bindings body)
  define : ∀ {x value}, I.expr (.define x value) → I.expr value
  var : ∀ {x}, I.expr (.var x) → I.name x
  quoted : ∀ {v}, I.expr (.quoted v) → I.value v
  listwise : Listwise I.value
  string : ∀ s, I.value (.string s)
  primitive : ∀ p, I.value (.primitive p)
  closure : ∀ {ref params body}, I.value (.closure ref params body) ↔ I.expr (.lambda params body)
  classDef : ∀ {ref fields methods}, I.value (.classDef ref fields methods) ↔ I.expr (.classDef fields methods)
  body : ∀ {params body}, I.expr (.lambda params body) → I.Applies params body
  methods : ∀ {fields methods}, I.expr (.classDef fields methods) → I.Applies fields (methods.map Prod.snd)
  object : ∀ {ref fields methods}, (∀ m ∈ methods, m.2.isLambda = true ∧ I.expr m.2) →
    I.value (.object ref fields methods)
  method : ∀ {ref fields methods}, I.value (.object ref fields methods) →
    ∀ m ∈ methods, I.expr m.2 ∧ (m.2.isLambda = true ∨ I.failure (.eval (.methodNotProcedure m.1)))
  failure : ∀ {f : Failure}, f.Foreseen → I.failure f

/-- A form of a sequence has the property: an expression, or a definition of an expression. -/
def form (I : Invariant) : Expr → Prop
  | .define _ e => I.expr e
  | e => I.expr e

theorem Kept.form {I : Invariant} (hI : I.Kept) {e : Expr} (h : I.expr e) : I.form e := by
  cases e with
  | define x value => exact hI.define h
  | _ => exact h

/-- A form that is no definition is an expression that has the property. -/
theorem form.expr {I : Invariant} {e : Expr} (h : I.form e) (hdef : ∀ x value, e ≠ .define x value) :
    I.expr e := by
  cases e with
  | define x value => exact absurd rfl (hdef x value)
  | _ => exact h

/-- The invariant that everything has. -/
def anything : Invariant :=
  ⟨fun _ => True, fun _ => True, fun _ => True, fun _ => True⟩

theorem anything_kept : anything.Kept where
  cond _ := ⟨trivial, trivial, trivial⟩
  app _ := ⟨trivial, fun _ _ => trivial⟩
  letIn _ := trivial
  define _ := trivial
  var _ := trivial
  quoted _ := trivial
  listwise := Listwise.all
  string _ := trivial
  primitive _ := trivial
  closure := Iff.rfl
  classDef := Iff.rfl
  body _ _ _ _ _ _ _ := trivial
  methods _ _ _ _ _ _ _ := trivial
  object _ := trivial
  method _ _ _ := ⟨trivial, .inr trivial⟩
  failure _ := trivial

end Invariant

/-! ### Environments and limits -/

/-- The second environment defines all that may be looked up as the first one does, and the values have the
property. -/
def Environment.Agrees (I : Invariant) (env env' : Environment) : Prop :=
  ∀ x, I.name x → env'.get? x = env.get? x ∧ ∀ v, env.get? x = some v → I.value v

theorem Environment.Agrees.extend {I : Invariant} {env env' : Environment} (h : env.Agrees I env') (x : String)
    {v : Value} (hv : I.value v) : (env.extend x v).Agrees I (env'.extend x v) := by
  intro y hy
  by_cases hyx : y = x
  · subst hyx
    rw [get?_extend_self, get?_extend_self]
    refine ⟨rfl, fun w hw => ?_⟩
    cases hw
    exact hv
  · rw [get?_extend_of_ne env v hyx, get?_extend_of_ne env' v hyx]
    exact h y hy

theorem Environment.agrees_anything (env : Environment) : env.Agrees .anything env :=
  fun _ _ => ⟨rfl, fun _ _ => trivial⟩

/-- The evaluation with `n'` nested steps left goes on where the one with `n` is cut off, and they differ in nothing
else. -/
structure Looser (cut : Failure → Prop) (config config' : Config) (n n' : Nat) : Prop where
  steps : n ≤ n'
  depth : n = n' ∧ config.maxDepth = config'.maxDepth ∨ cut (depthFailure config)
  lets : config.lets = config'.lets ∨ config'.lets = .expand ∧ cut (.unsupported "\"let\"")

theorem Looser.refl (cut : Failure → Prop) (config : Config) (n : Nat) : Looser cut config config n n :=
  ⟨Nat.le_refl n, .inl ⟨rfl, rfl⟩, .inl rfl⟩

theorem Looser.sub {cut : Failure → Prop} {config config' : Config} {n n' : Nat}
    (h : Looser cut config config' n n') (k : Nat) : Looser cut config config' (n - k) (n' - k) := by
  refine ⟨Nat.sub_le_sub_right h.steps k, h.depth.imp_left fun hsame => ?_, h.lets⟩
  exact ⟨congrArg (· - k) hsame.1, hsame.2⟩

/-! ### Evaluation -/

/-- The second of two evaluations does what the first one does, and what that one comes to has the invariant. -/
abbrev Invariant.Compares (I : Invariant) (cut : Failure → Prop) (m m' : Run Value) : Prop :=
  SideBySide cut I.failure I.value m m'

/-- The second of two evaluators of expressions does what the first one does. -/
def Invariant.ComparesExprs (I : Invariant) (cut : Failure → Prop) (eval eval' : Environment → Expr → Run Value) :
    Prop :=
  ∀ env env' e, env.Agrees I env' → I.expr e → I.Compares cut (eval env e) (eval' env' e)

/-- The second of two evaluators of sequences does what the first one does. -/
def Invariant.ComparesForms (I : Invariant) (cut : Failure → Prop)
    (run run' : Environment → List Expr → Run Value) : Prop :=
  ∀ env env' es, env.Agrees I env' → (∀ e ∈ es, I.form e) → I.Compares cut (run env es) (run' env' es)

section Step

variable {I : Invariant} {cut : Failure → Prop} {config config' : Config} {n n' : Nat}
  {eval eval' : Environment → Expr → Run Value} {run run' : Environment → List Expr → Run Value}

theorem sideBySide_evalForms (hI : I.Kept) (heval : I.ComparesExprs cut eval eval') :
    I.ComparesForms cut (evalForms eval) (evalForms eval') := by
  intro env env' es henv hes
  fun_induction evalForms eval env es generalizing env' with
  | case1 env => exact SideBySide.throw (hI.failure trivial)
  | case2 env x e rest ih =>
    refine (heval env env' e henv (hes _ List.mem_cons_self)).bind fun v hv => ?_
    exact ih v _ (henv.extend x hv) fun e' he' => hes e' (List.mem_cons_of_mem _ he')
  | case3 env e hdef =>
    rw [evalForms]
    · exact heval env env' e henv ((hes e (List.mem_singleton_self e)).expr hdef)
    · exact hdef
  | case4 env e rest hdef hne ih =>
    rw [evalForms]
    · refine (heval env env' e henv ((hes e List.mem_cons_self).expr hdef)).bind fun _ _ => ?_
      exact ih env' henv fun e' he' => hes e' (List.mem_cons_of_mem _ he')
    · exact hdef
    · exact hne

theorem sideBySide_applyBody (hI : I.Kept) (hrun : I.ComparesForms cut run run') {env env' : Environment}
    (henv : env.Agrees I env') {params : List String} {body : List Expr} (hbody : I.Applies params body)
    {args : List Value} (hlen : params.length = args.length) (hargs : ∀ v ∈ args, I.value v) :
    I.Compares cut (applyBody (run env) params body args) (applyBody (run' env') params body args) := by
  refine (SideBySide.renamed body).bind fun body' hrenamed => ?_
  obtain ⟨issued, rfl⟩ := hrenamed
  exact hrun env env' _ henv fun e he => hI.form (hbody issued args hlen hargs e he)

theorem isLambda_of_requireLambdas {methods : List (String × Expr)} {u : Unit}
    (h : requireLambdas methods = .ok u) : ∀ m ∈ methods, m.2.isLambda = true := by
  fun_induction requireLambdas methods with
  | case1 => exact fun m hm => absurd hm List.not_mem_nil
  | case2 name e rest hlam ih => exact List.forall_mem_cons.2 ⟨hlam, ih h⟩
  | case3 name e rest hlam => cases h

theorem sideBySide_instantiate (hI : I.Kept) {fields : List String} {methods : List (String × Expr)}
    (hmethods : I.Applies fields (methods.map Prod.snd)) {args : List Value} (hargs : ∀ v ∈ args, I.value v) :
    I.Compares cut (instantiate fields methods args) (instantiate fields methods args) := by
  rw [instantiate]
  by_cases hlen : fields.length = args.length
  · rw [if_pos hlen]
    refine (SideBySide.renamed _).bind fun bodies hrenamed => ?_
    obtain ⟨issued, rfl⟩ := hrenamed
    have hspecialised : ∀ m ∈ (methods.map Prod.fst).zip
        (substitute fields (args.map Value.toExpr) (rename issued (methods.map Prod.snd))), I.expr m.2 :=
      fun m hm => hmethods issued args hlen hargs m.2 (List.of_mem_zip hm).2
    generalize (methods.map Prod.fst).zip
      (substitute fields (args.map Value.toExpr) (rename issued (methods.map Prod.snd))) = specialised at *
    have hlambdas : SideBySide cut I.failure (fun _ => ∀ m ∈ specialised, m.2.isLambda = true)
        (Run.ofOutcome (requireLambdas specialised)) (Run.ofOutcome (requireLambdas specialised)) := by
      refine SideBySide.ofOutcome (fun u hu => isLambda_of_requireLambdas hu) fun f hf => ?_
      obtain ⟨fault, rfl⟩ := requireLambdas_failure hf
      exact hI.failure trivial
    refine hlambdas.bind fun _ hall => SideBySide.newRef.bind fun ref _ => SideBySide.pure (hI.object fun m hm => ?_)
    exact ⟨hall m hm, hspecialised m hm⟩
  · rw [if_neg hlen]
    exact SideBySide.throw (hI.failure trivial)

theorem sideBySide_send (hI : I.Kept) (hrun : I.ComparesForms cut run run') {env env' : Environment}
    (henv : env.Agrees I env') {ref : Ref} {fields : List String} {methods : List (String × Expr)}
    (hobject : I.value (.object ref fields methods)) {args : List Value} (hargs : ∀ v ∈ args, I.value v) :
    I.Compares cut (send (run env) methods args) (send (run' env') methods args) := by
  fun_cases send (run env) methods args with
  | case1 => exact SideBySide.throw (hI.failure trivial)
  | case2 name args hm =>
    rw [send, hm]
    exact SideBySide.throw (hI.failure trivial)
  | case3 name args params body hm hlen =>
    rw [send, hm]
    show I.Compares cut _ (if params.length = args.length then _ else _)
    rw [if_pos hlen]
    have hbody := hI.body (hI.method hobject _ (mem_of_lookup_eq_some hm)).1
    exact sideBySide_applyBody hI hrun henv hbody hlen fun v hv => hargs v (List.mem_cons_of_mem _ hv)
  | case4 name args params body hm hlen =>
    rw [send, hm]
    show I.Compares cut _ (if params.length = args.length then _ else _)
    rw [if_neg hlen]
    exact SideBySide.throw (hI.failure trivial)
  | case5 name args method hlam hm =>
    rw [send, hm]
    have hstray := (hI.method hobject _ (mem_of_lookup_eq_some hm)).2
    cases method with
    | lambda params body => exact absurd rfl (hlam params body)
    | _ => exact SideBySide.throw (hstray.resolve_left Bool.false_ne_true)
  | case6 v args hsym =>
    cases v with
    | symbol name => exact absurd rfl (hsym name)
    | _ => exact SideBySide.throw (hI.failure trivial)

theorem sideBySide_applyProcedure (hI : I.Kept) (hrun : I.ComparesForms cut run run') {env env' : Environment}
    (henv : env.Agrees I env') {v : Value} (hv : I.value v) {args : List Value} (hargs : ∀ v ∈ args, I.value v) :
    I.Compares cut (applyProcedure (run env) v args) (applyProcedure (run' env') v args) := by
  cases v with
  | primitive p =>
    exact SideBySide.ofOutcome (fun w hw => Primitive.apply_keeps hI.listwise hw hargs)
      fun f hf => hI.failure (Primitive.apply_failure hf).foreseen
  | closure ref params body =>
    rw [applyProcedure, applyProcedure]
    by_cases hlen : params.length = args.length
    · rw [if_pos hlen, if_pos hlen]
      exact sideBySide_applyBody hI hrun henv (hI.body (hI.closure.1 hv)) hlen hargs
    · rw [if_neg hlen, if_neg hlen]
      exact SideBySide.throw (hI.failure trivial)
  | classDef ref fields methods => exact sideBySide_instantiate hI (hI.methods (hI.classDef.1 hv)) hargs
  | object ref fields methods => exact sideBySide_send hI hrun henv hv hargs
  | number | boolean | string | symbol | list => exact SideBySide.throw (hI.failure trivial)

theorem sideBySide_lookup (hI : I.Kept) {env env' : Environment} (henv : env.Agrees I env') {x : String}
    (hx : I.name x) : I.Compares cut (Run.ofOutcome (env.lookup x)) (Run.ofOutcome (env'.lookup x)) := by
  obtain ⟨hsame, hvalue⟩ := henv x hx
  rw [Environment.lookup, Environment.lookup, hsame]
  cases hget : env.get? x with
  | some v => exact SideBySide.pure (hvalue v hget)
  | none => exact SideBySide.throw (hI.failure trivial)

theorem sideBySide_evalStep (hI : I.Kept) (hlooser : Looser cut config config' n n')
    (heval : I.ComparesExprs cut eval eval') (hrun : I.ComparesForms cut run run') :
    I.ComparesExprs cut (evalStep config eval run) (evalStep config' eval' run') := by
  intro env env' e henv he
  cases e with
  | number x => exact SideBySide.pure (hI.listwise.number x)
  | boolean b => exact SideBySide.pure (hI.listwise.boolean b)
  | string s => exact SideBySide.pure (hI.string s)
  | primitive p => exact SideBySide.pure (hI.primitive p)
  | quoted v => exact SideBySide.pure (hI.quoted he)
  | var x => exact sideBySide_lookup hI henv (hI.var he)
  | cond test onTrue onFalse =>
    obtain ⟨htest, hTrue, hFalse⟩ := hI.cond he
    refine (heval env env' test henv htest).bind fun v _ => ?_
    split
    · exact heval env env' onTrue henv hTrue
    · exact heval env env' onFalse henv hFalse
  | lambda params body =>
    exact SideBySide.newRef.bind fun ref _ => SideBySide.pure (hI.closure.2 he)
  | classDef fields methods =>
    exact SideBySide.newRef.bind fun ref _ => SideBySide.pure (hI.classDef.2 he)
  | app operator operands =>
    obtain ⟨hoperator, hoperands⟩ := hI.app he
    refine (heval env env' operator henv hoperator).bind fun procedure hproc => ?_
    have hargs := SideBySide.mapM operands fun e he => heval env env' e henv (hoperands e he)
    exact hargs.bind fun args hargs => sideBySide_applyProcedure hI hrun henv hproc hargs
  | letIn bindings body =>
    have happ := heval env env' _ henv (hI.letIn he)
    rw [evalStep, evalStep]
    rcases hlooser.lets with hsame | ⟨hexpand, hcut⟩
    · rw [← hsame]
      cases config.lets with
      | expand => exact happ
      | reject => exact SideBySide.throw (hI.failure trivial)
    · rw [hexpand]
      cases config.lets with
      | expand => exact happ
      | reject => exact SideBySide.cutOff (hI.failure (f := .unsupported _) trivial) hcut _
  | define x value => exact SideBySide.throw (hI.failure trivial)

end Step

/-- **The looser of two evaluations does what the other one does, unless that one is cut off, and what that one comes to
has the invariant.** -/
theorem sideBySide_eval {I : Invariant} (hI : I.Kept) {cut : Failure → Prop} {config config' : Config} {n n' : Nat}
    (hlooser : Looser cut config config' n n') :
    I.ComparesExprs cut (eval config n) (eval config' n') ∧
      I.ComparesForms cut (evalSequence config n) (evalSequence config' n') := by
  -- Parts have one step fewer left and bodies two, on both sides alike.
  induction n using Nat.strongRecOn generalizing n' with
  | ind n ih =>
    cases n with
    | zero =>
      have hdepth : ∀ m' : Run Value, (n' = 0 → m' = throw (depthFailure config')) →
          I.Compares cut (throwThe Failure (depthFailure config)) m' := by
        intro m' hm'
        rcases hlooser.depth with ⟨hn, hmax⟩ | hcut
        · have hsame : depthFailure config' = depthFailure config := by rw [depthFailure, depthFailure, hmax]
          rw [hm' hn.symm, hsame]
          exact SideBySide.throw (hI.failure trivial)
        · exact SideBySide.cutOff (hI.failure (f := depthFailure config) trivial) hcut m'
      refine ⟨fun env env' e _ _ => hdepth _ ?_, fun env env' es _ _ => hdepth _ ?_⟩
      · rintro rfl
        exact eval_zero config' env' e
      · rintro rfl
        exact evalSequence_zero config' env' es
    | succ n =>
      obtain ⟨k, rfl⟩ : ∃ k, n' = k + 1 := ⟨n' - 1, by have := hlooser.steps; omega⟩
      have hparts := (ih n (by omega) (hlooser.sub 1)).1
      have hbodies := (ih (n - 1) (by omega) (hlooser.sub 2)).2
      refine ⟨fun env env' e henv he => ?_, sideBySide_evalForms hI hparts⟩
      rw [eval_succ, eval_succ]
      exact sideBySide_evalStep hI hlooser hparts hbodies env env' e henv he

end SubstModel
