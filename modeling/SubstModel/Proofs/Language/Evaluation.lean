import SubstModel.Proofs.Language.Ledger
import SubstModel.Proofs.Language.Substitution

/-!
# Evaluation within a growing language

If what is evaluated is within a language that grows with the supply, then so is all that evaluation makes of it: the
values it gives, the environments it extends, and everything that is renamed on the way.  What the language leaves
out limits the failures.

* `Expr.WithinForm`, `NoValue` — the forms of a sequence, and the sequences that end without a value;
* `keeps_applyBody`, `keeps_instantiate`, `keeps_send`, `keeps_applyProcedure` — application;
* `keeps_evalStep` — one step of evaluation, when evaluation of parts keeps to the language;
* `keeps_eval` — **evaluation stays within a growing language**;
* `eval_ends`, `evalSequence_ends`, `operands_end` — the same of evaluation without a ledger.
-/

namespace SubstModel

/-! ### Forms -/

/-- A form of a sequence is within the language: an expression, or a definition of an expression. -/
def Expr.WithinForm (L : Language) : Expr → Prop
  | .define x e => L.name x ∧ e.Within L []
  | e => e.Within L []

theorem Expr.Within.form {L : Language} {e : Expr} (h : e.Within L []) : e.WithinForm L := by
  cases e with
  | define x value => exact h.2
  | _ => exact h

theorem Expr.WithinForm.mono {L M : Language} (h : L ≤ M) {e : Expr} (he : e.WithinForm L) :
    e.WithinForm M := by
  cases e with
  | define x value => exact ⟨h.name he.1, Expr.Within.mono h (List.Subset.refl _) value he.2⟩
  | _ => exact Expr.Within.mono h (List.Subset.refl _) _ he

theorem Expr.WithinForm.and {L M : Language} {e : Expr} (h : e.WithinForm L) (h' : e.WithinForm M) :
    e.WithinForm (L.and M) := by
  cases e with
  | define x value => exact ⟨⟨h.1, h'.1⟩, Expr.Within.and value h.2 h'.2⟩
  | _ => exact Expr.Within.and _ h h'

/-- Behind the forms stands nothing that has a value: there is no form, or the last one is a definition. -/
def NoValue : List Expr → Prop
  | [] => True
  | .define _ _ :: rest => NoValue rest
  | [_] => False
  | _ :: rest => NoValue rest

theorem permits_of_noValue {L : Language} {scope : List String} {es : List Expr}
    (hes : Expr.WithinAll L scope es) (hbody : L.HasBody es) (h : NoValue es) :
    L.emptyBodies ∨ L.definitions := by
  fun_induction NoValue es with
  | case1 => exact .inl (hbody rfl)
  | case2 x e rest ih => exact .inr hes.1.1
  | case3 e hdef => exact absurd h id
  | case4 e rest hdef hne ih => exact ih hes.2 (fun hnil => absurd hnil hne) h

/-- A form that is no definition is an expression within the language. -/
theorem Expr.WithinForm.expr {L : Language} {e : Expr} (h : e.WithinForm L)
    (hdef : ∀ x value, e ≠ .define x value) : e.Within L [] := by
  cases e with
  | define x value => exact absurd rfl (hdef x value)
  | _ => exact h

theorem Value.listwise_within (L : Language) : Listwise (Value.Within L) :=
  ⟨fun _ => trivial, fun _ => trivial, Value.withinAll_iff⟩

/-! ### Application -/

/-- The step keeps to the language: it ends with a value within it, or with a failure that it admits. -/
abbrev Evaluates (L : Supply → Language) (config : Config) (env : Environment) (l : Ledger)
    (t : Traced Value) : Prop :=
  Keeps L (fun s f => (L s).Permits config env f) l t fun s v => v.Within (L s)

/-- Evaluation of expressions keeps to the language. -/
def EvaluatesExprs (L : Supply → Language) (config : Config)
    (eval : Environment → Expr → Traced Value) : Prop :=
  ∀ l env e, env.Within (L l.supply) → e.Within (L l.supply) [] → Evaluates L config env l (eval env e)

/-- Evaluation of sequences keeps to the language. -/
def EvaluatesForms (L : Supply → Language) (config : Config)
    (run : Environment → List Expr → Traced Value) : Prop :=
  ∀ l env es, env.Within (L l.supply) → (∀ e ∈ es, e.WithinForm (L l.supply)) →
    (NoValue es → (L l.supply).emptyBodies ∨ (L l.supply).definitions) →
    Evaluates L config env l (run env es)

theorem Language.Grows.hasFresh {L : Supply → Language} (hL : Language.Grows L) {issued count : Nat}
    {s : Supply} (h : issued + count ≤ s.issued) : (L s).HasFresh issued count :=
  ⟨fun _ hn => hL.name (by omega), hL.binders⟩

/-- The body of a procedure is within the language, made fresh and with the arguments put in. -/
theorem applied_within {L : Supply → Language} (hL : Language.Grows L) {s s' : Supply} {names : List String}
    {body : List Expr} {args : List Value} (hs : s ≤ s') (hissued : s'.issued = issuedAfter s.issued body)
    (hlen : names.length = args.length) (hargs : ∀ v ∈ args, v.Within (L s))
    (hbody : Expr.WithinAll (L s) names.reverse body) :
    Expr.WithinAll (L s') [] (substitute names (args.map Value.toExpr) (rename s.issued body)) :=
  within_substitute_rename (hL.mono hs) (hL.hasFresh (Nat.le_of_eq hissued.symm)) hlen hargs hbody

section Step

variable {L : Supply → Language} {config : Config}
  {eval : Environment → Expr → Traced Value} {run : Environment → List Expr → Traced Value}

theorem keeps_evalForms (hL : Language.Grows L) (heval : EvaluatesExprs L config eval) :
    EvaluatesForms L config (Traced.evalForms eval) := by
  intro l env es henv hes hvalue
  fun_induction Traced.evalForms eval env es generalizing l with
  | case1 env =>
    exact Keeps.throw (hvalue trivial)
  | case2 env x e rest ih =>
    obtain ⟨hx, he⟩ := hes _ List.mem_cons_self
    refine (heval l env e henv he).bind fun v l' hl hv => ?_
    have hle := hL.mono hl.supply
    refine Keeps.imp (ih v l' ((henv.mono hle).extend (hle.name hx) hv) (fun e' he' => ?_) fun hno => ?_)
      (fun _ _ h => h) fun _ _ h => h.of_extend
    · exact (hes e' (List.mem_cons_of_mem _ he')).mono hle
    · exact (hvalue hno).imp hle.emptyBodies hle.definitions
  | case3 env e hdef =>
    exact heval l env e henv ((hes e (List.mem_singleton_self e)).expr hdef)
  | case4 env e rest hdef hne ih =>
    have he := (hes e List.mem_cons_self).expr hdef
    refine (heval l env e henv he).bind fun _ l' hl _ => ?_
    have hle := hL.mono hl.supply
    refine ih l' (henv.mono hle) (fun e' he' => ?_) fun hno => ?_
    · exact (hes e' (List.mem_cons_of_mem _ he')).mono hle
    · refine (hvalue ?_).imp hle.emptyBodies hle.definitions
      rw [NoValue]
      · exact hno
      · exact hdef
      · exact hne

theorem keeps_applyBody (hL : Language.Grows L) (hrun : EvaluatesForms L config run) {l : Ledger}
    {env : Environment} (henv : env.Within (L l.supply)) {params : List String} {body : List Expr}
    {args : List Value} (hlen : params.length = args.length) (hparams : (L l.supply).Binds params)
    (hbody : (L l.supply).HasBody body) (hwithin : Expr.WithinAll (L l.supply) params.reverse body)
    (hargs : ∀ v ∈ args, v.Within (L l.supply)) :
    Evaluates L config env l (Traced.applyBody run env params body args) := by
  refine (Keeps.renamed ⟨hlen, hparams, hwithin, hargs, henv⟩).bind fun body' l' _ h => ?_
  obtain ⟨rfl, hissued, hsupply⟩ := h
  have hle := hL.mono hsupply
  have hforms := applied_within hL hsupply hissued hlen hargs hwithin
  refine hrun l' env _ (henv.mono hle) (fun e he => (Expr.withinAll_iff.1 hforms e he).form) ?_
  refine permits_of_noValue hforms fun hnil => ?_
  exact hle.emptyBodies (hbody (Expr.renameAll_eq_nil (Expr.substituteAll_eq_nil hnil)))

theorem requireLambdas_failure {methods : List (String × Expr)} {f : Failure}
    (h : requireLambdas methods = .error f) : ∃ fault, f = .malformedInstance fault := by
  fun_induction requireLambdas methods with
  | case1 => cases h
  | case2 name e rest hlam ih => exact ih h
  | case3 name e rest hlam =>
    cases h
    exact ⟨_, rfl⟩

theorem keeps_instantiate (hL : Language.Grows L) {l : Ledger} {env : Environment}
    (henv : env.Within (L l.supply)) {ref : Ref} {fields : List String}
    {methods : List (String × Expr)} (hclass : (Value.classDef ref fields methods).Within (L l.supply))
    {args : List Value} (hargs : ∀ v ∈ args, v.Within (L l.supply)) :
    Evaluates L config env l (Traced.instantiate env fields methods args) := by
  obtain ⟨hclasses, -, hfields, hlabels, hmethods⟩ := hclass
  rw [Traced.instantiate]
  by_cases hlen : fields.length = args.length
  · rw [if_pos hlen]
    have hbodies : Expr.WithinAll (L l.supply) fields.reverse (methods.map Prod.snd) :=
      Expr.withinAll_map_snd.2 hmethods
    refine (Keeps.renamed ⟨hlen, hfields, hbodies, hargs, henv⟩).bind fun bodies l₁ _ h => ?_
    obtain ⟨rfl, hissued, hsupply⟩ := h
    have hle := hL.mono hsupply
    have hspecial := Expr.withinAll_iff.1 (applied_within hL hsupply hissued hlen hargs hbodies)
    refine Keeps.bind (Q := fun s _ => l₁.supply ≤ s)
      (Keeps.ofOutcome (fun _ _ => l₁.supply.le_refl) fun f hf => ?_) fun _ l₂ _ hl₂ => ?_
    · obtain ⟨fault, rfl⟩ := requireLambdas_failure hf
      exact hle.classes hclasses
    · refine Keeps.newRef.bind fun ref l₃ hl₃ href => Keeps.pure ?_
      have hle₁ := hL.mono (Supply.le_trans hl₂ hl₃.supply)
      have hle₀ := hL.mono (Supply.le_trans hsupply (Supply.le_trans hl₂ hl₃.supply))
      refine ⟨hle₀.classes hclasses, hL.ref href, hfields.mono hle₀, fun m hm => ?_,
        Expr.withinPairs_iff.2 fun m hm => ?_⟩
      · obtain ⟨m', hm', heq⟩ := List.mem_map.1 (List.of_mem_zip hm).1
        rw [← heq]
        exact hle₀.label (hlabels m' hm')
      · exact Expr.Within.mono hle₁ (List.Subset.refl _) _ (hspecial _ (List.of_mem_zip hm).2)
  · rw [if_neg hlen]
    exact Keeps.throw (.ofPrimitive trivial)

theorem keeps_send (hL : Language.Grows L) (hrun : EvaluatesForms L config run) {l : Ledger}
    {env : Environment} (henv : env.Within (L l.supply)) {ref : Ref} {fields : List String}
    {methods : List (String × Expr)} (hobject : (Value.object ref fields methods).Within (L l.supply))
    {args : List Value} (hargs : ∀ v ∈ args, v.Within (L l.supply)) :
    Evaluates L config env l (Traced.send run env methods args) := by
  obtain ⟨hclasses, -, -, -, hmethods⟩ := hobject
  have hmessage : ∀ fault, (L l.supply).Permits config env (.unrecognizedMethod fault) :=
    fun _ => hclasses
  fun_cases Traced.send run env methods args with
  | case1 => exact Keeps.throw (hmessage _)
  | case2 name args hm => exact Keeps.throw (hmessage _)
  | case3 name args params body hm hlen =>
    obtain ⟨hparams, hbody, hwithin⟩ :=
      Expr.withinPairs_iff.1 hmethods _ (mem_of_lookup_eq_some hm)
    rw [List.append_nil] at hwithin
    exact keeps_applyBody hL hrun henv hlen hparams hbody hwithin
      fun v hv => hargs v (List.mem_cons_of_mem _ hv)
  | case4 name args params body hm hlen => exact Keeps.throw (.ofPrimitive trivial)
  | case5 name args method hlam hm =>
    exact Keeps.throw trivial
  | case6 v args hsym => exact Keeps.throw (hmessage _)

theorem keeps_applyProcedure (hL : Language.Grows L) (hrun : EvaluatesForms L config run) {l : Ledger}
    {env : Environment} (henv : env.Within (L l.supply)) {v : Value} (hv : v.Within (L l.supply))
    {args : List Value} (hargs : ∀ v ∈ args, v.Within (L l.supply)) :
    Evaluates L config env l (Traced.applyProcedure run env v args) := by
  cases v with
  | primitive p =>
    refine Keeps.ofOutcome (fun w hw => ?_) fun f hf => .ofPrimitive (Primitive.apply_failure hf)
    exact Primitive.apply_keeps (Value.listwise_within _) hw hargs
  | closure ref params body =>
    obtain ⟨-, hparams, hbody, hwithin⟩ := hv
    rw [Traced.applyProcedure]
    by_cases hlen : params.length = args.length
    · rw [if_pos hlen]
      exact keeps_applyBody hL hrun henv hlen hparams hbody hwithin hargs
    · rw [if_neg hlen]
      exact Keeps.throw (.ofPrimitive trivial)
  | classDef ref fields methods => exact keeps_instantiate hL henv hv hargs
  | object ref fields methods => exact keeps_send hL hrun henv hv hargs
  | number | boolean | string | symbol | list =>
    exact Keeps.throw trivial

/-! ### Evaluation -/

theorem keeps_operands (hL : Language.Grows L) (heval : EvaluatesExprs L config eval) {l : Ledger}
    {env : Environment} (henv : env.Within (L l.supply)) {es : List Expr}
    (hes : ∀ e ∈ es, e.Within (L l.supply) []) :
    Keeps L (fun s f => (L s).Permits config env f) l (es.mapM (eval env))
      fun s vs => ∀ v ∈ vs, v.Within (L s) := by
  refine Keeps.mapM (P := fun s e => env.Within (L s) ∧ e.Within (L s) [])
    (Q := fun s (v : Value) => v.Within (L s)) ?_ ?_ (fun e l h => heval l env e h.1 h.2) es l
    fun e he => ⟨henv, hes e he⟩
  · intro s t e hst h
    exact ⟨h.1.mono (hL.mono hst), Expr.Within.mono (hL.mono hst) (List.Subset.refl _) _ h.2⟩
  · intro s t v hst h
    exact Value.Within.mono (hL.mono hst) _ h

theorem keeps_evalStep (hL : Language.Grows L) (heval : EvaluatesExprs L config eval)
    (hrun : EvaluatesForms L config run) :
    EvaluatesExprs L config (Traced.evalStep config eval run) := by
  intro l env e henv he
  cases e with
  | number | boolean | string => exact Keeps.pure trivial
  | primitive | quoted => exact Keeps.pure he
  | var x => exact Keeps.lookup henv (he.2.resolve_left List.not_mem_nil)
  | cond test onTrue onFalse =>
    obtain ⟨htest, hTrue, hFalse⟩ := he
    refine (heval l env test henv htest).bind fun v l' hl _ => ?_
    have hle := hL.mono hl.supply
    split
    · exact heval l' env onTrue (henv.mono hle) (Expr.Within.mono hle (List.Subset.refl _) _ hTrue)
    · exact heval l' env onFalse (henv.mono hle) (Expr.Within.mono hle (List.Subset.refl _) _ hFalse)
  | lambda params body =>
    obtain ⟨hparams, hbody, hwithin⟩ := he
    rw [List.append_nil] at hwithin
    refine Keeps.newRef.bind fun ref l' hl href => Keeps.pure ?_
    have hle := hL.mono hl.supply
    exact ⟨hL.ref href, hparams.mono hle, hbody.mono hle,
      Expr.Within.monoAll hle (List.Subset.refl _) body hwithin⟩
  | classDef fields methods =>
    obtain ⟨hclasses, hfields, hlabels, hmethods⟩ := he
    rw [List.append_nil] at hmethods
    refine Keeps.newRef.bind fun ref l' hl href => Keeps.pure ?_
    have hle := hL.mono hl.supply
    exact ⟨hle.classes hclasses, hL.ref href, hfields.mono hle, fun m hm => hle.label (hlabels m hm),
      Expr.Within.monoPairs hle (List.Subset.refl _) methods hmethods⟩
  | app operator operands =>
    obtain ⟨hoperator, hoperands⟩ := he
    refine (heval l env operator henv hoperator).bind fun procedure l₁ hl₁ hproc => ?_
    have hle₁ := hL.mono hl₁.supply
    have hoperands₁ := Expr.Within.monoAll hle₁ (List.Subset.refl _) operands hoperands
    have hargs := keeps_operands hL heval (henv.mono hle₁) (Expr.withinAll_iff.1 hoperands₁)
    refine hargs.bind fun args l₂ hl₂ hargs => ?_
    have hle₂ := hL.mono hl₂.supply
    exact keeps_applyProcedure hL hrun ((henv.mono hle₁).mono hle₂) (Value.Within.mono hle₂ _ hproc) hargs
  | letIn bindings body =>
    rw [Traced.evalStep]
    cases hlets : config.lets with
    | expand => exact heval l env _ henv he.letApplication
    | reject => exact Keeps.throw ⟨he.1, hlets⟩
  | define x value =>
    exact Keeps.throw he.1

end Step

/-- **Evaluation stays within a growing language, of expressions and of sequences.** -/
theorem keeps_eval {L : Supply → Language} (hL : Language.Grows L) (config : Config) :
    ∀ n, EvaluatesExprs L config (Traced.eval config n) ∧
      EvaluatesForms L config (Traced.evalSequence config n) := by
  intro n
  have hdepth : ∀ {l : Ledger} {env : Environment},
      Evaluates L config env l (throwThe Failure (depthFailure config)) :=
    Keeps.throw trivial
  -- A body has two steps fewer left than the application, so the induction is on all smaller limits.
  induction n using Nat.strongRecOn with
  | ind n ih =>
    cases n with
    | zero => exact ⟨fun _ _ _ _ _ => hdepth, fun _ _ _ _ _ _ => hdepth⟩
    | succ n =>
      have hparts := (ih n (by omega)).1
      refine ⟨fun l env e henv he => ?_, keeps_evalForms hL hparts⟩
      rw [Traced.eval_succ]
      exact keeps_evalStep hL hparts (ih (n - 1) (by omega)).2 l env e henv he

/-! ### Evaluation without a ledger -/

/-- How a step that keeps to the language ends: with no less handed out, and with a value within the language or with a
failure that it admits. -/
def Ends (L : Supply → Language) (config : Config) (env : Environment) (s : Supply) :
    EStateM.Result Failure Supply Value → Prop
  | .ok v s' => s ≤ s' ∧ v.Within (L s')
  | .error f s' => s ≤ s' ∧ (L s').Permits config env f

theorem Keeps.ends {L : Supply → Language} {config : Config} {env : Environment} {s : Supply}
    {t : Traced Value} {m : Run Value} (ht : Evaluates L config env (.blank s) t) (h : Erases t m) :
    Ends L config env s (m s) := by
  have hs : eraseNotes (t (.blank s)) = m s := h (.blank s)
  rw [Evaluates, Keeps] at ht
  rw [← hs]
  cases htl : t (.blank s) with
  | ok v l' =>
    rw [htl] at ht
    exact ⟨ht.1.supply, ht.2⟩
  | error f l' =>
    rw [htl] at ht
    exact ⟨ht.1.supply, ht.2⟩

theorem eval_ends {L : Supply → Language} (hL : Language.Grows L) (config : Config) (n : Nat)
    {s : Supply} {env : Environment} {e : Expr} (henv : env.Within (L s)) (he : e.Within (L s) []) :
    Ends L config env s (eval config n env e s) :=
  Keeps.ends ((keeps_eval hL config n).1 (.blank s) env e henv he) ((erases_eval config n).1 env e)

theorem evalSequence_ends {L : Supply → Language} (hL : Language.Grows L) (config : Config) (n : Nat)
    {s : Supply} {env : Environment} {es : List Expr} (henv : env.Within (L s)) (hes : ∀ e ∈ es, e.WithinForm (L s))
    (hvalue : NoValue es → (L s).emptyBodies ∨ (L s).definitions) :
    Ends L config env s (evalSequence config n env es s) :=
  Keeps.ends ((keeps_eval hL config n).2 (.blank s) env es henv hes hvalue) ((erases_eval config n).2 env es)

/-- How a list of operands ends. -/
theorem operands_end {L : Supply → Language} (hL : Language.Grows L) (config : Config) (n : Nat)
    {s : Supply} {env : Environment} {es : List Expr} (henv : env.Within (L s))
    (hes : ∀ e ∈ es, e.Within (L s) []) :
    match es.mapM (eval config n env) s with
    | .ok vs s' => s ≤ s' ∧ ∀ v ∈ vs, v.Within (L s')
    | .error _ s' => s ≤ s' := by
  have hkeeps := keeps_operands hL (keeps_eval hL config n).1 (l := .blank s) henv hes
  have herases := Erases.mapM ((erases_eval config n).1 env) es (.blank s)
  rw [Keeps] at hkeeps
  cases hr : es.mapM (Traced.eval config n env) (.blank s) with
  | ok vs l' =>
    rw [hr] at hkeeps herases
    rw [← show _ = es.mapM (eval config n env) s from herases]
    exact ⟨hkeeps.1.supply, hkeeps.2⟩
  | error f l' =>
    rw [hr] at hkeeps herases
    rw [← show _ = es.mapM (eval config n env) s from herases]
    exact hkeeps.1.supply

end SubstModel
