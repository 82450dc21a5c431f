import SubstModel.Proofs.Dispatcher.Specialised
import SubstModel.Proofs.Nameless.Evaluator
import SubstModel.Proofs.Run

/-!
# Evaluation factors through nameless terms

Evaluation by substitution makes names, renames, and looks names up by how they are spelled; what it comes to depends on
none of that.  The evaluator without names goes through the terms in step with it, and comes to what is left of its
values.  The one primitive that sees names is `equal?`, so programs must do without it.

* `Language.discreet` — all that is not `equal?`, with names that have been handed out;
* `MarksFrom` — the references that are handed out next have the marks that are handed out next;
* `Mirrors` — a step comes to what is left of the other's result, or the two fail alike;
* `mirrors_applyBody`, `mirrors_instantiate`, `mirrors_send`, `mirrors_apply` — application;
* `mirrors_step`, `mirrors_forms` — one step, and sequences;
* `mirrors_eval` — **evaluation by substitution comes to what evaluation without names comes to**.
-/

namespace SubstModel

/-! ### Values -/

section Values

variable {ι : Type}

/-- What is left of a value looks like the value. -/
theorem Value.nameless_respects (g : Ref → ι) : Respects fun (v : Value) (w : TermValue ι) => v.nameless g = w := by
  have hlist : ∀ vs, Value.nameless g (.list vs) = .list (vs.map (Value.nameless g)) := fun vs =>
    congrArg TermValue.list (Value.namelessAll_eq_map g vs)
  refine respects_map (fun v => ?_) (fun _ => rfl) (fun _ => rfl) hlist
  cases v with
  | list vs =>
    rw [hlist]
    rfl
  | _ => rfl

theorem Value.isTrue_nameless (g : Ref → ι) (v : Value) : (v.nameless g).isTrue = v.isTrue := by
  cases v with
  | boolean b => cases b <;> rfl
  | _ => rfl

/-- Where no two references have one mark, identity of values is identity of what is left of them. -/
theorem Value.identical_nameless [DecidableEq ι] {g : Ref → ι} (hg : Function.Injective g) (v w : Value) :
    (v.nameless g).identical (w.nameless g) = v.identical w := by
  have hmark : ∀ r r' : Ref, decide (g r = g r') = (r == r') := by
    intro r r'
    exact decide_eq_decide.2 hg.eq_iff
  cases v with
  | list vs => cases w with
    | list ws =>
      show ((Value.namelessAll g vs).isEmpty && (Value.namelessAll g ws).isEmpty) = (vs.isEmpty && ws.isEmpty)
      rw [Value.namelessAll_eq_map, Value.namelessAll_eq_map, List.isEmpty_map, List.isEmpty_map]
    | _ => rfl
  | closure r => cases w with
    | closure r' => exact hmark r r'
    | _ => rfl
  | classDef r => cases w with
    | classDef r' => exact hmark r r'
    | _ => rfl
  | object r => cases w with
    | object r' => exact hmark r r'
    | _ => rfl
  | _ => cases w <;> rfl

end Values

/-! ### Environments and methods -/

/-- What is left of the definitions. -/
def Environment.nameless (g : Ref → Nat) (env : Environment) : Nameless.Globals :=
  env.bindings.map fun b => (b.1, b.2.nameless g)

theorem Environment.lookup_nameless (g : Ref → Nat) (env : Environment) (x : String) :
    (env.nameless g).lookup x = (env.get? x).map (Value.nameless g) :=
  lookup_map_of_injective Function.injective_id (Value.nameless g) env.bindings x

theorem findMethod?_nameless {ι : Type} (g : Ref → ι) (methods : List (String × Expr)) (name : String) :
    ((methods.map Prod.fst).zip (Expr.namelessPairs g [] [] methods)).lookup name
      = (findMethod? methods name).map (Expr.nameless g [] []) := by
  rw [Expr.namelessPairs_eq_map, List.zip_map']
  exact lookup_map_of_injective Function.injective_id (Expr.nameless g [] []) methods name

theorem Expr.isLambda_nameless {ι : Type} (g : Ref → ι) (e : Expr) :
    (e.nameless g [] []).isLambda = e.isLambda := by
  cases e <;> rfl

/-- Methods are refused by what is left of them. -/
theorem requireLambdas_nameless {ι : Type} (g : Ref → ι) (methods : List (String × Expr)) :
    if (Expr.namelessPairs g [] [] methods).all Term.isLambda then requireLambdas methods = .ok ()
    else ∃ fault, requireLambdas methods = .error (.malformedInstance fault) := by
  induction methods with
  | nil => exact rfl
  | cons m methods ih =>
    rw [Expr.namelessPairs, List.all_cons, Expr.isLambda_nameless, requireLambdas]
    cases m.2.isLambda with
    | true => exact ih
    | false => exact ⟨_, rfl⟩

/-! ### Steps in step -/

/-- What is not `equal?`. -/
def Language.discreet : Language where
  primitive p := p ≠ .equal

/-- What is not `equal?`, with names up to the count of the supply. -/
def Language.discreetUpTo (s : Supply) : Language where
  name := NumberedUpTo s.issued
  binders := List.Nodup
  primitive p := p ≠ .equal
  definitions := False

theorem Language.discreetUpTo_grows : Language.Grows Language.discreetUpTo where
  mono h := ⟨fun hx => hx.mono h.1, id, id, id, id, id, id, id, id, id, id⟩
  name h := numberedUpTo_freshName.2 h
  binders := nodup_freshNames _ _
  ref _ := trivial

/-- The references that the supply hands out next have the marks from `k` on. -/
def MarksFrom (g : Ref → Nat) (s : Supply) (k : Nat) : Prop :=
  ∀ i, g (s.allocated + i) = k + i

theorem MarksFrom.allocate {g : Ref → Nat} {s : Supply} {k : Nat} (h : MarksFrom g s k) :
    MarksFrom g { s with allocated := s.allocated + 1 } (k + 1) := by
  intro i
  have hnext := h (1 + i)
  rwa [← Nat.add_assoc, ← Nat.add_assoc] at hnext

/-- A step comes to a result of which `f` takes the other one's, and the two hand out corresponding references and marks
next; or they fail, and the failures are of one kind. -/
def Mirrors {α β : Type} (g : Ref → Nat) (f : α → β) :
    EStateM.Result Failure Supply α → EStateM.Result Failure.Kind Nat β → Prop
  | .ok a s, .ok b k => f a = b ∧ MarksFrom g s k
  | .error e _, .error kind _ => e.kind = kind
  | _, _ => False

theorem Mirrors.bind {α β γ δ : Type} {g : Ref → Nat} {f : α → β} {f' : γ → δ} {m : Run α}
    {m' : Nameless.Steps β} {next : α → Run γ} {next' : β → Nameless.Steps δ} {s : Supply} {k : Nat}
    (h : Mirrors g f (m s) (m' k))
    (hnext : ∀ a s' k', m s = .ok a s' → MarksFrom g s' k' → Mirrors g f' (next a s') (next' (f a) k')) :
    Mirrors g f' ((m >>= next) s) ((m' >>= next') k) := by
  cases hm : m s with
  | ok a s' =>
    cases hm' : m' k with
    | ok b k' =>
      rw [hm, hm'] at h
      obtain ⟨rfl, hmarks⟩ := h
      rw [Run.bind_of_ok hm, Run.bind_of_ok hm']
      exact hnext a s' k' hm hmarks
    | error kind k' =>
      rw [hm, hm'] at h
      exact absurd h id
  | error e s' =>
    cases hm' : m' k with
    | ok b k' =>
      rw [hm, hm'] at h
      exact absurd h id
    | error kind k' =>
      rw [hm, hm'] at h
      rw [Run.bind_of_error hm, Run.bind_of_error hm']
      exact h

/-- Evaluation of expressions comes to what evaluation of their terms comes to, with so many steps left. -/
def MirrorsExprs (config : Config) (g : Ref → Nat) (n : Nat) : Prop :=
  ∀ {s : Supply} {k : Nat} {env : Environment} {e : Expr}, MarksFrom g s k →
    env.Within (.discreetUpTo s) → e.Within (.discreetUpTo s) [] →
    Mirrors g (Value.nameless g) (eval config n env e s)
      (Nameless.eval config n (env.nameless g) (e.nameless g [] []) k)

/-- Evaluation of sequences comes to what evaluation of their terms comes to, with so many steps left. -/
def MirrorsForms (config : Config) (g : Ref → Nat) (n : Nat) : Prop :=
  ∀ {s : Supply} {k : Nat} {env : Environment} {es : List Expr}, MarksFrom g s k →
    env.Within (.discreetUpTo s) → (∀ e ∈ es, e.WithinForm (.discreetUpTo s)) →
    Mirrors g (Value.nameless g) (evalSequence config n env es s)
      (Nameless.sequence config n (env.nameless g) (Expr.namelessAll g [] [] es) k)

/-- Behind the evaluation of an expression everything is within the language, at the supply of that time. -/
theorem MirrorsExprs.bind {config : Config} {g : Ref → Nat} {n : Nat} (heval : MirrorsExprs config g n)
    {β γ : Type} {f : β → γ} {s : Supply} {k : Nat} {env : Environment} {e : Expr} {next : Value → Run β}
    {next' : TermValue Nat → Nameless.Steps γ} (hmarks : MarksFrom g s k) (henv : env.Within (.discreetUpTo s))
    (he : e.Within (.discreetUpTo s) [])
    (hnext : ∀ v s' k', Language.discreetUpTo s ≤ Language.discreetUpTo s' → v.Within (.discreetUpTo s') →
      MarksFrom g s' k' → Mirrors g f (next v s') (next' (v.nameless g) k')) :
    Mirrors g f ((eval config n env e >>= next) s)
      ((Nameless.eval config n (env.nameless g) (e.nameless g [] []) >>= next') k) := by
  refine (heval hmarks henv he).bind fun v s' k' hv hmarks' => ?_
  have hends := eval_ends Language.discreetUpTo_grows config n henv he
  rw [hv] at hends
  exact hnext v s' k' (Language.discreetUpTo_grows.mono hends.1) hends.2 hmarks'

/-! ### Application -/

theorem mirrors_primitive {g : Ref → Nat} (hg : Function.Injective g) {p : Primitive} (hp : p ≠ .equal)
    (args : List Value) {s : Supply} {k : Nat} (hmarks : MarksFrom g s k) :
    Mirrors g (Value.nameless g) (Run.ofOutcome (p.apply args) s)
      (Nameless.ofExcept (Nameless.applyPrimitive p (Value.namelessAll g args)) k) := by
  by_cases hid : p = .identical
  · subst hid
    match args with
    | [v, w] =>
      refine ⟨?_, hmarks⟩
      show TermValue.boolean (v.identical w) = .boolean ((v.nameless g).identical (w.nameless g))
      rw [Value.identical_nameless hg]
    | [] | [_] | _ :: _ :: _ :: _ => rfl
  · have hargs : List.Forall₂ (fun (v : Value) w => v.nameless g = w) args (Value.namelessAll g args) := by
      rw [Value.namelessAll_eq_map, List.forall₂_map_right_iff]
      exact List.forall₂_same.2 fun _ _ => rfl
    have hrelated := Primitive.apply_related (Value.nameless_respects g) hid hp hargs
    have hother : Nameless.applyPrimitive p (Value.namelessAll g args) = p.applyOn (Value.namelessAll g args) := by
      cases p with
      | identical => exact absurd rfl hid
      | _ => rfl
    rw [hother]
    generalize p.apply args = r, p.applyOn (Value.namelessAll g args) = r' at hrelated
    cases hrelated with
    | ok h => exact ⟨h, hmarks⟩
    | error h => exact rfl

section Application

variable {config : Config} {g : Ref → Nat} {n : Nat} {s : Supply} {k : Nat} {env : Environment}

/-- Names that have been handed out meet no new ones, so what is put in for parameters is what they are instantiated
by. -/
theorem nameless_body_within (g : Ref → Nat) {params : List String} {body : List Expr} {args : List Value}
    (hparams : (Language.discreetUpTo s).Binds params)
    (hbody : Expr.WithinAll (.discreetUpTo s) params.reverse body)
    (hargs : ∀ v ∈ args, v.Within (.discreetUpTo s)) (hlen : params.length = args.length) :
    Expr.namelessAll g [] [] (substitute params (args.map Value.toExpr) (rename s.issued body))
      = Term.instantiateAll 0 (Value.namelessAll g args).reverse (Expr.namelessAll g [] params.reverse body) :=
  nameless_application g hparams.1 hlen (fun _ hx => Expr.Within.name_of_freeInAny body hbody hx)
    fun v hv _ hx => Expr.Within.name_of_freeIn _ (hargs v hv).toExpr hx

theorem mirrors_applyBody (hrun : MirrorsForms config g n) (hmarks : MarksFrom g s k)
    (henv : env.Within (.discreetUpTo s)) {params : List String} {body : List Expr} {args : List Value}
    (hparams : (Language.discreetUpTo s).Binds params)
    (hbody : Expr.WithinAll (.discreetUpTo s) params.reverse body)
    (hargs : ∀ v ∈ args, v.Within (.discreetUpTo s)) (hlen : params.length = args.length) :
    Mirrors g (Value.nameless g) (applyBody (evalSequence config n env) params body args s)
      (Nameless.applyBody (Nameless.sequence config n (env.nameless g)) params.length
        (Expr.namelessAll g [] params.reverse body) (Value.namelessAll g args) k) := by
  have hle : s ≤ { s with issued := issuedAfter s.issued body } :=
    ⟨Nat.le_add_right _ _, Nat.le_refl _⟩
  have hwithin := applied_within Language.discreetUpTo_grows hle rfl hlen hargs hbody
  have hlen' : params.length = (Value.namelessAll g args).length := by
    rw [Value.namelessAll_eq_map, List.length_map, hlen]
  rw [Nameless.applyBody, if_pos hlen', ← nameless_body_within g hparams hbody hargs hlen]
  have hmarks' : MarksFrom g { s with issued := issuedAfter s.issued body } k := hmarks
  refine hrun hmarks' (henv.mono (Language.discreetUpTo_grows.mono hle)) fun e he => ?_
  exact (Expr.withinAll_iff.1 hwithin e he).form

/-- Where the numbers of parameters and of arguments differ, so they do for the terms. -/
theorem mirrors_applyBody_arity {params : List String} {body : List (Term Nat)} {args : List Value}
    (hlen : params.length ≠ args.length) {callee : Callee} (run : List (Term Nat) → Nameless.Steps (TermValue Nat)) :
    Mirrors g (Value.nameless g)
      ((throw (.arity params.length args.length (some callee)) : Run Value) s)
      (Nameless.applyBody run params.length body (Value.namelessAll g args) k) := by
  have hlen' : params.length ≠ (Value.namelessAll g args).length := by
    rwa [Value.namelessAll_eq_map, List.length_map]
  rw [Nameless.applyBody, if_neg hlen']
  exact rfl

theorem mirrors_instantiate (hmarks : MarksFrom g s k) {r : Ref} {fields : List String}
    {methods : List (String × Expr)} (hclass : (Value.classDef r fields methods).Within (.discreetUpTo s))
    {args : List Value} (hargs : ∀ v ∈ args, v.Within (.discreetUpTo s)) :
    Mirrors g (Value.nameless g) (instantiate fields methods args s)
      (Nameless.instantiate fields.length (methods.map Prod.fst)
        (Expr.namelessPairs g [] fields.reverse methods) (Value.namelessAll g args) k) := by
  obtain ⟨-, -, hfields, -, hmethods⟩ := hclass
  have hlength : (Value.namelessAll g args).length = args.length := by
    rw [Value.namelessAll_eq_map, List.length_map]
  rw [Nameless.instantiate, hlength]
  by_cases hlen : fields.length = args.length
  · rw [if_pos hlen]
    have hbodies : Expr.WithinAll (.discreetUpTo s) fields.reverse (methods.map Prod.snd) :=
      Expr.withinAll_map_snd.2 hmethods
    let made := specialised s.issued fields args methods
    have hterms : Expr.namelessPairs g [] [] made
        = Term.instantiateAll 0 (Value.namelessAll g args).reverse
          (Expr.namelessPairs g [] fields.reverse methods) := by
      rw [Expr.namelessPairs_eq_namelessAll, map_snd_specialised, nameless_body_within g hfields hbodies hargs hlen,
        Expr.namelessPairs_eq_namelessAll]
    have hlambdas := requireLambdas_nameless g made
    rw [instantiate_of_length hlen, ← hterms, ← map_fst_specialised s.issued fields args methods]
    by_cases hall : (Expr.namelessPairs g [] [] made).all Term.isLambda = true
    · rw [if_pos hall] at hlambdas
      rw [if_pos hall, hlambdas]
      have hmark : g s.allocated = k := hmarks 0
      refine ⟨?_, hmarks.allocate⟩
      rw [Value.nameless, hmark]
    · rw [if_neg hall] at hlambdas
      obtain ⟨fault, hfault⟩ := hlambdas
      rw [if_neg hall, hfault]
      exact rfl
  · rw [instantiate, if_neg hlen, if_neg hlen]
    exact rfl

theorem mirrors_send (hrun : MirrorsForms config g n) (hmarks : MarksFrom g s k)
    (henv : env.Within (.discreetUpTo s)) {r : Ref} {fields : List String} {methods : List (String × Expr)}
    (hobject : (Value.object r fields methods).Within (.discreetUpTo s)) {args : List Value}
    (hargs : ∀ v ∈ args, v.Within (.discreetUpTo s)) :
    Mirrors g (Value.nameless g) (send (evalSequence config n env) methods args s)
      (Nameless.send (Nameless.sequence config n (env.nameless g)) (methods.map Prod.fst)
        (Expr.namelessPairs g [] [] methods) (Value.namelessAll g args) k) := by
  obtain ⟨-, -, -, -, hmethods⟩ := hobject
  cases args with
  | nil => exact rfl
  | cons v args =>
    cases v with
    | symbol name =>
      rw [send, Value.namelessAll, Value.nameless, Nameless.send, findMethod?_nameless]
      cases hm : findMethod? methods name with
      | none => exact rfl
      | some method =>
        cases method with
        | lambda params body =>
          obtain ⟨hparams, -, hbody⟩ := Expr.withinPairs_iff.1 hmethods _ (mem_of_lookup_eq_some hm)
          rw [List.append_nil] at hbody
          rw [Option.map_some, Expr.nameless, List.append_nil]
          by_cases hlen : params.length = args.length
          · show Mirrors g (Value.nameless g) ((if _ then _ else _ : Run Value) s) _
            rw [if_pos hlen]
            exact mirrors_applyBody hrun hmarks henv hparams hbody
              (fun v hv => hargs v (List.mem_cons_of_mem _ hv)) hlen
          · show Mirrors g (Value.nameless g) ((if _ then _ else _ : Run Value) s) _
            rw [if_neg hlen]
            exact mirrors_applyBody_arity hlen _
        | _ => exact rfl
    | _ => exact rfl

/-- **A value applied to values comes to what is left of them applied to one another.** -/
theorem mirrors_apply (hg : Function.Injective g) (hrun : MirrorsForms config g n) (hmarks : MarksFrom g s k)
    (henv : env.Within (.discreetUpTo s)) {v : Value} (hv : v.Within (.discreetUpTo s)) {args : List Value}
    (hargs : ∀ v ∈ args, v.Within (.discreetUpTo s)) :
    Mirrors g (Value.nameless g) (applyProcedure (evalSequence config n env) v args s)
      (Nameless.apply (Nameless.sequence config n (env.nameless g)) (v.nameless g) (Value.namelessAll g args) k) := by
  cases v with
  | primitive p => exact mirrors_primitive hg hv args hmarks
  | closure r params body =>
    obtain ⟨-, hparams, -, hbody⟩ := hv
    rw [applyProcedure, Value.nameless, Nameless.apply]
    by_cases hlen : params.length = args.length
    · rw [if_pos hlen]
      exact mirrors_applyBody hrun hmarks henv hparams hbody hargs hlen
    · rw [if_neg hlen]
      exact mirrors_applyBody_arity hlen _
  | classDef r fields methods => exact mirrors_instantiate hmarks hv hargs
  | object r fields methods => exact mirrors_send hrun hmarks henv hv hargs
  | number | boolean | string | symbol | list => exact rfl

end Application

/-! ### Evaluation -/

section Step

variable {config : Config} {g : Ref → Nat} {n : Nat} {env : Environment}

theorem mirrors_lookup (env : Environment) (x : String) {s : Supply} {k : Nat} (hmarks : MarksFrom g s k) :
    Mirrors g (Value.nameless g) (Run.ofOutcome (env.lookup x) s)
      (Nameless.ofExcept (Nameless.lookup (env.nameless g) x) k) := by
  rw [Environment.lookup, Nameless.lookup, Environment.lookup_nameless]
  cases env.get? x with
  | none => exact rfl
  | some v => exact ⟨rfl, hmarks⟩

theorem mirrors_operands (heval : MirrorsExprs config g n) (es : List Expr) {s : Supply} {k : Nat}
    (hmarks : MarksFrom g s k) (henv : env.Within (.discreetUpTo s))
    (hes : ∀ e ∈ es, e.Within (.discreetUpTo s) []) :
    Mirrors g (Value.namelessAll g) (es.mapM (eval config n env) s)
      ((Expr.namelessAll g [] [] es).mapM (Nameless.eval config n (env.nameless g)) k) := by
  induction es generalizing s k with
  | nil => exact ⟨rfl, hmarks⟩
  | cons e es ih =>
    rw [Expr.namelessAll, List.mapM_cons, List.mapM_cons]
    refine heval.bind hmarks henv (hes e List.mem_cons_self) fun v s₁ k₁ hle _ hmarks₁ => ?_
    refine (ih hmarks₁ (henv.mono hle) fun e he => ?_).bind fun vs s₂ k₂ _ hmarks₂ => ?_
    · exact Expr.Within.mono hle (List.Subset.refl _) e (hes e (List.mem_cons_of_mem _ he))
    · exact ⟨rfl, hmarks₂⟩

theorem mirrors_cond (heval : MirrorsExprs config g n) {s : Supply} {k : Nat} (hmarks : MarksFrom g s k)
    (henv : env.Within (.discreetUpTo s)) {test onTrue onFalse : Expr}
    (he : (Expr.cond test onTrue onFalse).Within (.discreetUpTo s) []) :
    Mirrors g (Value.nameless g) (eval config (n + 1) env (.cond test onTrue onFalse) s)
      (Nameless.eval config (n + 1) (env.nameless g) ((Expr.cond test onTrue onFalse).nameless g [] []) k) := by
  obtain ⟨htest, hTrue, hFalse⟩ := he
  rw [eval_succ, Nameless.eval_succ]
  refine heval.bind hmarks henv htest fun v s' k' hle _ hmarks' => ?_
  rw [Value.isTrue_nameless]
  by_cases hv : v.isTrue = true
  · rw [if_pos hv, if_pos hv]
    exact heval hmarks' (henv.mono hle) (Expr.Within.mono hle (List.Subset.refl _) _ hTrue)
  · rw [if_neg hv, if_neg hv]
    exact heval hmarks' (henv.mono hle) (Expr.Within.mono hle (List.Subset.refl _) _ hFalse)

theorem mirrors_app (hg : Function.Injective g) (heval : MirrorsExprs config g n)
    (hrun : MirrorsForms config g (n - 1)) {s : Supply} {k : Nat} (hmarks : MarksFrom g s k)
    (henv : env.Within (.discreetUpTo s)) {operator : Expr} {operands : List Expr}
    (he : (Expr.app operator operands).Within (.discreetUpTo s) []) :
    Mirrors g (Value.nameless g) (eval config (n + 1) env (.app operator operands) s)
      (Nameless.eval config (n + 1) (env.nameless g) ((Expr.app operator operands).nameless g [] []) k) := by
  obtain ⟨hoperator, hoperands⟩ := he
  rw [eval_succ, Nameless.eval_succ]
  refine heval.bind hmarks henv hoperator fun v s₁ k₁ hle₁ hv hmarks₁ => ?_
  have henv₁ := henv.mono hle₁
  have hoperands₁ := Expr.withinAll_iff.1 (Expr.Within.monoAll hle₁ (List.Subset.refl _) operands hoperands)
  refine (mirrors_operands heval operands hmarks₁ henv₁ hoperands₁).bind fun vs s₂ k₂ hvs hmarks₂ => ?_
  have hends := operands_end Language.discreetUpTo_grows config n henv₁ hoperands₁
  rw [hvs] at hends
  have hle₂ := Language.discreetUpTo_grows.mono hends.1
  exact mirrors_apply hg hrun hmarks₂ (henv₁.mono hle₂) (Value.Within.mono hle₂ _ hv) hends.2

/-- **One step of evaluation comes to what the step without names comes to.** -/
theorem mirrors_step (hg : Function.Injective g) (heval : MirrorsExprs config g n)
    (hrun : MirrorsForms config g (n - 1)) : MirrorsExprs config g (n + 1) := by
  intro s k env e hmarks henv he
  have hmark : g s.allocated = k := hmarks 0
  cases e with
  | number | boolean | string | primitive | quoted =>
    rw [eval_succ, Nameless.eval_succ]
    exact ⟨rfl, hmarks⟩
  | var x =>
    rw [eval_succ, Nameless.eval_succ, Expr.nameless, Term.ofVar_of_free List.not_mem_nil rfl]
    exact mirrors_lookup env x hmarks
  | cond test onTrue onFalse => exact mirrors_cond heval hmarks henv he
  | lambda params body =>
    rw [eval_succ, Nameless.eval_succ, Expr.nameless, List.append_nil]
    refine ⟨?_, hmarks.allocate⟩
    rw [Value.nameless, hmark]
  | classDef fields methods =>
    rw [eval_succ, Nameless.eval_succ, Expr.nameless, List.append_nil]
    refine ⟨?_, hmarks.allocate⟩
    rw [Value.nameless, hmark]
  | app operator operands => exact mirrors_app hg heval hrun hmarks henv he
  | letIn bindings body =>
    rw [eval_succ, Nameless.eval_succ, evalStep, Expr.nameless, Nameless.step]
    cases config.lets with
    | expand =>
      have happlication := heval hmarks henv he.letApplication
      rw [nameless_letApplication] at happlication
      exact happlication
    | reject => exact rfl
  | define x value => exact absurd he.1 id

theorem mirrors_forms (heval : MirrorsExprs config g n) : MirrorsForms config g (n + 1) := by
  intro s k env es hmarks henv hes
  show Mirrors g (Value.nameless g) (evalForms (eval config n) env es s)
    (Nameless.forms (Nameless.eval config n) (env.nameless g) (Expr.namelessAll g [] [] es) k)
  fun_induction evalForms (eval config n) env es generalizing s k with
  | case1 env => exact rfl
  | case2 env x e rest ih =>
    obtain ⟨hx, he⟩ := hes _ List.mem_cons_self
    refine heval.bind hmarks henv he fun v s' k' hle hv hmarks' => ?_
    exact ih v hmarks' ((henv.mono hle).extend (hle.name hx) hv)
      fun e' he' => (hes e' (List.mem_cons_of_mem _ he')).mono hle
  | case3 env e hdef =>
    have he := (hes e (List.mem_singleton_self e)).expr hdef
    rw [Expr.namelessAll, Expr.namelessAll, Nameless.forms]
    · exact heval hmarks henv he
    · exact nameless_ne_define hdef
  | case4 env e rest hdef hne ih =>
    have he := (hes e List.mem_cons_self).expr hdef
    rw [Expr.namelessAll, Nameless.forms]
    · refine heval.bind hmarks henv he fun v s' k' hle _ hmarks' => ?_
      exact ih hmarks' (henv.mono hle) fun e' he' => (hes e' (List.mem_cons_of_mem _ he')).mono hle
    · exact nameless_ne_define hdef
    · intro hnil
      cases rest with
      | nil => exact hne rfl
      | cons => cases hnil

end Step

/-- **Evaluation by substitution comes to what evaluation without names comes to, whatever number of steps is left.** -/
theorem mirrors_eval (config : Config) {g : Ref → Nat} (hg : Function.Injective g) :
    ∀ n, MirrorsExprs config g n ∧ MirrorsForms config g n := by
  intro n
  induction n using Nat.strongRecOn with
  | ind n ih =>
    cases n with
    | zero => exact ⟨fun _ _ _ => rfl, fun _ _ _ => rfl⟩
    | succ n =>
      have hparts : MirrorsExprs config g n := (ih n (by omega)).1
      have hbodies : MirrorsForms config g (n - 1) := (ih (n - 1) (by omega)).2
      exact ⟨mirrors_step hg hparts hbodies, mirrors_forms hparts⟩

end SubstModel
