import SubstModel.Proofs.LetExpansion.Renaming
import SubstModel.Proofs.Nameless.Evaluation

/-!
# Evaluation without local bindings — in step, with other numbers

A `let` that is evaluated late has been renamed and substituted into as a `let`.  Evaluation of what was expanded before
keeps in step with it: at every application the two hand out the same numbers, and the renumbering that tells which
binder has got which is extended.  The expanded side needs no step to expand a `let`, so it may have more steps left.

* `Expr.expanded`, `Value.expanded`, `Environment.expanded` — without local bindings, and with other numbers;
* `Expands` — a step comes to what becomes of the other's result, or the two fail alike, or the other one comes to the
  limit;
* `exists_expanded_application` — what is put into a body that is renamed;
* `expands_call`, `expands_instantiate`, `expands_send`, `expands_apply` — application;
* `expands_step`, `expands_forms` — one step, and sequences;
* `expands_eval` — **evaluation of what is expanded keeps in step with evaluation that expands**.
-/

namespace SubstModel

/-! ### Expanded and renumbered -/

/-- The expression without its local bindings, relabelled. -/
def Expr.expanded (ρ : Relabelling) (e : Expr) : Expr :=
  e.withoutLets.relabel ρ

/-- The expressions without their local bindings, relabelled. -/
def Expr.expandedAll (ρ : Relabelling) (es : List Expr) : List Expr :=
  Expr.relabelAll ρ (Expr.withoutLetsAll es)

/-- The methods without their local bindings, relabelled. -/
def Expr.expandedMethods (ρ : Relabelling) (methods : List (String × Expr)) : List (String × Expr) :=
  Expr.relabelPairs ρ id (Expr.withoutLetsPairs methods)

/-- The value without its local bindings, relabelled. -/
def Value.expanded (ρ : Relabelling) (v : Value) : Value :=
  v.withoutLets.relabel ρ

/-- The definitions without their local bindings, relabelled. -/
def Environment.expanded (ρ : Relabelling) (env : Environment) : Environment :=
  ⟨env.bindings.map fun b => (ρ.name b.1, b.2.expanded ρ)⟩

section Expanded

variable (ρ : Relabelling)

theorem Expr.expandedAll_eq_map (es : List Expr) : Expr.expandedAll ρ es = es.map (Expr.expanded ρ) := by
  rw [Expr.expandedAll, Expr.relabelAll_eq_map, Expr.withoutLetsAll_eq_map, List.map_map]
  rfl

theorem Expr.expandedMethods_eq_map (methods : List (String × Expr)) :
    Expr.expandedMethods ρ methods = methods.map fun m => (m.1, m.2.expanded ρ) := by
  rw [Expr.expandedMethods, Expr.relabelPairs_eq_map, Expr.withoutLetsPairs_eq_map, List.map_map]
  rfl

theorem Expr.map_fst_expandedMethods (methods : List (String × Expr)) :
    (Expr.expandedMethods ρ methods).map Prod.fst = methods.map Prod.fst := by
  rw [Expr.expandedMethods_eq_map, List.map_map]
  rfl

theorem Expr.map_snd_expandedMethods (methods : List (String × Expr)) :
    (Expr.expandedMethods ρ methods).map Prod.snd = Expr.expandedAll ρ (methods.map Prod.snd) := by
  rw [Expr.expandedMethods, Expr.map_snd_relabelPairs, Expr.map_snd_withoutLetsPairs, Expr.expandedAll]

theorem Expr.binderCountAll_expanded (es : List Expr) :
    Expr.binderCountAll (Expr.expandedAll ρ es) = Expr.binderCountAll es := by
  rw [Expr.expandedAll, Expr.binderCountAll_relabel, Expr.binderCountAll_withoutLets]

theorem Expr.expanded_letApplication (bs : List (String × Expr)) (body : List Expr) :
    (letApplication bs body).expanded ρ = (Expr.letIn bs body).expanded ρ := by
  rw [Expr.expanded, Expr.expanded, letApplication, Expr.withoutLets, Expr.withoutLets, Expr.withoutLets,
    letApplication, Expr.map_fst_withoutLetsPairs, Expr.map_snd_withoutLetsPairs]

theorem Expr.expanded_ne_define {e : Expr} (h : ∀ x value, e ≠ .define x value) :
    ∀ x value, e.expanded ρ ≠ .define x value := by
  intro x value heq
  cases e with
  | define y value' => exact h y value' rfl
  | _ => cases heq

theorem Value.identical_withoutLets (v w : Value) : v.withoutLets.identical w.withoutLets = v.identical w := by
  cases v with
  | list vs => cases w with
    | list ws => cases vs <;> cases ws <;> rfl
    | _ => rfl
  | _ => cases w <;> rfl

theorem Value.expanded_respects : Respects fun v w : Value => v.expanded ρ = w := by
  have hlist : ∀ vs, Value.expanded ρ (.list vs) = .list (vs.map (Value.expanded ρ)) := by
    intro vs
    show Value.list (Value.relabelAll ρ (Value.withoutLetsAll vs)) = _
    rw [Value.relabelAll_eq_map, Value.withoutLetsAll_eq_map, List.map_map]
    rfl
  refine respects_map (fun v => ?_) (fun _ => rfl) (fun _ => rfl) hlist
  cases v with
  | list vs =>
    rw [hlist]
    rfl
  | _ => rfl

theorem Value.isTrue_expanded (v : Value) : (v.expanded ρ).isTrue = v.isTrue := by
  cases v <;> rfl

theorem Primitive.apply_expanded {p : Primitive} (hp : p ≠ .equal) (args : List Value) :
    Outcome.Alike (Value.expanded ρ) (p.apply args) (p.apply (args.map (Value.expanded ρ))) := by
  refine apply_map (Value.expanded_respects ρ) (fun v w => ?_) (fun h => absurd h hp) args
  rw [Value.expanded, Value.expanded, Value.identical_relabel, Value.identical_withoutLets]

theorem Environment.lookup_expanded (env : Environment) (x : String) :
    Outcome.Alike (Value.expanded ρ) (env.lookup x) ((env.expanded ρ).lookup (ρ.name x)) :=
  alike_lookup (lookup_map_of_injective ρ.name_injective (Value.expanded ρ) env.bindings x)

theorem findMethod?_expanded (methods : List (String × Expr)) (name : String) :
    findMethod? (Expr.expandedMethods ρ methods) name = (findMethod? methods name).map (Expr.expanded ρ) := by
  rw [findMethod?, Expr.expandedMethods_eq_map]
  exact lookup_map_of_injective Function.injective_id (Expr.expanded ρ) methods name

theorem requireLambdas_expanded (methods : List (String × Expr)) :
    Outcome.Alike id (requireLambdas methods) (requireLambdas (Expr.expandedMethods ρ methods)) := by
  rw [Expr.expandedMethods_eq_map]
  exact requireLambdas_map (fun e => by cases e <;> rfl) methods

end Expanded

/-! ### Later renumberings -/

section Later

variable {s : Supply} {m : Nat} {ρ : Renumbering s.issued} {ρ' : Renumbering m} (h : ρ.Extends ρ')

include h

theorem Renumbering.Extends.expr {e : Expr} {scope : List String} (he : e.Within (.discreetUpTo s) scope) :
    e.expanded ρ'.relabelling = e.expanded ρ.relabelling :=
  Expr.relabel_congr (h.agrees (L := (Language.discreetUpTo s).letless) id) _ (Expr.Within.withoutLets e he)

theorem Renumbering.Extends.exprs {es : List Expr} (hes : ∀ e ∈ es, e.Within (.discreetUpTo s) []) :
    Expr.expandedAll ρ'.relabelling es = Expr.expandedAll ρ.relabelling es :=
  Expr.relabelAll_congr (h.agrees (L := (Language.discreetUpTo s).letless) id) _
    (Expr.Within.withoutLetsAll es (Expr.withinAll_iff.2 hes))

theorem Renumbering.Extends.forms {es : List Expr} (hes : ∀ e ∈ es, e.WithinForm (.discreetUpTo s)) :
    Expr.expandedAll ρ'.relabelling es = Expr.expandedAll ρ.relabelling es := by
  rw [Expr.expandedAll_eq_map, Expr.expandedAll_eq_map]
  refine List.map_congr_left fun e he => ?_
  have hform := hes e he
  cases e with
  | define x value =>
    exact congrArg₂ Expr.define ((h.agrees (L := .discreetUpTo s) id).name hform.1) (h.expr hform.2)
  | _ =>
    have hexpr : Expr.Within _ [] _ := hform
    exact h.expr hexpr

theorem Renumbering.Extends.value {v : Value} (hv : v.Within (.discreetUpTo s)) :
    v.expanded ρ'.relabelling = v.expanded ρ.relabelling :=
  Value.relabel_congr (h.agrees (L := (Language.discreetUpTo s).letless) id) _ (Value.Within.withoutLets v hv)

theorem Renumbering.Extends.values {vs : List Value} (hvs : ∀ v ∈ vs, v.Within (.discreetUpTo s)) :
    vs.map (Value.expanded ρ'.relabelling) = vs.map (Value.expanded ρ.relabelling) :=
  List.map_congr_left fun v hv => h.value (hvs v hv)

theorem Renumbering.Extends.environment {env : Environment} (henv : env.Within (.discreetUpTo s)) :
    env.expanded ρ'.relabelling = env.expanded ρ.relabelling := by
  refine congrArg Environment.mk (List.map_congr_left fun b hb => ?_)
  obtain ⟨hname, hvalue⟩ := henv b hb
  rw [(h.agrees (L := .discreetUpTo s) id).name hname, h.value hvalue]

end Later

/-! ### Steps in step -/

/-- How a step ends when another one does the same to what is expanded.  Behind the same supply it has a result, and `f`
says what becomes of that under a renumbering that extends `ρ`; or both fail, and the failures are of one kind; or the
first one comes to the limit. -/
inductive Expands {α β : Type} (config : Config) {n : Nat} (ρ : Renumbering n) (f : Relabelling → α → β) :
    EStateM.Result Failure Supply α → EStateM.Result Failure Supply β → Prop
  | ok {a : α} {t : Supply} (ρ' : Renumbering t.issued) (later : ρ.Extends ρ') :
    Expands config ρ f (.ok a t) (.ok (f ρ'.relabelling a) t)
  | error {e e' : Failure} {t t' : Supply} (kind : e.kind = e'.kind) : Expands config ρ f (.error e t) (.error e' t')
  | depth {t : Supply} {r : EStateM.Result Failure Supply β} :
    Expands config ρ f (.error (depthFailure config) t) r

namespace Expands

variable {α β γ δ : Type} {config : Config} {n m : Nat} {ρ : Renumbering n} {ρ' : Renumbering m}
  {f : Relabelling → α → β} {g : Relabelling → γ → δ}

theorem weaken (h : ρ.Extends ρ') {r : EStateM.Result Failure Supply α} {r' : EStateM.Result Failure Supply β}
    (hr : Expands config ρ' f r r') : Expands config ρ f r r' := by
  cases hr with
  | ok ρ'' hextends => exact .ok ρ'' (h.trans hextends)
  | error hkind => exact .error hkind
  | depth => exact .depth

theorem bind {run : Run α} {run' : Run β} {next : α → Run γ} {next' : β → Run δ} {s s' : Supply}
    (h : Expands config ρ f (run s) (run' s'))
    (hnext : ∀ a t (ρ' : Renumbering t.issued), run s = .ok a t → ρ.Extends ρ' →
      Expands config ρ' g (next a t) (next' (f ρ'.relabelling a) t)) :
    Expands config ρ g ((run >>= next) s) ((run' >>= next') s') := by
  generalize hrun : run s = r at h
  generalize hrun' : run' s' = r' at h
  cases h with
  | ok ρ' hextends =>
    rw [Run.bind_of_ok hrun, Run.bind_of_ok hrun']
    exact (hnext _ _ ρ' hrun hextends).weaken hextends
  | error hkind =>
    rw [Run.bind_of_error hrun, Run.bind_of_error hrun']
    exact .error hkind
  | depth =>
    rw [Run.bind_of_error hrun]
    exact .depth

theorem ofOutcome {s : Supply} {ρ : Renumbering s.issued} {o : Outcome α} {o' : Outcome β}
    (h : Outcome.Alike (f ρ.relabelling) o o') :
    Expands config ρ f (Run.ofOutcome o s) (Run.ofOutcome o' s) := by
  cases h with
  | ok a => exact .ok ρ .rfl
  | error hkind => exact .error hkind

end Expands

/-- Evaluation of expressions that are expanded keeps in step with evaluation of expressions, with so many steps left
and no fewer on the expanded side. -/
def ExpandsExprs (config : Config) (n : Nat) : Prop :=
  ∀ {n' : Nat} {s : Supply} (ρ : Renumbering s.issued) {env : Environment} {e : Expr}, n ≤ n' →
    env.Within (.discreetUpTo s) → e.Within (.discreetUpTo s) [] →
    Expands config ρ Value.expanded (eval config n env e s)
      (eval config n' (env.expanded ρ.relabelling) (e.expanded ρ.relabelling) s)

/-- Evaluation of sequences that are expanded keeps in step with evaluation of sequences. -/
def ExpandsForms (config : Config) (n : Nat) : Prop :=
  ∀ {n' : Nat} {s : Supply} (ρ : Renumbering s.issued) {env : Environment} {es : List Expr}, n ≤ n' →
    env.Within (.discreetUpTo s) → (∀ e ∈ es, e.WithinForm (.discreetUpTo s)) →
    Expands config ρ Value.expanded (evalSequence config n env es s)
      (evalSequence config n' (env.expanded ρ.relabelling) (Expr.expandedAll ρ.relabelling es) s)

/-- Behind the evaluation of an expression everything is within the language, at the supply of that time. -/
theorem ExpandsExprs.bind {config : Config} {n n' : Nat} (heval : ExpandsExprs config n) (hn : n ≤ n') {α β : Type}
    {f : Relabelling → α → β} {s : Supply} {ρ : Renumbering s.issued} {env : Environment} {e : Expr}
    {next : Value → Run α} {next' : Value → Run β} (henv : env.Within (.discreetUpTo s))
    (he : e.Within (.discreetUpTo s) [])
    (hnext : ∀ v t (ρ' : Renumbering t.issued), ρ.Extends ρ' → Language.discreetUpTo s ≤ Language.discreetUpTo t →
      v.Within (.discreetUpTo t) → Expands config ρ' f (next v t) (next' (v.expanded ρ'.relabelling) t)) :
    Expands config ρ f ((eval config n env e >>= next) s)
      ((eval config n' (env.expanded ρ.relabelling) (e.expanded ρ.relabelling) >>= next') s) := by
  refine (heval ρ hn henv he).bind fun v t ρ' hv hextends => ?_
  have hends := eval_ends Language.discreetUpTo_grows config n henv he
  rw [hv] at hends
  exact hnext v t ρ' hextends (Language.discreetUpTo_grows.mono hends.1) hends.2

/-! ### Application -/

section Application

variable {config : Config} {n n' : Nat} {s : Supply} (ρ : Renumbering s.issued) {env : Environment}

/-- **What is put into a body that is renamed, and expanded afterwards or before**, under a renumbering of the names
that are handed out for it. -/
theorem exists_expanded_application {params : List String} {body : List Expr} {args : List Value}
    (hparams : (Language.discreetUpTo s).Binds params)
    (hbody : Expr.WithinAll (.discreetUpTo s) params.reverse body)
    (hargs : ∀ v ∈ args, v.Within (.discreetUpTo s)) :
    ∃ ρ' : Renumbering (issuedAfter s.issued body), ρ.Extends ρ' ∧
      Expr.expandedAll ρ'.relabelling (substitute params (args.map Value.toExpr) (rename s.issued body))
        = substitute (params.map ρ.relabelling.name) ((args.map (Value.expanded ρ.relabelling)).map Value.toExpr)
          (rename s.issued (Expr.expandedAll ρ.relabelling body)) := by
  obtain ⟨ρ', hextends, hrenamed⟩ := ρ.exists_extends_rename (L := .discreetUpTo s) id hbody
  have hparams' : params.map ρ'.relabelling.name = params.map ρ.relabelling.name := (hextends.agrees id).binds hparams
  have hargs' : (args.map Value.withoutLets).map (Value.relabel ρ'.relabelling)
      = args.map (Value.expanded ρ.relabelling) := by
    rw [List.map_map]
    exact hextends.values hargs
  refine ⟨ρ', hextends, ?_⟩
  rw [Expr.expandedAll, withoutLets_substitute, relabel_substitute, hargs', hrenamed, hparams', Expr.expandedAll]

theorem expands_applyBody (hrun : ExpandsForms config n) (hn : n ≤ n') (henv : env.Within (.discreetUpTo s))
    {params : List String} {body : List Expr} {args : List Value} (hparams : (Language.discreetUpTo s).Binds params)
    (hbody : Expr.WithinAll (.discreetUpTo s) params.reverse body)
    (hargs : ∀ v ∈ args, v.Within (.discreetUpTo s)) (hlen : params.length = args.length) :
    Expands config ρ Value.expanded (applyBody (evalSequence config n env) params body args s)
      (applyBody (evalSequence config n' (env.expanded ρ.relabelling)) (params.map ρ.relabelling.name)
        (Expr.expandedAll ρ.relabelling body) (args.map (Value.expanded ρ.relabelling)) s) := by
  obtain ⟨ρ', hextends, happlied⟩ := exists_expanded_application ρ hparams hbody hargs
  have hissued : issuedAfter s.issued (Expr.expandedAll ρ.relabelling body) = issuedAfter s.issued body := by
    rw [issuedAfter, issuedAfter, Expr.binderCountAll_expanded]
  let t : Supply := { s with issued := issuedAfter s.issued body }
  have hle : s ≤ t := ⟨Nat.le_add_right _ _, Nat.le_refl _⟩
  have hwithin := applied_within Language.discreetUpTo_grows hle rfl hlen hargs hbody
  have hstep := hrun (s := t) ρ' hn (henv.mono (Language.discreetUpTo_grows.mono hle))
    fun e he => (Expr.withinAll_iff.1 hwithin e he).form
  rw [hextends.environment henv, happlied] at hstep
  have hother : applyBody (evalSequence config n' (env.expanded ρ.relabelling)) (params.map ρ.relabelling.name)
      (Expr.expandedAll ρ.relabelling body) (args.map (Value.expanded ρ.relabelling)) s
      = evalSequence config n' (env.expanded ρ.relabelling) (substitute (params.map ρ.relabelling.name)
          ((args.map (Value.expanded ρ.relabelling)).map Value.toExpr)
          (rename s.issued (Expr.expandedAll ρ.relabelling body))) t := by
    show evalSequence config n' _ _ { s with issued := issuedAfter s.issued (Expr.expandedAll ρ.relabelling body) } = _
    rw [hissued]
  rw [hother]
  exact hstep.weaken hextends

/-- A procedure is called alike, or the number of its arguments is wrong for both. -/
theorem expands_call (hrun : ExpandsForms config n) (hn : n ≤ n') (henv : env.Within (.discreetUpTo s))
    {params : List String} {body : List Expr} {args : List Value} (hparams : (Language.discreetUpTo s).Binds params)
    (hbody : Expr.WithinAll (.discreetUpTo s) params.reverse body)
    (hargs : ∀ v ∈ args, v.Within (.discreetUpTo s)) (callee : Callee) :
    Expands config ρ Value.expanded
      ((if params.length = args.length then applyBody (evalSequence config n env) params body args
        else throw (.arity params.length args.length (some callee)) : Run Value) s)
      ((if (params.map ρ.relabelling.name).length = (args.map (Value.expanded ρ.relabelling)).length then
          applyBody (evalSequence config n' (env.expanded ρ.relabelling)) (params.map ρ.relabelling.name)
            (Expr.expandedAll ρ.relabelling body) (args.map (Value.expanded ρ.relabelling))
        else throw (.arity (params.map ρ.relabelling.name).length (args.map (Value.expanded ρ.relabelling)).length
          (some callee)) : Run Value) s) := by
  rw [List.length_map, List.length_map]
  by_cases hlen : params.length = args.length
  · rw [if_pos hlen, if_pos hlen]
    exact expands_applyBody ρ hrun hn henv hparams hbody hargs hlen
  · rw [if_neg hlen, if_neg hlen]
    exact .error rfl

theorem expands_instantiate {r : Ref} {fields : List String} {methods : List (String × Expr)}
    (hclass : (Value.classDef r fields methods).Within (.discreetUpTo s)) {args : List Value}
    (hargs : ∀ v ∈ args, v.Within (.discreetUpTo s)) :
    Expands config ρ Value.expanded (instantiate fields methods args s)
      (instantiate (fields.map ρ.relabelling.name) (Expr.expandedMethods ρ.relabelling methods)
        (args.map (Value.expanded ρ.relabelling)) s) := by
  obtain ⟨-, -, hfields, -, hmethods⟩ := hclass
  have hlengths : (fields.map ρ.relabelling.name).length = (args.map (Value.expanded ρ.relabelling)).length
      ↔ fields.length = args.length := by
    rw [List.length_map, List.length_map]
  by_cases hlen : fields.length = args.length
  · obtain ⟨ρ', hextends, happlied⟩ := exists_expanded_application ρ hfields (Expr.withinAll_map_snd.2 hmethods) hargs
    have hmade : Expr.expandedMethods ρ'.relabelling (specialised s.issued fields args methods)
        = specialised s.issued (fields.map ρ.relabelling.name) (args.map (Value.expanded ρ.relabelling))
          (Expr.expandedMethods ρ.relabelling methods) := by
      rw [← zip_specialised, ← zip_specialised, Expr.expandedMethods, Expr.withoutLetsPairs_zip, Expr.relabelPairs_zip,
        List.map_id, Expr.map_fst_expandedMethods, Expr.map_snd_expandedMethods, ← happlied, Expr.expandedAll]
    have hfields' : fields.map ρ'.relabelling.name = fields.map ρ.relabelling.name :=
      (hextends.agrees id).binds hfields
    have hissued : issuedAfter s.issued ((Expr.expandedMethods ρ.relabelling methods).map Prod.snd)
        = issuedAfter s.issued (methods.map Prod.snd) := by
      rw [Expr.map_snd_expandedMethods, issuedAfter, issuedAfter, Expr.binderCountAll_expanded]
    have hlambdas := requireLambdas_expanded ρ'.relabelling (specialised s.issued fields args methods)
    rw [instantiate_of_length hlen, instantiate_of_length (hlengths.2 hlen), hissued, ← hmade, ← hfields']
    generalize requireLambdas (specialised s.issued fields args methods) = o at *
    generalize requireLambdas (Expr.expandedMethods ρ'.relabelling _) = o' at *
    cases hlambdas with
    | ok _ => exact .ok (t := ⟨issuedAfter s.issued (methods.map Prod.snd), s.allocated + 1⟩) ρ' hextends
    | error hkind => exact .error hkind
  · rw [instantiate, instantiate, if_neg hlen, if_neg (hlengths.not.2 hlen)]
    exact .error rfl

theorem expands_send (hrun : ExpandsForms config n) (hn : n ≤ n') (henv : env.Within (.discreetUpTo s)) {r : Ref}
    {fields : List String} {methods : List (String × Expr)}
    (hobject : (Value.object r fields methods).Within (.discreetUpTo s)) {args : List Value}
    (hargs : ∀ v ∈ args, v.Within (.discreetUpTo s)) :
    Expands config ρ Value.expanded (send (evalSequence config n env) methods args s)
      (send (evalSequence config n' (env.expanded ρ.relabelling)) (Expr.expandedMethods ρ.relabelling methods)
        (args.map (Value.expanded ρ.relabelling)) s) := by
  obtain ⟨-, -, -, -, hmethods⟩ := hobject
  cases args with
  | nil => exact .error rfl
  | cons v args =>
    cases v with
    | symbol name =>
      rw [List.map_cons, send, show Value.expanded _ (.symbol name) = .symbol name from rfl, send,
        findMethod?_expanded]
      cases hm : findMethod? methods name with
      | none => exact .error rfl
      | some method =>
        cases method with
        | lambda params body =>
          obtain ⟨hparams, -, hbody⟩ := Expr.withinPairs_iff.1 hmethods _ (mem_of_lookup_eq_some hm)
          rw [List.append_nil] at hbody
          exact expands_call ρ hrun hn henv hparams hbody (fun v hv => hargs v (List.mem_cons_of_mem _ hv)) _
        | _ => exact .error rfl
    | _ => exact .error rfl

/-- **A value applied to values keeps in step when all of them are expanded.** -/
theorem expands_apply (hrun : ExpandsForms config n) (hn : n ≤ n') (henv : env.Within (.discreetUpTo s)) {v : Value}
    (hv : v.Within (.discreetUpTo s)) {args : List Value} (hargs : ∀ v ∈ args, v.Within (.discreetUpTo s)) :
    Expands config ρ Value.expanded (applyProcedure (evalSequence config n env) v args s)
      (applyProcedure (evalSequence config n' (env.expanded ρ.relabelling)) (v.expanded ρ.relabelling)
        (args.map (Value.expanded ρ.relabelling)) s) := by
  cases v with
  | primitive p => exact .ofOutcome (Primitive.apply_expanded ρ.relabelling hv args)
  | closure r params body =>
    obtain ⟨-, hparams, -, hbody⟩ := hv
    exact expands_call ρ hrun hn henv hparams hbody hargs .procedure
  | classDef r fields methods => exact expands_instantiate ρ hv hargs
  | object r fields methods => exact expands_send ρ hrun hn henv hv hargs
  | number | boolean | string | symbol | list => exact .error rfl

end Application

/-! ### Evaluation -/

section Step

variable {config : Config} {n n' : Nat} {s : Supply} (ρ : Renumbering s.issued) {env : Environment}

theorem expands_operands (heval : ExpandsExprs config n) (hn : n ≤ n') (henv : env.Within (.discreetUpTo s))
    (es : List Expr) (hes : ∀ e ∈ es, e.Within (.discreetUpTo s) []) :
    Expands config ρ (fun ρ => List.map (Value.expanded ρ)) (es.mapM (eval config n env) s)
      ((Expr.expandedAll ρ.relabelling es).mapM (eval config n' (env.expanded ρ.relabelling)) s) := by
  induction es generalizing s ρ with
  | nil => exact .ok ρ .rfl
  | cons e es ih =>
    rw [show Expr.expandedAll ρ.relabelling (e :: es)
      = e.expanded ρ.relabelling :: Expr.expandedAll ρ.relabelling es from rfl, List.mapM_cons, List.mapM_cons]
    refine heval.bind hn henv (hes e List.mem_cons_self) fun v t ρ' hextends hle hv => ?_
    have hrest : ∀ e' ∈ es, e'.Within (.discreetUpTo t) [] := fun e' he' =>
      Expr.Within.mono hle (List.Subset.refl _) _ (hes e' (List.mem_cons_of_mem _ he'))
    rw [← hextends.environment henv, ← hextends.exprs fun e' he' => hes e' (List.mem_cons_of_mem _ he')]
    refine (ih ρ' (henv.mono hle) hrest).bind fun vs u ρ'' hvs hextends' => ?_
    -- The value came before the other operands, and it keeps the numbers that it had then.
    rw [← hextends'.value hv]
    exact .ok ρ'' .rfl

theorem expands_cond (heval : ExpandsExprs config n) (hn : n ≤ n') (henv : env.Within (.discreetUpTo s))
    {test onTrue onFalse : Expr} (he : (Expr.cond test onTrue onFalse).Within (.discreetUpTo s) []) :
    Expands config ρ Value.expanded (eval config (n + 1) env (.cond test onTrue onFalse) s)
      (eval config (n' + 1) (env.expanded ρ.relabelling) ((Expr.cond test onTrue onFalse).expanded ρ.relabelling)
        s) := by
  obtain ⟨htest, hTrue, hFalse⟩ := he
  rw [eval_succ, eval_succ]
  refine heval.bind hn henv htest fun v t ρ' hextends hle _ => ?_
  have hTrue' := Expr.Within.mono hle (List.Subset.refl _) _ hTrue
  have hFalse' := Expr.Within.mono hle (List.Subset.refl _) _ hFalse
  rw [Value.isTrue_expanded, ← hextends.environment henv]
  cases v.isTrue with
  | true =>
    have hstep := heval ρ' hn (henv.mono hle) hTrue'
    rwa [hextends.expr hTrue] at hstep
  | false =>
    have hstep := heval ρ' hn (henv.mono hle) hFalse'
    rwa [hextends.expr hFalse] at hstep

theorem expands_app (heval : ExpandsExprs config n) (hrun : ExpandsForms config (n - 1)) (hn : n ≤ n')
    (henv : env.Within (.discreetUpTo s)) {operator : Expr} {operands : List Expr}
    (he : (Expr.app operator operands).Within (.discreetUpTo s) []) :
    Expands config ρ Value.expanded (eval config (n + 1) env (.app operator operands) s)
      (eval config (n' + 1) (env.expanded ρ.relabelling) ((Expr.app operator operands).expanded ρ.relabelling) s) := by
  obtain ⟨hoperator, hoperands⟩ := he
  rw [eval_succ, eval_succ]
  refine heval.bind hn henv hoperator fun v t ρ' hextends hle hv => ?_
  have henv' := henv.mono hle
  have hoperands' := Expr.withinAll_iff.1 (Expr.Within.monoAll hle (List.Subset.refl _) operands hoperands)
  have hargs := expands_operands ρ' heval hn henv' operands hoperands'
  rw [hextends.environment henv, hextends.exprs (Expr.withinAll_iff.1 hoperands)] at hargs
  refine hargs.bind fun vs u ρ'' hvs hextends' => ?_
  have hends := operands_end Language.discreetUpTo_grows config n henv' hoperands'
  rw [hvs] at hends
  have hle' := Language.discreetUpTo_grows.mono hends.1
  rw [← hextends'.value hv, ← hextends.environment henv, ← hextends'.environment henv']
  exact expands_apply ρ'' hrun (Nat.sub_le_sub_right hn 1) (henv'.mono hle') (Value.Within.mono hle' _ hv) hends.2

end Step

/-- **One step of evaluation keeps in step with the step for what is expanded.** -/
theorem expands_step {config : Config} (hlets : config.lets = .expand) {n : Nat} (heval : ExpandsExprs config n)
    (hrun : ExpandsForms config (n - 1)) : ExpandsExprs config (n + 1) := by
  intro n' s ρ env e hn henv he
  obtain ⟨k, rfl⟩ : ∃ k, n' = k + 1 := ⟨n' - 1, by omega⟩
  have hk : n ≤ k := Nat.le_of_succ_le_succ hn
  cases e with
  | number | boolean | string | primitive | quoted =>
    rw [eval_succ, eval_succ]
    exact .ok ρ .rfl
  | var x =>
    rw [eval_succ, eval_succ]
    exact .ofOutcome (env.lookup_expanded ρ.relabelling x)
  | cond test onTrue onFalse => exact expands_cond ρ heval hk henv he
  | lambda params body =>
    rw [eval_succ, eval_succ]
    exact .ok (t := { s with allocated := s.allocated + 1 }) ρ .rfl
  | classDef fields methods =>
    rw [eval_succ, eval_succ]
    exact .ok (t := { s with allocated := s.allocated + 1 }) ρ .rfl
  | app operator operands => exact expands_app ρ heval hrun hk henv he
  | letIn bindings body =>
    -- The step that expands the `let` is taken on this side only.
    have happlication := heval ρ (Nat.le_of_succ_le hn) henv he.letApplication
    rw [Expr.expanded_letApplication] at happlication
    rw [eval_succ, evalStep, hlets]
    exact happlication
  | define x value => exact absurd he.1 id

theorem expands_forms {config : Config} {n : Nat} (heval : ExpandsExprs config n) : ExpandsForms config (n + 1) := by
  intro n' s ρ env es hn henv hes
  obtain ⟨k, rfl⟩ : ∃ k, n' = k + 1 := ⟨n' - 1, by omega⟩
  have hk : n ≤ k := Nat.le_of_succ_le_succ hn
  rw [evalSequence_succ, evalSequence_succ]
  fun_induction evalForms (eval config n) env es generalizing s ρ with
  | case1 env => exact .error rfl
  | case2 env x e rest ih =>
    obtain ⟨hx, he⟩ := hes _ List.mem_cons_self
    have hrest : ∀ e' ∈ rest, e'.WithinForm (.discreetUpTo s) := fun e' he' => hes e' (List.mem_cons_of_mem _ he')
    refine heval.bind hk henv he fun v t ρ' hextends hle hv => ?_
    have hstep := ih v ρ' ((henv.mono hle).extend (hle.name hx) hv) fun e' he' => (hrest e' he').mono hle
    rw [hextends.forms hrest] at hstep
    rw [← hextends.environment henv, ← (hextends.agrees (L := .discreetUpTo s) id).name hx]
    exact hstep
  | case3 env e hdef =>
    have he := (hes e (List.mem_singleton_self e)).expr hdef
    show Expands config ρ _ _ (evalForms _ _ [e.expanded ρ.relabelling] s)
    rw [evalForms]
    · exact heval ρ hk henv he
    · exact Expr.expanded_ne_define ρ.relabelling hdef
  | case4 env e rest hdef hne ih =>
    have he := (hes e List.mem_cons_self).expr hdef
    have hrest : ∀ e' ∈ rest, e'.WithinForm (.discreetUpTo s) := fun e' he' => hes e' (List.mem_cons_of_mem _ he')
    show Expands config ρ _ _ (evalForms _ _ (e.expanded ρ.relabelling :: Expr.expandedAll ρ.relabelling rest) s)
    rw [evalForms]
    · refine heval.bind hk henv he fun v t ρ' hextends hle _ => ?_
      have hstep := ih ρ' (henv.mono hle) fun e' he' => (hrest e' he').mono hle
      rwa [hextends.environment henv, hextends.forms hrest] at hstep
    · exact Expr.expanded_ne_define ρ.relabelling hdef
    · intro hnil
      cases rest with
      | nil => exact hne rfl
      | cons => cases hnil

/-- **Evaluation of what is expanded keeps in step with evaluation that expands**, whatever number of steps is left. -/
theorem expands_eval {config : Config} (hlets : config.lets = .expand) :
    ∀ n, ExpandsExprs config n ∧ ExpandsForms config n := by
  intro n
  induction n using Nat.strongRecOn with
  | ind n ih =>
    cases n with
    | zero => exact ⟨fun _ _ _ _ _ _ => .depth, fun _ _ _ _ _ _ => .depth⟩
    | succ n =>
      have hparts : ExpandsExprs config n := (ih n (by omega)).1
      have hbodies : ExpandsForms config (n - 1) := (ih (n - 1) (by omega)).2
      exact ⟨expands_step hlets hparts hbodies, expands_forms hparts⟩

end SubstModel
