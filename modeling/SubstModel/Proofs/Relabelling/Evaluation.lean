import SubstModel.Proofs.Primitive.View
import SubstModel.Proofs.Relabelling
import SubstModel.Proofs.Run
import SubstModel.Proofs.Trace

/-!
# Evaluation goes through a relabelling, and more nested steps do not matter

Evaluation looks at no name and no reference but to tell it from others.  So expressions that differ in them alone are
evaluated in step, with what is handed out next on the one side carried to what is handed out next on the other.  One
side may have more nested steps left; that makes no difference unless the other one comes to the limit.

* `Relabelling.Carries` — what two supplies hand out next corresponds;
* `Follows` — a step does what another one does, unless that one fails at the limit, with a lemma for each way to
  combine steps;
* `Primitive.apply_map`, `Primitive.apply_relabel` — primitives on values that are changed where they do not look, and
  on relabelled values;
* `follows_applyProcedure`, `follows_evalStep` — a value applied to values, and one step;
* `follows_eval` — **evaluation with more steps follows relabelled evaluation with fewer**.
-/

namespace SubstModel

/-! ### Supplies -/

/-- What is handed out behind the one supply becomes what is handed out behind the other. -/
structure Relabelling.Carries (ρ : Relabelling) (s s' : Supply) : Prop where
  names : ∀ count, ρ.Shifts s.issued s'.issued count
  refs : ∀ i, ρ.ref (s.allocated + i) = s'.allocated + i

theorem Relabelling.Carries.issue {ρ : Relabelling} {s s' : Supply} (h : ρ.Carries s s') (count : Nat) :
    ρ.Carries { s with issued := s.issued + count } { s' with issued := s'.issued + count } :=
  ⟨fun count' => (h.names (count + count')).part count (Nat.le_refl _), h.refs⟩

theorem Relabelling.Carries.allocate {ρ : Relabelling} {s s' : Supply} (h : ρ.Carries s s') :
    ρ.Carries { s with allocated := s.allocated + 1 } { s' with allocated := s'.allocated + 1 } := by
  refine ⟨h.names, fun i => ?_⟩
  have hrefs := h.refs (1 + i)
  rwa [← Nat.add_assoc, ← Nat.add_assoc] at hrefs

/-! ### Steps -/

/-- Two outcomes are alike: results that `f` takes to one another, or failures of one kind. -/
inductive Outcome.Alike {α β : Type} (f : α → β) : Outcome α → Outcome β → Prop
  | ok (a : α) : Outcome.Alike f (.ok a) (.ok (f a))
  | error {e e' : Failure} (h : e.kind = e'.kind) : Outcome.Alike f (.error e) (.error e')

/-- Two ends are alike: results that `f` takes to one another, or failures of one kind, in either case behind supplies
that correspond. -/
def Alike {α β : Type} (ρ : Relabelling) (f : α → β) :
    EStateM.Result Failure Supply α → EStateM.Result Failure Supply β → Prop
  | .ok a s, .ok b s' => b = f a ∧ ρ.Carries s s'
  | .error e s, .error e' s' => e.kind = e'.kind ∧ ρ.Carries s s'
  | _, _ => False

/-- The first step ends as the second one does, unless that one is cut off: `cut` says whether it may have fewer nested
steps left than the first, and so fail at the limit on its own. -/
def Follows {α β : Type} (config : Config) (cut : Prop) (ρ : Relabelling) (f : α → β) (m : Run α) (m' : Run β) :
    Prop :=
  ∀ s s', ρ.Carries s s' → (cut ∧ ∃ t, m' s' = .error (depthFailure config) t) ∨ Alike ρ f (m s) (m' s')

namespace Follows

variable {α β γ δ : Type} {config : Config} {cut : Prop} {ρ : Relabelling}

theorem pure {f : α → β} {a : α} {b : β} (h : b = f a) :
    Follows config cut ρ f (Pure.pure a) (Pure.pure b) :=
  fun _ _ hs => .inr ⟨h, hs⟩

theorem throw {f : α → β} {e e' : Failure} (h : e.kind = e'.kind) :
    Follows config cut ρ f (throwThe Failure e) (throwThe Failure e') :=
  fun _ _ hs => .inr ⟨h, hs⟩

theorem depth (hcut : cut) (f : α → β) (m : Run α) :
    Follows config cut ρ f m (throwThe Failure (depthFailure config)) :=
  fun _ s' _ => .inl ⟨hcut, s', rfl⟩

theorem bind {f : α → β} {g : γ → δ} {m : Run α} {m' : Run β} {next : α → Run γ} {next' : β → Run δ}
    (h : Follows config cut ρ f m m') (hnext : ∀ a, Follows config cut ρ g (next a) (next' (f a))) :
    Follows config cut ρ g (m >>= next) (m' >>= next') := by
  intro s s' hs
  rcases h s s' hs with ⟨hcut, t, ht⟩ | halike
  · exact .inl ⟨hcut, t, Run.bind_of_error ht⟩
  · cases hm : m s with
    | ok a t => cases hm' : m' s' with
      | ok b t' =>
        rw [hm, hm'] at halike
        obtain ⟨rfl, ht⟩ := halike
        rw [Run.bind_of_ok hm, Run.bind_of_ok hm']
        exact hnext a t t' ht
      | error e' t' =>
        rw [hm, hm'] at halike
        exact absurd halike id
    | error e t => cases hm' : m' s' with
      | ok b t' =>
        rw [hm, hm'] at halike
        exact absurd halike id
      | error e' t' =>
        rw [hm, hm'] at halike
        rw [Run.bind_of_error hm, Run.bind_of_error hm']
        exact .inr halike

theorem ofOutcome {f : α → β} {o : Outcome α} {o' : Outcome β} (h : Outcome.Alike f o o') :
    Follows config cut ρ f (Run.ofOutcome o) (Run.ofOutcome o') := by
  cases h with
  | ok a => exact pure rfl
  | error hkind => exact throw hkind

theorem newRef : Follows config cut ρ ρ.ref Run.newRef Run.newRef :=
  fun _ _ hs => .inr ⟨(hs.refs 0).symm, hs.allocate⟩

theorem renamed (es : List Expr) :
    Follows config cut ρ (Expr.relabelAll ρ) (Run.renamed es) (Run.renamed (Expr.relabelAll ρ es)) := by
  intro s s' hs
  have hissue := hs.issue (Expr.binderCountAll es)
  have hcount : Expr.binderCountAll (Expr.relabelAll ρ es) = Expr.binderCountAll es :=
    Expr.binderCountAll_relabel ρ es
  refine .inr ⟨(Expr.relabelAll_rename es (Γ := []) (hs.names _)).symm, ?_⟩
  rw [issuedAfter, issuedAfter, hcount]
  exact hissue

theorem mapM {f : α → β} {g : γ → δ} {step : α → Run γ} {step' : β → Run δ}
    (h : ∀ a, Follows config cut ρ g (step a) (step' (f a))) (as : List α) :
    Follows config cut ρ (List.map g) (as.mapM step) ((as.map f).mapM step') := by
  induction as with
  | nil => exact pure rfl
  | cons a as ih =>
    rw [List.map_cons, List.mapM_cons, List.mapM_cons]
    exact (h a).bind fun c => ih.bind fun cs => pure rfl

end Follows

/-! ### Primitives -/

theorem Value.relabel_respects (ρ : Relabelling) : Respects fun v w : Value => v.relabel ρ = w := by
  have hlist : ∀ vs, Value.relabel ρ (.list vs) = .list (vs.map (Value.relabel ρ)) := fun vs =>
    congrArg Value.list (Value.relabelAll_eq_map ρ vs)
  refine respects_map (fun v => ?_) (fun _ => rfl) (fun _ => rfl) hlist
  cases v with
  | list vs =>
    rw [hlist]
    rfl
  | _ => rfl

theorem Value.isTrue_relabel (ρ : Relabelling) (v : Value) : (v.relabel ρ).isTrue = v.isTrue := by
  cases v <;> rfl

namespace Primitive

/-- **A primitive gives the changed result for changed arguments, or it fails alike**, if nothing is changed that it
could see. -/
theorem apply_map {f : Value → Value} (hf : Respects fun v w => f v = w)
    (hidentical : ∀ v w, (f v).identical (f w) = v.identical w) {p : Primitive}
    (hequal : p = .equal → ∀ v w, (f v).same (f w) = v.same w) (args : List Value) :
    Outcome.Alike f (p.apply args) (p.apply (args.map f)) := by
  have htruth : ∀ {b b' : Bool}, b' = b → Outcome.Alike f (.ok (.boolean b)) (.ok (.boolean b')) := by
    intro b b' hb
    have halike := Outcome.Alike.ok (f := f) (.boolean b)
    rw [show f (.boolean b) = .boolean b from hf.boolean b] at halike
    rwa [hb]
  by_cases hp : p = .identical
  · subst hp
    match args with
    | [v, w] => exact htruth (hidentical v w)
    | [] | [_] | _ :: _ :: _ :: _ => exact .error rfl
  · by_cases hq : p = .equal
    · have hsame := hequal hq
      subst hq
      match args with
      | [v, w] => exact htruth (hsame v w)
      | [] | [_] | _ :: _ :: _ :: _ => exact .error rfl
    · have hargs : List.Forall₂ (fun v w => f v = w) args (args.map f) :=
        List.forall₂_map_right_iff.2 (List.forall₂_same.2 fun _ _ => rfl)
      -- Both sides are related to the primitive on what is seen of the changed arguments.
      have hrelated := apply_related hf hp hq hargs
      have hself := apply_related Listwise.all.respects hp hq
        (List.forall₂_same.2 fun v (_ : v ∈ args.map f) => ⟨rfl, trivial⟩)
      generalize p.apply args = o at *
      generalize p.apply (args.map f) = o' at *
      generalize p.applyOn (args.map f) = r at *
      cases hrelated with
      | @ok v w hv =>
        cases hself with
        | ok hw =>
          rw [hw.1, ← hv]
          exact .ok v
      | error _ =>
        generalize hr : Except.error _ = r at hself
        cases hself with
        | ok _ => cases hr
        | error _ =>
          injection hr with hkind
          exact .error hkind

/-- **A primitive gives the relabelled result for relabelled arguments, or it fails alike.** -/
theorem apply_relabel (ρ : Relabelling) (p : Primitive) (args : List Value) :
    Outcome.Alike (Value.relabel ρ) (p.apply args) (p.apply (args.map (Value.relabel ρ))) :=
  apply_map (Value.relabel_respects ρ) (Value.identical_relabel ρ) (fun _ => Value.same_relabel ρ) args

end Primitive

/-! ### Definitions -/

/-- The definitions with other names and references. -/
def Environment.relabel (ρ : Relabelling) (env : Environment) : Environment :=
  ⟨env.bindings.map fun b => (ρ.name b.1, b.2.relabel ρ)⟩

/-- Two lookups are alike if what the second one finds is what becomes of what the first one finds. -/
theorem Environment.alike_lookup {f : Value → Value} {env env' : Environment} {x y : String}
    (h : env'.get? y = (env.get? x).map f) : Outcome.Alike f (env.lookup x) (env'.lookup y) := by
  rw [lookup, lookup, h]
  cases env.get? x with
  | some v => exact .ok v
  | none => exact .error rfl

theorem Environment.relabel_lookup (ρ : Relabelling) (env : Environment) (x : String) :
    Outcome.Alike (Value.relabel ρ) (env.lookup x) ((env.relabel ρ).lookup (ρ.name x)) :=
  alike_lookup (lookup_map_of_injective ρ.name_injective (Value.relabel ρ) env.bindings x)

theorem findMethod?_relabel (ρ : Relabelling) (methods : List (String × Expr)) (name : String) :
    findMethod? (Expr.relabelPairs ρ id methods) name = (findMethod? methods name).map (Expr.relabel ρ) := by
  rw [findMethod?, Expr.relabelPairs_eq_map]
  exact lookup_map_of_injective Function.injective_id (Expr.relabel ρ) methods name

/-- Methods are refused alike where procedures stay procedures and nothing else becomes one. -/
theorem requireLambdas_map {f : Expr → Expr} (hf : ∀ e, (f e).isLambda = e.isLambda)
    (methods : List (String × Expr)) :
    Outcome.Alike id (requireLambdas methods) (requireLambdas (methods.map fun m => (m.1, f m.2))) := by
  induction methods with
  | nil => exact .ok ()
  | cons b methods ih =>
    rw [requireLambdas, List.map_cons, requireLambdas, hf]
    cases b.2.isLambda with
    | true => exact ih
    | false => exact .error rfl

theorem requireLambdas_relabel (ρ : Relabelling) (methods : List (String × Expr)) :
    Outcome.Alike id (requireLambdas methods) (requireLambdas (Expr.relabelPairs ρ id methods)) := by
  rw [Expr.relabelPairs_eq_map]
  exact requireLambdas_map (fun e => by cases e <;> rfl) methods

theorem Expr.relabel_ne_define {ρ : Relabelling} {e : Expr} (h : ∀ x value, e = .define x value → False) :
    ∀ x value, e.relabel ρ = .define x value → False := by
  intro x value heq
  cases e with
  | define y value' => exact h y value' rfl
  | _ => cases heq

theorem relabel_letApplication (ρ : Relabelling) (bindings : List (String × Expr)) (body : List Expr) :
    (letApplication bindings body).relabel ρ
      = letApplication (Expr.relabelPairs ρ ρ.name bindings) (Expr.relabelAll ρ body) := by
  rw [letApplication, letApplication, Expr.map_fst_relabelPairs, Expr.map_snd_relabelPairs, Expr.relabel,
    Expr.relabel]

/-! ### Evaluation -/

section Step

variable {config : Config} {cut : Prop} {ρ : Relabelling} {eval eval' : Environment → Expr → Run Value}
  {run run' : Environment → List Expr → Run Value}

theorem follows_evalForms
    (heval : ∀ env e, Follows config cut ρ (Value.relabel ρ) (eval env e) (eval' (env.relabel ρ) (e.relabel ρ))) :
    ∀ env es, Follows config cut ρ (Value.relabel ρ) (evalForms eval env es)
      (evalForms eval' (env.relabel ρ) (Expr.relabelAll ρ es)) := by
  intro env es
  fun_induction evalForms eval env es with
  | case1 env => exact Follows.throw rfl
  | case2 env x e rest ih => exact (heval env e).bind ih
  | case3 env e hdef =>
    rw [Expr.relabelAll, Expr.relabelAll, evalForms]
    · exact heval env e
    · exact Expr.relabel_ne_define hdef
  | case4 env e rest hdef hne ih =>
    rw [Expr.relabelAll, evalForms]
    · exact (heval env e).bind fun _ => ih
    · exact Expr.relabel_ne_define hdef
    · intro hnil
      cases rest with
      | nil => exact hne rfl
      | cons e' rest => cases hnil

theorem follows_applyBody {run run' : List Expr → Run Value}
    (hrun : ∀ es, Follows config cut ρ (Value.relabel ρ) (run es) (run' (Expr.relabelAll ρ es)))
    (params : List String) (body : List Expr) (args : List Value) :
    Follows config cut ρ (Value.relabel ρ) (applyBody run params body args)
      (applyBody run' (params.map ρ.name) (Expr.relabelAll ρ body) (args.map (Value.relabel ρ))) := by
  refine (Follows.renamed body).bind fun body => ?_
  rw [← relabel_substitute]
  exact hrun _

theorem follows_instantiate (fields : List String) (methods : List (String × Expr)) (args : List Value) :
    Follows config cut ρ (Value.relabel ρ) (instantiate fields methods args)
      (instantiate (fields.map ρ.name) (Expr.relabelPairs ρ id methods) (args.map (Value.relabel ρ))) := by
  rw [instantiate, instantiate, List.length_map, List.length_map]
  by_cases hlen : fields.length = args.length
  · rw [if_pos hlen, if_pos hlen, Expr.map_snd_relabelPairs, Expr.map_fst_relabelPairs, List.map_id]
    refine (Follows.renamed (methods.map Prod.snd)).bind fun bodies => ?_
    have hspecialised : (methods.map Prod.fst).zip (substitute (fields.map ρ.name)
        ((args.map (Value.relabel ρ)).map Value.toExpr) (Expr.relabelAll ρ bodies))
        = Expr.relabelPairs ρ id
          ((methods.map Prod.fst).zip (substitute fields (args.map Value.toExpr) bodies)) := by
      rw [Expr.relabelPairs_zip, List.map_id, relabel_substitute]
    rw [hspecialised]
    refine (Follows.ofOutcome (requireLambdas_relabel ρ _)).bind fun _ => ?_
    exact Follows.newRef.bind fun ref => Follows.pure rfl
  · rw [if_neg hlen, if_neg hlen]
    exact Follows.throw rfl

theorem follows_send {run run' : List Expr → Run Value}
    (hrun : ∀ es, Follows config cut ρ (Value.relabel ρ) (run es) (run' (Expr.relabelAll ρ es)))
    (methods : List (String × Expr)) (args : List Value) :
    Follows config cut ρ (Value.relabel ρ) (send run methods args)
      (send run' (Expr.relabelPairs ρ id methods) (args.map (Value.relabel ρ))) := by
  fun_cases send run methods args with
  | case1 => exact Follows.throw rfl
  | case2 name args hm =>
    rw [List.map_cons, Value.relabel, send, findMethod?_relabel, hm]
    exact Follows.throw rfl
  | case3 name args params body hm hlen =>
    rw [List.map_cons, Value.relabel, send, findMethod?_relabel, hm]
    show Follows _ _ _ _ _ (if (params.map ρ.name).length = (args.map (Value.relabel ρ)).length then _ else _)
    rw [List.length_map, List.length_map, if_pos hlen]
    exact follows_applyBody hrun params body args
  | case4 name args params body hm hlen =>
    rw [List.map_cons, Value.relabel, send, findMethod?_relabel, hm]
    show Follows _ _ _ _ _ (if (params.map ρ.name).length = (args.map (Value.relabel ρ)).length then _ else _)
    rw [List.length_map, List.length_map, if_neg hlen]
    exact Follows.throw rfl
  | case5 name args method hlam hm =>
    rw [List.map_cons, Value.relabel, send, findMethod?_relabel, hm]
    cases method with
    | lambda params body => exact absurd rfl (hlam params body)
    | _ => exact Follows.throw rfl
  | case6 v args hsym =>
    cases v with
    | symbol name => exact absurd rfl (hsym name)
    | _ => exact Follows.throw rfl

theorem follows_applyProcedure {run run' : List Expr → Run Value}
    (hrun : ∀ es, Follows config cut ρ (Value.relabel ρ) (run es) (run' (Expr.relabelAll ρ es))) (v : Value)
    (args : List Value) :
    Follows config cut ρ (Value.relabel ρ) (applyProcedure run v args)
      (applyProcedure run' (v.relabel ρ) (args.map (Value.relabel ρ))) := by
  cases v with
  | primitive p => exact Follows.ofOutcome (Primitive.apply_relabel ρ p args)
  | closure ref params body =>
    rw [Value.relabel, applyProcedure, applyProcedure, List.length_map, List.length_map]
    by_cases hlen : params.length = args.length
    · rw [if_pos hlen, if_pos hlen]
      exact follows_applyBody hrun params body args
    · rw [if_neg hlen, if_neg hlen]
      exact Follows.throw rfl
  | classDef ref fields methods => exact follows_instantiate fields methods args
  | object ref fields methods => exact follows_send hrun methods args
  | number | boolean | string | symbol | list => exact Follows.throw rfl

theorem follows_evalStep
    (heval : ∀ env e, Follows config cut ρ (Value.relabel ρ) (eval env e) (eval' (env.relabel ρ) (e.relabel ρ)))
    (hrun : ∀ env es,
      Follows config cut ρ (Value.relabel ρ) (run env es) (run' (env.relabel ρ) (Expr.relabelAll ρ es)))
    (env : Environment) (e : Expr) :
    Follows config cut ρ (Value.relabel ρ) (evalStep config eval run env e)
      (evalStep config eval' run' (env.relabel ρ) (e.relabel ρ)) := by
  cases e with
  | number | boolean | string | primitive | quoted => exact Follows.pure rfl
  | var x => exact Follows.ofOutcome (env.relabel_lookup ρ x)
  | cond test onTrue onFalse =>
    refine (heval env test).bind fun v => ?_
    rw [Value.isTrue_relabel]
    cases v.isTrue with
    | true => exact heval env onTrue
    | false => exact heval env onFalse
  | lambda params body => exact Follows.newRef.bind fun ref => Follows.pure rfl
  | classDef fields methods => exact Follows.newRef.bind fun ref => Follows.pure rfl
  | app operator operands =>
    rw [Expr.relabel, Expr.relabelAll_eq_map]
    refine (heval env operator).bind fun procedure => ?_
    refine (Follows.mapM (heval env) operands).bind fun args => ?_
    exact follows_applyProcedure (hrun env) procedure args
  | letIn bindings body =>
    rw [Expr.relabel, evalStep, evalStep]
    cases config.lets with
    | expand =>
      rw [← relabel_letApplication]
      exact heval env _
    | reject => exact Follows.throw rfl
  | define x value => exact Follows.throw rfl

end Step

/-- **Evaluation with more steps left does what evaluation with fewer does to the relabelled expression, unless that one
comes to the limit.**  With as many steps left, both do the same. -/
theorem follows_eval (config : Config) (ρ : Relabelling) {cut : Prop} : ∀ {n n' : Nat}, n' ≤ n → (n' < n → cut) →
    (∀ env e, Follows config cut ρ (Value.relabel ρ) (eval config n env e)
      (eval config n' (env.relabel ρ) (e.relabel ρ))) ∧
    ∀ env es, Follows config cut ρ (Value.relabel ρ) (evalSequence config n env es)
      (evalSequence config n' (env.relabel ρ) (Expr.relabelAll ρ es)) := by
  intro n n' hle hcut
  -- Only the shorter evaluation may stop at the limit, and both take the steps for parts and for bodies alike.
  induction n using Nat.strongRecOn generalizing n' with
  | ind n ih =>
    cases n' with
    | zero =>
      cases n with
      | zero => exact ⟨fun _ _ => Follows.throw rfl, fun _ _ => Follows.throw rfl⟩
      | succ n =>
        have hshort := hcut (Nat.succ_pos n)
        exact ⟨fun _ _ => Follows.depth hshort _ _, fun _ _ => Follows.depth hshort _ _⟩
    | succ k' =>
      obtain ⟨k, rfl⟩ : ∃ k, n = k + 1 := ⟨n - 1, by omega⟩
      have hparts := ih k (by omega) (show k' ≤ k by omega) fun hlt => hcut (by omega)
      have hbodies := ih (k - 1) (by omega) (show k' - 1 ≤ k - 1 by omega) fun hlt => hcut (by omega)
      refine ⟨fun env e => ?_, follows_evalForms hparts.1⟩
      rw [eval_succ, eval_succ]
      exact follows_evalStep hparts.1 hbodies.2 env e

/-- With as many steps left, neither of the two evaluations comes to the limit on its own. -/
theorem follows_eval_same (config : Config) (ρ : Relabelling) (n : Nat) :
    (∀ env e, Follows config False ρ (Value.relabel ρ) (eval config n env e)
      (eval config n (env.relabel ρ) (e.relabel ρ))) ∧
    ∀ env es, Follows config False ρ (Value.relabel ρ) (evalSequence config n env es)
      (evalSequence config n (env.relabel ρ) (Expr.relabelAll ρ es)) :=
  follows_eval config ρ (Nat.le_refl n) fun hlt => absurd hlt (Nat.lt_irrefl n)

end SubstModel
