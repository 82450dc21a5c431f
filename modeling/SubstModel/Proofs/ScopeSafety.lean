import SubstModel.Proofs.FreeVariables
import SubstModel.Proofs.Language.Grammar
import SubstModel.Proofs.Run

/-!
# Scope safety — only free variables of the program are ever looked up

A body is evaluated in the environment of the caller, with arguments in place of parameters.  A parameter that was left
standing, or one that was made fresh, would be looked up there.  That does not happen: every variable that a form looks
up is free in it or in an earlier form.

* `runForms` — the forms of a program one after another, and `evalForms_failure`, the form at which they fail;
* `Program.FailsAt`, `Program.ReadsAt` — what happens while the form with a given index is evaluated;
* `Program.FreeUpTo`, `Program.DefinesBefore`, `Program.Closed` — what the forms up to that one say about a name;
* `runForms_within` — evaluating forms stays within a language and defines what the forms define;
* `scope_safe` — **a variable without a value is free in the program, and nothing has defined it**.
-/

namespace SubstModel

/-! ### The forms of a program one after another -/

/-- What a form has evaluated: the value of a definition, or the form itself. -/
def Expr.evaluated : Expr → Expr
  | .define _ e => e
  | e => e

/-- Forms evaluated one after another, and the environment behind them. -/
def runForms (eval : Environment → Expr → Run Value) (env : Environment) : List Expr → Run Environment
  | [] => pure env
  | .define x e :: rest => do
    let v ← eval env e
    runForms eval (env.extend x v) rest
  | e :: rest => do
    let _ ← eval env e
    runForms eval env rest

theorem Expr.evaluated_of_not_define {e : Expr} (h : ∀ x value, e ≠ .define x value) : e.evaluated = e := by
  cases e with
  | define x value => exact absurd rfl (h x value)
  | _ => rfl

/-- The evaluation of forms fails where one of them fails, unless they end without a value. -/
theorem evalForms_failure {eval : Environment → Expr → Run Value} {env : Environment} {es : List Expr}
    {s s' : Supply} {f : Failure} (h : evalForms eval env es s = .error f s') :
    f = .eval .emptySequence ∨ ∃ i e env₁ s₁, es[i]? = some e ∧
      runForms eval env (es.take i) s = .ok env₁ s₁ ∧ eval env₁ e.evaluated s₁ = .error f s' := by
  fun_induction evalForms eval env es generalizing s with
  | case1 env =>
    cases h
    exact .inl rfl
  | case2 env x e rest ih =>
    rcases Run.bind_eq_error.1 h with hv | ⟨v, s₁, hv, hrest⟩
    · exact .inr ⟨0, _, env, s, rfl, rfl, hv⟩
    · refine (ih v hrest).imp_right fun hlater => ?_
      obtain ⟨i, e', env₁, s₂, he', hrun, hf⟩ := hlater
      refine ⟨i + 1, e', env₁, s₂, he', ?_, hf⟩
      rw [List.take_succ_cons, runForms]
      exact Run.bind_eq_ok.2 ⟨v, s₁, hv, hrun⟩
  | case3 env e hdef =>
    refine .inr ⟨0, e, env, s, rfl, rfl, ?_⟩
    rw [Expr.evaluated_of_not_define hdef]
    exact h
  | case4 env e rest hdef hne ih =>
    rcases Run.bind_eq_error.1 h with hv | ⟨v, s₁, hv, hrest⟩
    · refine .inr ⟨0, e, env, s, rfl, rfl, ?_⟩
      rw [Expr.evaluated_of_not_define hdef]
      exact hv
    · refine (ih hrest).imp_right fun hlater => ?_
      obtain ⟨i, e', env₁, s₂, he', hrun, hf⟩ := hlater
      refine ⟨i + 1, e', env₁, s₂, he', ?_, hf⟩
      rw [List.take_succ_cons, runForms]
      · exact Run.bind_eq_ok.2 ⟨v, s₁, hv, hrun⟩
      · exact hdef

theorem Expr.WithinForm.evaluated {L : Language} {e : Expr} (h : e.WithinForm L) :
    e.evaluated.Within L [] := by
  cases e with
  | define x value => exact h.2
  | _ => exact h

theorem Expr.WithinForm.of_freeIn {L : Language} (hL : ∀ r, ¬ L.ref r) {S : String → Prop} {e : Expr}
    (h : e.WithinForm L) (hS : ∀ x, e.FreeIn x → S x) : e.WithinForm (L.withFree S) := by
  cases e with
  | define x value => exact ⟨h.1, Expr.Within.of_freeIn hL value h.2 fun y hy => .inr (hS y hy)⟩
  | _ =>
    have hexpr : Expr.Within L [] _ := h
    exact (Expr.Within.of_freeIn hL _ hexpr fun y hy => .inr (hS y hy)).form

theorem Expr.WithinForm.name_of_freeIn {L : Language} {e : Expr} (h : e.WithinForm L) {x : String}
    (hx : e.FreeIn x) : L.name x := by
  cases e with
  | define y value => exact Expr.Within.name_of_freeIn value h.2 hx
  | _ =>
    have hexpr : Expr.Within L [] _ := h
    exact Expr.Within.name_of_freeIn _ hexpr hx

/-- Evaluating forms stays within a language, and afterwards all that they define is defined. -/
theorem runForms_within {L : Supply → Language} (hL : Language.Grows L) {config : Config} {n : Nat}
    {env env' : Environment} {es : List Expr} {s s' : Supply} (henv : env.Within (L s))
    (hes : ∀ e ∈ es, e.WithinForm (L s)) (h : runForms (eval config n) env es s = .ok env' s') :
    s ≤ s' ∧ env'.Within (L s') ∧
      ∀ x, env'.get? x = none → env.get? x = none ∧ ∀ value, .define x value ∉ es := by
  fun_induction runForms (eval config n) env es generalizing s with
  | case1 env =>
    cases h
    exact ⟨Supply.le_refl _, henv, fun x hx => ⟨hx, fun _ hmem => absurd hmem List.not_mem_nil⟩⟩
  | case2 env x e rest ih =>
    obtain ⟨hx, he⟩ := hes _ List.mem_cons_self
    obtain ⟨v, s₁, hv, h⟩ := Run.bind_eq_ok.1 h
    have hends := eval_ends hL config n henv he
    rw [hv] at hends
    have hle := hL.mono hends.1
    obtain ⟨hs, hwithin, hnone⟩ := ih v ((henv.mono hle).extend (hle.name hx) hends.2)
      (fun e' he' => (hes e' (List.mem_cons_of_mem _ he')).mono hle) h
    refine ⟨Supply.le_trans hends.1 hs, hwithin, fun y hy => ?_⟩
    obtain ⟨hget, hrest⟩ := hnone y hy
    -- A definition stays in the environment, whatever is evaluated behind it.
    have hyx : y ≠ x := by
      rintro rfl
      rw [Environment.get?_extend_self] at hget
      cases hget
    rw [Environment.get?_extend_of_ne env v hyx] at hget
    refine ⟨hget, fun value hmem => ?_⟩
    rcases List.mem_cons.1 hmem with heq | hmem
    · cases heq
      exact hyx rfl
    · exact hrest value hmem
  | case3 env e rest hdef ih =>
    obtain ⟨v, s₁, hv, h⟩ := Run.bind_eq_ok.1 h
    have hends := eval_ends hL config n henv ((hes e List.mem_cons_self).expr hdef)
    rw [hv] at hends
    have hle := hL.mono hends.1
    obtain ⟨hs, hwithin, hnone⟩ := ih (henv.mono hle)
      (fun e' he' => (hes e' (List.mem_cons_of_mem _ he')).mono hle) h
    refine ⟨Supply.le_trans hends.1 hs, hwithin, fun y hy => ?_⟩
    obtain ⟨hget, hrest⟩ := hnone y hy
    refine ⟨hget, fun value hmem => ?_⟩
    rcases List.mem_cons.1 hmem with heq | hmem
    · exact hdef y value heq.symm
    · exact hrest value hmem

/-! ### The form with a given index -/

/-- The form as it is evaluated: with its classes, or with dispatchers in their place. -/
def Expr.prepared (config : Config) (e : Expr) : Expr :=
  match config.classes with
  | .objects => e
  | .dispatchers => e.withoutClasses

theorem Program.forms_prepared (config : Config) (p : Program) :
    (p.prepared config).forms = p.forms.map (Expr.prepared config) := by
  cases hc : config.classes with
  | objects =>
    have hid : Expr.prepared config = id := by
      funext e
      rw [Expr.prepared, hc]
      rfl
    rw [Program.prepared, hc, hid, List.map_id]
  | dispatchers =>
    have hwithout : Expr.prepared config = Expr.withoutClasses := by
      funext e
      rw [Expr.prepared, hc]
    rw [Program.prepared, hc, hwithout, ← Expr.withoutClassesAll_eq_map]
    rfl

namespace Program

variable (config : Config) (p : Program) (s : Supply)

/-- The evaluation of the program comes to the form with the index `i`, which is `e` as it is evaluated. -/
def Arrives (i : Nat) (e : Expr) (env : Environment) (s₁ : Supply) : Prop :=
  (p.prepared config).forms[i]? = some e ∧
    runForms (eval config (config.maxDepth - 1)) .empty ((p.prepared config).forms.take i) s = .ok env s₁

/-- The evaluation of the program fails at the form with the index `i`. -/
def FailsAt (i : Nat) (f : Failure) : Prop :=
  ∃ e env s₁ s₂, p.Arrives config s i e env s₁ ∧
    eval config (config.maxDepth - 1) env e.evaluated s₁ = .error f s₂

/-- The variable is looked up while the form with the index `i` is evaluated. -/
def ReadsAt (i : Nat) (x : String) : Prop :=
  ∃ e env s₁ t, p.Arrives config s i e env s₁ ∧
    (t, x) ∈ (ledgerAfter (Traced.eval config (config.maxDepth - 1) env e.evaluated (.blank s₁))).reads

/-- The variable occurs free in the form with the index `i` or in an earlier one. -/
def FreeUpTo (i : Nat) (x : String) : Prop :=
  ∃ j ≤ i, ∃ e, p.forms[j]? = some e ∧ e.FreeIn x

/-- A form before that with the index `i` defines the variable. -/
def DefinesBefore (i : Nat) (x : String) : Prop :=
  ∃ j < i, ∃ value, p.forms[j]? = some (.define x value)

/-- Every form has its free variables defined by earlier forms. -/
def Closed : Prop :=
  ∀ i e, p.forms[i]? = some e → ∀ x, e.FreeIn x → p.DefinesBefore i x

variable {config p s}

theorem source_of_prepared {i : Nat} {e : Expr} (h : (p.prepared config).forms[i]? = some e) :
    ∃ e', p.forms[i]? = some e' ∧ e = e'.prepared config := by
  rw [forms_prepared, List.getElem?_map, Option.map_eq_some_iff] at h
  obtain ⟨e', he', heq⟩ := h
  exact ⟨e', he', heq.symm⟩

theorem define_prepared (x : String) (value : Expr) :
    (Expr.define x value).prepared config = .define x (value.prepared config) := by
  rw [Expr.prepared, Expr.prepared]
  cases config.classes <;> rfl

/-- The language in which nothing is free but what occurs free in one of the first forms. -/
def firstLanguage (p : Program) (i : Nat) : Language :=
  { free := p.FreeUpTo i }

theorem firstLanguage_grows (i : Nat) : Language.Grows fun _ => p.firstLanguage i where
  mono _ := Language.le_refl _
  name _ := trivial
  binders := trivial
  ref _ := trivial

/-- The first forms are within their language, also as they are evaluated. -/
theorem withinForm_prepared {text : String} (hp : Program.ofText text = .ok p) {i j : Nat} (hj : j ≤ i)
    {e : Expr} (he : (p.prepared config).forms[j]? = some e) : e.WithinForm (p.firstLanguage i) := by
  obtain ⟨source, hsource, rfl⟩ := source_of_prepared he
  have hspelled := within_ofText hp source (List.mem_of_getElem? hsource)
  have hfree := hspelled.of_freeIn (fun _ h => h) (S := p.FreeUpTo i) fun x hx => ⟨j, hj, source, hsource, hx⟩
  have hfirst := hfree.mono (Language.withFree_le_reading _ _)
  rw [Expr.prepared]
  cases config.classes with
  | objects => exact hfirst
  | dispatchers =>
    refine hfirst.replaceClasses (Language.HasDispatchers.dispatches ?_)
    exact ⟨trivial, fun _ => trivial, fun _ _ => ⟨trivial, fun _ _ => trivial⟩⟩

/-- **When the evaluation comes to a form, the environment is within the language of the forms up to it, and what they
have defined is defined.** -/
theorem Arrives.within {text : String} (hp : Program.ofText text = .ok p) {i : Nat} {e : Expr}
    {env : Environment} {s₁ : Supply} (h : p.Arrives config s i e env s₁) :
    env.Within (p.firstLanguage i) ∧ e.evaluated.Within (p.firstLanguage i) [] ∧
      ∀ x, env.get? x = none → ¬ p.DefinesBefore i x := by
  obtain ⟨he, hrun⟩ := h
  have hforms : ∀ e' ∈ (p.prepared config).forms.take i, e'.WithinForm (p.firstLanguage i) := by
    intro e' he'
    obtain ⟨j, hj, heq⟩ := List.mem_take_iff_getElem.1 he'
    have hget : (p.prepared config).forms[j]? = some e' := by
      rw [← heq]
      exact List.getElem?_eq_getElem _
    exact withinForm_prepared hp (by omega) hget
  obtain ⟨-, henv, hnone⟩ := runForms_within (p.firstLanguage_grows i)
    (Environment.within_empty _) hforms hrun
  refine ⟨henv, (withinForm_prepared hp (Nat.le_refl i) he).evaluated, fun x hx hdef => ?_⟩
  obtain ⟨j, hj, value, hvalue⟩ := hdef
  refine (hnone x hx).2 (value.prepared config) ?_
  have hprepared : (p.prepared config).forms[j]? = some (.define x (value.prepared config)) := by
    rw [forms_prepared, List.getElem?_map, hvalue, Option.map_some, define_prepared]
  have htake : ((p.prepared config).forms.take i)[j]? = some (.define x (value.prepared config)) := by
    rw [List.getElem?_take_of_lt hj]
    exact hprepared
  exact List.mem_of_getElem? htake

theorem no_hash_of_freeUpTo {text : String} (hp : Program.ofText text = .ok p) {i : Nat} {x : String}
    (h : p.FreeUpTo i x) : '#' ∉ x.toList := by
  obtain ⟨j, -, e, he, hx⟩ := h
  exact (within_ofText hp e (List.mem_of_getElem? he)).name_of_freeIn hx

theorem FailsAt.unbound {text : String} (hp : Program.ofText text = .ok p) {i : Nat} {x : String}
    (h : p.FailsAt config s i (.unboundVariable x)) : p.FreeUpTo i x ∧ ¬ p.DefinesBefore i x := by
  obtain ⟨e, env, s₁, s₂, harrives, hfails⟩ := h
  obtain ⟨henv, he, hdefined⟩ := harrives.within hp
  have hends := eval_ends (p.firstLanguage_grows i) config (config.maxDepth - 1) (s := s₁) henv he
  rw [hfails] at hends
  obtain ⟨-, hfree, hnone⟩ := hends
  exact ⟨hfree, hdefined x hnone⟩

theorem ReadsAt.free {text : String} (hp : Program.ofText text = .ok p) {i : Nat} {x : String}
    (h : p.ReadsAt config s i x) : p.FreeUpTo i x := by
  obtain ⟨e, env, s₁, t, harrives, hread⟩ := h
  obtain ⟨henv, he, -⟩ := harrives.within hp
  have hkeeps := (keeps_eval (p.firstLanguage_grows i) config (config.maxDepth - 1)).1 (.blank s₁) env
    e.evaluated henv he
  obtain ⟨new, hreads, hfree⟩ := hkeeps.extends_ledgerAfter.reads
  rw [hreads] at hread
  exact hfree _ ((List.mem_append.1 hread).resolve_right List.not_mem_nil)

theorem ofText_failure {text : String} {f : Failure} (h : Program.ofText text = .error f) :
    ∃ fault, f = .parse fault := by
  rw [ofText, Datum.allOfText] at h
  cases hr : Datum.readAll text.toList with
  | error fault =>
    rw [hr] at h
    cases h
    exact ⟨_, rfl⟩
  | ok ds =>
    rw [hr] at h
    cases hd : ofData ds with
    | error fault =>
      have hfails : (ofData ds).mapError Failure.ofGrammar = .error f := h
      rw [hd] at hfails
      cases hfails
      exact ⟨_, rfl⟩
    | ok p =>
      have hfails : (ofData ds).mapError Failure.ofGrammar = .error f := h
      rw [hd] at hfails
      cases hfails

theorem evaluateText_of_ok {text : String} (hp : ofText text = .ok p) :
    evaluateText config text s = evaluateProgram config p s := by
  rw [evaluateText, hp]
  rfl

theorem evaluateText_of_error {text : String} {f : Failure} (hp : ofText text = .error f) :
    evaluateText config text s = .error f s := by
  rw [evaluateText, hp]
  rfl

/-- A text whose evaluation lacks the value of a variable spells a program one of whose forms fails for that. -/
theorem failsAt_of_evaluateText {text : String} {x : String} {s' : Supply}
    (h : evaluateText config text s = .error (.unboundVariable x) s') :
    ∃ p i, Program.ofText text = .ok p ∧ p.FailsAt config s i (.unboundVariable x) := by
  cases hp : Program.ofText text with
  | error f =>
    obtain ⟨fault, rfl⟩ := ofText_failure hp
    rw [evaluateText_of_error hp] at h
    cases h
  | ok p =>
    rw [evaluateText_of_ok hp, evaluateProgram_eq, evaluateSequence] at h
    cases hd : config.maxDepth with
    | zero =>
      rw [hd] at h
      cases h
    | succ n =>
      rw [hd, evalSequence_succ] at h
      rcases evalForms_failure h with hempty | ⟨i, e, env, s₁, he, hrun, hfails⟩
      · cases hempty
      · refine ⟨p, i, rfl, e, env, s₁, s', ⟨he, ?_⟩, ?_⟩
        · rw [hd]
          exact hrun
        · rw [hd]
          exact hfails

end Program

/-- **Scope safety.**  When a text fails for lack of the value of a variable, it does so at one of the forms of its
program.  The variable has no mark `#`, it occurs free in that form or in an earlier one, and no earlier form defines
it; so a program does not fail for that reason if earlier forms define all that is free.  Nor is any variable ever
looked up, whether it has a value or not, that does not occur free so far. -/
theorem scope_safe (config : Config) (text : String) (s : Supply) :
    (∀ x s', evaluateText config text s = .error (.unboundVariable x) s' →
      ∃ p i, Program.ofText text = .ok p ∧ p.FailsAt config s i (.unboundVariable x)) ∧
    ∀ p, Program.ofText text = .ok p →
      (∀ i x, p.FailsAt config s i (.unboundVariable x) →
        '#' ∉ x.toList ∧ p.FreeUpTo i x ∧ ¬ p.DefinesBefore i x) ∧
      (∀ i x, p.ReadsAt config s i x → '#' ∉ x.toList ∧ p.FreeUpTo i x) ∧
      (p.Closed → ∀ x s', evaluateText config text s ≠ .error (.unboundVariable x) s') := by
  refine ⟨fun x s' h => Program.failsAt_of_evaluateText h, fun p hp => ⟨?_, ?_, ?_⟩⟩
  · intro i x h
    obtain ⟨hfree, hdefined⟩ := h.unbound hp
    exact ⟨Program.no_hash_of_freeUpTo hp hfree, hfree, hdefined⟩
  · intro i x h
    have hfree := h.free hp
    exact ⟨Program.no_hash_of_freeUpTo hp hfree, hfree⟩
  · intro hclosed x s' h
    obtain ⟨p', i, hp', hfails⟩ := Program.failsAt_of_evaluateText h
    rw [hp] at hp'
    cases hp'
    obtain ⟨⟨j, hj, e, he, hx⟩, hdefined⟩ := hfails.unbound hp
    obtain ⟨k, hk, value, hvalue⟩ := hclosed j e he x hx
    exact hdefined ⟨k, by omega, value, hvalue⟩

end SubstModel
