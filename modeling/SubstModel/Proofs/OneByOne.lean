import SubstModel.Interpreter
import SubstModel.Proofs.SideBySide

/-!
# One by one — a sequence, and its forms evaluated singly

A caller who keeps an environment can evaluate forms singly and extend the environment with what they define.  A
sequence is itself a nested step, so its forms have one step less than they have when they are evaluated singly.  That
is all the difference there is.

* `Ending` — how forms end, with the form at which they fail;
* `formsFrom` — forms evaluated one by one, by any evaluator of expressions;
* `evalForms_eq_result` — a sequence comes to what its forms, one by one, end with;
* `formsFrom_noValue` — forms without a value end in a definition;
* `oneByOne`, `withinSequence` — the forms by themselves, and as the sequence evaluates them;
* `sequence_agrees_oneByOne` — **a sequence that is not cut off ends as its forms do one by one**.
-/

namespace SubstModel

/-! ### Forms one by one -/

/-- How forms end that are evaluated one by one. -/
inductive Ending where
  /-- All forms have been evaluated.  The last one is no definition and has this value. -/
  | value (v : Value)
  /-- All forms have been evaluated, and the last one, if there is any, is a definition. -/
  | noValue
  /-- The form with this index fails, and no form behind it has been evaluated. -/
  | failure (index : Nat) (f : Failure)

/-- The ending of forms that have all been evaluated, when `last` is the value of the last one. -/
def Ending.ofLast : Option Value → Ending
  | some v => .value v
  | none => .noValue

/-- What a sequence comes to whose forms end like that. -/
def Ending.result : Ending × Supply → EStateM.Result Failure Supply Value
  | (.value v, s) => .ok v s
  | (.noValue, s) => .error (.eval .emptySequence) s
  | (.failure _ f, s) => .error f s

/-- Forms evaluated one by one, up to the first that fails.  In front of them `done` forms have been evaluated, and
`last` is the value of the last of these unless it is a definition.  A definition extends the environment of all forms
behind it. -/
def formsFrom (eval : Environment → Expr → Run Value) (done : Nat) (last : Option Value) (env : Environment) :
    List Expr → Supply → Ending × Supply
  | [], s => (.ofLast last, s)
  | .define x e :: rest, s =>
    match eval env e s with
    | .ok v s' => formsFrom eval (done + 1) none (env.extend x v) rest s'
    | .error f s' => (.failure done f, s')
  | e :: rest, s =>
    match eval env e s with
    | .ok v s' => formsFrom eval (done + 1) (some v) env rest s'
    | .error f s' => (.failure done f, s')

section Forms

variable {eval eval' : Environment → Expr → Run Value}

/-- Where a form is left, the value of the form in front of it does not matter. -/
theorem formsFrom_cons (done : Nat) (last : Option Value) (env : Environment) (e : Expr) (rest : List Expr)
    (s : Supply) :
    formsFrom eval done last env (e :: rest) s = formsFrom eval done none env (e :: rest) s := by
  cases e <;> rfl

/-- **A sequence comes to what its forms, one by one, end with.** -/
theorem evalForms_eq_result (env : Environment) (es : List Expr) (done : Nat) (s : Supply) :
    evalForms eval env es s = Ending.result (formsFrom eval done none env es s) := by
  fun_induction evalForms eval env es generalizing done s with
  | case1 env => rfl
  | case2 env x e rest ih =>
    rw [formsFrom]
    cases hv : eval env e s with
    | ok v s' => rw [Run.bind_of_ok hv, ih v (done + 1)]
    | error f s' => rw [Run.bind_of_error hv]; rfl
  | case3 env e hdef =>
    rw [formsFrom]
    · cases hv : eval env e s <;> rfl
    · exact hdef
  | case4 env e rest hdef hne ih =>
    rw [formsFrom]
    · cases hv : eval env e s with
      | ok v s' =>
        obtain ⟨e', rest', rfl⟩ := List.exists_cons_of_ne_nil hne
        rw [Run.bind_of_ok hv, ih (done + 1)]
        exact congrArg Ending.result (formsFrom_cons (done + 1) (some v) env e' rest' s').symm
      | error f s' => rw [Run.bind_of_error hv]; rfl
    · exact hdef

/-- Forms without a value are none, or the last of them is a definition. -/
theorem formsFrom_noValue {done : Nat} {last : Option Value} {env : Environment} {es : List Expr} {s s' : Supply}
    (h : formsFrom eval done last env es s = (.noValue, s')) :
    es = [] ∨ ∃ x e, es.getLast? = some (.define x e) := by
  fun_induction formsFrom eval done last env es s with
  | case1 => exact .inl rfl
  | case2 done last env x e rest s v s₁ hv ih =>
    refine .inr ?_
    rcases ih h with rfl | ⟨y, e', hlast⟩
    · exact ⟨x, e, rfl⟩
    · exact ⟨y, e', by rw [List.getLast?_cons, hlast]; rfl⟩
  | case3 => cases h
  | case4 done last env e rest s hdef v s₁ hv ih =>
    rcases ih h with rfl | ⟨y, e', hlast⟩
    · cases h
    · exact .inr ⟨y, e', by rw [List.getLast?_cons, hlast]; rfl⟩
  | case5 => cases h

/-- Two evaluators that agree, except where the first one is cut off, evaluate forms alike that are not cut off. -/
theorem formsFrom_congr (cut : Failure → Prop)
    (heval : ∀ env e s, (∀ f t, eval env e s = .error f t → ¬ cut f) → eval' env e s = eval env e s)
    {done : Nat} {last : Option Value} {env : Environment} {es : List Expr} {s : Supply}
    (h : ∀ i f t, formsFrom eval done last env es s = (.failure i f, t) → ¬ cut f) :
    formsFrom eval' done last env es s = formsFrom eval done last env es s := by
  fun_induction formsFrom eval done last env es s with
  | case1 => rfl
  | case2 done last env x e rest s v s₁ hv ih =>
    have hsame : eval' env e s = .ok v s₁ := (heval env e s (by simp [hv])).trans hv
    rw [formsFrom, hsame]
    exact ih h
  | case3 done last env x e rest s f s₁ hv =>
    have hsame : eval' env e s = .error f s₁ := by
      refine (heval env e s fun f' t hf => ?_).trans hv
      cases hv.symm.trans hf
      exact h done f s₁ rfl
    rw [formsFrom, hsame]
  | case4 done last env e rest s hdef v s₁ hv ih =>
    have hsame : eval' env e s = .ok v s₁ := (heval env e s (by simp [hv])).trans hv
    rw [formsFrom, hsame]
    · exact ih h
    · exact hdef
  | case5 done last env e rest s hdef f s₁ hv =>
    have hsame : eval' env e s = .error f s₁ := by
      refine (heval env e s fun f' t hf => ?_).trans hv
      cases hv.symm.trans hf
      exact h done f s₁ rfl
    rw [formsFrom, hsame]
    exact hdef

end Forms

/-! ### Forms of a sequence -/

/-- The forms evaluated one by one, each by itself. -/
def oneByOne (config : Config) (env : Environment) (es : List Expr) (s : Supply) : Ending × Supply :=
  formsFrom (evaluate config) 0 none env es s

/-- The forms as the sequence evaluates them, which is a step around each of them. -/
def withinSequence (config : Config) (env : Environment) (es : List Expr) (s : Supply) : Ending × Supply :=
  formsFrom (eval config (config.maxDepth - 1)) 0 none env es s

/-- A step more changes no evaluation that is not cut off. -/
theorem evaluate_eq_of_within {config : Config} {env : Environment} {e : Expr} {s : Supply}
    (h : ∀ f t, eval config (config.maxDepth - 1) env e s = .error f t → ¬ f = depthFailure config) :
    evaluate config env e s = eval config (config.maxDepth - 1) env e s := by
  have hlooser : Looser (· = depthFailure config) config config (config.maxDepth - 1) config.maxDepth :=
    ⟨Nat.sub_le _ _, .inr rfl, .inl rfl⟩
  have hexprs := (sideBySide_eval Invariant.anything_kept hlooser).1
  exact (hexprs env env e env.agrees_anything trivial).eq h

/-- **A sequence that is not cut off ends as its forms do one by one**: with the same value, or with the same failure at
the same form, and with the same supply.  Where it is the sequence itself that lacks a value, all its forms have been
evaluated, and they end in a definition if there are any. -/
theorem sequence_agrees_oneByOne {config : Config} {env : Environment} {es : List Expr} {s : Supply}
    (hcut : ∀ t, evaluateSequence config env es s ≠ .error (depthFailure config) t) :
    evaluateSequence config env es s = Ending.result (oneByOne config env es s) ∧
      withinSequence config env es s = oneByOne config env es s ∧
      ∀ t, oneByOne config env es s = (.noValue, t) → es = [] ∨ ∃ x e, es.getLast? = some (.define x e) := by
  obtain ⟨n, hn⟩ : ∃ n, config.maxDepth = n + 1 := by
    refine Nat.exists_eq_succ_of_ne_zero fun hzero => hcut s ?_
    rw [evaluateSequence, hzero]
    rfl
  have hsequence : evaluateSequence config env es s = Ending.result (withinSequence config env es s) := by
    rw [evaluateSequence, withinSequence, hn, evalSequence_succ]
    exact evalForms_eq_result env es 0 s
  have hsame : oneByOne config env es s = withinSequence config env es s := by
    refine formsFrom_congr (· = depthFailure config) (fun env e s => evaluate_eq_of_within) ?_
    rintro i f t hfails rfl
    refine hcut t ?_
    rw [hsequence, withinSequence, hfails]
    rfl
  exact ⟨by rw [hsequence, hsame], hsame.symm, fun t => formsFrom_noValue⟩

/-- The third of three forms fails, behind one that has been handed a name, and nothing is left of five steps. -/
theorem sequence_agrees_oneByOne_arity :
    let tight : Config := { maxDepth := 5 }
    let constant : Expr := .lambda ["x"] [.lambda ["y"] [.var "x"]]
    let forms : List Expr := [.define "f" constant, .app (.var "f") [.boolean true], .app (.var "f") []]
    (∀ t, evaluateSequence tight .empty forms { } ≠ .error (depthFailure tight) t) ∧
      oneByOne tight .empty forms { } = (.failure 2 (.arity 1 0 (some .procedure)), ⟨1, 2⟩) := by
  intro tight constant forms
  have hfails : evaluateSequence tight .empty forms { } = .error (.arity 1 0 (some .procedure)) ⟨1, 2⟩ := rfl
  have hcut : ∀ t, evaluateSequence tight .empty forms { } ≠ .error (depthFailure tight) t := by
    simp [hfails, depthFailure]
  obtain ⟨-, hsame, -⟩ := sequence_agrees_oneByOne hcut
  exact ⟨hcut, hsame.symm.trans rfl⟩

end SubstModel
