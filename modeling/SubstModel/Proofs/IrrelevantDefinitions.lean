import SubstModel.Interpreter
import SubstModel.Proofs.FreeVariables
import SubstModel.Proofs.SideBySide

/-!
# Irrelevant definitions — what an evaluation does not read

The body of a procedure is evaluated in the environment of the caller, so a definition may matter to an expression that
does not mention it: some procedure that is called on the way may.  It does not matter if no procedure mentions it that
the expression quotes or that the environment holds.

* `Language.unread` — all in which a given variable is not free, and `Expr.within_unread_iff`, what that means where no
  procedure is quoted;
* `Invariant.reading`, `Invariant.reading_kept` — evaluation reads nothing else;
* `Expr.UnreadForms` — a variable is not free in forms before one of them defines it;
* `irrelevant_definition` — **a definition of a variable that is not free changes no evaluation**.
-/

namespace SubstModel

/-! ### Variables that are read -/

/-- The language in which the variable is not free, be it in the expression itself or in a procedure that is quoted
anywhere in it. -/
def Language.unread (x : String) : Language :=
  .reading (· ≠ x)

/-- Where no procedure is quoted, an expression is within the language if the variable does not occur free in it. -/
theorem Expr.within_unread_iff {L : Language} (hL : ∀ r, ¬ L.ref r) {e : Expr} (he : e.Within L []) {x : String} :
    e.Within (.unread x) [] ↔ ¬ e.FreeIn x := by
  constructor
  · intro h hx
    obtain ⟨-, hmem | hne⟩ := Expr.Within.of_free e h hx
    · exact absurd hmem List.not_mem_nil
    · exact hne rfl
  · intro hx
    have hfree : e.Within (L.withFree (· ≠ x)) [] :=
      Expr.Within.of_freeIn hL e he fun y hy => .inr fun hyx => hx (hyx ▸ hy)
    exact Expr.Within.mono (Language.withFree_le_reading L _) (List.Subset.refl _) e hfree

/-- Evaluation within the language reads no other variables. -/
def Invariant.reading (S : String → Prop) : Invariant where
  name := S
  expr e := e.Within (.reading S) []
  value v := v.Within (.reading S)
  failure _ := True

theorem Invariant.reading_applies {S : String → Prop} {params : List String} {body : List Expr}
    (hbody : Expr.WithinAll (.reading S) params.reverse body) : (reading S).Applies params body := by
  intro issued args hlen hargs
  exact Expr.withinAll_iff.1
    (within_substitute_rename (Language.le_refl _) ⟨fun _ _ => trivial, trivial⟩ hlen hargs hbody)

theorem Invariant.reading_kept (S : String → Prop) : (reading S).Kept where
  cond h := h
  app h := ⟨h.1, Expr.withinAll_iff.1 h.2⟩
  letIn h := h.letApplication
  define h := h.2.2
  var h := h.2.resolve_left List.not_mem_nil
  quoted h := h
  listwise := Value.listwise_within _
  string _ := trivial
  primitive _ := trivial
  closure {ref params body} := by
    show True ∧ _ ∧ _ ∧ Expr.WithinAll _ _ _ ↔ _ ∧ _ ∧ Expr.WithinAll _ (params.reverse ++ []) _
    rw [List.append_nil, true_and]
  classDef {ref fields methods} := by
    show True ∧ True ∧ _ ∧ _ ∧ Expr.WithinPairs _ _ _ ↔ True ∧ _ ∧ _ ∧ Expr.WithinPairs _ (fields.reverse ++ []) _
    rw [List.append_nil, true_and]
  body {params body} h := by
    obtain ⟨-, -, hbody⟩ := h
    rw [List.append_nil] at hbody
    exact reading_applies hbody
  methods {fields methods} h := by
    obtain ⟨-, -, -, hmethods⟩ := h
    rw [List.append_nil] at hmethods
    refine reading_applies (Expr.withinAll_iff.2 (List.forall_mem_map.2 ?_))
    exact Expr.withinPairs_iff.1 hmethods
  object h := ⟨trivial, trivial, ⟨trivial, fun _ _ => trivial⟩, fun _ _ => trivial,
    Expr.withinPairs_iff.2 fun m hm => (h m hm).2⟩
  method h m hm := ⟨Expr.withinPairs_iff.1 h.2.2.2.2 m hm, .inr trivial⟩
  failure _ := trivial

/-! ### One more definition -/

theorem Environment.agrees_extend_unread {env : Environment} {x : String}
    (henv : ∀ y v, y ≠ x → env.get? y = some v → v.Within (.unread x)) (w : Value) :
    env.Agrees (.reading (· ≠ x)) (env.extend x w) :=
  fun y hy => ⟨get?_extend_of_ne env w hy, fun v hv => henv y v hy hv⟩

/-- Where both environments define the variable alike, they agree on everything. -/
theorem Environment.Agrees.define {env env' : Environment} {x : String} (h : env.Agrees (.reading (· ≠ x)) env')
    (v : Value) : (env.extend x v).Agrees .anything (env'.extend x v) := by
  intro y _
  refine ⟨?_, fun _ _ => trivial⟩
  by_cases hyx : y = x
  · subst hyx
    rw [get?_extend_self, get?_extend_self]
  · rw [get?_extend_of_ne env v hyx, get?_extend_of_ne env' v hyx]
    exact (h y hyx).1

/-- The variable is not free in the forms, up to the one that defines it if there is one. -/
def Expr.UnreadForms (x : String) : List Expr → Prop
  | [] => True
  | .define y e :: rest => e.Within (.unread x) [] ∧ (y = x ∨ Expr.UnreadForms x rest)
  | e :: rest => e.Within (.unread x) [] ∧ Expr.UnreadForms x rest

theorem Expr.unreadForms_of_forall {x : String} {es : List Expr} (h : ∀ e ∈ es, e.Within (.unread x) []) :
    Expr.UnreadForms x es := by
  fun_induction Expr.UnreadForms x es with
  | case1 => trivial
  | case2 y e rest ih =>
    have hform := h _ List.mem_cons_self
    exact ⟨hform.2.2, .inr (ih fun e' he' => h e' (List.mem_cons_of_mem _ he'))⟩
  | case3 e rest hdef ih =>
    exact ⟨h e List.mem_cons_self, ih fun e' he' => h e' (List.mem_cons_of_mem _ he')⟩

/-- Forms in which the variable is not free are evaluated alike where the variable is defined differently. -/
theorem sideBySide_unreadForms {cut : Failure → Prop} {eval : Environment → Expr → Run Value}
    (heval : ∀ I : Invariant, I.Kept → I.ComparesExprs cut eval eval) {x : String} {env env' : Environment}
    {es : List Expr} (henv : env.Agrees (.reading (· ≠ x)) env') (hes : Expr.UnreadForms x es) :
    SideBySide cut (fun _ => True) (fun _ => True) (evalForms eval env es) (evalForms eval env' es) := by
  have hread := heval _ (Invariant.reading_kept (· ≠ x))
  fun_induction evalForms eval env es generalizing env' with
  | case1 env => exact SideBySide.throw trivial
  | case2 env y e rest ih =>
    obtain ⟨he, hrest⟩ := hes
    refine (hread env env' e henv he).bind fun v hv => ?_
    by_cases hyx : y = x
    · -- The rest may read the variable: its value is the new one on both sides.
      subst hyx
      exact sideBySide_evalForms Invariant.anything_kept (heval _ Invariant.anything_kept) _ _ rest (henv.define v)
        fun e' _ => Invariant.anything_kept.form trivial
    · exact ih v (henv.extend y hv) (hrest.resolve_left hyx)
  | case3 env e hdef =>
    rw [Expr.UnreadForms] at hes
    · rw [evalForms]
      · exact (hread env env' e henv hes.1).imp (fun _ _ => trivial) fun _ _ => trivial
      · exact hdef
    · exact hdef
  | case4 env e rest hdef hne ih =>
    rw [Expr.UnreadForms] at hes
    · rw [evalForms]
      · exact (hread env env' e henv hes.1).bind fun _ _ => ih henv hes.2
      · exact hdef
      · exact hne
    · exact hdef

/-- **Irrelevant definitions do not matter.**  A definition of a variable that is free neither in what is evaluated nor
in any value that can be looked up makes no difference: evaluation comes to the same value or to the same failure, and
hands out the same names and references.  The forms of a sequence may read the variable behind a definition of their
own. -/
theorem irrelevant_definition {x : String} {env : Environment}
    (henv : ∀ y v, y ≠ x → env.get? y = some v → v.Within (.unread x)) (config : Config) (w : Value) (s : Supply) :
    (∀ e, e.Within (.unread x) [] → evaluate config (env.extend x w) e s = evaluate config env e s) ∧
      ∀ es, Expr.UnreadForms x es →
        evaluateSequence config (env.extend x w) es s = evaluateSequence config env es s := by
  have hagrees := Environment.agrees_extend_unread henv w
  have heval (n : Nat) (I : Invariant) (hI : I.Kept) :
      I.ComparesExprs (fun _ => False) (eval config n) (eval config n) :=
    (sideBySide_eval hI (Looser.refl _ config n)).1
  constructor
  · intro e he
    exact (heval config.maxDepth _ (Invariant.reading_kept _) env _ e hagrees he).eq fun _ _ _ => id
  · intro es hes
    rw [evaluateSequence, evaluateSequence]
    cases config.maxDepth with
    | zero => rfl
    | succ n => exact (sideBySide_unreadForms (heval n) hagrees hes).eq fun _ _ _ => id

/-- A definition of `x` beside one of `f`, whose parameter is another `x`; the forms define an `x` of their own. -/
theorem irrelevant_definition_shadowed :
    let f : Value := .closure 0 ["x"] [.var "x"]
    let env := Environment.empty.extend "f" f
    let forms : List Expr := [.define "y" (.app (.var "f") [.boolean true]), .define "x" (.var "y"), .var "x"]
    (∀ y v, y ≠ "x" → env.get? y = some v → v.Within (.unread "x")) ∧ Expr.UnreadForms "x" forms ∧
      evaluateSequence { } (env.extend "x" (.string "unread")) forms { } = evaluateSequence { } env forms { } ∧
      evaluateSequence { } env forms { } = .ok (.boolean true) { } := by
  intro f env forms
  have henv : ∀ y v, y ≠ "x" → env.get? y = some v → v.Within (.unread "x") := by
    intro y v _ hv
    have hf : v = f := by
      by_cases hy : y = "f"
      · subst hy
        exact (Option.some.inj ((Environment.get?_extend_self _ _ f).symm.trans hv)).symm
      · rw [Environment.get?_extend_of_ne _ f hy] at hv
        cases hv
    rw [hf]
    simp [f, Value.Within, Expr.WithinAll, Expr.Within, Language.unread, Language.reading, Language.Binds,
      Language.HasBody]
  have hforms : Expr.UnreadForms "x" forms := by
    simp [forms, Expr.UnreadForms, Expr.Within, Expr.WithinAll, Language.unread, Language.reading]
  exact ⟨henv, hforms, (irrelevant_definition henv { } (.string "unread") { }).2 forms hforms, rfl⟩

/-- No parameter binds in what is quoted: here the definition of `x` is what the quoted procedure reads. -/
example :
    let quotation : Expr := .quoted (.closure 0 [] [.var "x"])
    let e : Expr := .app (.lambda ["x"] [.app quotation []]) [.boolean true]
    evaluate { } (Environment.empty.extend "x" (.boolean false)) e { } = .ok (.boolean false) ⟨0, 1⟩ ∧
      evaluate { } .empty e { } = .error (.unboundVariable "x") ⟨0, 1⟩ :=
  ⟨rfl, rfl⟩

end SubstModel
