import SubstModel.Proofs.Language.Grammar
import SubstModel.Proofs.SideBySide

/-!
# Objects — their methods are procedures

Sending a message checks that the method is a procedure, but the check never fails: an object is only made of methods
that have passed it, and from then on stands in expressions as a quoted value, which nothing changes.

* `Expr.WellMade`, `Value.WellMade` — all methods of the objects in it are procedures;
* `Expr.WellMade.rename`, `Expr.WellMade.substitute` — renaming and substitution make no other objects;
* `Expr.Within.wellMade` — what quotes no procedure has no objects at all;
* `Invariant.wellMade`, `Invariant.wellMade_kept` — evaluation makes no other objects;
* `evaluateSequence_foreseen` — **what fails behind forms that quote no procedure is never a method**.
-/

namespace SubstModel

/-! ### Well-made objects -/

mutual

/-- The methods of all objects that the expression quotes are procedures. -/
def Expr.WellMade : Expr → Prop
  | .number _ | .boolean _ | .string _ | .primitive _ | .var _ => True
  | .cond test onTrue onFalse => Expr.WellMade test ∧ Expr.WellMade onTrue ∧ Expr.WellMade onFalse
  | .lambda _ body => Expr.WellMadeAll body
  | .app operator operands => Expr.WellMade operator ∧ Expr.WellMadeAll operands
  | .letIn bindings body => Expr.WellMadePairs bindings ∧ Expr.WellMadeAll body
  | .quoted v => Value.WellMade v
  | .define _ value => Expr.WellMade value
  | .classDef _ methods => Expr.WellMadePairs methods
termination_by structural e => e

/-- All objects in the expressions are well made. -/
def Expr.WellMadeAll : List Expr → Prop
  | [] => True
  | e :: es => Expr.WellMade e ∧ Expr.WellMadeAll es
termination_by structural es => es

/-- All objects in the values of the bindings are well made. -/
def Expr.WellMadePairs : List (String × Expr) → Prop
  | [] => True
  | (_, e) :: bs => Expr.WellMade e ∧ Expr.WellMadePairs bs
termination_by structural bs => bs

/-- The methods of all objects in the value are procedures. -/
def Value.WellMade : Value → Prop
  | .number _ | .boolean _ | .string _ | .symbol _ | .primitive _ => True
  | .list items => Value.WellMadeAll items
  | .closure _ _ body => Expr.WellMadeAll body
  | .classDef _ _ methods => Expr.WellMadePairs methods
  | .object _ _ methods => (∀ m ∈ methods, m.2.isLambda = true) ∧ Expr.WellMadePairs methods
termination_by structural v => v

/-- All objects in the values are well made. -/
def Value.WellMadeAll : List Value → Prop
  | [] => True
  | v :: vs => Value.WellMade v ∧ Value.WellMadeAll vs
termination_by structural vs => vs

end

theorem Expr.wellMadeAll_iff {es : List Expr} : Expr.WellMadeAll es ↔ ∀ e ∈ es, e.WellMade := by
  induction es with
  | nil => simp [Expr.WellMadeAll]
  | cons e es ih => rw [Expr.WellMadeAll, ih, List.forall_mem_cons]

theorem Expr.wellMadePairs_iff {bs : List (String × Expr)} :
    Expr.WellMadePairs bs ↔ ∀ b ∈ bs, b.2.WellMade := by
  induction bs with
  | nil => simp [Expr.WellMadePairs]
  | cons b bs ih => rw [Expr.WellMadePairs, ih, List.forall_mem_cons]

theorem Value.wellMadeAll_iff {vs : List Value} : Value.WellMadeAll vs ↔ ∀ v ∈ vs, v.WellMade := by
  induction vs with
  | nil => simp [Value.WellMadeAll]
  | cons v vs ih => rw [Value.WellMadeAll, ih, List.forall_mem_cons]

theorem Value.WellMade.toExpr {v : Value} (h : v.WellMade) : v.toExpr.WellMade := by
  cases v <;> exact h

theorem Value.listwise_wellMade : Listwise Value.WellMade :=
  ⟨fun _ => trivial, fun _ => trivial, Value.wellMadeAll_iff⟩

theorem Expr.WellMade.letApplication {bindings : List (String × Expr)} {body : List Expr}
    (h : (Expr.letIn bindings body).WellMade) : (letApplication bindings body).WellMade :=
  ⟨h.2, Expr.wellMadeAll_iff.2 (List.forall_mem_map.2 (Expr.wellMadePairs_iff.1 h.1))⟩

/-! ### Renaming and substitution -/

mutual

theorem Expr.WellMade.rename : ∀ (e : Expr) {issued : Nat} {Γ : Scope}, e.WellMade → (e.rename issued Γ).WellMade
  | .number _, _, _, _ | .boolean _, _, _, _ | .string _, _, _, _ | .primitive _, _, _, _ | .var _, _, _, _ => trivial
  | .quoted _, _, _, hv => hv
  | .cond a b c, _, _, ⟨ha, hb, hc⟩ =>
    ⟨Expr.WellMade.rename a ha, Expr.WellMade.rename b hb, Expr.WellMade.rename c hc⟩
  | .lambda _ body, _, _, hb => Expr.WellMade.renameAll body hb
  | .app f es, _, _, ⟨hf, hes⟩ => ⟨Expr.WellMade.rename f hf, Expr.WellMade.renameAll es hes⟩
  | .letIn bs body, issued, Γ, ⟨hbs, hb⟩ => by
    have hvalues : Expr.WellMadePairs (Expr.renamePairs issued Γ bs) := Expr.WellMade.renamePairs bs hbs
    refine ⟨Expr.wellMadePairs_iff.2 fun b hmem => ?_, Expr.WellMade.renameAll body hb⟩
    obtain ⟨b', hb', heq⟩ := List.mem_map.1 (List.of_mem_zip hmem).2
    rw [← heq]
    exact Expr.wellMadePairs_iff.1 hvalues b' hb'
  | .define _ e, _, _, he => Expr.WellMade.rename e he
  | .classDef _ methods, _, _, hm => Expr.WellMade.renamePairs methods hm
termination_by structural e => e

theorem Expr.WellMade.renameAll : ∀ (es : List Expr) {issued : Nat} {Γ : Scope}, Expr.WellMadeAll es →
    Expr.WellMadeAll (Expr.renameAll issued Γ es)
  | [], _, _, _ => trivial
  | e :: es, _, _, ⟨he, hes⟩ => ⟨Expr.WellMade.rename e he, Expr.WellMade.renameAll es hes⟩
termination_by structural es => es

theorem Expr.WellMade.renamePairs : ∀ (bs : List (String × Expr)) {issued : Nat} {Γ : Scope},
    Expr.WellMadePairs bs → Expr.WellMadePairs (Expr.renamePairs issued Γ bs)
  | [], _, _, _ => trivial
  | (_, e) :: bs, _, _, ⟨he, hbs⟩ => ⟨Expr.WellMade.rename e he, Expr.WellMade.renamePairs bs hbs⟩
termination_by structural bs => bs

end

/-- All objects in what is put in for variables are well made. -/
def Substitution.WellMade (σ : Substitution) : Prop :=
  ∀ {x r}, σ.lookup x = some r → r.WellMade

theorem Substitution.WellMade.without {σ : Substitution} (h : σ.WellMade) (binders : List String) :
    (σ.without binders).WellMade := by
  intro x r hr
  rw [Substitution.lookup_without] at hr
  split at hr
  · cases hr
  · exact h hr

mutual

theorem Expr.WellMade.substitute : ∀ (e : Expr) {σ : Substitution}, σ.WellMade → e.WellMade →
    (e.substitute σ).WellMade
  | .number _, _, _, _ | .boolean _, _, _, _ | .string _, _, _, _ | .primitive _, _, _, _ => trivial
  | .var x, σ, hσ, _ => by
    show ((σ.lookup x).getD (.var x)).WellMade
    cases hr : σ.lookup x with
    | some r => exact hσ hr
    | none => trivial
  | .quoted _, _, _, hv => hv
  | .cond a b c, _, hσ, ⟨ha, hb, hc⟩ =>
    ⟨Expr.WellMade.substitute a hσ ha, Expr.WellMade.substitute b hσ hb, Expr.WellMade.substitute c hσ hc⟩
  | .lambda params body, _, hσ, hb => Expr.WellMade.substituteAll body (hσ.without params) hb
  | .app f es, _, hσ, ⟨hf, hes⟩ => ⟨Expr.WellMade.substitute f hσ hf, Expr.WellMade.substituteAll es hσ hes⟩
  | .letIn bs body, _, hσ, ⟨hbs, hb⟩ =>
    ⟨Expr.WellMade.substitutePairs bs hσ hbs, Expr.WellMade.substituteAll body (hσ.without _) hb⟩
  | .define _ e, _, hσ, he => Expr.WellMade.substitute e hσ he
  | .classDef fields methods, _, hσ, hm => Expr.WellMade.substitutePairs methods (hσ.without fields) hm
termination_by structural e => e

theorem Expr.WellMade.substituteAll : ∀ (es : List Expr) {σ : Substitution}, σ.WellMade → Expr.WellMadeAll es →
    Expr.WellMadeAll (Expr.substituteAll σ es)
  | [], _, _, _ => trivial
  | e :: es, _, hσ, ⟨he, hes⟩ => ⟨Expr.WellMade.substitute e hσ he, Expr.WellMade.substituteAll es hσ hes⟩
termination_by structural es => es

theorem Expr.WellMade.substitutePairs : ∀ (bs : List (String × Expr)) {σ : Substitution}, σ.WellMade →
    Expr.WellMadePairs bs → Expr.WellMadePairs (Expr.substitutePairs σ bs)
  | [], _, _, _ => trivial
  | (_, e) :: bs, _, hσ, ⟨he, hbs⟩ => ⟨Expr.WellMade.substitute e hσ he, Expr.WellMade.substitutePairs bs hσ hbs⟩
termination_by structural bs => bs

end

/-! ### Where no procedure is quoted -/

mutual

/-- Where no procedure is quoted, there is no object. -/
theorem Expr.Within.wellMade {L : Language} (hL : ∀ r, ¬ L.ref r) :
    ∀ (e : Expr) {scope : List String}, e.Within L scope → e.WellMade
  | .number _, _, _ | .boolean _, _, _ | .string _, _, _ | .primitive _, _, _ | .var _, _, _ => trivial
  | .quoted v, _, hv => Value.Within.wellMade hL v hv
  | .cond a b c, _, ⟨ha, hb, hc⟩ =>
    ⟨Expr.Within.wellMade hL a ha, Expr.Within.wellMade hL b hb, Expr.Within.wellMade hL c hc⟩
  | .lambda _ body, _, ⟨_, _, hb⟩ => Expr.Within.wellMadeAll hL body hb
  | .app f es, _, ⟨hf, hes⟩ => ⟨Expr.Within.wellMade hL f hf, Expr.Within.wellMadeAll hL es hes⟩
  | .letIn bs body, _, ⟨_, _, _, hbs, hb⟩ => ⟨Expr.Within.wellMadePairs hL bs hbs, Expr.Within.wellMadeAll hL body hb⟩
  | .define _ e, _, ⟨_, _, he⟩ => Expr.Within.wellMade hL e he
  | .classDef _ methods, _, ⟨_, _, _, hm⟩ => Expr.Within.wellMadePairs hL methods hm
termination_by structural e => e

theorem Expr.Within.wellMadeAll {L : Language} (hL : ∀ r, ¬ L.ref r) :
    ∀ (es : List Expr) {scope : List String}, Expr.WithinAll L scope es → Expr.WellMadeAll es
  | [], _, _ => trivial
  | e :: es, _, ⟨he, hes⟩ => ⟨Expr.Within.wellMade hL e he, Expr.Within.wellMadeAll hL es hes⟩
termination_by structural es => es

theorem Expr.Within.wellMadePairs {L : Language} (hL : ∀ r, ¬ L.ref r) :
    ∀ (bs : List (String × Expr)) {scope : List String}, Expr.WithinPairs L scope bs → Expr.WellMadePairs bs
  | [], _, _ => trivial
  | (_, e) :: bs, _, ⟨he, hbs⟩ => ⟨Expr.Within.wellMade hL e he, Expr.Within.wellMadePairs hL bs hbs⟩
termination_by structural bs => bs

theorem Value.Within.wellMade {L : Language} (hL : ∀ r, ¬ L.ref r) : ∀ v : Value, v.Within L → v.WellMade
  | .number _, _ | .boolean _, _ | .string _, _ | .symbol _, _ | .primitive _, _ => trivial
  | .list vs, hvs => Value.Within.wellMadeAll hL vs hvs
  | .closure r _ _, ⟨hr, _⟩ => absurd hr (hL r)
  | .classDef r _ _, ⟨_, hr, _⟩ => absurd hr (hL r)
  | .object r _ _, ⟨_, hr, _⟩ => absurd hr (hL r)
termination_by structural v => v

theorem Value.Within.wellMadeAll {L : Language} (hL : ∀ r, ¬ L.ref r) :
    ∀ vs, Value.WithinAll L vs → Value.WellMadeAll vs
  | [], _ => trivial
  | v :: vs, ⟨hv, hvs⟩ => ⟨Value.Within.wellMade hL v hv, Value.Within.wellMadeAll hL vs hvs⟩
termination_by structural vs => vs

end

/-! ### Evaluation -/

/-- Evaluation makes well-made objects only, so no message meets a method that is no procedure. -/
def Invariant.wellMade : Invariant where
  name _ := True
  expr := Expr.WellMade
  value := Value.WellMade
  failure := Failure.Foreseen

theorem Invariant.wellMade_applies {params : List String} {body : List Expr} (hbody : Expr.WellMadeAll body) :
    wellMade.Applies params body := by
  intro issued args _ hargs
  refine Expr.wellMadeAll_iff.1 (Expr.WellMade.substituteAll _ ?_ (Expr.WellMade.renameAll body hbody))
  intro x r hr
  obtain ⟨v, hv, rfl⟩ := List.mem_map.1 (Substitution.mem_of_lookup_zip hr)
  exact Value.WellMade.toExpr (hargs v hv)

theorem Invariant.wellMade_kept : wellMade.Kept where
  cond h := h
  app h := ⟨h.1, Expr.wellMadeAll_iff.1 h.2⟩
  letIn h := Expr.WellMade.letApplication h
  define h := h
  var _ := trivial
  quoted h := h
  listwise := Value.listwise_wellMade
  string _ := trivial
  primitive _ := trivial
  closure := Iff.rfl
  classDef := Iff.rfl
  body h := wellMade_applies h
  methods h := wellMade_applies (Expr.wellMadeAll_iff.2 (List.forall_mem_map.2 (Expr.wellMadePairs_iff.1 h)))
  object h := ⟨fun m hm => (h m hm).1, Expr.wellMadePairs_iff.2 fun m hm => (h m hm).2⟩
  method h m hm := ⟨Expr.wellMadePairs_iff.1 h.2 m hm, .inl (h.1 m hm)⟩
  failure h := h

/-- **No message meets a method that is no procedure**, if the forms quote no procedure. -/
theorem evaluateSequence_foreseen {L : Language} (hL : ∀ r, ¬ L.ref r) (config : Config) {es : List Expr}
    (hes : ∀ e ∈ es, e.WithinForm L) {s s' : Supply} {f : Failure}
    (h : evaluateSequence config .empty es s = .error f s') : f.Foreseen := by
  have hforms : ∀ e ∈ es, Invariant.wellMade.form e := by
    intro e he
    cases e with
    | define x value => exact Expr.Within.wellMade hL value (hes _ he).2
    | _ => exact Expr.Within.wellMade hL _ ((hes _ he).expr nofun)
  have hempty : Environment.empty.Agrees .wellMade .empty := fun x _ => ⟨rfl, nofun⟩
  have hruns := (sideBySide_eval Invariant.wellMade_kept (Looser.refl (fun _ => False) config config.maxDepth)).2
    .empty .empty es hempty hforms s
  rw [← evaluateSequence, h] at hruns
  exact hruns.1

end SubstModel
