import SubstModel.Proofs.Dispatcher.Object
import SubstModel.Proofs.Nameless.Evaluation
import SubstModel.Proofs.Nameless.Marks

/-!
# Alpha-equivalence — the choice of bound names does not show

Two programs are alpha-equivalent when the same is left of them without the names that they bind: every variable belongs
to the binder at the same place, and what nothing binds, the names of definitions and the names of methods are the same.
Evaluation factors through what is left, so the two come to the same, whichever names are in use.

* `Program.AlphaEquivalent`, `Value.AlphaEquivalent` — equality up to bound names, and of values up to references;
* `Program.alphaEquivalent_rename` — fresh names for what is bound leave an equivalent program;
* `mirrors_evaluateProgram` — a program that is read from text comes to what its nameless forms come to;
* `AlphaAlike` — equivalent values, or failures of one kind;
* `alpha_equivalent_outcomes` — **equivalent programs come to equivalent values, or to failures of one kind**.
-/

namespace SubstModel

/-! ### Equality up to bound names -/

/-- The programs differ in the names of parameters, local names and fields only, and each variable is bound by the same
binder in both. -/
def Program.AlphaEquivalent (p q : Program) : Prop :=
  Expr.namelessAll unmarked [] [] p.forms = Expr.namelessAll unmarked [] [] q.forms

/-- The values differ in bound names and in references only. -/
def Value.AlphaEquivalent (v w : Value) : Prop :=
  v.nameless unmarked = w.nameless unmarked

/-- Fresh names for all that a program binds leave an equivalent program, unless a free variable has one of them. -/
theorem Program.alphaEquivalent_rename {p : Program} {issued : Nat}
    (hp : ∀ x, Expr.OccursFreeAny x p.forms → NumberedUpTo issued x) :
    p.AlphaEquivalent ⟨rename issued p.forms⟩ :=
  (Expr.namelessAll_rename unmarked [] [] p.forms (Nat.le_refl issued) (Scope.apart_nil issued issued)
    fun x hx => .inr (hp x hx)).symm

/-- Names may be exchanged, as long as every variable keeps its binder. -/
example : (⟨[.lambda ["x"] [.lambda ["y"] [.var "x", .var "z"]]]⟩ : Program).AlphaEquivalent
    ⟨[.lambda ["y"] [.lambda ["x"] [.var "y", .var "z"]]]⟩ := by
  rfl

mutual

/-- A value without closures, classes and objects is equivalent to itself only. -/
theorem Value.AlphaEquivalent.eq_of_inert : ∀ {v w : Value}, v.Within .inert → v.AlphaEquivalent w → w = v
  | .number _, w, _, h | .boolean _, w, _, h | .string _, w, _, h | .symbol _, w, _, h | .primitive _, w, _, h => by
    cases w <;> cases h
    rfl
  | .list vs, w, hv, h => by
    cases w with
    | list ws => exact congrArg Value.list (Value.eq_of_namelessAll_eq hv (TermValue.list.inj h))
    | _ => cases h
  | .closure .., _, hv, _ => absurd hv.1 id
  | .classDef .., _, hv, _ | .object .., _, hv, _ => absurd hv.2.1 id

theorem Value.eq_of_namelessAll_eq : ∀ {vs ws : List Value}, Value.WithinAll .inert vs →
    Value.namelessAll unmarked vs = Value.namelessAll unmarked ws → ws = vs
  | [], [], _, _ => rfl
  | [], _ :: _, _, h | _ :: _, [], _, h => by cases h
  | v :: vs, w :: ws, ⟨hv, hvs⟩, h => by
    have hparts := List.cons.inj h
    rw [Value.AlphaEquivalent.eq_of_inert hv hparts.1, Value.eq_of_namelessAll_eq hvs hparts.2]

end

/-! ### Programs without names -/

theorem Language.spelled_and_discreet_le (s : Supply) :
    Language.spelled.and Language.discreet ≤ Language.discreetUpTo s where
  name h := numberedUpTo_of_no_hash h.1 s.issued
  free _ := trivial
  binders h := h.1
  label _ := trivial
  symbol _ := trivial
  primitive h := h.2
  ref _ := trivial
  classes _ := trivial
  lets _ := trivial
  definitions h := h.1
  emptyBodies _ := trivial

theorem Language.discreetUpTo_hasDispatchers (s : Supply) : (Language.discreetUpTo s).HasDispatchers where
  identical := nofun
  symbol := id
  message := Language.binds_messageName List.nodup_singleton fun hx => numberedUpTo_of_no_hash hx s.issued

theorem Expr.WithinForm.nameless_mapMark {ι κ : Type} {L : Language} {f : ι → κ} {g : Ref → ι} {g' : Ref → κ}
    (hL : ∀ r, L.ref r → g' r = f (g r)) {e : Expr} (h : e.WithinForm L) :
    e.nameless g' [] [] = (e.nameless g [] []).mapMark f := by
  cases e with
  | define x value => rw [Expr.nameless, Expr.nameless_mapMark hL value [] h.2, Expr.nameless, Term.mapMark]
  | _ =>
    have hexpr : Expr.Within L [] _ := h
    exact Expr.nameless_mapMark hL _ [] hexpr

/-- In a text there is no reference, so the marks do not matter. -/
theorem Program.nameless_ofText {text : String} {p : Program} (hp : Program.ofText text = .ok p) (g : Ref → Nat) :
    Expr.namelessAll g [] [] p.forms
      = (Expr.namelessAll unmarked [] [] p.forms).map (Term.mapMark fun _ => 0) := by
  rw [Expr.namelessAll_eq_map, Expr.namelessAll_eq_map, List.map_map]
  refine List.map_congr_left fun e he => ?_
  exact (Program.within_ofText hp e he).nameless_mapMark fun r hr => absurd hr id

theorem Program.nameless_prepared (config : Config) (g : Ref → Nat) (p : Program) :
    Expr.namelessAll g [] [] (p.prepared config).forms
      = Nameless.prepared config (Expr.namelessAll g [] [] p.forms) := by
  rw [Program.prepared, Nameless.prepared]
  cases config.classes with
  | objects => rfl
  | dispatchers => exact Expr.namelessAll_withoutClasses g p.forms []

section Programs

variable (config : Config) {text : String} {p : Program} (hp : Program.ofText text = .ok p)
  (hforms : ∀ e ∈ p.forms, e.WithinForm .discreet) (s : Supply)

include hp hforms

theorem Program.discreet_prepared : ∀ e ∈ (p.prepared config).forms, e.WithinForm (.discreetUpTo s) :=
  Program.within_prepared (Language.discreetUpTo_hasDispatchers s) config fun e he =>
    ((Program.within_ofText hp e he).and (hforms e he)).mono (Language.spelled_and_discreet_le s)

theorem evaluateProgram_ends : Ends Language.discreetUpTo config .empty s (evaluateProgram config p s) := by
  rw [evaluateProgram_eq]
  exact evalSequence_ends Language.discreetUpTo_grows config config.maxDepth (Environment.within_empty _)
    (Program.discreet_prepared config hp hforms s) fun _ => .inl trivial

/-- **A program that is read from text comes to what its nameless forms come to.** -/
theorem mirrors_evaluateProgram {g : Ref → Nat} (hg : Function.Injective g) {k : Nat} (hmarks : MarksFrom g s k) :
    Mirrors g (Value.nameless g) (evaluateProgram config p s)
      (Nameless.program config ((Expr.namelessAll unmarked [] [] p.forms).map (Term.mapMark fun _ => 0)) k) := by
  have hmirrors := (mirrors_eval config hg config.maxDepth).2 hmarks (Environment.within_empty _)
    (Program.discreet_prepared config hp hforms s)
  rw [Program.nameless_prepared, Program.nameless_ofText hp g] at hmirrors
  rw [evaluateProgram_eq]
  exact hmirrors

end Programs

/-! ### Equivalent programs -/

/-- Two outcomes are alike: equivalent values, and the very same value if it contains no closure, class or object; or
failures of one kind. -/
inductive AlphaAlike :
    EStateM.Result Failure Supply Value → EStateM.Result Failure Supply Value → Prop
  | ok {v w : Value} {s t : Supply} (value : v.AlphaEquivalent w) (inert : v.Within .inert → w = v) :
    AlphaAlike (.ok v s) (.ok w t)
  | error {f f' : Failure} {s t : Supply} (kind : f.kind = f'.kind) : AlphaAlike (.error f s) (.error f' t)

/-- Outcomes of which the same is left, though references are marked differently, are alike. -/
theorem Mirrors.alphaAlike {g g' : Ref → Nat} {config : Config} {env : Environment} {s t : Supply}
    {r r' : EStateM.Result Failure Supply Value} {o : EStateM.Result Failure.Kind Nat (TermValue Nat)}
    (h : Mirrors g (Value.nameless g) r o) (h' : Mirrors g' (Value.nameless g') r' o)
    (hends : Ends Language.discreetUpTo config env s r) (hends' : Ends Language.discreetUpTo config env t r') :
    AlphaAlike r r' := by
  cases o with
  | ok b k =>
    cases r with
    | ok v s' => cases r' with
      | ok w t' =>
        have halpha : v.AlphaEquivalent w := by
          rw [Value.AlphaEquivalent, Value.nameless_unmarked hends.2 g, Value.nameless_unmarked hends'.2 g', h.1, h'.1]
        exact .ok halpha fun hinert => halpha.eq_of_inert hinert
      | error f' t' => exact absurd h' id
    | error f s' => exact absurd h id
  | error kind k =>
    cases r with
    | ok v s' => exact absurd h id
    | error f s' => cases r' with
      | ok w t' => exact absurd h' id
      | error f' t' => exact .error (Eq.trans h (Eq.symm h'))

/-- **Bound names do not show.**  Two programs that are read from text, do without `equal?` and differ in bound names
only come to equivalent values, or to failures of one kind, in every configuration and whatever each interpreter has
handed out before. -/
theorem alpha_equivalent_outcomes (config : Config) {text text' : String} {p q : Program}
    (hp : Program.ofText text = .ok p) (hq : Program.ofText text' = .ok q) (hpq : p.AlphaEquivalent q)
    (hforms : ∀ e ∈ p.forms, e.WithinForm .discreet) (hforms' : ∀ e ∈ q.forms, e.WithinForm .discreet)
    (s t : Supply) : AlphaAlike (evaluateProgram config p s) (evaluateProgram config q t) := by
  -- Each side counts its marks from the sum of the two counts, so they begin with the same mark.
  have hmarks : MarksFrom (· + t.allocated) s (s.allocated + t.allocated) := fun i =>
    Nat.add_right_comm s.allocated i t.allocated
  have hmarks' : MarksFrom (· + s.allocated) t (s.allocated + t.allocated) := by
    intro i
    show t.allocated + i + s.allocated = s.allocated + t.allocated + i
    rw [Nat.add_right_comm, Nat.add_comm t.allocated]
  have hmirrors := mirrors_evaluateProgram config hp hforms s (add_left_injective t.allocated) hmarks
  have hmirrors' := mirrors_evaluateProgram config hq hforms' t (add_left_injective s.allocated) hmarks'
  rw [show Expr.namelessAll unmarked [] [] p.forms = _ from hpq] at hmirrors
  exact hmirrors.alphaAlike hmirrors' (evaluateProgram_ends config hp hforms s)
    (evaluateProgram_ends config hq hforms' t)

/-- A field that has the name of the message takes that name away from the dispatcher. -/
theorem alpha_equivalent_outcomes_message :
    let text := "((class (a) ((get (lambda () a)))) #t)"
    let text' := "((class (msg) ((get (lambda () msg)))) #t)"
    let program (x : String) : Program :=
      ⟨[.app (.classDef [x] [("get", .lambda [] [.var x])]) [.boolean true]]⟩
    Program.ofText text = .ok (program "a") ∧ Program.ofText text' = .ok (program "msg") ∧
      (program "a").AlphaEquivalent (program "msg") ∧
      (∀ e ∈ (program "a").forms, e.WithinForm .discreet) ∧
      (∀ e ∈ (program "msg").forms, e.WithinForm .discreet) ∧
      AlphaAlike (evaluateProgram { classes := .dispatchers } (program "a") { })
        (evaluateProgram { classes := .dispatchers } (program "msg") { issued := 3, allocated := 1 }) := by
  intro text text' program
  have hp : Program.ofText text = .ok (program "a") := by
    subst text program
    rfl
  have hq : Program.ofText text' = .ok (program "msg") := by
    subst text' program
    rfl
  have hpq : (program "a").AlphaEquivalent (program "msg") := by
    simp [program, Program.AlphaEquivalent, Expr.namelessAll, Expr.nameless, Expr.namelessPairs, Term.ofVar]
  have hforms : ∀ x, ∀ e ∈ (program x).forms, e.WithinForm .discreet := by
    simp [program, Expr.WithinForm, Expr.Within, Expr.WithinAll, Expr.WithinPairs, Language.Binds,
      Language.HasBody, Language.discreet]
  exact ⟨hp, hq, hpq, hforms "a", hforms "msg", alpha_equivalent_outcomes _ hp hq hpq (hforms "a") (hforms "msg") _ _⟩

end SubstModel
