import SubstModel.Proofs.AlphaEquivalence
import SubstModel.Proofs.LetExpansion.Evaluation
import SubstModel.Proofs.Limits

/-!
# Programs without local bindings — expanding every `let` beforehand preserves meaning

A program whose local bindings are replaced before it is evaluated comes to what the program comes to, in fewer nested
steps.  Only the generated names in procedures show the order in which binders were met, and `equal?` could tell them
apart; so programs must do without it.  As no `let` is left, it does not matter whether `let` is refused.

* `SameButLets` — the same value up to local bindings and generated names, or failures of one kind;
* `evaluateProgram_reject` — a program without local bindings does not meet the refusal of `let`;
* `withoutLets_outcomes` — **expanding every `let` beforehand preserves meaning**.
-/

namespace SubstModel

/-! ### Outcomes -/

/-- Two evaluations behind `s` come to the same behind the same supply: to one value, but for its local bindings and the
numbers of names that were not handed out before, and to the very same value if it contains no closure, class or object;
or to failures of one kind. -/
inductive SameButLets (s : Supply) :
    EStateM.Result Failure Supply Value → EStateM.Result Failure Supply Value → Prop
  | ok {v w : Value} {t : Supply} (ρ : Renumbering t.issued) (old : (Renumbering.refl s.issued).Extends ρ)
    (value : w = v.withoutLets.relabel ρ.relabelling) (inert : v.Within .inert → w = v) :
    SameButLets s (.ok v t) (.ok w t)
  | error {f f' : Failure} {t t' : Supply} (kind : f.kind = f'.kind) : SameButLets s (.error f t) (.error f' t')

theorem Value.expanded_of_inert (ρ : Relabelling) {v : Value} (hv : v.Within .inert) : v.expanded ρ = v := by
  have hfixes : ρ.Fixes .inert := ⟨False.elim, False.elim⟩
  rw [Value.expanded, Value.withoutLets_of_no_ref (fun _ => id) v hv, Value.relabel_of_within hfixes v hv]

theorem Expands.sameButLets {config : Config} {s : Supply} {r r' : EStateM.Result Failure Supply Value}
    (h : Expands config (Renumbering.refl s.issued) Value.expanded r r')
    (hdepth : ∀ t, r ≠ .error (depthFailure config) t) : SameButLets s r r' := by
  cases h with
  | ok ρ old => exact .ok ρ old rfl fun hv => Value.expanded_of_inert ρ.relabelling hv
  | error hkind => exact .error hkind
  | depth => exact absurd rfl (hdepth _)

/-! ### Programs -/

theorem Language.letless_mono {L M : Language} (h : L ≤ M) : L.letless ≤ M.letless :=
  { h with lets := id }

theorem Language.spelled_le : Language.spelled ≤ { } where
  name _ := trivial
  free _ := trivial
  binders _ := trivial
  label _ := trivial
  symbol _ := trivial
  primitive _ := trivial
  ref _ := trivial
  classes _ := trivial
  lets _ := trivial
  definitions _ := trivial
  emptyBodies _ := trivial

/-- The language in which all is but local bindings. -/
theorem Language.letless_grows : Language.Grows fun _ => Language.letless { } where
  mono _ := Language.le_refl _
  name _ := trivial
  binders := trivial
  ref _ := trivial

section Programs

variable (config : Config) {text : String} {p : Program} (hp : Program.ofText text = .ok p)

include hp

theorem Program.letless_prepared : ∀ e ∈ (p.withoutLets.prepared config).forms, e.WithinForm (.letless { }) := by
  have hforms := Program.within_prepared Language.spelled_hasDispatchers config (Program.within_ofText hp)
  rw [Program.withoutLets_prepared, Program.withoutLets, Expr.withoutLetsAll_eq_map, List.forall_mem_map]
  exact fun e he => (hforms e he).withoutLets.mono (Language.letless_mono Language.spelled_le)

/-- **A program without local bindings does not meet the refusal of `let`.** -/
theorem evaluateProgram_reject (s : Supply) :
    evaluateProgram { config with lets := .reject } p.withoutLets s
      = evaluateProgram { config with lets := .expand } p.withoutLets s := by
  let cut (f : Failure) : Prop := f = .unsupported "\"let\""
  have hlooser : Looser cut { config with lets := .reject } { config with lets := .expand } config.maxDepth
      config.maxDepth := ⟨Nat.le_refl _, .inl ⟨rfl, rfl⟩, .inr ⟨rfl, rfl⟩⟩
  have hcompares := (sideBySide_eval Invariant.anything_kept hlooser).2 .empty .empty
    (p.withoutLets.prepared config).forms Environment.empty.agrees_anything
    fun e _ => Invariant.anything_kept.form trivial
  rw [evaluateProgram_eq, evaluateProgram_eq]
  refine (hcompares.eq fun f t hf hcut => ?_).symm
  have hends := evalSequence_ends (s := s) Language.letless_grows { config with lets := .reject } config.maxDepth
    (Environment.within_empty _) (Program.letless_prepared config hp) fun _ => .inl trivial
  rw [hf] at hends
  subst hcut
  exact hends.2.1

/-- **Expanding every `let` beforehand preserves meaning.**  A program that is read from text, does without `equal?` and
does not come to the depth limit comes to the same value when each `let` at every depth is replaced beforehand, up to
local bindings and the numbers of generated names, and to the very same if the value contains no closure, class or
object; or to a failure of the same kind.  The program without local bindings comes to just the same where `let` is
refused. -/
theorem withoutLets_outcomes (hlets : config.lets = .expand) (hforms : ∀ e ∈ p.forms, e.WithinForm .discreet)
    (s : Supply) :
    ((∀ t, evaluateProgram config p s ≠ .error (depthFailure config) t) →
        SameButLets s (evaluateProgram config p s) (evaluateProgram config p.withoutLets s)) ∧
      evaluateProgram { config with lets := .reject } p.withoutLets s = evaluateProgram config p.withoutLets s := by
  refine ⟨fun hdepth => ?_, ?_⟩
  · rw [evaluateProgram_eq] at hdepth
    have hstep := (expands_eval hlets config.maxDepth).2 (Renumbering.refl s.issued) (Nat.le_refl _)
      (Environment.within_empty _) (Program.discreet_prepared config hp hforms s)
    have hprepared : evaluateProgram config p.withoutLets s
        = evaluateSequence config .empty (Expr.withoutLetsAll (p.prepared config).forms) s := by
      rw [evaluateProgram_eq, Program.withoutLets_prepared, Program.withoutLets]
    rw [Renumbering.relabelling_refl, Expr.expandedAll, Expr.relabelAll_refl] at hstep
    rw [hprepared, evaluateProgram_eq]
    exact Expands.sameButLets hstep hdepth
  · rw [evaluateProgram_reject config hp, ← hlets]

end Programs

/-- The value of a `let` is made fresh before its body, and the operand of an application after it. -/
theorem withoutLets_outcomes_order :
    let text := "((lambda (x) (let ((y (lambda (z) z))) (lambda (w) y))) #t)"
    let p : Program := ⟨[.app (.lambda ["x"] [.letIn [("y", .lambda ["z"] [.var "z"])] [.lambda ["w"] [.var "y"]]])
      [.boolean true]]⟩
    let value (z : String) : Value := .closure 3 ["w#4"] [.lambda [z] [.var z]]
    Program.ofText text = .ok p ∧ (∀ e ∈ p.forms, e.WithinForm .discreet) ∧
      evaluateProgram { } p { } = .ok (value "z#1") ⟨4, 4⟩ ∧
      evaluateProgram { } p.withoutLets { } = .ok (value "z#3") ⟨4, 4⟩ ∧
      SameButLets { } (evaluateProgram { } p { }) (evaluateProgram { } p.withoutLets { }) ∧
      evaluateProgram { lets := .reject } p.withoutLets { } = evaluateProgram { } p.withoutLets { } := by
  intro text p value
  have hp : Program.ofText text = .ok p := by
    subst text p
    rfl
  have hforms : ∀ e ∈ p.forms, e.WithinForm .discreet := by
    simp [p, Expr.WithinForm, Expr.Within, Expr.WithinAll, Expr.WithinPairs, Language.Binds, Language.HasBody,
      Language.discreet]
  have hvalue : evaluateProgram { } p { } = .ok (value "z#1") ⟨4, 4⟩ := rfl
  have hvalue' : evaluateProgram { } p.withoutLets { } = .ok (value "z#3") ⟨4, 4⟩ := rfl
  have hdepth : ∀ t, evaluateProgram { } p { } ≠ .error (depthFailure { }) t := by
    intro t ht
    rw [hvalue] at ht
    cases ht
  obtain ⟨hsame, hreject⟩ := withoutLets_outcomes { } hp rfl hforms { }
  exact ⟨hp, hforms, hvalue, hvalue', hsame hdepth, hreject⟩

end SubstModel
