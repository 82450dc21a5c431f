import SubstModel.Interpreter
import SubstModel.Proofs.SideBySide

/-!
# Limits — what the depth limit and the refusal of `let` take away

An evaluation that ends neither at the depth limit nor at a `let` that is refused has not met its limits.  With looser
limits it would have gone the same way, to the same value or to the same failure, and would have handed out the same.

* `Failure.IsLimit`, `CutOff` — the failures that limits bring about, and runs that end in one;
* `Config.Loosens` — a configuration that allows at least as much;
* `limits_only_cut_off` — **looser limits change no evaluation that has not been cut off**.
-/

namespace SubstModel

/-! ### Runs that are cut off -/

/-- The failures that only the limits of a configuration bring about. -/
def Failure.IsLimit (config : Config) (f : Failure) : Prop :=
  f = depthFailure config ∨ f = .unsupported "\"let\""

/-- The run ends at a limit. -/
def CutOff {α : Type} (config : Config) : EStateM.Result Failure Supply α → Prop
  | .ok _ _ => False
  | .error f _ => f.IsLimit config

/-- The second configuration allows at least as deep a nesting of steps, and evaluates each `let` unless it treats `let`
as the first one does. -/
structure Config.Loosens (config config' : Config) : Prop where
  depth : config.maxDepth ≤ config'.maxDepth
  lets : config'.lets = .expand ∨ config'.lets = config.lets

theorem Config.Loosens.looser {config config' : Config} (h : config.Loosens config') :
    Looser (Failure.IsLimit config) config config' config.maxDepth config'.maxDepth where
  steps := h.depth
  depth := .inr (.inl rfl)
  lets := h.lets.symm.imp Eq.symm fun hexpand => ⟨hexpand, .inr rfl⟩

/-! ### Runs that are not cut off -/

theorem SideBySide.eq_of_not_cutOff {α : Type} {config : Config} {E : Failure → Prop} {Q : α → Prop} {m m' : Run α}
    (h : SideBySide (Failure.IsLimit config) E Q m m') {s : Supply} (hs : ¬ CutOff config (m s)) : m' s = m s := by
  refine h.eq fun f t hm hf => hs ?_
  rw [hm]
  exact hf

/-- **Limits only cut evaluations off.**  An evaluation that ends neither at the depth limit nor at a `let` that is
refused comes, under looser limits, to the same value or to the same failure, and hands out the same names and
references. -/
theorem limits_only_cut_off {config config' : Config} (h : config.Loosens config') (env : Environment) (s : Supply) :
    (∀ e, ¬ CutOff config (evaluate config env e s) → evaluate config' env e s = evaluate config env e s) ∧
      ∀ es, ¬ CutOff config (evaluateSequence config env es s) →
        evaluateSequence config' env es s = evaluateSequence config env es s := by
  obtain ⟨hexprs, hforms⟩ := sideBySide_eval Invariant.anything_kept h.looser
  refine ⟨fun e hcut => ?_, fun es hcut => ?_⟩
  · exact (hexprs env env e env.agrees_anything trivial).eq_of_not_cutOff hcut
  · refine (hforms env env es env.agrees_anything fun e _ => ?_).eq_of_not_cutOff hcut
    exact Invariant.anything_kept.form trivial

/-- A procedure made within five nested steps, and its application to too few arguments behind its definition. -/
theorem limits_only_cut_off_curried :
    let tight : Config := { maxDepth := 5, lets := .reject }
    let curried : Expr := .app (.lambda ["x"] [.lambda ["y"] [.var "x"]]) [.boolean true]
    let forms : List Expr := [.define "f" curried, .app (.var "f") []]
    tight.Loosens { } ∧ ¬ CutOff tight (evaluate tight .empty curried { }) ∧
      ¬ CutOff tight (evaluateSequence tight .empty forms { }) ∧
      evaluate { } .empty curried { } = .ok (.closure 1 ["y#1"] [.boolean true]) ⟨1, 2⟩ ∧
      evaluateSequence { } .empty forms { } = .error (.arity 1 0 (some .procedure)) ⟨1, 2⟩ := by
  intro tight curried forms
  have hvalue : evaluate tight .empty curried { } = .ok (.closure 1 ["y#1"] [.boolean true]) ⟨1, 2⟩ := rfl
  have hfailure : evaluateSequence tight .empty forms { } = .error (.arity 1 0 (some .procedure)) ⟨1, 2⟩ := rfl
  have hloosens : tight.Loosens { } := ⟨by decide, .inl rfl⟩
  have hcurried : ¬ CutOff tight (evaluate tight .empty curried { }) := by simp [hvalue, CutOff]
  have hforms : ¬ CutOff tight (evaluateSequence tight .empty forms { }) := by
    simp [hfailure, CutOff, Failure.IsLimit, depthFailure]
  obtain ⟨hexprs, hsequences⟩ := limits_only_cut_off hloosens .empty { }
  exact ⟨hloosens, hcurried, hforms, (hexprs curried hcurried).trans hvalue, (hsequences forms hforms).trans hfailure⟩

end SubstModel
