import SubstModel.Evaluation
import SubstModel.Expr.OfDatum

/-!
# Interpreting expressions, programs and texts

The entry points of the library.  Each is a step on the supply of names and references, so an interpreter that lives
on is the same supply passed from one call to the next.

* `evaluate` — one expression in an environment;
* `evaluateSequence` — forms one after another in an environment;
* `evaluateProgram` — a program in the empty environment, its classes first replaced if so configured;
* `evaluateText` — the program that a text spells.

Preparing a program asks for the operation that a rewritten class compares with; `evaluateProgram_eq` says that it is
always found.
-/

namespace SubstModel

/-- The value of an expression.  Classes are evaluated as such in every configuration. -/
def evaluate (config : Config) (env : Environment) (e : Expr) : Run Value :=
  eval config config.maxDepth env e

/-- The value of the last of several forms.  Classes are evaluated as such in every configuration. -/
def evaluateSequence (config : Config) (env : Environment) (es : List Expr) : Run Value :=
  evalSequence config config.maxDepth env es

/-- The program as it is to be evaluated: with its classes, or with the procedures that stand for them. -/
def Program.prepare (config : Config) (p : Program) : Outcome Program :=
  match config.classes with
  | .objects => .ok p
  | .dispatchers => p.rewriteClasses

/-- The value of a program. -/
def evaluateProgram (config : Config) (p : Program) : Run Value := do
  let prepared ← Run.ofOutcome (p.prepare config)
  evaluateSequence config .empty prepared.forms

/-- The value of the program that a text spells. -/
def evaluateText (config : Config) (text : String) : Run Value := do
  let p ← Run.ofOutcome (Program.ofText text)
  evaluateProgram config p

/-! ### Preparing a program never fails -/

/-- The program as it is evaluated: with its classes, or with dispatchers in their place. -/
def Program.prepared (config : Config) (p : Program) : Program :=
  match config.classes with
  | .objects => p
  | .dispatchers => p.withoutClasses

theorem Program.prepare_eq (config : Config) (p : Program) : p.prepare config = .ok (p.prepared config) := by
  rw [Program.prepare, Program.prepared]
  cases config.classes with
  | objects => rfl
  | dispatchers => exact p.rewriteClasses_eq

theorem evaluateProgram_eq (config : Config) (p : Program) :
    evaluateProgram config p = evaluateSequence config .empty (p.prepared config).forms := by
  rw [evaluateProgram, Program.prepare_eq]
  rfl

end SubstModel
