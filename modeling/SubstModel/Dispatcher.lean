import SubstModel.Expr.Mentions
import SubstModel.Failure

/-!
# Dispatchers — classes and local bindings as plain procedures

A class can be spelled without the class form: as a procedure of the fields that returns a procedure of one message,
which compares the message with the name of each method in turn.

* `messageName` — the parameter of the inner procedure: the first of `msg`, `msg1`, `msg2`, … that captures nothing;
* `classProcedure` — the procedure that stands for one class, which fails where the operation to compare with is
  unknown;
* `Expr.rewriteClasses`, `Program.rewriteClasses` — every class rewritten to such a procedure, innermost first;
* `dispatcher`, `Expr.withoutClasses`, `Program.withoutClasses` — what the three come to (`classProcedure_eq`,
  `Expr.rewriteClasses_eq`, `Program.rewriteClasses_eq`);
* `letApplication` — a `let` as the application of a procedure.
-/

namespace SubstModel

/-! ### The name of the message -/

/-- The names that are tried for the message, in order. -/
def messageCandidate : Nat → String
  | 0 => "msg"
  | n + 1 => String.ofList ("msg".toList ++ Nat.toDigits 10 (n + 1))

/-- The name is no field, and no method mentions it. -/
def isUnused (fields : List String) (methods : List (String × Expr)) (x : String) : Bool :=
  !fields.contains x && !Expr.mentionsPairs x methods

/-- How many candidates are tried: one more than there are places of names, so one of them is unused. -/
def candidateCount (fields : List String) (methods : List (String × Expr)) : Nat :=
  fields.length + Expr.nameCountPairs methods + 1

/-- The first candidate that is unused. -/
def messageName? (fields : List String) (methods : List (String × Expr)) : Option String :=
  ((List.range (candidateCount fields methods)).find? fun n =>
    isUnused fields methods (messageCandidate n)).map messageCandidate

/-- The name of the message: the first unused candidate. -/
def messageName (fields : List String) (methods : List (String × Expr)) : String :=
  (messageName? fields methods).getD ""

/-! ### Classes -/

/-- The value of the first method whose name is the message, and `#f` if there is none: a chain of comparisons. -/
def dispatchChain (comparison : Primitive) (message : String) : List (String × Expr) → Expr
  | [] => .boolean false
  | (name, method) :: methods =>
    .cond (.app (.primitive comparison) [.var message, .quoted (.symbol name)])
      (.app method [])
      (dispatchChain comparison message methods)

/-- The procedure that stands for a class: it takes the fields and returns a procedure of one message, which it compares
by the operation called `eq?`. -/
def classProcedure (fields : List String) (methods : List (String × Expr)) : Outcome Expr :=
  match Primitive.ofName? "eq?" with
  | none => .error (.eval .noComparison)
  | some comparison =>
    let message := messageName fields methods
    .ok (.lambda fields [.lambda [message] [dispatchChain comparison message methods]])

namespace Expr

mutual

/-- The expression with every class rewritten to the procedure that stands for it, innermost first. -/
def rewriteClasses : Expr → Outcome Expr
  | .number x => return .number x
  | .boolean b => return .boolean b
  | .string s => return .string s
  | .primitive p => return .primitive p
  | .var x => return .var x
  | .quoted v => return .quoted v
  | .cond test onTrue onFalse =>
    return .cond (← rewriteClasses test) (← rewriteClasses onTrue) (← rewriteClasses onFalse)
  | .lambda params body => return .lambda params (← rewriteClassesAll body)
  | .app operator operands => return .app (← rewriteClasses operator) (← rewriteClassesAll operands)
  | .letIn bindings body => return .letIn (← rewriteClassesPairs bindings) (← rewriteClassesAll body)
  | .define x value => return .define x (← rewriteClasses value)
  | .classDef fields methods => do classProcedure fields (← rewriteClassesPairs methods)
termination_by structural e => e

/-- Several expressions with their classes rewritten, up to the first that fails. -/
def rewriteClassesAll : List Expr → Outcome (List Expr)
  | [] => return []
  | e :: es => return (← rewriteClasses e) :: (← rewriteClassesAll es)
termination_by structural es => es

/-- Bindings with the classes in their values rewritten, up to the first that fails. -/
def rewriteClassesPairs : List (String × Expr) → Outcome (List (String × Expr))
  | [] => return []
  | (x, e) :: bs => return (x, ← rewriteClasses e) :: (← rewriteClassesPairs bs)
termination_by structural bs => bs

end

end Expr

/-- The program with every class rewritten. -/
def Program.rewriteClasses (p : Program) : Outcome Program :=
  return ⟨← Expr.rewriteClassesAll p.forms⟩

/-! ### Rewriting never fails -/

/-- The procedure that stands for a class. -/
def dispatcher (fields : List String) (methods : List (String × Expr)) : Expr :=
  let message := messageName fields methods
  .lambda fields [.lambda [message] [dispatchChain .identical message methods]]

/-- **The operation to compare with is known**, so every class has its procedure. -/
theorem classProcedure_eq (fields : List String) (methods : List (String × Expr)) :
    classProcedure fields methods = .ok (dispatcher fields methods) := by
  have hcomparison : Primitive.ofName? "eq?" = some .identical := Primitive.ofName?_eq_some_iff.2 rfl
  rw [classProcedure, hcomparison, dispatcher]

namespace Expr

mutual

/-- The expression with every class replaced by its dispatcher, innermost first. -/
def withoutClasses : Expr → Expr
  | .number x => .number x
  | .boolean b => .boolean b
  | .string s => .string s
  | .primitive p => .primitive p
  | .var x => .var x
  | .quoted v => .quoted v
  | .cond test onTrue onFalse =>
    .cond (withoutClasses test) (withoutClasses onTrue) (withoutClasses onFalse)
  | .lambda params body => .lambda params (withoutClassesAll body)
  | .app operator operands => .app (withoutClasses operator) (withoutClassesAll operands)
  | .letIn bindings body => .letIn (withoutClassesPairs bindings) (withoutClassesAll body)
  | .define x value => .define x (withoutClasses value)
  | .classDef fields methods => dispatcher fields (withoutClassesPairs methods)
termination_by structural e => e

/-- Several expressions with their classes replaced. -/
def withoutClassesAll : List Expr → List Expr
  | [] => []
  | e :: es => withoutClasses e :: withoutClassesAll es
termination_by structural es => es

/-- Bindings with the classes in their values replaced. -/
def withoutClassesPairs : List (String × Expr) → List (String × Expr)
  | [] => []
  | (x, e) :: bs => (x, withoutClasses e) :: withoutClassesPairs bs
termination_by structural bs => bs

end

mutual

/-- **Rewriting the classes of an expression puts their dispatchers in their places.** -/
theorem rewriteClasses_eq : ∀ e : Expr, e.rewriteClasses = .ok e.withoutClasses
  | .number _ | .boolean _ | .string _ | .primitive _ | .var _ | .quoted _ => rfl
  | .cond test onTrue onFalse => by
    rw [rewriteClasses, rewriteClasses_eq test, rewriteClasses_eq onTrue, rewriteClasses_eq onFalse]
    rfl
  | .lambda params body => by
    rw [rewriteClasses, rewriteClassesAll_eq body]
    rfl
  | .app operator operands => by
    rw [rewriteClasses, rewriteClasses_eq operator, rewriteClassesAll_eq operands]
    rfl
  | .letIn bindings body => by
    rw [rewriteClasses, rewriteClassesPairs_eq bindings, rewriteClassesAll_eq body]
    rfl
  | .define x value => by
    rw [rewriteClasses, rewriteClasses_eq value]
    rfl
  | .classDef fields methods => by
    rw [rewriteClasses, rewriteClassesPairs_eq methods]
    exact classProcedure_eq fields _

theorem rewriteClassesAll_eq : ∀ es : List Expr, rewriteClassesAll es = .ok (withoutClassesAll es)
  | [] => rfl
  | e :: es => by
    rw [rewriteClassesAll, rewriteClasses_eq e, rewriteClassesAll_eq es]
    rfl

theorem rewriteClassesPairs_eq : ∀ bs : List (String × Expr), rewriteClassesPairs bs = .ok (withoutClassesPairs bs)
  | [] => rfl
  | (x, e) :: bs => by
    rw [rewriteClassesPairs, rewriteClasses_eq e, rewriteClassesPairs_eq bs]
    rfl

end

end Expr

/-- The program with every class replaced by its dispatcher. -/
def Program.withoutClasses (p : Program) : Program :=
  ⟨Expr.withoutClassesAll p.forms⟩

theorem Program.rewriteClasses_eq (p : Program) : p.rewriteClasses = .ok p.withoutClasses := by
  rw [Program.rewriteClasses, Expr.rewriteClassesAll_eq]
  rfl

/-! ### Local bindings -/

/-- A `let` as the application of a procedure of the bound names to their values. -/
def letApplication (bindings : List (String × Expr)) (body : List Expr) : Expr :=
  .app (.lambda (bindings.map Prod.fst) body) (bindings.map Prod.snd)

end SubstModel
