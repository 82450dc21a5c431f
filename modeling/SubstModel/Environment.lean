import SubstModel.Failure

/-!
# Environments — the definitions of the top level

An environment is never changed: a definition makes a longer one, in which it hides earlier definitions of its name.

* `Environment` — names with values, the latest definition first;
* `Environment.get?`, `Environment.lookup` — the value of a name.
-/

namespace SubstModel

/-- Names with the values they are defined as, the latest first. -/
structure Environment where
  bindings : List (String × Value)

namespace Environment

/-- The environment without definitions. -/
def empty : Environment := ⟨[]⟩

/-- The environment with one more definition. -/
def extend (env : Environment) (x : String) (v : Value) : Environment :=
  ⟨(x, v) :: env.bindings⟩

/-- The value of a name, if it is defined. -/
def get? (env : Environment) (x : String) : Option Value :=
  env.bindings.lookup x

/-- The value of a name. -/
def lookup (env : Environment) (x : String) : Outcome Value :=
  match env.get? x with
  | some v => .ok v
  | none => .error (.unboundVariable x)

@[simp] theorem get?_extend_self (env : Environment) (x : String) (v : Value) :
    (env.extend x v).get? x = some v := by
  simp [get?, extend]

theorem get?_extend_of_ne (env : Environment) {x y : String} (v : Value) (h : y ≠ x) :
    (env.extend x v).get? y = env.get? y := by
  have : (y == x) = false := by simpa using h
  simp [get?, extend, List.lookup_cons, this]

end Environment

end SubstModel
