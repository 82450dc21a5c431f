import SubstModel.Datum
import SubstModel.Primitive

/-!
# Expressions and values

An expression is a program tree; a value is what it evaluates to.  The two are defined together: a quoted
expression holds a value, and a procedure value holds the expressions of its body.

* `Expr` — constants, primitives, variables, conditionals, procedures, applications, local bindings, quoted
  values, definitions and classes;
* `Value` — constants, symbols, lists, primitives, closures, classes and objects;
* `Program` — expressions that are evaluated one after another;
* `Value.ofDatum` — the value that a quoted datum stands for.

A closure carries no environment: the variables that its body leaves free are names of the top level.  Closures,
classes and objects carry a reference that tells apart the occasions on which they were made; two values with one
reference are one and the same.  The references are never written.
-/

namespace SubstModel

/-- What tells one closure, class or object from another with equal contents. -/
abbrev Ref := Nat

mutual

/-- A program tree. -/
inductive Expr where
  | number (x : Float)
  | boolean (b : Bool)
  | string (s : String)
  | primitive (p : Primitive)
  | var (name : String)
  | cond (test onTrue onFalse : Expr)
  | lambda (params : List String) (body : List Expr)
  | app (operator : Expr) (operands : List Expr)
  | letIn (bindings : List (String × Expr)) (body : List Expr)
  | quoted (v : Value)
  | define (name : String) (value : Expr)
  | classDef (fields : List String) (methods : List (String × Expr))

/-- What an expression evaluates to. -/
inductive Value where
  | number (x : Float)
  | boolean (b : Bool)
  | string (s : String)
  | symbol (s : String)
  | list (items : List Value)
  | primitive (p : Primitive)
  | closure (ref : Ref) (params : List String) (body : List Expr)
  | classDef (ref : Ref) (fields : List String) (methods : List (String × Expr))
  | object (ref : Ref) (fields : List String) (methods : List (String × Expr))

end

instance : Inhabited Expr := ⟨.boolean false⟩

instance : Inhabited Value := ⟨.boolean false⟩

/-- The forms of the top level, in the order in which they are evaluated. -/
structure Program where
  forms : List Expr

namespace Expr

/-- The expression is a procedure. -/
def isLambda : Expr → Bool
  | .lambda _ _ => true
  | _ => false

end Expr

namespace Value

/-- Every value but `#f` counts as true. -/
def isTrue : Value → Bool
  | .boolean false => false
  | _ => true

/-- The value is the empty list. -/
def isNil : Value → Bool
  | .list [] => true
  | _ => false

/-- The value can stand as an operator: primitives, closures, classes and objects. -/
def isProcedure : Value → Bool
  | .primitive _ | .closure .. | .classDef .. | .object .. => true
  | _ => false

/-- The number that an integer is.  Integers of 53 bits or fewer are represented exactly. -/
def ofInt (n : Int) : Value :=
  .number (Float.ofInt n)

mutual

/-- The value that a quoted datum stands for. -/
def ofDatum : Datum → Value
  | .number x => .number x
  | .boolean b => .boolean b
  | .string s => .string s
  | .symbol s => .symbol s
  | .list ds => .list (ofData ds)

/-- The values that the data of a list stand for. -/
def ofData : List Datum → List Value
  | [] => []
  | d :: ds => ofDatum d :: ofData ds

end

/-- The methods of a class or an object. -/
def methods? : Value → Option (List (String × Expr))
  | .classDef _ _ methods | .object _ _ methods => some methods
  | _ => none

end Value

/-- The first method of the given name. -/
def findMethod? (methods : List (String × Expr)) (name : String) : Option Expr :=
  methods.lookup name

end SubstModel
