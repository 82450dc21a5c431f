/-!
# Primitives — the operations that the language starts with

A primitive is named by a symbol, and the symbol means nothing else.

* `Primitive` — the operations, with their names (`Primitive.name`) and their numbers of arguments
  (`Primitive.arity`);
* `Primitive.all` — the operations in the order in which they are listed;
* `Primitive.ofName?` — the operation that a symbol names (`ofName?_eq_some_iff`).
-/

namespace SubstModel

/-- How many arguments an operation takes. -/
inductive Arity where
  | exactly (n : Nat)
  | atLeast (n : Nat)
  | any
  deriving DecidableEq, Repr

/-- The number of arguments that should have been given, when `given` are not accepted. -/
def Arity.missed? (given : Nat) : Arity → Option Nat
  | .exactly n => if given = n then none else some n
  | .atLeast n => if n ≤ given then none else some n
  | .any => none

/-- The operations of the language. -/
inductive Primitive where
  | add | subtract | multiply | divide
  | numEqual | less | greater | lessEqual | greaterEqual
  | not | and | or
  | identical | equal | stringEqual
  | cons | car | cdr | list
  | isPair | isNull | isList | isNumber | isBoolean | isSymbol | isString | isProcedure
  deriving DecidableEq, Repr

namespace Primitive

/-- The symbol that names the operation. -/
def name : Primitive → String
  | add => "+"
  | subtract => "-"
  | multiply => "*"
  | divide => "/"
  | numEqual => "="
  | less => "<"
  | greater => ">"
  | lessEqual => "<="
  | greaterEqual => ">="
  | not => "not"
  | and => "and"
  | or => "or"
  | identical => "eq?"
  | equal => "equal?"
  | stringEqual => "string=?"
  | cons => "cons"
  | car => "car"
  | cdr => "cdr"
  | list => "list"
  | isPair => "pair?"
  | isNull => "null?"
  | isList => "list?"
  | isNumber => "number?"
  | isBoolean => "boolean?"
  | isSymbol => "symbol?"
  | isString => "string?"
  | isProcedure => "procedure?"

/-- The number of arguments that the operation takes. -/
def arity : Primitive → Arity
  | add | multiply | and | or | list => .any
  | subtract | divide => .atLeast 1
  | numEqual | less | greater | lessEqual | greaterEqual | stringEqual => .atLeast 2
  | identical | equal | cons => .exactly 2
  | not | car | cdr => .exactly 1
  | isPair | isNull | isList | isNumber | isBoolean | isSymbol | isString | isProcedure => .exactly 1

/-- The operations in their listed order: arithmetic, comparison, logic, equality, lists, kinds of values. -/
def all : List Primitive := [
  add, subtract, multiply, divide,
  numEqual, less, greater, lessEqual, greaterEqual,
  not, and, or,
  identical, equal, stringEqual,
  cons, car, cdr, list,
  isPair, isNull, isList, isNumber, isBoolean, isSymbol, isString, isProcedure]

/-- The operation that a symbol names. -/
def ofName? (s : String) : Option Primitive :=
  all.find? fun p => p.name == s

theorem mem_all (p : Primitive) : p ∈ all := by
  cases p <;> decide

/-- Different operations have different names. -/
theorem name_injective {p q : Primitive} (h : p.name = q.name) : p = q := by
  revert h
  cases p <;> cases q <;> decide

/-- **A symbol names an operation exactly when it is the name of that operation.** -/
theorem ofName?_eq_some_iff {s : String} {p : Primitive} : ofName? s = some p ↔ p.name = s := by
  constructor
  · intro h
    simpa using List.find?_some h
  · rintro rfl
    cases h : ofName? p.name with
    | none =>
      have := List.find?_eq_none.1 h p (mem_all p)
      simp at this
    | some q =>
      have hq : q.name = p.name := by simpa using List.find?_some h
      rw [name_injective hq]

end Primitive

end SubstModel
