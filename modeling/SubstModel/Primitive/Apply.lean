import SubstModel.Expr.Same
import SubstModel.Failure

/-!
# Applying primitives

A primitive is applied to values.  The number of arguments is checked first; what the arguments are is then checked
from left to right.

* `Value.asNumber`, `Value.asString`, `Value.asList` — the contents of a value that should be of one kind;
* `Primitive.run` — an operation on arguments of a right number;
* `Primitive.apply` — an operation on any arguments.

Arithmetic is that of 64-bit binary floating-point numbers, folded from the left.
-/

namespace SubstModel

namespace Value

/-- The number that the value is. -/
def asNumber : Value → Outcome Float
  | .number x => .ok x
  | v => .error (.type (.expected .number v))

/-- The string that the value is. -/
def asString : Value → Outcome String
  | .string s => .ok s
  | v => .error (.type (.expected .string v))

/-- The items of the list that the value is. -/
def asList : Value → Outcome (List Value)
  | .list vs => .ok vs
  | v => .error (.type (.expected .list v))

end Value

namespace Primitive

/-! ### Parts of the operations -/

/-- The numbers that the arguments are; the first that is none is the failure. -/
def numbers : List Value → Outcome (List Float)
  | [] => .ok []
  | v :: vs => do
    let x ← v.asNumber
    let xs ← numbers vs
    return x :: xs

/-- Every number of the list is in the relation to the one that follows it. -/
def chain (r : Float → Float → Bool) : List Float → Bool
  | x :: y :: rest => r x y && chain r (y :: rest)
  | _ => true

/-- A comparison of every number with the next. -/
def compare (r : Float → Float → Bool) (args : List Value) : Outcome Value := do
  let xs ← numbers args
  return .boolean (chain r xs)

/-- A number divided by the others in turn.  A divisor is looked at when its turn comes. -/
def quotient (x : Float) : List Value → Outcome Float
  | [] => .ok x
  | v :: vs => do
    let y ← v.asNumber
    if y == 0.0 then .error (.eval .divisionByZero) else quotient (x / y) vs

/-- All the strings equal the first.  The first that differs ends the comparison. -/
def sameStrings (s : String) : List Value → Outcome Bool
  | [] => .ok true
  | v :: vs => do
    let t ← v.asString
    if t == s then sameStrings s vs else return false

/-- The first of the arguments that counts as false, or else the last. -/
def conjunction : List Value → Value
  | [] => .boolean true
  | [v] => v
  | v :: vs => if v.isTrue then conjunction vs else v

/-- The first of the arguments that counts as true. -/
def disjunction : List Value → Value
  | [] => .boolean false
  | v :: vs => if v.isTrue then v else disjunction vs

/-- The failure of a call with a wrong number of arguments. -/
def arityFailure (p : Primitive) (expected got : Nat) : Failure :=
  .arity expected got (some (.primitive p))

/-! ### The operations -/

/-- An operation on arguments of a right number. -/
def run : Primitive → List Value → Outcome Value
  | .add, args => do return .number ((← numbers args).foldl (· + ·) 0.0)
  | .multiply, args => do return .number ((← numbers args).foldl (· * ·) 1.0)
  | .subtract, [v] => do return .number (-(← v.asNumber))
  | .subtract, v :: vs => do
    let x ← v.asNumber
    return .number ((← numbers vs).foldl (· - ·) x)
  | .divide, [v] => do return .number (← quotient 1.0 [v])
  | .divide, v :: vs => do
    let x ← v.asNumber
    return .number (← quotient x vs)
  | .numEqual, args => compare (fun x y => x == y) args
  | .less, args => compare (fun x y => decide (x < y)) args
  | .greater, args => compare (fun x y => decide (y < x)) args
  | .lessEqual, args => compare (fun x y => decide (x ≤ y)) args
  | .greaterEqual, args => compare (fun x y => decide (y ≤ x)) args
  | .not, [v] => .ok (.boolean !v.isTrue)
  | .and, args => .ok (conjunction args)
  | .or, args => .ok (disjunction args)
  | .identical, [v, w] => .ok (.boolean (v.identical w))
  | .equal, [v, w] => .ok (.boolean (v.same w))
  | .stringEqual, v :: vs => do
    let s ← v.asString
    return .boolean (← sameStrings s vs)
  | .cons, [v, .list vs] => .ok (.list (v :: vs))
  | .cons, [_, w] => .error (.type (.consOnto w))
  | .car, [v] => do
    match ← v.asList with
    | w :: _ => return w
    | [] => throw (.eval .carOfEmpty)
  | .cdr, [v] => do
    match ← v.asList with
    | _ :: ws => return .list ws
    | [] => throw (.eval .cdrOfEmpty)
  | .list, args => .ok (.list args)
  | .isPair, [v] => .ok (.boolean (match v with | .list (_ :: _) => true | _ => false))
  | .isNull, [v] => .ok (.boolean v.isNil)
  | .isList, [v] => .ok (.boolean (match v with | .list _ => true | _ => false))
  | .isNumber, [v] => .ok (.boolean (match v with | .number _ => true | _ => false))
  | .isBoolean, [v] => .ok (.boolean (match v with | .boolean _ => true | _ => false))
  | .isSymbol, [v] => .ok (.boolean (match v with | .symbol _ => true | _ => false))
  | .isString, [v] => .ok (.boolean (match v with | .string _ => true | _ => false))
  | .isProcedure, [v] => .ok (.boolean v.isProcedure)
  | p, args => .error (arityFailure p 1 args.length)

/-- An operation on any arguments. -/
def apply (p : Primitive) (args : List Value) : Outcome Value :=
  match p.arity.missed? args.length with
  | some expected => .error (arityFailure p expected args.length)
  | none => run p args

end Primitive

end SubstModel
