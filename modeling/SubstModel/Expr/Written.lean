import SubstModel.Expr
import SubstModel.Keyword

/-!
# The written form of expressions and values

Expressions are written as the text they are read from.  Constants among the quoted values need no quote mark.
Values that no text denotes are written between `#<` and `>`, with what can be said about them on one line.

* `Expr.written`, `Value.written` — the characters;
* `Expr.text`, `Value.text`, `Program.text` — the same as strings.
-/

namespace SubstModel

/-- Words between `#<` and `>`, for a value that no text denotes. -/
def hashForm (words : List (List Char)) : List Char :=
  '#' :: '<' :: spaced words ++ ['>']

/-- A list of names between parentheses. -/
def nameForm (names : List String) : List Char :=
  form (names.map String.toList)

mutual

/-- The written form of an expression. -/
def Expr.written : Expr → List Char
  | .number x => Number.written x
  | .boolean b => boolWord b
  | .string s => Text.quoted s
  | .primitive p => p.name.toList
  | .var name => name.toList
  | .cond test onTrue onFalse =>
    form [Keyword.cond.name.toList, test.written, onTrue.written, onFalse.written]
  | .lambda params body =>
    form [Keyword.lambda.name.toList, nameForm params, spaced (Expr.writtenAll body)]
  | .app operator operands => form (operator.written :: Expr.writtenAll operands)
  | .letIn bindings body =>
    form [Keyword.letIn.name.toList, form (Expr.writtenPairs bindings), spaced (Expr.writtenAll body)]
  | .quoted v =>
    match v with
    | .number _ | .boolean _ | .string _ => v.written
    | _ => '\x27' :: v.written
  | .define name value => form [Keyword.define.name.toList, name.toList, value.written]
  | .classDef fields methods =>
    form [Keyword.classDef.name.toList, nameForm fields, form (Expr.writtenPairs methods)]
termination_by structural e => e

/-- The written forms of several expressions. -/
def Expr.writtenAll : List Expr → List (List Char)
  | [] => []
  | e :: es => e.written :: Expr.writtenAll es
termination_by structural es => es

/-- The written forms of bindings: each a name and an expression between parentheses. -/
def Expr.writtenPairs : List (String × Expr) → List (List Char)
  | [] => []
  | (name, e) :: bs => form [name.toList, e.written] :: Expr.writtenPairs bs
termination_by structural bs => bs

/-- The written form of a value. -/
def Value.written : Value → List Char
  | .number x => Number.written x
  | .boolean b => boolWord b
  | .string s => Text.quoted s
  | .symbol s => s.toList
  | .list items => form (Value.writtenAll items)
  | .primitive p => hashForm ["primitive:".toList ++ p.name.toList]
  | .closure _ params body =>
    hashForm ("closure".toList :: nameForm params :: Expr.writtenAll body)
  | .classDef _ fields _ => hashForm ["class".toList, nameForm fields]
  | .object _ _ methods => hashForm ["object".toList, nameForm (methods.map Prod.fst)]
termination_by structural v => v

/-- The written forms of several values. -/
def Value.writtenAll : List Value → List (List Char)
  | [] => []
  | v :: vs => v.written :: Value.writtenAll vs
termination_by structural vs => vs

end

/-- The text of an expression. -/
def Expr.text (e : Expr) : String :=
  String.ofList e.written

/-- The text of a value. -/
def Value.text (v : Value) : String :=
  String.ofList v.written

/-- The written form of a program: its forms in a list behind the keyword of programs. -/
def Program.written (p : Program) : List Char :=
  form (Keyword.program.name.toList :: Expr.writtenAll p.forms)

/-- The text of a program. -/
def Program.text (p : Program) : String :=
  String.ofList p.written

theorem Expr.writtenAll_eq_map (es : List Expr) : Expr.writtenAll es = es.map Expr.written := by
  induction es with
  | nil => rfl
  | cons e es ih => rw [Expr.writtenAll, ih, List.map_cons]

theorem Value.writtenAll_eq_map (vs : List Value) : Value.writtenAll vs = vs.map Value.written := by
  induction vs with
  | nil => rfl
  | cons v vs ih => rw [Value.writtenAll, ih, List.map_cons]

end SubstModel
