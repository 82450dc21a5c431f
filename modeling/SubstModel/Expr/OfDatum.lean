import SubstModel.Datum.OfText

/-!
# Expressions of data — the grammar of programs

A datum is an expression when it is a constant, a symbol, a special form headed by a keyword, or a list of
expressions, which is an application.  Symbols that name primitives mean the primitives; no name can be bound that
is a keyword or names a primitive, and the names of one list are distinct.

* `identifier` — the names that can be bound;
* `Expr.ofDatum` — the expression that a datum spells;
* `Program.ofData` — the program that data spell, with or without the keyword of programs around them;
* `Expr.ofText`, `Program.ofText` — the same from text.
-/

namespace SubstModel

/-! ### Names -/

/-- The name that a datum spells, if it can be bound: a symbol that is no keyword and names no primitive. -/
def identifier : Datum → Except GrammarFault String
  | .symbol s =>
    match Keyword.ofName? s with
    | some k => .error (.keywordAsName k)
    | none =>
      match Primitive.ofName? s with
      | some p => .error (.primitiveRebound p)
      | none => if isSymbol s then .ok s else .error (.notAnIdentifier (.symbol s))
  | d => .error (.notAnIdentifier d)

/-- The first name of a list that stands in it already, or among the names `seen` before. -/
def firstRepeat? (seen : List String) : List String → Option String
  | [] => none
  | x :: xs => if seen.contains x then some x else firstRepeat? (x :: seen) xs

/-- Refuses a list of names in which one repeats. -/
def requireDistinct (role : ListRole) (names : List String) : Except GrammarFault Unit :=
  match firstRepeat? [] names with
  | some x => .error (.duplicateName role x)
  | none => .ok ()

/-- Refuses an empty body. -/
def requireBody (k : Keyword) (body : List Datum) : Except GrammarFault Unit :=
  if body.isEmpty then .error (.emptyBody k) else .ok ()

/-- The distinct names that a list spells. -/
def identifiers (role : ListRole) : Datum → Except GrammarFault (List String)
  | .list ds => do
    let names ← ds.mapM identifier
    requireDistinct role names
    return names
  | d => .error (.notAList role d)

/-- The keyword that a datum is. -/
def keywordOf? : Datum → Option Keyword
  | .symbol s => Keyword.ofName? s
  | _ => none

/-! ### Expressions -/

namespace Expr

/-- The expression that a symbol spells: a primitive or a variable. -/
def ofSymbol (s : String) : Except GrammarFault Expr :=
  match Primitive.ofName? s with
  | some p => .ok (.primitive p)
  | none =>
    match Keyword.ofName? s with
    | some k => .error (.unexpectedKeyword k)
    | none => (identifier (.symbol s)).map .var

mutual

/-- The expression that a datum spells. -/
def ofDatum : Datum → Except GrammarFault Expr
  | .number x => .ok (.number x)
  | .boolean b => .ok (.boolean b)
  | .string s => .ok (.string s)
  | .symbol s => ofSymbol s
  | .list [] => .error .emptyCombination
  | .list (head :: rest) =>
    match keywordOf? head with
    | none => do
      let operator ← ofDatum head
      let operands ← ofData rest
      return .app operator operands
    | some .quote =>
      match rest with
      | [d] => .ok (.quoted (Value.ofDatum d))
      | _ => .error .quoteShape
    | some .cond =>
      match rest with
      | [test, onTrue, onFalse] => do
        let test ← ofDatum test
        let onTrue ← ofDatum onTrue
        let onFalse ← ofDatum onFalse
        return .cond test onTrue onFalse
      | _ => .error (.condShape rest.length)
    | some .lambda =>
      match rest with
      | [] => .error .lambdaShape
      | params :: body => do
        let params ← identifiers .parameter params
        requireBody .lambda body
        let body ← ofData body
        return .lambda params body
    | some .letIn =>
      match rest with
      | [] => .error .letShape
      | .list pairs :: body => do
        let bindings ← ofPairs .binding pairs
        requireDistinct .binding (bindings.map Prod.fst)
        requireBody .letIn body
        let body ← ofData body
        return .letIn bindings body
      | d :: _ => .error (.notAList .binding d)
    | some .classDef =>
      match rest with
      | [fields, .list pairs] => do
        let fields ← identifiers .field fields
        let methods ← ofPairs .method pairs
        requireDistinct .method (methods.map Prod.fst)
        return .classDef fields methods
      | [fields, d] => do
        let _ ← identifiers .field fields
        throw (.notAList .method d)
      | _ => .error .classShape
    | some .define => .error .nestedDefine
    | some .program => .error .nestedProgram
termination_by structural d => d

/-- The expressions that the data of a list spell. -/
def ofData : List Datum → Except GrammarFault (List Expr)
  | [] => .ok []
  | d :: ds => do
    let e ← ofDatum d
    let es ← ofData ds
    return e :: es
termination_by structural ds => ds

/-- The bindings that the data of a list spell: each a list of a name and an expression. -/
def ofPairs (role : ListRole) : List Datum → Except GrammarFault (List (String × Expr))
  | [] => .ok []
  | .list [name, value] :: ds => do
    let name ← identifier name
    let value ← ofDatum value
    let bindings ← ofPairs role ds
    return (name, value) :: bindings
  | d :: _ => .error (.malformedPair role d)
termination_by structural ds => ds

end

/-- The expression that the only datum of a text spells. -/
def ofText (text : String) : Outcome Expr := do
  let d ← Datum.ofText text
  (ofDatum d).mapError .ofGrammar

end Expr

/-! ### Programs -/

namespace Program

/-- A form of the top level: a definition or an expression. -/
def formOfDatum : Datum → Except GrammarFault Expr
  | .list (head :: rest) =>
    match keywordOf? head with
    | some .define =>
      match rest with
      | [name, value] => do
        let name ← identifier name
        let value ← Expr.ofDatum value
        return .define name value
      | _ => .error .defineShape
    | _ => Expr.ofDatum (.list (head :: rest))
  | d => Expr.ofDatum d

/-- The forms inside the keyword of programs, when it heads the only datum, and otherwise the data themselves. -/
def unwrapped : List Datum → List Datum
  | [.list (head :: rest)] =>
    match keywordOf? head with
    | some .program => rest
    | _ => [.list (head :: rest)]
  | ds => ds

/-- The program that data spell. -/
def ofData (ds : List Datum) : Except GrammarFault Program := do
  let forms ← (unwrapped ds).mapM formOfDatum
  return ⟨forms⟩

/-- The program that a text spells. -/
def ofText (text : String) : Outcome Program := do
  let ds ← Datum.allOfText text
  (ofData ds).mapError .ofGrammar

end Program

end SubstModel
