import SubstModel.Expr.Written

/-!
# Failures — why a text is refused or an evaluation stops

Every fallible step of the library fails with a `Failure`: a cause with the things it is about.  The wording is
chosen in one place.

* `ReadFault`, `GrammarFault`, `EvalFault`, `TypeFault`, `MessageFault`, `InstanceFault` — the causes of one kind each;
* `Failure`, `Failure.Kind`, `Failure.kind` — the failures and the nine kinds of them;
* `Failure.message` — the text of a failure;
* `Outcome` — a result or a failure.

Each kind also takes a remark in the caller's own words, where a host program reports failures of its own.
-/

namespace SubstModel

/-! ### Causes -/

/-- Why a text is not a sequence of data. -/
inductive ReadFault where
  /-- A string breaks off or has an unknown escape at this byte. -/
  | expectedCharacter (position : Nat)
  | tooDeep (limit : Nat)
  | unexpectedEnd
  /-- No datum starts at a place of which this is the excerpt. -/
  | invalidNear (excerpt : String)
  /-- Text follows the one datum that was wanted. -/
  | remaining (first : Datum)

/-- The part that a list of names or of bindings plays in its form. -/
inductive ListRole where
  | parameter | field | binding | method
  deriving DecidableEq, Repr

/-- Why a datum is not an expression. -/
inductive GrammarFault where
  | unexpectedKeyword (k : Keyword)
  | keywordAsName (k : Keyword)
  | primitiveRebound (p : Primitive)
  | notAnIdentifier (d : Datum)
  | notAList (role : ListRole) (d : Datum)
  | duplicateName (role : ListRole) (name : String)
  | malformedPair (role : ListRole) (d : Datum)
  | emptyBody (k : Keyword)
  | emptyCombination
  /-- A form that belongs to the top level stands inside an expression. -/
  | nestedDefine
  | nestedProgram
  | quoteShape
  | condShape (given : Nat)
  | lambdaShape
  | letShape
  | classShape
  | defineShape

/-- Why an evaluation stops for a reason of its own. -/
inductive EvalFault where
  | depthLimit (limit : Nat)
  | misplacedDefine (name : String)
  | emptySequence
  | divisionByZero
  | carOfEmpty
  | cdrOfEmpty
  | methodNotProcedure (name : String)
  /-- The operation that a rewritten class compares with is unknown. -/
  | noComparison
  | remark (text : String)

/-- The kinds of values that primitives ask for. -/
inductive ValueKind where
  | number | string | list
  deriving DecidableEq, Repr

/-- Why a value cannot be an argument. -/
inductive TypeFault where
  | expected (kind : ValueKind) (got : Value)
  | consOnto (got : Value)
  | remark (text : String)

/-- Why an object does not understand a message. -/
inductive MessageFault where
  | missing
  | notASymbol (got : Value)
  | unknown (name : String)

/-- Why a class cannot be instantiated. -/
inductive InstanceFault where
  | methodNotLambda (name : String) (got : Expr)
  | remark (text : String)

/-- What was called with a wrong number of arguments. -/
inductive Callee where
  | procedure
  | classConstructor
  | method (name : String)
  | primitive (p : Primitive)
  | remark (text : String)

/-- Why a text cannot be parsed. -/
inductive ParseFault where
  | read (fault : ReadFault)
  | grammar (fault : GrammarFault)
  | remark (text : String)

/-- Why a step of the library fails. -/
inductive Failure where
  | parse (fault : ParseFault)
  | eval (fault : EvalFault)
  | type (fault : TypeFault)
  | unboundVariable (name : String)
  | notAProcedure (shown : String)
  | arity (expected got : Nat) (callee : Option Callee)
  | unrecognizedMethod (fault : MessageFault)
  | unsupported (feature : String)
  | malformedInstance (fault : InstanceFault)

/-- A result or a failure. -/
abbrev Outcome (α : Type) := Except Failure α

/-! ### Wording -/

namespace ReadFault

/-- The text of a reading fault. -/
def message : ReadFault → String
  | expectedCharacter position => "Expected character at position " ++ toString position
  | tooDeep limit => "Expression too deeply nested (max depth: " ++ toString limit ++ ")"
  | unexpectedEnd => "Unexpected end of input"
  | invalidNear excerpt => "Invalid syntax near '" ++ excerpt ++ "'"
  | remaining first => "Unexpected remaining input after '" ++ first.text ++ "'"

end ReadFault

/-- The word for the members of a list. -/
def ListRole.word : ListRole → String
  | parameter => "parameter"
  | field => "field"
  | binding => "binding"
  | method => "method"

namespace GrammarFault

/-- The text of a grammar fault. -/
def message : GrammarFault → String
  | unexpectedKeyword k => "Unexpected keyword '" ++ k.name ++ "'"
  | keywordAsName k => "Keyword '" ++ k.name ++ "' cannot be used as a name"
  | primitiveRebound p => "Primitive '" ++ p.name ++ "' cannot be rebound"
  | notAnIdentifier d => "Expected identifier, got " ++ d.text
  | notAList role d => "Expected " ++ role.word ++ " list, got " ++ d.text
  | duplicateName role name => "Duplicate " ++ role.word ++ " name '" ++ name ++ "'"
  | malformedPair role d => "Malformed " ++ role.word ++ ": " ++ d.text
  | emptyBody k => k.name ++ ": body must not be empty"
  | emptyCombination => "Empty combination ()"
  | nestedDefine => "define is only allowed at top level"
  | nestedProgram => "L3 program wrapper must be outermost"
  | quoteShape => "quote requires exactly 1 argument"
  | condShape given => "if requires exactly 3 arguments, got " ++ toString given
  | lambdaShape => "lambda requires a parameter list"
  | letShape => "let requires a binding list"
  | classShape => "class requires a field list and a method list"
  | defineShape => "define requires a name and a value"

end GrammarFault

/-- The text of a parsing fault. -/
def ParseFault.message : ParseFault → String
  | read fault => fault.message
  | grammar fault => fault.message
  | remark text => text

/-- The text of an evaluation fault. -/
def EvalFault.message : EvalFault → String
  | depthLimit limit => "Evaluation depth limit exceeded (max: " ++ toString limit ++ ")"
  | misplacedDefine name => "define is only allowed at top level (defining " ++ name ++ ")"
  | emptySequence => "Empty sequence"
  | divisionByZero => "Division by zero"
  | carOfEmpty => "car of empty list"
  | cdrOfEmpty => "cdr of empty list"
  | methodNotProcedure name => "method " ++ name ++ " is not a procedure"
  | noComparison => "eq? primitive is not registered"
  | remark text => text

/-- The word for a kind of values. -/
def ValueKind.word : ValueKind → String
  | number => "number"
  | string => "string"
  | list => "list"

/-- The text of a type fault. -/
def TypeFault.message : TypeFault → String
  | expected kind got => "expected " ++ kind.word ++ ", got " ++ got.text
  | consOnto got => "cons requires a list as second argument, got " ++ got.text
  | remark text => text

/-- The text of a message fault. -/
def MessageFault.message : MessageFault → String
  | missing => "no message given"
  | notASymbol got => got.text ++ " (expected a symbol)"
  | unknown name => name

/-- The text of an instantiation fault. -/
def InstanceFault.message : InstanceFault → String
  | methodNotLambda name got => "method " ++ name ++ " is not a lambda: " ++ got.text
  | remark text => text

/-- The words for what was called. -/
def Callee.text : Callee → String
  | procedure => "procedure"
  | classConstructor => "class constructor"
  | method name => "method " ++ name
  | primitive p => "primitive " ++ p.name
  | remark text => text

namespace Failure

/-- The nine kinds of failures. -/
inductive Kind where
  | parse | eval | type | unboundVariable | notAProcedure | arity | unrecognizedMethod | unsupported
  | malformedInstance
  deriving DecidableEq, Repr

/-- The kind of a failure. -/
def kind : Failure → Kind
  | parse _ => .parse
  | eval _ => .eval
  | type _ => .type
  | unboundVariable _ => .unboundVariable
  | notAProcedure _ => .notAProcedure
  | arity .. => .arity
  | unrecognizedMethod _ => .unrecognizedMethod
  | unsupported _ => .unsupported
  | malformedInstance _ => .malformedInstance

/-- The text of a failure. -/
def message : Failure → String
  | parse fault => "ParseError: " ++ fault.message
  | eval fault => "EvaluationError: " ++ fault.message
  | type fault => "Type error: " ++ fault.message
  | unboundVariable name => "Unbound variable: " ++ name
  | notAProcedure shown => "not a procedure: " ++ shown
  | arity expected got callee =>
    let context := match callee with
      | some c => c.text ++ ": "
      | none => ""
    "ArityError: " ++ context ++ "wrong number of arguments: expected " ++ toString expected
      ++ ", got " ++ toString got
  | unrecognizedMethod fault => "Object received an unrecognized method: " ++ fault.message
  | unsupported feature => "Unsupported: " ++ feature ++ " not supported"
  | malformedInstance fault => "Bad class instance: " ++ fault.message

/-- The failure of a datum that is no expression. -/
def ofGrammar (fault : GrammarFault) : Failure :=
  .parse (.grammar fault)

/-- The failure of a text that is no sequence of data. -/
def ofReading (fault : ReadFault) : Failure :=
  .parse (.read fault)

end Failure

end SubstModel
