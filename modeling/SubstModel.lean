import SubstModel.Number.Text
import SubstModel.Symbol
import SubstModel.Text.Delimiter
import SubstModel.Text.Quoted
import SubstModel.Datum.Reader
import SubstModel.Primitive
import SubstModel.Expr.Same
import SubstModel.Expr.Written
import SubstModel.Failure
import SubstModel.Expr.OfDatum
import SubstModel.Dispatcher
import SubstModel.Expr.Rename
import SubstModel.Expr.Substitute
import SubstModel.Interpreter
import SubstModel.Outcome
import SubstModel.Proofs.GeneratedName
import SubstModel.Proofs.Binding
import SubstModel.Proofs.Language
import SubstModel.Proofs.Language.Substitution
import SubstModel.Proofs.Primitive.View
import SubstModel.Proofs.Trace
import SubstModel.Proofs.Language.Evaluation
import SubstModel.Proofs.Language.Grammar
import SubstModel.Proofs.FreeVariables
import SubstModel.Proofs.Freshness
import SubstModel.Proofs.Run
import SubstModel.Proofs.ScopeSafety
import SubstModel.Proofs.Nameless
import SubstModel.Proofs.Nameless.Substitution
import SubstModel.Proofs.Nameless.Instantiation
import SubstModel.Proofs.Lexical
import SubstModel.Proofs.LexicalScoping
import SubstModel.Proofs.Relabelling
import SubstModel.Proofs.Relabelling.Evaluation
import SubstModel.Proofs.Names
import SubstModel.Proofs.Unchanged
import SubstModel.Proofs.Renaming
import SubstModel.Proofs.Dispatcher.Chain
import SubstModel.Proofs.MessageName
import SubstModel.Proofs.Dispatcher.Object
import SubstModel.Proofs.Relabelling.Session
import SubstModel.Proofs.AlphaEquivalence
import SubstModel.Proofs.UniqueNames
import SubstModel.Proofs.Dispatcher.Scoping
import SubstModel.Proofs.MethodCall
import SubstModel.Proofs.LetExpansion
import SubstModel.Proofs.LetExpansion.Renaming
import SubstModel.Proofs.LetExpansion.Evaluation
import SubstModel.Proofs.Spelling.Reader
import SubstModel.Proofs.Spelling.Unparsing
import SubstModel.Proofs.SideBySide
import SubstModel.Proofs.Limits
import SubstModel.Proofs.LetExpansion.Program
import SubstModel.Proofs.IrrelevantDefinitions
import SubstModel.Proofs.Nameless.Replacement
import SubstModel.Proofs.Objects
import SubstModel.Proofs.InternalFailures
import SubstModel.Proofs.OneByOne
import SubstModel.Proofs.Spelling.Accepted
import SubstModel.Proofs.Equality
import SubstModel.Proofs.Address
import SubstModel.Proofs.SelfComparison
import SubstModel.Proofs.SubstitutionInTurn
import SubstModel.Proofs.MessageSearch
import SubstModel.Proofs.Primitive.Arguments
import SubstModel.Proofs.Spelling.Excerpt
