import QueryLang.Binding.Deferred
import QueryLang.Bound.Outline
import QueryLang.Cancellation
import QueryLang.Compilation.Asking
import QueryLang.Compilation.Basic
import QueryLang.Constant
import QueryLang.Dump.Bound
import QueryLang.Dump.Editor
import QueryLang.Editor.Keywords
import QueryLang.Editor.References
import QueryLang.Lookup.Scope
import QueryLang.Names
import QueryLang.Program.Reading
import QueryLang.Proofs.Binding.Activation
import QueryLang.Proofs.Binding.Agreeing
import QueryLang.Proofs.Binding.Carrying
import QueryLang.Proofs.Binding.Containing
import QueryLang.Proofs.Binding.Declaring
import QueryLang.Proofs.Binding.Expression
import QueryLang.Proofs.Binding.ExpressionAgreeing
import QueryLang.Proofs.Binding.ExpressionReports
import QueryLang.Proofs.Binding.Lambdas
import QueryLang.Proofs.Binding.Members
import QueryLang.Proofs.Binding.Name
import QueryLang.Proofs.Binding.Resolving
import QueryLang.Proofs.Binding.Scoping
import QueryLang.Proofs.Binding.Statement
import QueryLang.Proofs.Binding.StatementAgreeing
import QueryLang.Proofs.Binding.StatementLists
import QueryLang.Proofs.Binding.StatementResolving
import QueryLang.Proofs.Binding.Step
import QueryLang.Proofs.Binding.Telling
import QueryLang.Proofs.Binding.Undeclared
import QueryLang.Proofs.Binding.Visiting
import QueryLang.Proofs.Bound.Matching
import QueryLang.Proofs.Checked
import QueryLang.Proofs.Compilation.Answers
import QueryLang.Proofs.Compilation.Asking
import QueryLang.Proofs.Compilation.Beginning
import QueryLang.Proofs.Compilation.Carrying
import QueryLang.Proofs.Compilation.DeclaringNodes
import QueryLang.Proofs.Compilation.Deferred
import QueryLang.Proofs.Compilation.Depth
import QueryLang.Proofs.Compilation.Errors
import QueryLang.Proofs.Compilation.Failing
import QueryLang.Proofs.Compilation.Model
import QueryLang.Proofs.Compilation.Names
import QueryLang.Proofs.Compilation.Occurrence
import QueryLang.Proofs.Compilation.Order
import QueryLang.Proofs.Compilation.Rendering
import QueryLang.Proofs.Compilation.Requests
import QueryLang.Proofs.Compilation.Service
import QueryLang.Proofs.Compilation.SetUp
import QueryLang.Proofs.Compilation.StatementLists
import QueryLang.Proofs.Compilation.SymbolAt
import QueryLang.Proofs.Compilation.Undeclared
import QueryLang.Proofs.Compilation.Visits
import QueryLang.Proofs.Diagnostic.Filling
import QueryLang.Proofs.Diagnostic.Sorting
import QueryLang.Proofs.Editor.Carets
import QueryLang.Proofs.Editor.Highlights
import QueryLang.Proofs.Editor.Keywords
import QueryLang.Proofs.Editor.Offers
import QueryLang.Proofs.Editor.Starts
import QueryLang.Proofs.Editor.Typing
import QueryLang.Proofs.Lookup.Deciding
import QueryLang.Proofs.Lookup.Failing
import QueryLang.Proofs.Lookup.Listing
import QueryLang.Proofs.Lookup.Matching
import QueryLang.Proofs.Lookup.Scope
import QueryLang.Proofs.Program.Concluding
import QueryLang.Proofs.Program.Covering
import QueryLang.Proofs.Program.Located
import QueryLang.Proofs.Program.Reading
import QueryLang.Proofs.Program.Roots
import QueryLang.Proofs.Program.Sites
import QueryLang.Proofs.Program.Standing
import QueryLang.Proofs.Program.StatementLists
import QueryLang.Proofs.Program.Subtree
import QueryLang.Proofs.Program.Visibility
import QueryLang.Proofs.Program.Visiting
import QueryLang.Proofs.Symbol.Matching
import QueryLang.Proofs.Symbol.Sameness
import QueryLang.Proofs.Syntax.Acceptance
import QueryLang.Proofs.Syntax.Comments
import QueryLang.Proofs.Syntax.Containment
import QueryLang.Proofs.Syntax.CoupledExpressions
import QueryLang.Proofs.Syntax.CoupledRepetition
import QueryLang.Proofs.Syntax.CoupledStatements
import QueryLang.Proofs.Syntax.Coupling
import QueryLang.Proofs.Syntax.Crossing
import QueryLang.Proofs.Syntax.Derivation
import QueryLang.Proofs.Syntax.Escapes
import QueryLang.Proofs.Syntax.FeatureReports
import QueryLang.Proofs.Syntax.Frames
import QueryLang.Proofs.Syntax.GapReports
import QueryLang.Proofs.Syntax.Greedy
import QueryLang.Proofs.Syntax.Layout
import QueryLang.Proofs.Syntax.Lexing
import QueryLang.Proofs.Syntax.Locality
import QueryLang.Proofs.Syntax.Nesting
import QueryLang.Proofs.Syntax.Opening
import QueryLang.Proofs.Syntax.Operations
import QueryLang.Proofs.Syntax.Outside
import QueryLang.Proofs.Syntax.ParserAgreement
import QueryLang.Proofs.Syntax.ParserShape
import QueryLang.Proofs.Syntax.Partition
import QueryLang.Proofs.Syntax.Parts
import QueryLang.Proofs.Syntax.Positions
import QueryLang.Proofs.Syntax.Preceding
import QueryLang.Proofs.Syntax.Refilling
import QueryLang.Proofs.Syntax.Reporting
import QueryLang.Proofs.Syntax.Scanning
import QueryLang.Proofs.Syntax.SkippedBlock
import QueryLang.Proofs.Syntax.TreeTokens
import QueryLang.Proofs.Syntax.Trivia
import QueryLang.Proofs.Syntax.TypedText
import QueryLang.Proofs.Syntax.ViewedParts
import QueryLang.Proofs.Syntax.Viewing
import QueryLang.Proofs.Syntax.Walking
import QueryLang.Proofs.Text.Lines
import QueryLang.Proofs.Type.History
import QueryLang.Proofs.Type.Matching
import QueryLang.Proofs.Type.Naming
import QueryLang.Symbol.Declaring
import QueryLang.Symbol.Display
import QueryLang.Symbol.Registry
import QueryLang.Syntax.Parser.Statement
import QueryLang.Syntax.Tree.Search
import QueryLang.Syntax.View
import QueryLang.Type.Table
