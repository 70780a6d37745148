import LockDiscipline.Check.Access
import LockDiscipline.Check.CodeUnit
import LockDiscipline.Check.Config
import LockDiscipline.Check.InvalidGuard
import LockDiscipline.Check.Options
import LockDiscipline.Check.Run
import LockDiscipline.Check.UnguardedAccess
import LockDiscipline.Command.Arguments
import LockDiscipline.Command.Check
import LockDiscipline.Command.Files
import LockDiscipline.Command.Inspect
import LockDiscipline.Command.Output
import LockDiscipline.Command.Run
import LockDiscipline.Command.Usage
import LockDiscipline.Grammar.Cursor
import LockDiscipline.Grammar.Declaration
import LockDiscipline.Grammar.Error
import LockDiscipline.Grammar.Expression
import LockDiscipline.Grammar.Lookahead
import LockDiscipline.Grammar.Program
import LockDiscipline.Grammar.Rules
import LockDiscipline.Grammar.Statement
import LockDiscipline.Grammar.Type
import LockDiscipline.Json.Number
import LockDiscipline.Json.Text
import LockDiscipline.Json.Token
import LockDiscipline.Lock.Expr
import LockDiscipline.Lock.Guard
import LockDiscipline.Lock.Held
import LockDiscipline.Lock.Released
import LockDiscipline.Lock.Source
import LockDiscipline.Lock.Viewpoint
import LockDiscipline.Main
import LockDiscipline.Number.Binary64
import LockDiscipline.Number.Shortest
import LockDiscipline.Program.Basic
import LockDiscipline.Program.Declare
import LockDiscipline.Program.Library
import LockDiscipline.Program.Problem
import LockDiscipline.Program.Resolve
import LockDiscipline.Program.Scope
import LockDiscipline.Program.Symbol
import LockDiscipline.Program.TypeName
import LockDiscipline.Proofs.Check.Advice
import LockDiscipline.Proofs.Check.GuardDeclarations
import LockDiscipline.Proofs.Check.Homes
import LockDiscipline.Proofs.Check.Monitors
import LockDiscipline.Proofs.Check.Parentheses
import LockDiscipline.Proofs.Check.Reformatting
import LockDiscipline.Proofs.Check.Respelled
import LockDiscipline.Proofs.Check.Retouched
import LockDiscipline.Proofs.Check.RetouchedFindings
import LockDiscipline.Proofs.Check.RuleSelection
import LockDiscipline.Proofs.Check.Sites
import LockDiscipline.Proofs.Check.Skips
import LockDiscipline.Proofs.Check.UnitOrder
import LockDiscipline.Proofs.Check.Units
import LockDiscipline.Proofs.Grammar.BareNames
import LockDiscipline.Proofs.Grammar.BasicProgress
import LockDiscipline.Proofs.Grammar.Braces
import LockDiscipline.Proofs.Grammar.DeclarationBraces
import LockDiscipline.Proofs.Grammar.DeclarationNumbers
import LockDiscipline.Proofs.Grammar.DeclarationProgress
import LockDiscipline.Proofs.Grammar.DeclarationRelocation
import LockDiscipline.Proofs.Grammar.DeclarationSpans
import LockDiscipline.Proofs.Grammar.ExpressionBraces
import LockDiscipline.Proofs.Grammar.ExpressionLambdas
import LockDiscipline.Proofs.Grammar.ExpressionNumbers
import LockDiscipline.Proofs.Grammar.ExpressionProgress
import LockDiscipline.Proofs.Grammar.ExpressionRelocation
import LockDiscipline.Proofs.Grammar.ExpressionSpans
import LockDiscipline.Proofs.Grammar.Heads
import LockDiscipline.Proofs.Grammar.LambdaSwitch
import LockDiscipline.Proofs.Grammar.Lambdas
import LockDiscipline.Proofs.Grammar.Laying
import LockDiscipline.Proofs.Grammar.Lookahead
import LockDiscipline.Proofs.Grammar.Numbering
import LockDiscipline.Proofs.Grammar.Precedence
import LockDiscipline.Proofs.Grammar.Progress
import LockDiscipline.Proofs.Grammar.Receivers
import LockDiscipline.Proofs.Grammar.Relocation
import LockDiscipline.Proofs.Grammar.StatementBraces
import LockDiscipline.Proofs.Grammar.StatementLambdas
import LockDiscipline.Proofs.Grammar.StatementNumbers
import LockDiscipline.Proofs.Grammar.StatementProgress
import LockDiscipline.Proofs.Grammar.StatementRelocation
import LockDiscipline.Proofs.Grammar.StatementSpans
import LockDiscipline.Proofs.Grammar.Termination
import LockDiscipline.Proofs.Grammar.TypeTexts
import LockDiscipline.Proofs.Grammar.UnitOutcome
import LockDiscipline.Proofs.Lock.Agreement
import LockDiscipline.Proofs.Lock.Binding
import LockDiscipline.Proofs.Lock.Canonical
import LockDiscipline.Proofs.Lock.Formation
import LockDiscipline.Proofs.Lock.Parentheses
import LockDiscipline.Proofs.Lock.Rebasing
import LockDiscipline.Proofs.Lock.Receiver
import LockDiscipline.Proofs.Lock.Releases
import LockDiscipline.Proofs.Lock.Respelled
import LockDiscipline.Proofs.Lock.Retouched
import LockDiscipline.Proofs.Lock.Roots
import LockDiscipline.Proofs.Lock.Selection
import LockDiscipline.Proofs.Lock.Sets
import LockDiscipline.Proofs.Lock.SuperGuards
import LockDiscipline.Proofs.Lock.TypeGuards
import LockDiscipline.Proofs.Program.Around
import LockDiscipline.Proofs.Program.Bodies
import LockDiscipline.Proofs.Program.ClassBody
import LockDiscipline.Proofs.Program.Clauses
import LockDiscipline.Proofs.Program.Constructs
import LockDiscipline.Proofs.Program.Coverage
import LockDiscipline.Proofs.Program.Declaration
import LockDiscipline.Proofs.Program.DottedTypes
import LockDiscipline.Proofs.Program.Entry
import LockDiscipline.Proofs.Program.Footprints
import LockDiscipline.Proofs.Program.Growth
import LockDiscipline.Proofs.Program.Imports
import LockDiscipline.Proofs.Program.InStep
import LockDiscipline.Proofs.Program.InferredTypes
import LockDiscipline.Proofs.Program.LexicalScope
import LockDiscipline.Proofs.Program.Linking
import LockDiscipline.Proofs.Program.Lookup
import LockDiscipline.Proofs.Program.Members
import LockDiscipline.Proofs.Program.Mirroring
import LockDiscipline.Proofs.Program.Naming
import LockDiscipline.Proofs.Program.Obscuring
import LockDiscipline.Proofs.Program.Order
import LockDiscipline.Proofs.Program.OuterClasses
import LockDiscipline.Proofs.Program.Ownership
import LockDiscipline.Proofs.Program.Patterns
import LockDiscipline.Proofs.Program.Provenance
import LockDiscipline.Proofs.Program.QualifiedNames
import LockDiscipline.Proofs.Program.Recast
import LockDiscipline.Proofs.Program.References
import LockDiscipline.Proofs.Program.RespelledBodies
import LockDiscipline.Proofs.Program.RespelledClasses
import LockDiscipline.Proofs.Program.RespelledNames
import LockDiscipline.Proofs.Program.Respelling
import LockDiscipline.Proofs.Program.Retention
import LockDiscipline.Proofs.Program.RetouchedBodies
import LockDiscipline.Proofs.Program.RetouchedNames
import LockDiscipline.Proofs.Program.Scoping
import LockDiscipline.Proofs.Program.Settling
import LockDiscipline.Proofs.Program.Stability
import LockDiscipline.Proofs.Program.Steps
import LockDiscipline.Proofs.Program.Supertypes
import LockDiscipline.Proofs.Program.Tables
import LockDiscipline.Proofs.Program.Typeless
import LockDiscipline.Proofs.Program.Unit
import LockDiscipline.Proofs.Program.WholeNames
import LockDiscipline.Proofs.Report.Gutter
import LockDiscipline.Proofs.Report.Marks
import LockDiscipline.Proofs.Report.Suggestion
import LockDiscipline.Proofs.Source.LineMap
import LockDiscipline.Proofs.Text.Dotted
import LockDiscipline.Proofs.Text.EditDistance
import LockDiscipline.Proofs.Token.Escapes
import LockDiscipline.Proofs.Token.Integers
import LockDiscipline.Proofs.Token.Layout
import LockDiscipline.Proofs.Token.Numerals
import LockDiscipline.Proofs.Token.Respacing
import LockDiscipline.Proofs.Token.Rules
import LockDiscipline.Proofs.Tree.Courses
import LockDiscipline.Proofs.Tree.Numbers
import LockDiscipline.Proofs.Tree.Parentheses
import LockDiscipline.Proofs.Tree.Parts
import LockDiscipline.Proofs.Tree.Places
import LockDiscipline.Proofs.Tree.Retouch
import LockDiscipline.Proofs.Tree.Spans
import LockDiscipline.Proofs.Tree.Untouched
import LockDiscipline.Proofs.Tree.Visiting
import LockDiscipline.Report.Code
import LockDiscipline.Report.Diagnostic
import LockDiscipline.Report.Excerpt
import LockDiscipline.Report.Json
import LockDiscipline.Report.Style
import LockDiscipline.Report.Suggestion
import LockDiscipline.Report.Terminal
import LockDiscipline.Source.LineMap
import LockDiscipline.Source.Span
import LockDiscipline.Source.Text
import LockDiscipline.Syntax.Basic
import LockDiscipline.Syntax.Outline
import LockDiscipline.Syntax.Traversal
import LockDiscipline.Syntax.Tree
import LockDiscipline.Text.CharSet
import LockDiscipline.Text.Dotted
import LockDiscipline.Text.EditDistance
import LockDiscipline.Text.Hidden
import LockDiscipline.Text.Outline
import LockDiscipline.Text.Pad
import LockDiscipline.Text.Quotation
import LockDiscipline.Text.Word
import LockDiscipline.Token.Basic
import LockDiscipline.Token.Lexer
import LockDiscipline.Token.Literal
import LockDiscipline.Trace
