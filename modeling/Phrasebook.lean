import Phrasebook.Binary64
import Phrasebook.Binary64.Reading
import Phrasebook.Binary64.Text
import Phrasebook.Command.Arguments
import Phrasebook.Command.Comparison
import Phrasebook.Command.Files
import Phrasebook.Command.Grammar
import Phrasebook.Command.Inspection
import Phrasebook.Command.LocaleFile
import Phrasebook.Command.Options
import Phrasebook.Command.Report
import Phrasebook.Command.Run
import Phrasebook.Context
import Phrasebook.Coverage
import Phrasebook.Decimal
import Phrasebook.Decimal.Layout
import Phrasebook.Evaluation
import Phrasebook.Format
import Phrasebook.Format.Rendering
import Phrasebook.Format.Spec
import Phrasebook.Json
import Phrasebook.Json.Fault
import Phrasebook.Json.Reader
import Phrasebook.Json.Text
import Phrasebook.KeyPath
import Phrasebook.Lint
import Phrasebook.Locale
import Phrasebook.Main
import Phrasebook.Members
import Phrasebook.Plural
import Phrasebook.Proofs.Command.Comparison
import Phrasebook.Proofs.Evaluation.Assembly
import Phrasebook.Proofs.Evaluation.Calls
import Phrasebook.Proofs.Evaluation.Ceiling
import Phrasebook.Proofs.Evaluation.Composition
import Phrasebook.Proofs.Evaluation.Errors
import Phrasebook.Proofs.Evaluation.Fusion
import Phrasebook.Proofs.Evaluation.Operations
import Phrasebook.Proofs.Evaluation.Rules
import Phrasebook.Proofs.Evaluation.Stack
import Phrasebook.Proofs.Evaluation.Substitution
import Phrasebook.Proofs.Evaluation.Unbound
import Phrasebook.Proofs.Except
import Phrasebook.Proofs.Format.Characters
import Phrasebook.Proofs.Format.Rendering
import Phrasebook.Proofs.Json.Builders
import Phrasebook.Proofs.Json.ReadBack
import Phrasebook.Proofs.Lint.Agreement
import Phrasebook.Proofs.Lint.CanonicalCycles
import Phrasebook.Proofs.Lint.Clean
import Phrasebook.Proofs.Lint.Cycles
import Phrasebook.Proofs.Lint.Dangling
import Phrasebook.Proofs.Lint.Failure
import Phrasebook.Proofs.Lint.FirstPath
import Phrasebook.Proofs.Lint.Graph
import Phrasebook.Proofs.Lint.KeyOrder
import Phrasebook.Proofs.Lint.Search
import Phrasebook.Proofs.Lint.SearchRules
import Phrasebook.Proofs.Lint.Specs
import Phrasebook.Proofs.Lint.Warnings
import Phrasebook.Proofs.Members
import Phrasebook.Proofs.Paths
import Phrasebook.Proofs.Plural
import Phrasebook.Proofs.Template.Frame
import Phrasebook.Proofs.Template.Placeholder
import Phrasebook.Proofs.Template.Reference
import Phrasebook.Proofs.Template.Scan
import Phrasebook.Proofs.Text.Search
import Phrasebook.Proofs.Tree.DottedNames
import Phrasebook.Proofs.Tree.KeyOrder
import Phrasebook.Proofs.Tree.LeafKeys
import Phrasebook.Proofs.Tree.LeafPaths
import Phrasebook.Proofs.Tree.Loading
import Phrasebook.Proofs.Tree.RoundTrip
import Phrasebook.Proofs.Tree.Structure
import Phrasebook.Rounding
import Phrasebook.Suggestion
import Phrasebook.Template
import Phrasebook.Template.Frame
import Phrasebook.Template.Placeholder
import Phrasebook.Template.Reference
import Phrasebook.Text.Blank
import Phrasebook.Text.CharacterSet
import Phrasebook.Text.CharacterWidth
import Phrasebook.Text.Columns
import Phrasebook.Text.Emoji
import Phrasebook.Text.Ligature
import Phrasebook.Text.Search
import Phrasebook.Text.Uppercase
import Phrasebook.Tree
import Phrasebook.Value
import Phrasebook.Proofs.Format.Faults
import Phrasebook.Proofs.Format.Grammar
import Phrasebook.Proofs.Binary64
import Phrasebook.Proofs.Decimal.Layout
import Phrasebook.Proofs.Format.Numbers
import Phrasebook.Proofs.Format.ZeroFill
import Phrasebook.Proofs.Format.Integers
import Phrasebook.Proofs.Rounding
import Phrasebook.Proofs.Format.Width
import Phrasebook.Proofs.Decimal.Significant
import Phrasebook.Proofs.Decimal.General
import Phrasebook.Proofs.Format.General
import Phrasebook.Proofs.Binary64.Nearest
import Phrasebook.Proofs.Binary64.Arithmetic
import Phrasebook.Proofs.Binary64.Integers
import Phrasebook.Proofs.Plural.Exact
import Phrasebook.Proofs.Plural.Integers
import Phrasebook.Proofs.Suggestion.Edits
import Phrasebook.Proofs.Suggestion.Ranking
import Phrasebook.Proofs.Tree.Messages
import Phrasebook.Proofs.Lint.Suggestions
import Phrasebook.Proofs.Tree.Composition
import Phrasebook.Proofs.Binary64.Reading
import Phrasebook.Proofs.Plural.Texts
import Phrasebook.Proofs.Coverage
import Phrasebook.Proofs.Json.Pretty
import Phrasebook.Proofs.Command.Run
import Phrasebook.Proofs.Command.Coverage
import Phrasebook.Proofs.Command.Inspection
