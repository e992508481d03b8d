import LeakScan.Baseline
import LeakScan.Bindings
import LeakScan.Catalog
import LeakScan.Catalog.Builtin
import LeakScan.Clock
import LeakScan.CommandLine
import LeakScan.CommandLine.Arguments
import LeakScan.CommandLine.Help
import LeakScan.Configuration
import LeakScan.Correlation
import LeakScan.Correlation.Placement
import LeakScan.Diagnostic
import LeakScan.Directory
import LeakScan.Discovery
import LeakScan.Failure
import LeakScan.Finding
import LeakScan.Glob
import LeakScan.Grammar
import LeakScan.Grammar.Blank
import LeakScan.Grammar.Go
import LeakScan.Grammar.Java
import LeakScan.Grammar.Phrase
import LeakScan.Grammar.Python
import LeakScan.Grammar.Python.Layout
import LeakScan.Grammar.Script
import LeakScan.Grammar.Script.Expressions
import LeakScan.Grammar.Script.Markup
import LeakScan.Grammar.Script.Statements
import LeakScan.Grammar.Script.Symbols
import LeakScan.Grammar.Script.Types
import LeakScan.Grammar.Skeleton
import LeakScan.Grammar.Tree
import LeakScan.Imports
import LeakScan.Json.Number
import LeakScan.Json.Printer
import LeakScan.Json.Reader
import LeakScan.Json.Value
import LeakScan.Language
import LeakScan.Lifecycle
import LeakScan.Linter
import LeakScan.Main
import LeakScan.Match
import LeakScan.Match.Chain
import LeakScan.Match.Structural
import LeakScan.Match.Textual
import LeakScan.Path
import LeakScan.Prefilter
import LeakScan.Proofs.Bindings
import LeakScan.Proofs.Correlation.Assignment
import LeakScan.Proofs.Correlation.Boundary
import LeakScan.Proofs.Correlation.Coverage
import LeakScan.Proofs.Correlation.Delivery
import LeakScan.Proofs.Correlation.Greedy
import LeakScan.Proofs.Correlation.Kinds
import LeakScan.Proofs.Correlation.Monotone
import LeakScan.Proofs.Correlation.Unrelated
import LeakScan.Proofs.Ordered
import LeakScan.Proofs.Outline.Braces
import LeakScan.Proofs.Outline.Discipline
import LeakScan.Proofs.Outline.Indentation
import LeakScan.Proofs.Outline.Keywords
import LeakScan.Proofs.Outline.Line
import LeakScan.Proofs.Outline.Whole
import LeakScan.Proofs.Regex.Reads
import LeakScan.Proofs.Scan.Listing
import LeakScan.Proofs.Scan.Prefilter
import LeakScan.Proofs.Scan.Silent
import LeakScan.Proofs.Scope.Innermost
import LeakScan.Proofs.Scope.Kinds
import LeakScan.Proofs.Scope.Laminar
import LeakScan.Proofs.Scope.Nesting
import LeakScan.Proofs.Scope.Whole
import LeakScan.Proofs.Text.Offset
import LeakScan.Proofs.Text.Utf8
import LeakScan.Proofs.Totals.Merge
import LeakScan.Proofs.Totals.Schedule
import LeakScan.Proofs.Totals.Summary
import LeakScan.Regex.Basic
import LeakScan.Regex.CharClass
import LeakScan.Regex.Pattern
import LeakScan.Regex.Search
import LeakScan.Report
import LeakScan.Report.Console
import LeakScan.Report.Json
import LeakScan.Report.Markdown
import LeakScan.Rule
import LeakScan.Rule.Document
import LeakScan.Rule.Draft
import LeakScan.Scan
import LeakScan.Scope.Outline
import LeakScan.Scope.Outline.Braces
import LeakScan.Scope.Outline.Header
import LeakScan.Scope.Outline.Indentation
import LeakScan.Scope.Outline.Keywords
import LeakScan.Scope.Outline.Line
import LeakScan.Scope.Resolution
import LeakScan.Scope.Skeleton
import LeakScan.Scope.Tree
import LeakScan.Severity
import LeakScan.SortedMap
import LeakScan.Source
import LeakScan.Text.CaseFold
import LeakScan.Text.Character
import LeakScan.Text.Digits
import LeakScan.Text.Offset
import LeakScan.Text.Quoted
import LeakScan.Text.Span
import LeakScan.Text.Split
import LeakScan.Text.Unicode
import LeakScan.Text.Utf8
import LeakScan.Tool
import LeakScan.Totals
import LeakScan.Workspace
import LeakScan.Yaml.Scalar
import LeakScan.Proofs.Totals.Balance
import LeakScan.Proofs.Totals.Findings
import LeakScan.Proofs.Scan.Counting
import LeakScan.Proofs.Scan.Failing
import LeakScan.Proofs.Scope.Collection
import LeakScan.Proofs.Catalog.Loading
import LeakScan.Proofs.Correlation.Descendant
import LeakScan.Proofs.Outline.Belonging
import LeakScan.Proofs.Outline.Bare
import LeakScan.Proofs.Outline.Comments
import LeakScan.Proofs.Outline.IndentLiteral
import LeakScan.Proofs.Outline.KeywordLiteral
import LeakScan.Proofs.Outline.Literals
import LeakScan.Proofs.Imports.Spellings
import LeakScan.Proofs.Imports.Placeholders
import LeakScan.Proofs.Match.Textual
import LeakScan.Proofs.Match.Chain
import LeakScan.Proofs.Source
import LeakScan.Proofs.Baseline.Delta
import LeakScan.Proofs.Baseline.Pairs
import LeakScan.Proofs.Json.Number
import LeakScan.Proofs.Json.RoundTrip
import LeakScan.Proofs.Baseline.Reports
import LeakScan.Proofs.Text.Words
import LeakScan.Proofs.Imports.Statements
import LeakScan.Proofs.Imports.Precedence
import LeakScan.Proofs.Imports.Lines
import LeakScan.Proofs.Imports.Listing
import LeakScan.Proofs.Imports.Layout
import LeakScan.Proofs.Lifecycle
import LeakScan.Proofs.Normalization
import LeakScan.Proofs.Source.Position
import LeakScan.Proofs.Path
import LeakScan.Proofs.Discovery
import LeakScan.Proofs.Tool
import LeakScan.Proofs.Text.Lines
import LeakScan.Proofs.Outline.Callee
import LeakScan.Proofs.Linter
import LeakScan.Proofs.Match.Structural
import LeakScan.Proofs.Linter
import LeakScan.Proofs.Yaml
