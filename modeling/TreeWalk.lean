import TreeWalk.Main
import TreeWalk.Proofs.Syntax.Grammar
import TreeWalk.Proofs.Syntax.Phrase
import TreeWalk.Proofs.Syntax.Derivation
import TreeWalk.Proofs.Syntax.ExpressionRules
import TreeWalk.Proofs.Syntax.StatementRules
import TreeWalk.Proofs.Syntax.Confinement
import TreeWalk.Proofs.Syntax.Recognition
import TreeWalk.Proofs.Execution.Semantics
import TreeWalk.Proofs.Execution.Chains
import TreeWalk.Proofs.Execution.Operators
import TreeWalk.Proofs.Execution.WellOperated
import TreeWalk.Proofs.Execution.Expressions
import TreeWalk.Proofs.Execution.Budgets
import TreeWalk.Proofs.Execution.Agreement
import TreeWalk.Proofs.Execution.Interpretation
import TreeWalk.Proofs.Scanning.Steps
import TreeWalk.Proofs.Scanning.Tiling
import TreeWalk.Proofs.Scanning.Counters
import TreeWalk.Proofs.Scanning.SourceText
import TreeWalk.Proofs.Scanning.Lexemes
import TreeWalk.Proofs.Scanning.Numerals
import TreeWalk.Proofs.Scanning.Tokenization
import TreeWalk.Proofs.Execution.ScopeStack
import TreeWalk.Proofs.Sessions.Calls
import TreeWalk.Proofs.Sessions.History
import TreeWalk.Proofs.Resolution.Mentions
import TreeWalk.Proofs.Resolution.Resolver
import TreeWalk.Proofs.Resolution.StaticNames
import TreeWalk.Proofs.Scanning.Joining
import TreeWalk.Proofs.Execution.Keeping
import TreeWalk.Proofs.Execution.Sinks
import TreeWalk.Proofs.Similarity.Trees
import TreeWalk.Proofs.Similarity.Respacing
import TreeWalk.Proofs.Printing.Cells
import TreeWalk.Proofs.Printing.Numbers
import TreeWalk.Proofs.Printing.Forms
import TreeWalk.Proofs.Printing.Expressions
import TreeWalk.Proofs.Printing.Statements
import TreeWalk.Proofs.Similarity.Runs
import TreeWalk.Proofs.Similarity.Parses
import TreeWalk.Proofs.Sessions.PromptLines
import TreeWalk.Proofs.Syntax.Composition
import TreeWalk.Proofs.Syntax.Findings
import TreeWalk.Proofs.Syntax.Progress
import TreeWalk.Proofs.Syntax.Course
import TreeWalk.Proofs.Scanning.Lines
import TreeWalk.Proofs.Diagnosis.Origins
import TreeWalk.Proofs.Diagnosis.SourceParse
import TreeWalk.Proofs.Diagnosis.ErrorOrder
import TreeWalk.Proofs.Diagnosis.RepeatedErrors
import TreeWalk.Proofs.Diagnosis.ErrorCounts
import TreeWalk.Proofs.Diagnosis.ErrorLines
import TreeWalk.Proofs.Execution.Faults
import TreeWalk.Proofs.Diagnosis.FaultLines
import TreeWalk.Proofs.Diagnosis.ReportedSpans
import TreeWalk.Proofs.Diagnosis.Locations
import TreeWalk.Proofs.Resolution.RestoredScopes
import TreeWalk.Proofs.Resolution.Assignments
import TreeWalk.Proofs.Sessions.Layout
import TreeWalk.Proofs.Syntax.Concatenation
import TreeWalk.Proofs.Syntax.MissingSemicolons
import TreeWalk.Proofs.Syntax.Cursor
import TreeWalk.Proofs.Syntax.Mirrors
import TreeWalk.Proofs.Syntax.CursorRules
import TreeWalk.Proofs.Syntax.CursorPrograms
import TreeWalk.Proofs.Syntax.ParserCalls
import TreeWalk.Proofs.Syntax.Relaxed
import TreeWalk.Proofs.Syntax.Viability
import TreeWalk.Proofs.Syntax.EarliestErrors
import TreeWalk.Proofs.Diagnosis.Blame
import TreeWalk.Proofs.Execution.Padding
import TreeWalk.Proofs.Execution.ForLoops
import TreeWalk.Proofs.Execution.CutRuns
import TreeWalk.Proofs.Execution.RefusedWrites
import TreeWalk.Proofs.Sessions.Decoding
import TreeWalk.Proofs.Sessions.Files
import TreeWalk.Proofs.Sessions.Paths
