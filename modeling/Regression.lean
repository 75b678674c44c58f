import Regression.Aggregation
import Regression.Classification
import Regression.Command.Basic
import Regression.Command.Help
import Regression.Command.Line
import Regression.Config.Document
import Regression.Config.Error
import Regression.Config.Json
import Regression.Config.Settings
import Regression.Duration
import Regression.Expr.Basic
import Regression.Expr.Json
import Regression.Expr.Stack
import Regression.Expr.Typing
import Regression.Failure
import Regression.Files
import Regression.Json.Basic
import Regression.Json.Fields
import Regression.Json.Reader
import Regression.Location
import Regression.Main
import Regression.Malformed
import Regression.NameSet
import Regression.Number.Binary64
import Regression.Number.Notation
import Regression.Number.Shortest
import Regression.Operator
import Regression.Oracle
import Regression.Partition
import Regression.Refinement.Candidates
import Regression.Refinement.Environment
import Regression.Refinement.Run
import Regression.Proofs.Computation
import Regression.Proofs.Expr.Evaluation
import Regression.Proofs.Expr.Meaning
import Regression.Proofs.History
import Regression.Proofs.Oracle.Relation
import Regression.Rehearsal.Machine
import Regression.Rehearsal.Plan
import Regression.Rehearsal.Stage
import Regression.Report
import Regression.Script.Basic
import Regression.Script.Declarations
import Regression.Script.Rendering
import Regression.Script.Symbol
import Regression.Script.Term
import Regression.Sexpr.Basic
import Regression.Sexpr.Grammar
import Regression.Sexpr.Token
import Regression.Solver.Artifacts
import Regression.Solver.Model
import Regression.Solver.Query
import Regression.Solver.Rehearsed
import Regression.Solver.Scripted
import Regression.Stopwatch
import Regression.Store.Address
import Regression.Store.Basic
import Regression.Store.Error
import Regression.Store.Memory
import Regression.Store.Record
import Regression.Store.Relational
import Regression.Store.Saved
import Regression.Store.Table
import Regression.Store.Write
import Regression.Text.Blank
import Regression.Text.Digits
import Regression.Text.Invisible
import Regression.Text.Quoted
import Regression.Text.Search
import Regression.Timestamp
import Regression.Timestamp.Reader
import Regression.Tool
import Regression.Trace.Basic
import Regression.Trace.Replay
import Regression.Verdict
import Regression.Watchdog
import Regression.Yaml.Character
import Regression.Yaml.Fields
import Regression.Yaml.Layout
import Regression.Yaml.Node
import Regression.Yaml.Number
import Regression.Yaml.Scalar
import Regression.Yaml.Token
import Regression.Yaml.Written
import Regression.Proofs.Oracle.Trace
import Regression.Proofs.Oracle.Difference
import Regression.Proofs.Run.Iteration
import Regression.Proofs.Run.Whole
import Regression.Proofs.Run.Analysis
import Regression.Proofs.Run.Pieces
import Regression.Proofs.Aggregation
import Regression.Proofs.Run.Results
import Regression.Proofs.Run.Equality
import Regression.Proofs.Number.Digits
import Regression.Proofs.Search
import Regression.Proofs.Sexpr.Tokens
import Regression.Proofs.Sexpr.Written
import Regression.Proofs.Store.Calls
import Regression.Proofs.Store.Columns
import Regression.Proofs.Store.Relational
import Regression.Proofs.Store.Rows
import Regression.Proofs.Untimed
import Regression.Proofs.Coupling
import Regression.Proofs.Run.Coupling
import Regression.Proofs.Run.Invariants
import Regression.Proofs.Run.Stored
import Regression.Proofs.Run.Storing
import Regression.Proofs.Run.Outcome
import Regression.Proofs.Run.Expiry
import Regression.Proofs.Run.Flags
import Regression.Proofs.Candidates
import Regression.Proofs.Run.Refinement
import Regression.Proofs.Run.Replays
import Regression.Proofs.Run.Termination
import Regression.Proofs.Expr.Nodes
import Regression.Proofs.Oracle.Protocol
import Regression.Proofs.Oracle.Classifying
import Regression.Proofs.Run.Queries
import Regression.Proofs.Text
import Regression.Proofs.Report.Blocks
import Regression.Proofs.Report.Reading
import Regression.Proofs.Report.Failures
import Regression.Proofs.Run.Reclassifying
import Regression.Proofs.Run.Refusals
import Regression.Proofs.Store.Validity
import Regression.Proofs.Run.Validity
import Regression.Proofs.Number.Shortest
import Regression.Proofs.Number.Plain
import Regression.Proofs.Script.Image
import Regression.Proofs.Script.Reading
import Regression.Proofs.Sexpr.Escapes
import Regression.Proofs.Script.Strings
import Regression.Proofs.Script.Declarations
import Regression.Proofs.Script.Symbols
import Regression.Proofs.Script.Sorts
import Regression.Proofs.Lines
import Regression.Proofs.Solver.Models
import Regression.Proofs.Files
import Regression.Proofs.Solver.Artifacts
import Regression.Proofs.Stopwatch
import Regression.Proofs.Run.Phases
import Regression.Proofs.Run.Times
import Regression.Proofs.Run.Course
import Regression.Proofs.Run.Following
import Regression.Proofs.Run.Followed
import Regression.Proofs.Run.Calm
import Regression.Proofs.Run.Surroundings
import Regression.Proofs.Run.Batching
import Regression.Proofs.Run.Parallelism
import Regression.Proofs.Script.Collected
import Regression.Proofs.Oracle.Exchange
import Regression.Proofs.Run.Selection
import Regression.Proofs.Dominance
import Regression.Proofs.Expr.Conjuncts
import Regression.Proofs.Expr.Unlocated
import Regression.Proofs.Expr.Interpretation
import Regression.Proofs.Oracle.Unlocated
import Regression.Proofs.Encoding
import Regression.Proofs.Duration
import Regression.Proofs.Run.Limits
import Regression.Proofs.RunningTime
