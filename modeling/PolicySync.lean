import PolicySync.Data.SortedMap
import PolicySync.Text.Quoted
import PolicySync.Text.Decimal
import PolicySync.Text.Double
import PolicySync.Text.Blank
import PolicySync.Text.Printable
import PolicySync.Text.Case
import PolicySync.Text.Cased
import PolicySync.Text.Display
import PolicySync.Json.Value
import PolicySync.Json.Parser
import PolicySync.Json.Printer
import PolicySync.Policy.Token
import PolicySync.Policy.Token.Lexer
import PolicySync.Policy.Tree
import PolicySync.Policy.Keyword
import PolicySync.Policy.Grammar.Expr
import PolicySync.Policy.Grammar.Module
import PolicySync.Policy.Term
import PolicySync.Policy.Term.OfTree
import PolicySync.Policy.Call
import PolicySync.Policy.Local
import PolicySync.Policy.Value
import PolicySync.Policy.Fault
import PolicySync.Policy.Builtin
import PolicySync.Policy.Document
import PolicySync.Policy.Binding
import PolicySync.Policy.Order
import PolicySync.Policy.Arrangement
import PolicySync.Policy.Loop
import PolicySync.Policy.Program
import PolicySync.Policy.Eval
import PolicySync.Policy.Tree.Size
import PolicySync.Policy.Query
import PolicySync.Policy.Compile
import PolicySync.PackagePath
import PolicySync.Labels
import PolicySync.Selectors
import PolicySync.Store.Basic
import PolicySync.Store.Memory
import PolicySync.Store.Target
import PolicySync.Store.Http
import PolicySync.Store.Service
import PolicySync.Json.Field
import PolicySync.Time.Calendar
import PolicySync.Time.Reading
import PolicySync.Time.Timestamp
import PolicySync.Resource.Metadata
import PolicySync.Resource.Status
import PolicySync.Resource.Spec
import PolicySync.Resource.Basic
import PolicySync.Sync
import PolicySync.Reconcile
import PolicySync.Diagnostics
import PolicySync.Config
import PolicySync.LogFilter
import PolicySync.Json.Yaml
import PolicySync.Resource.Definition
import PolicySync.Main
import PolicySync.Proofs.Data.SortedMap
import PolicySync.Proofs.Equivalence
import PolicySync.Proofs.Injection
import PolicySync.Proofs.Labels.RoundTrip
import PolicySync.Proofs.Labels.HandWritten
import PolicySync.Proofs.Selectors.HandWritten
import PolicySync.Proofs.OlderDialect
import PolicySync.Proofs.Reordering
import PolicySync.Proofs.Refinement
import PolicySync.Proofs.Sync.Interleaving
import PolicySync.Proofs.Store.Address
import PolicySync.Proofs.Sync.Foreign
import PolicySync.Proofs.Sync.ReadBack
import PolicySync.Proofs.Store.Laws
import PolicySync.Proofs.Reconcile.Run
import PolicySync.Proofs.Reconcile.Report
import PolicySync.Proofs.Reconcile.Status
import PolicySync.Proofs.Reconcile.Accounting
import PolicySync.Proofs.Reconcile.Independence
import PolicySync.Proofs.Sync.History
import PolicySync.Proofs.Store.Reading
import PolicySync.Proofs.Store.Simulation
import PolicySync.Proofs.Policy.Callee
import PolicySync.Proofs.Policy.UndefinedCall
import PolicySync.Proofs.Policy.Renaming
import PolicySync.Proofs.Policy.Scoping
import PolicySync.Proofs.Policy.Shape
import PolicySync.Proofs.Policy.Operator
import PolicySync.Proofs.Policy.Reference
import PolicySync.Proofs.Delay
import PolicySync.Proofs.Resource.WrittenBack
