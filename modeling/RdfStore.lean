import RdfStore.Node.Order
import RdfStore.Query.Written
import RdfStore.Session
import RdfStore.Settings.Document
import RdfStore.Statement.Diff
import RdfStore.Proofs.OrderedMap
import RdfStore.Proofs.Firsts
import RdfStore.Proofs.Store.History
import RdfStore.Proofs.Store.Invariant
import RdfStore.Proofs.Store.Isolation
import RdfStore.Proofs.Store.Ledger
import RdfStore.Proofs.Store.Table
import RdfStore.Proofs.Store.Memory
import RdfStore.Proofs.Store.Index
import RdfStore.Proofs.Store.Tables
import RdfStore.Proofs.Store.Insertion
import RdfStore.Proofs.Store.Durable
import RdfStore.Proofs.Store.Reachable
import RdfStore.Proofs.Store.Batches
import RdfStore.Proofs.Store.Equivalence
import RdfStore.Proofs.Query.Assignment
import RdfStore.Proofs.Store.Addition
import RdfStore.Proofs.Query.Solutions
import RdfStore.Proofs.Query.Plan
import RdfStore.Proofs.Query.Rows
import RdfStore.Proofs.Query.Pipeline
import RdfStore.Proofs.Query.Declaration
import RdfStore.Proofs.Query.Distinct
import RdfStore.Proofs.Query.Scope
import RdfStore.Proofs.Store.Unite
import RdfStore.Proofs.Store.DefaultGraph
import RdfStore.Proofs.Store.Scan
import RdfStore.Proofs.Query.Writable
import RdfStore.Proofs.Query.Quoted
import RdfStore.Proofs.Query.Token
import RdfStore.Proofs.Canonical
import RdfStore.Proofs.Query.Grammar
import RdfStore.Proofs.Query.Form
import RdfStore.Proofs.Query.RoundTrip
import RdfStore.Proofs.Query.Sound
import RdfStore.Proofs.Query.Preamble
import RdfStore.Proofs.Query.Comments
import RdfStore.Proofs.Query.Keyword
import RdfStore.Proofs.Query.Prologue
import RdfStore.Proofs.Query.Lexeme
import RdfStore.Proofs.Query.Tidy
import RdfStore.Proofs.Query.Classification
import RdfStore.Proofs.Query.Spelling
import RdfStore.Proofs.Store.Spelling
import RdfStore.Proofs.Store.Relabelling
import RdfStore.Proofs.Store.Appending
import RdfStore.Proofs.Store.BlankNodes
import RdfStore.Proofs.Store.Union
import RdfStore.Proofs.Store.Arrivals
import RdfStore.Proofs.Store.Sources
import RdfStore.Proofs.Store.Monotone
import RdfStore.Proofs.Store.Declaration
import RdfStore.Proofs.Store.Stored
import RdfStore.Proofs.Store.Lookup
import RdfStore.Proofs.Store.Provenance
import RdfStore.Proofs.Store.Validity
import RdfStore.Proofs.Store.Removal
import RdfStore.Proofs.Store.Deletion
import RdfStore.Proofs.Store.Plain
import RdfStore.Proofs.Store.Readback
import RdfStore.Proofs.Store.Patch
import RdfStore.Proofs.Store.Atomicity
import RdfStore.Proofs.Store.Numbering
import RdfStore.Proofs.Store.Stepwise
import RdfStore.Proofs.Store.Splitting
import RdfStore.Proofs.Difference
import RdfStore.Proofs.Shortening
import RdfStore.Proofs.Settings
