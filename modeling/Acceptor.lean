import Acceptor.Ascending
import Acceptor.Batch.Job
import Acceptor.Batch.Pool
import Acceptor.Batch.Run
import Acceptor.Batch.Timing
import Acceptor.Clock
import Acceptor.Decimal.Binary64
import Acceptor.Decimal.Fixed
import Acceptor.Decimal.Rounding
import Acceptor.Decimal.Shortest
import Acceptor.Descriptor.Catalogue
import Acceptor.Descriptor.Check
import Acceptor.Descriptor.Read
import Acceptor.Descriptor.Schema
import Acceptor.Descriptor.Validator
import Acceptor.Fault
import Acceptor.Grammar.Basic
import Acceptor.Grammar.Reachable
import Acceptor.LexicalClass
import Acceptor.Log
import Acceptor.NumberMap
import Acceptor.Part
import Acceptor.Proofs.Batch.Job
import Acceptor.Proofs.Batch.Outcomes
import Acceptor.Proofs.Batch.Pool
import Acceptor.Proofs.Construction
import Acceptor.Proofs.Course
import Acceptor.Proofs.Descriptor.Conformance
import Acceptor.Proofs.Descriptor.FirstFault
import Acceptor.Proofs.Descriptor.Form
import Acceptor.Proofs.Descriptor.Reading
import Acceptor.Proofs.Descriptor.RoundTrip
import Acceptor.Proofs.Equality
import Acceptor.Proofs.Frontier
import Acceptor.Proofs.Language
import Acceptor.Proofs.Progress
import Acceptor.Proofs.Pruning
import Acceptor.Proofs.Reach
import Acceptor.Proofs.Reachable
import Acceptor.Proofs.Recognizer.Beginning
import Acceptor.Proofs.Recognizer.Counters
import Acceptor.Proofs.Recognizer.Cycle
import Acceptor.Proofs.Recognizer.EmptyMarkers
import Acceptor.Proofs.Recognizer.Outcome
import Acceptor.Proofs.Recognizer.Pruning
import Acceptor.Proofs.Recognizer.Rejection
import Acceptor.Proofs.Recognizer.Reordering
import Acceptor.Proofs.Reordering
import Acceptor.Proofs.Search.Agreement
import Acceptor.Proofs.Search.Calls
import Acceptor.Proofs.Search.Completeness
import Acceptor.Proofs.Search.Counters
import Acceptor.Proofs.Search.Locality
import Acceptor.Proofs.Search.Soundness
import Acceptor.Proofs.Search.Stack
import Acceptor.Proofs.Search.Termination
import Acceptor.Proofs.Search.Turn
import Acceptor.Proofs.Span
import Acceptor.Proofs.Tokenization
import Acceptor.Recognition.Cycle
import Acceptor.Recognition.Derivation
import Acceptor.Recognition.Frontier
import Acceptor.Recognition.Memo
import Acceptor.Recognition.Recognizer
import Acceptor.Recognition.Result
import Acceptor.Recognition.Search
import Acceptor.Recognition.Settings
import Acceptor.Recognition.Stats
import Acceptor.Rule
import Acceptor.Symbol
import Acceptor.Text.Alphanumeric
import Acceptor.Text.Blank
import Acceptor.Text.CharSet
import Acceptor.Text.Listing
import Acceptor.Text.Printable
import Acceptor.Text.Quoted
import Acceptor.Token.Basic
import Acceptor.Token.Error
import Acceptor.Token.Slice
import Acceptor.Token.Stream
import Acceptor.Value.Basic
import Acceptor.Value.Equality
import Acceptor.Value.Path
import Acceptor.Value.Printer
