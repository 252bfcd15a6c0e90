import PartnerSearch.Text.Blank
import PartnerSearch.Text.Bytes
import PartnerSearch.Text.Integer
import PartnerSearch.Text.Quoted
import PartnerSearch.Number.Decimal
import PartnerSearch.Json.Reader
import PartnerSearch.Json.Expansion
import PartnerSearch.Json.Writer
import PartnerSearch.Base64
import PartnerSearch.Search.Tree
import PartnerSearch.Search.Parameter
import PartnerSearch.Text.Split
import PartnerSearch.Schema
import PartnerSearch.Search.Error
import PartnerSearch.Path
import PartnerSearch.Value
import PartnerSearch.Timestamp
import PartnerSearch.Uuid
import PartnerSearch.Predicate
import PartnerSearch.Strategy
import PartnerSearch.Log
import PartnerSearch.Registry
import PartnerSearch.Search.Compilation
import PartnerSearch.Sql.Cell
import PartnerSearch.Sql.Pattern
import PartnerSearch.Sql.Formula
import PartnerSearch.Sql.Fragment
import PartnerSearch.Sql.Evaluation
import PartnerSearch.Sql.Limits
import PartnerSearch.Token
import PartnerSearch.Directory.Record
import PartnerSearch.Directory.Schema
import PartnerSearch.Directory.Store
import PartnerSearch.Configuration
import PartnerSearch.Http.Form
import PartnerSearch.DatabaseUrl
import PartnerSearch.Service
import PartnerSearch.Http.Message
import PartnerSearch.Http.MediaType
import PartnerSearch.Http.Resource
import PartnerSearch.Http.Exchange
import PartnerSearch.CommandLine
import PartnerSearch.Main
import PartnerSearch.Proofs.Outcome
import PartnerSearch.Proofs.Schema.Walk
import PartnerSearch.Proofs.Search.Compilation
import PartnerSearch.Proofs.Search.Refusal
import PartnerSearch.Proofs.Registry.Validation
import PartnerSearch.Proofs.Predicate.Fold
import PartnerSearch.Proofs.Sql.Binds
import PartnerSearch.Proofs.Sql.Join
import PartnerSearch.Proofs.Sql.Truth
import PartnerSearch.Proofs.Directory.Execution
import PartnerSearch.Proofs.Directory.Selection
import PartnerSearch.Proofs.Sql.Text
import PartnerSearch.Proofs.Search.Condition
import PartnerSearch.Proofs.Search.Vacuity
import PartnerSearch.Proofs.Search.Noninterference
import PartnerSearch.Proofs.Sql.Lexer
import PartnerSearch.Proofs.Sql.Grammar
import PartnerSearch.Proofs.Sql.Spelling
import PartnerSearch.Proofs.Sql.Parsing
import PartnerSearch.Proofs.Sql.Reading
import PartnerSearch.Proofs.Search.Routing
import PartnerSearch.Proofs.Sql.Meaning
import PartnerSearch.Proofs.Sql.WellFormed
import PartnerSearch.Proofs.Directory.Objects
import PartnerSearch.Proofs.Search.Faithfulness
import PartnerSearch.Proofs.Text.Encoding
import PartnerSearch.Proofs.Json.Reading
import PartnerSearch.Proofs.Json.Remainder
import PartnerSearch.Proofs.Json.Embedding
import PartnerSearch.Proofs.Json.Members
import PartnerSearch.Proofs.Json.RoundTrip
import PartnerSearch.Proofs.Json.Shape
import PartnerSearch.Proofs.Json.Layers
import PartnerSearch.Proofs.Json.Expansion
import PartnerSearch.Proofs.Search.Wire
import PartnerSearch.Proofs.Search.Document
import PartnerSearch.Proofs.Search.Agreement
import PartnerSearch.Proofs.Base64.Inverse
import PartnerSearch.Proofs.Search.Printed
import PartnerSearch.Proofs.Search.Parameter
import PartnerSearch.Proofs.Search.Grammar
import PartnerSearch.Proofs.Search.Respelling
import PartnerSearch.Proofs.Directory.Reachable
import PartnerSearch.Proofs.Sql.Comparison
import PartnerSearch.Proofs.Directory.Operators
import PartnerSearch.Proofs.Directory.Ordering
import PartnerSearch.Proofs.Service.Paging
import PartnerSearch.Proofs.Text.Order
import PartnerSearch.Proofs.Uuid.Canonical
import PartnerSearch.Proofs.Directory.Identity
import PartnerSearch.Proofs.Directory.Related
import PartnerSearch.Proofs.Directory.Details
import PartnerSearch.Proofs.Service.Answers
import PartnerSearch.Proofs.Search.FirstFault
import PartnerSearch.Proofs.Predicate.NormalForm
import PartnerSearch.Proofs.Schema.Names
import PartnerSearch.Proofs.Search.NormalForm
import PartnerSearch.Proofs.Sql.Punctuation
import PartnerSearch.Proofs.Schema.Resolution
import PartnerSearch.Proofs.Sql.Layout
import PartnerSearch.Proofs.Sql.Placeholders
import PartnerSearch.Proofs.Sql.Aliases
import PartnerSearch.Proofs.Sql.Substring
import PartnerSearch.Proofs.Schema.Composition
import PartnerSearch.Proofs.Sql.Membership
import PartnerSearch.Proofs.Directory.AttributeSet
import PartnerSearch.Proofs.Directory.BackReference
import PartnerSearch.Proofs.Text.Places
import PartnerSearch.Proofs.Uuid.Spelling
import PartnerSearch.Proofs.Directory.Identifiers
import PartnerSearch.Proofs.Text.Ascii
import PartnerSearch.Proofs.Text.Integer
import PartnerSearch.Proofs.Timestamp.Calendar
import PartnerSearch.Proofs.Timestamp.Grammar
import PartnerSearch.Proofs.Timestamp.Instants
import PartnerSearch.Proofs.Search.Nesting
import PartnerSearch.Proofs.Service.RequestIds
import PartnerSearch.Proofs.Directory.AttributeLimit
