import Sociogram.Attribute.Attributes
import Sociogram.Attribute.Value
import Sociogram.CommandLine
import Sociogram.Document.Basic
import Sociogram.Document.Problem
import Sociogram.Document.Record
import Sociogram.Filter.Restriction
import Sociogram.Filter.SinglePass
import Sociogram.Filter.Standard
import Sociogram.Json.Numeral
import Sociogram.Json.Quoted
import Sociogram.Json.Stored
import Sociogram.Json.Text
import Sociogram.Json.Value
import Sociogram.Json.Written
import Sociogram.Keyed
import Sociogram.Load
import Sociogram.Network
import Sociogram.Network.Reading
import Sociogram.Network.Statistics
import Sociogram.Network.Writing
import Sociogram.Number.Binary64
import Sociogram.Number.Decimal
import Sociogram.Number.Digits
import Sociogram.Number.Shortest
import Sociogram.Query
import Sociogram.Rule.EdgeIndex
import Sociogram.Rule.Matching
import Sociogram.Rule.Operator
import Sociogram.Rule.Reading
import Sociogram.Rule.RuleSet
import Sociogram.Rule.Writing
import Sociogram.Session
import Sociogram.Text.Hidden
import Sociogram.Text.Literal
import Sociogram.Yaml.Cursor
import Sociogram.Yaml.Folding
import Sociogram.Yaml.Scalar
import Sociogram.Yaml.Text
import Sociogram.Yaml.Token
import Sociogram.Main
import Sociogram.Proofs.Filter.Agreement
import Sociogram.Proofs.Filter.Induced
import Sociogram.Proofs.Filter.SinglePass
import Sociogram.Proofs.Filter.Standard
import Sociogram.Proofs.Network.Restriction
import Sociogram.Proofs.Rule.Matching
import Sociogram.Proofs.Query.Grouping
import Sociogram.Proofs.Rule.EdgeIndex
import Sociogram.Proofs.Filter.Union
import Sociogram.Proofs.Filter.Repetition
import Sociogram.Proofs.Number.Nearest
import Sociogram.Proofs.Number.Exact
import Sociogram.Proofs.Rule.Comparison
import Sociogram.Proofs.Rule.Polarity
import Sociogram.Proofs.Filter.Divergence
import Sociogram.Proofs.Filter.Limit
import Sociogram.Proofs.Number.ReadBack
import Sociogram.Proofs.Json.Numeral
import Sociogram.Proofs.Json.Quoted
import Sociogram.Proofs.Document.Value
import Sociogram.Proofs.Document.Outcome
import Sociogram.Proofs.Json.Value
import Sociogram.Proofs.Json.Written
import Sociogram.Proofs.Json.TextOf
import Sociogram.Proofs.Json.Kept
import Sociogram.Proofs.Attribute.ReadBack
import Sociogram.Proofs.Network.ReadBack
import Sociogram.Proofs.Document.Bounded
import Sociogram.Proofs.Document.ReadAlike
import Sociogram.Proofs.Document.Slots
import Sociogram.Proofs.Network.Slots
import Sociogram.Proofs.Rule.Slots
import Sociogram.Proofs.Json.Scanned
import Sociogram.Proofs.Rule.Options
import Sociogram.Proofs.Rule.ReadBack
import Sociogram.Proofs.Filter.Settled
import Sociogram.Proofs.Query.Agreement
import Sociogram.Proofs.Filter.Idempotence
import Sociogram.Proofs.Filter.Inclusion
import Sociogram.Proofs.Query.Counting
import Sociogram.Proofs.List.Related
import Sociogram.Proofs.Attribute.Exactly
import Sociogram.Proofs.Rule.Alike
import Sociogram.Proofs.Filter.Correspondence
import Sociogram.Proofs.Filter.Alike
import Sociogram.Proofs.Filter.Ties
import Sociogram.Proofs.Filter.Renaming
import Sociogram.Proofs.Filter.Reordering
import Sociogram.Proofs.Filter.Unrecognized
import Sociogram.Proofs.Filter.Trimming
import Sociogram.Proofs.Rule.Order
import Sociogram.Proofs.Rule.Membership
import Sociogram.Proofs.Rule.Count
import Sociogram.Proofs.Network.Buried
import Sociogram.Proofs.CommandLine.Saved
import Sociogram.Proofs.Load.Place
import Sociogram.Proofs.Document.Permuted
import Sociogram.Proofs.Load.Refused
import Sociogram.Proofs.Load.Identifier
import Sociogram.Proofs.Load.Presentation
import Sociogram.Proofs.Session
