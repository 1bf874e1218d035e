import SearchClient.Json.Parse
import SearchClient.Json.Text
import SearchClient.Decimal.Single
import SearchClient.Engine.Features
import SearchClient.Query.Document
import SearchClient.Query.Reduce
import SearchClient.Query.Node
import SearchClient.Term.Field
import SearchClient.Aggs.Document
import SearchClient.Aggs.Decode
import SearchClient.Search.Result
import SearchClient.Bulk.Result
import SearchClient.Mapping.Document
import SearchClient.Mapping.Merge
import SearchClient.Url.Endpoint
import SearchClient.Toml.Parse
import SearchClient.Toml.Text
import SearchClient.Session.Call
import SearchClient.Query.Shared
import SearchClient.Proofs.Query.Identity
import SearchClient.Proofs.Query.NormalForm
import SearchClient.Proofs.Query.GetPut
import SearchClient.Proofs.Query.Erasure
import SearchClient.Proofs.Search.Slots
import SearchClient.Proofs.Query.Conditions
import SearchClient.Proofs.Query.Meaning
import SearchClient.Search.Shared
import SearchClient.Proofs.Search.Replacement
import SearchClient.Proofs.Outcome
import SearchClient.Proofs.Json.Equality
import SearchClient.Proofs.Mapping.Union
import SearchClient.Proofs.Mapping.Merge
import SearchClient.Proofs.Mapping.Grouping
import SearchClient.Proofs.Json.Positions
import SearchClient.Proofs.Faults
import SearchClient.Proofs.Json.Sameness
import SearchClient.Proofs.Query.Reading.Options
import SearchClient.Proofs.Query.Reading.Leaf
import SearchClient.Proofs.Query.Reading.Tree
import SearchClient.Proofs.Json.OneLine
import SearchClient.Proofs.Bulk.Recovery
import SearchClient.Proofs.Json.Success
import SearchClient.Proofs.Parallel
import SearchClient.Proofs.Aggs.Buckets
import SearchClient.Proofs.Placeless
import SearchClient.Proofs.Aggs.Registry
import SearchClient.Proofs.Aggs.Shapes
import SearchClient.Proofs.Search.Several
import SearchClient.Proofs.Session.Resolution
import SearchClient.Proofs.Engine.Encoders
import SearchClient.Proofs.Engine.Gate
import SearchClient.Proofs.Query.Redexes
import SearchClient.Proofs.Search.Editing
import SearchClient.Proofs.Search.OneSlot
import SearchClient.Proofs.Search.ReducedSlots
import SearchClient.Proofs.Query.Independence
import SearchClient.Proofs.Search.Filtering
import SearchClient.Proofs.Query.Boosts
import SearchClient.Proofs.Aggs.Filters
import SearchClient.Proofs.Aggs.Percentiles
import SearchClient.Proofs.Decimal.Bits
import SearchClient.Proofs.Decimal.Nearest
import SearchClient.Proofs.Decimal.Single
import SearchClient.Proofs.Json.Integers
import SearchClient.Proofs.Term.RoundTrip
import SearchClient.Proofs.Session.Statuses
import SearchClient.Proofs.Text.Split
import SearchClient.Proofs.Engine.VersionText
import SearchClient.Proofs.Mapping.Reading
import SearchClient.Proofs.Text.Cut
import SearchClient.Proofs.Url.Percent
import SearchClient.Proofs.Url.Segments
import SearchClient.Proofs.Url.Authority
import SearchClient.Proofs.Url.Base
import SearchClient.Proofs.Url.Names
import SearchClient.Proofs.Search.Roots
