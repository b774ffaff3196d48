import ToolArtifactRegistry.Api.Accepted
import ToolArtifactRegistry.Api.Advertise
import ToolArtifactRegistry.Api.AdvertisePrints
import ToolArtifactRegistry.Api.Announcing
import ToolArtifactRegistry.Api.Artifacts
import ToolArtifactRegistry.Api.Calls
import ToolArtifactRegistry.Api.CallsRefine
import ToolArtifactRegistry.Api.Capping
import ToolArtifactRegistry.Api.Codec
import ToolArtifactRegistry.Api.Discovery
import ToolArtifactRegistry.Api.Facets
import ToolArtifactRegistry.Api.Finding
import ToolArtifactRegistry.Api.Guarding
import ToolArtifactRegistry.Api.Hosting
import ToolArtifactRegistry.Api.Identities
import ToolArtifactRegistry.Api.Instances
import ToolArtifactRegistry.Api.Lifecycle
import ToolArtifactRegistry.Api.Listing
import ToolArtifactRegistry.Api.Openlineage
import ToolArtifactRegistry.Api.Paging
import ToolArtifactRegistry.Api.Peers
import ToolArtifactRegistry.Api.Prints
import ToolArtifactRegistry.Api.Repeats
import ToolArtifactRegistry.Api.Search
import ToolArtifactRegistry.Api.Signing
import ToolArtifactRegistry.Api.Software
import ToolArtifactRegistry.Api.Sparql
import ToolArtifactRegistry.Api.Subscriptions
import ToolArtifactRegistry.Api.Tokens
import ToolArtifactRegistry.Api.Types
import ToolArtifactRegistry.Api.Updating
import ToolArtifactRegistry.Auth.Authenticate
import ToolArtifactRegistry.Auth.Authority
import ToolArtifactRegistry.Auth.Binding
import ToolArtifactRegistry.Auth.Jwt
import ToolArtifactRegistry.Auth.Ordering
import ToolArtifactRegistry.Auth.Principal
import ToolArtifactRegistry.Bundles
import ToolArtifactRegistry.Charging
import ToolArtifactRegistry.ClientAddress
import ToolArtifactRegistry.Cursors
import ToolArtifactRegistry.Delivering
import ToolArtifactRegistry.Deref
import ToolArtifactRegistry.Describing
import ToolArtifactRegistry.Dispatch
import ToolArtifactRegistry.Domain.Artifact
import ToolArtifactRegistry.Domain.Context
import ToolArtifactRegistry.Domain.Deployment
import ToolArtifactRegistry.Domain.Digest
import ToolArtifactRegistry.Domain.Distribution
import ToolArtifactRegistry.Domain.Fields
import ToolArtifactRegistry.Domain.Footprint
import ToolArtifactRegistry.Domain.Forge
import ToolArtifactRegistry.Domain.Hosting
import ToolArtifactRegistry.Domain.Instance
import ToolArtifactRegistry.Domain.Provenance
import ToolArtifactRegistry.Domain.Run
import ToolArtifactRegistry.Domain.Software
import ToolArtifactRegistry.Domain.Terms
import ToolArtifactRegistry.Domain.Versions
import ToolArtifactRegistry.Domain.Vocabulary
import ToolArtifactRegistry.Edits
import ToolArtifactRegistry.Escalating
import ToolArtifactRegistry.Federation.Claims
import ToolArtifactRegistry.Federation.Walk
import ToolArtifactRegistry.Federation.Wire
import ToolArtifactRegistry.HttpStore
import ToolArtifactRegistry.Ids
import ToolArtifactRegistry.Laws.Acknowledging
import ToolArtifactRegistry.Laws.Announce
import ToolArtifactRegistry.Laws.Attributing
import ToolArtifactRegistry.Laws.Authoring
import ToolArtifactRegistry.Laws.Booting
import ToolArtifactRegistry.Laws.Bucketing
import ToolArtifactRegistry.Laws.Charging
import ToolArtifactRegistry.Laws.Checking
import ToolArtifactRegistry.Laws.Claiming
import ToolArtifactRegistry.Laws.Collapsing
import ToolArtifactRegistry.Laws.Confinement
import ToolArtifactRegistry.Laws.Constraining
import ToolArtifactRegistry.Laws.Contacting
import ToolArtifactRegistry.Laws.Currency
import ToolArtifactRegistry.Laws.Deploying
import ToolArtifactRegistry.Laws.Dereferencing
import ToolArtifactRegistry.Laws.Enduring
import ToolArtifactRegistry.Laws.Escaping
import ToolArtifactRegistry.Laws.Faceting
import ToolArtifactRegistry.Laws.Filtering
import ToolArtifactRegistry.Laws.Finding
import ToolArtifactRegistry.Laws.Gating
import ToolArtifactRegistry.Laws.Guarding
import ToolArtifactRegistry.Laws.Hosting
import ToolArtifactRegistry.Laws.Identifying
import ToolArtifactRegistry.Laws.Judging
import ToolArtifactRegistry.Laws.Jurisdiction
import ToolArtifactRegistry.Laws.Lasting
import ToolArtifactRegistry.Laws.Loading
import ToolArtifactRegistry.Laws.Matching
import ToolArtifactRegistry.Laws.Merging
import ToolArtifactRegistry.Laws.Mirroring
import ToolArtifactRegistry.Laws.Moving
import ToolArtifactRegistry.Laws.Ordering
import ToolArtifactRegistry.Laws.Orienting
import ToolArtifactRegistry.Laws.Outcomes
import ToolArtifactRegistry.Laws.Outdating
import ToolArtifactRegistry.Laws.Overlaying
import ToolArtifactRegistry.Laws.Paging
import ToolArtifactRegistry.Laws.Pointing
import ToolArtifactRegistry.Laws.Polled
import ToolArtifactRegistry.Laws.Printing
import ToolArtifactRegistry.Laws.Probing
import ToolArtifactRegistry.Laws.Querying
import ToolArtifactRegistry.Laws.Reaching
import ToolArtifactRegistry.Laws.Receiving
import ToolArtifactRegistry.Laws.Redirecting
import ToolArtifactRegistry.Laws.Remaining
import ToolArtifactRegistry.Laws.Remembering
import ToolArtifactRegistry.Laws.Repeating
import ToolArtifactRegistry.Laws.Reporting
import ToolArtifactRegistry.Laws.Rereading
import ToolArtifactRegistry.Laws.Rewriting
import ToolArtifactRegistry.Laws.Rotating
import ToolArtifactRegistry.Laws.Settling
import ToolArtifactRegistry.Laws.Signing
import ToolArtifactRegistry.Laws.Silence
import ToolArtifactRegistry.Laws.SoftwareBound
import ToolArtifactRegistry.Laws.Specimen
import ToolArtifactRegistry.Laws.Succeeding
import ToolArtifactRegistry.Laws.Synchronising
import ToolArtifactRegistry.Laws.Timing
import ToolArtifactRegistry.Laws.Tombstone
import ToolArtifactRegistry.Laws.Tracing
import ToolArtifactRegistry.Laws.Transacting
import ToolArtifactRegistry.Laws.Trimming
import ToolArtifactRegistry.Laws.Walking
import ToolArtifactRegistry.Laws.Weighing
import ToolArtifactRegistry.Library.Addresses
import ToolArtifactRegistry.Library.Decimals
import ToolArtifactRegistry.Library.Descent
import ToolArtifactRegistry.Library.Distance
import ToolArtifactRegistry.Library.Encodings
import ToolArtifactRegistry.Library.Floats
import ToolArtifactRegistry.Library.Forms
import ToolArtifactRegistry.Library.Grouping
import ToolArtifactRegistry.Library.Instants
import ToolArtifactRegistry.Library.Keyset
import ToolArtifactRegistry.Library.Looking
import ToolArtifactRegistry.Library.Naming
import ToolArtifactRegistry.Library.Orders
import ToolArtifactRegistry.Library.Owing
import ToolArtifactRegistry.Library.Patterns
import ToolArtifactRegistry.Library.Percent
import ToolArtifactRegistry.Library.Programs
import ToolArtifactRegistry.Library.Queries
import ToolArtifactRegistry.Library.Rdf
import ToolArtifactRegistry.Library.Relabelling
import ToolArtifactRegistry.Library.Replace
import ToolArtifactRegistry.Library.Results
import ToolArtifactRegistry.Library.Runs
import ToolArtifactRegistry.Library.Serde
import ToolArtifactRegistry.Library.Serial
import ToolArtifactRegistry.Library.Sparql
import ToolArtifactRegistry.Library.Spelling
import ToolArtifactRegistry.Library.Tables
import ToolArtifactRegistry.Library.Text
import ToolArtifactRegistry.Library.Turns
import ToolArtifactRegistry.Library.Turtle
import ToolArtifactRegistry.Library.TurtleTokens
import ToolArtifactRegistry.Library.TurtleTriples
import ToolArtifactRegistry.Library.Updates
import ToolArtifactRegistry.Library.Word
import ToolArtifactRegistry.Library.Worklist
import ToolArtifactRegistry.Mcp.Call
import ToolArtifactRegistry.Mcp.Rpc
import ToolArtifactRegistry.Mcp.Transport
import ToolArtifactRegistry.Model
import ToolArtifactRegistry.Negotiate
import ToolArtifactRegistry.Ns
import ToolArtifactRegistry.Ops
import ToolArtifactRegistry.PeerTable
import ToolArtifactRegistry.Platform
import ToolArtifactRegistry.Polling
import ToolArtifactRegistry.Posting
import ToolArtifactRegistry.Probing
import ToolArtifactRegistry.Rdf.Build
import ToolArtifactRegistry.Rdf.Props
import ToolArtifactRegistry.Reading
import ToolArtifactRegistry.Rebase
import ToolArtifactRegistry.Registry
import ToolArtifactRegistry.RegistryPrints
import ToolArtifactRegistry.RegistryTokens
import ToolArtifactRegistry.Renaming
import ToolArtifactRegistry.Resolving
import ToolArtifactRegistry.Seed
import ToolArtifactRegistry.Shacl
import ToolArtifactRegistry.Store
import ToolArtifactRegistry.Subscriptions
import ToolArtifactRegistry.Touching
import ToolArtifactRegistry.Translating
