import ToolArtifactRegistry.Library.Text

/-! The shapes of the JSON API: what a request carries in, and what a record reads as. -/
namespace ToolArtifactRegistry.Model

open Library.Text

structure AgentIn where
  iri : Option String := none
  name : Option String := none
  kind : Option String := none
  identifier : Option String := none
  email : Option String := none
  homepage : Option String := none
  version : Option String := none
  deriving DecidableEq

structure CapabilityIn where
  produces : List String := []
  consumes : List String := []
  deriving DecidableEq

structure ApiDoc where
  url : String
  format : String := ""
  title : Option String := none
  description : Option String := none
  deriving DecidableEq

structure SyncIn where
  source : String := "github"
  repo : String
  fields : List String := []
  enabled : Bool := true
  deriving DecidableEq

structure SoftwareIn where
  name : String
  tagline : Option String := none
  description : Option String := none
  homepage : Option String := none
  codeRepository : Option String := none
  documentation : Option String := none
  downloadUrl : Option String := none
  image : Option String := none
  screenshots : List String := []
  readme : Option String := none
  readmeBaseUrl : Option String := none
  apiDocs : List ApiDoc := []
  registrationClients : List String := []
  registrationIssuer : Option String := none
  license : Option String := none
  kinds : List String := []
  kind : Option String := none
  maturity : Option String := none
  deployable : Option Bool := none
  topics : List String := []
  keywords : List String := []
  publisher : Option AgentIn := none
  contact : Option AgentIn := none
  publications : List String := []
  capability : Option CapabilityIn := none
  sync : Option SyncIn := none

structure DownloadIn where
  url : String
  label : Option String := none
  platform : Option String := none
  byteSize : Option Int := none
  availability : Option String := none

structure ReleaseIn where
  version : String
  datePublished : Option String := none
  containerImage : Option String := none
  imageDigest : Option String := none
  changelog : Option String := none
  installCommand : Option String := none
  downloads : List DownloadIn := []
  capability : Option CapabilityIn := none

structure InstanceIn where
  label : String
  selfRegisteredBy : Option String := none
  selfRegisteredIssuer : Option String := none
  instanceKey : Option String := none
  software : Option String := none
  release : Option String := none
  endpointUrl : Option String := none
  endpointDescription : Option String := none
  operator : Option AgentIn := none
  availability : Option String := none
  jurisdiction : Option String := none
  description : Option String := none
  oidcClientId : Option String := none
  oidcIssuer : Option String := none
  allowedScopes : List String := []
  healthEndpoint : Option String := none
  capability : Option CapabilityIn := none

structure SelfAnnounceIn where
  label : Option String := none
  software : Option String := none
  instanceKey : Option String := none
  release : Option String := none
  version : Option String := none
  endpointUrl : Option String := none
  endpointDescription : Option String := none
  healthEndpoint : Option String := none
  availability : Option String := none
  jurisdiction : Option String := none
  description : Option String := none
  capability : Option CapabilityIn := none

structure ChecksumIn where
  algorithm : String
  value : String
  deriving DecidableEq

structure DistributionIn where
  title : Option String := none
  accessUrl : Option String := none
  downloadUrl : Option String := none
  mediaType : Option String := none
  byteSize : Option Int := none
  checksum : Option ChecksumIn := none
  conformsTo : Option String := none
  license : Option String := none
  accessService : Option String := none
  accessProtocol : Option String := none
  authMethod : Option String := none
  availability : Option String := none
  accessRequestUrl : Option String := none
  deriving DecidableEq

structure ArtifactIn where
  iri : Option String := none
  title : Option String := none
  description : Option String := none
  conformsTo : Option String := none
  license : Option String := none
  keywords : List String := []
  issued : Option String := none
  publisher : Option AgentIn := none
  creators : List AgentIn := []
  contributors : List AgentIn := []
  contact : Option AgentIn := none
  producedBy : Option AgentIn := none
  producedByUser : Option AgentIn := none
  modified : Option String := none
  version : Option String := none
  landingPage : Option String := none
  documentation : Option String := none
  source : Option String := none
  language : List String := []
  spatial : Option String := none
  temporalStart : Option String := none
  temporalEnd : Option String := none
  wasDerivedFrom : List String := []
  wasRevisionOf : Option String := none
  isVersionOf : Option String := none
  externalKey : Option String := none
  distributions : List DistributionIn := []

structure RunIn where
  externalKey : Option String := none
  label : Option String := none
  startedAt : Option String := none
  endedAt : Option String := none
  status : Option String := none
  release : Option String := none

structure AdvertiseIn where
  run : RunIn := {}
  artifacts : List ArtifactIn := []

structure AdvertiseOut where
  run : String
  artifacts : List String
  created : Bool
  queuedForResolution : List String

structure MintToken where
  scopes : List String := []
  label : Option String := none
  expiresIn : Option String := none

/-! What a record reads as. -/

structure Origin where
  kind : String
  peerId : Option String := none
  peerTitle : Option String := none
  peerBaseIri : Option String := none
  cachedAt : Option String := none
  resolveStatus : Option String := none
  stale : Bool := false
  deriving DecidableEq

structure AgentRef where
  iri : String
  name : Option String
  kind : Option String
  identifier : Option String
  email : Option String
  homepage : Option String
  version : Option String
  deriving DecidableEq

structure TypeRef where
  iri : String
  label : Option String
  definition : Option String
  source : String
  deriving DecidableEq

structure Capability where
  iri : String
  produces : List TypeRef
  consumes : List TypeRef
  declaredAt : String

structure SyncStatus where
  source : String
  repo : String
  fields : List String
  enabled : Bool
  lastSyncedAt : Option String
  lastStatus : String
  lastError : Option String
  lastChanged : List String

structure Release where
  iri : String
  id : String
  version : String
  datePublished : Option String
  containerImage : Option String
  imageDigest : Option String
  changelog : Option String
  installCommand : Option String
  downloads : List DownloadIn
  software : Option String
  softwareName : Option String
  capability : Option Capability
  origin : Origin

structure Software where
  iri : String
  id : String
  name : String
  tagline : Option String
  description : Option String
  homepage : Option String
  codeRepository : Option String
  documentation : Option String
  downloadUrl : Option String
  image : Option String
  screenshots : List String
  readme : Option String
  readmeBaseUrl : Option String
  apiDocs : List ApiDoc
  registrationClients : List String
  registrationIssuer : Option String
  license : Option String
  kinds : List String
  kind : Option String
  maturity : Option String
  deployable : Bool
  topics : List TypeRef
  keywords : List String
  publisher : Option AgentRef
  contact : Option AgentRef
  publications : List String
  capability : Option Capability
  sync : Option SyncStatus
  latestRelease : Option Release
  instanceCount : Nat
  releaseCount : Nat
  runs30d : Nat
  created : Option String
  modified : Option String
  origin : Origin
  tombstoned : Bool

structure Instance where
  iri : String
  id : String
  label : String
  description : Option String
  software : Option String
  softwareName : Option String
  release : Option String
  releaseVersion : Option String
  outdated : Bool
  latestVersion : Option String
  endpointUrl : Option String
  endpointDescription : Option String
  operator : Option AgentRef
  availability : Option String
  jurisdiction : Option String
  health : String
  healthCheckedAt : Option String
  healthDetail : Option String
  healthEndpoint : Option String
  lastSeenAt : Option String
  selfRegisteredBy : Option String
  selfRegisteredIssuer : Option String
  instanceKey : Option String
  homeRegistry : Option String
  capability : Option Capability
  lastRunAt : Option String
  runs30d : Nat
  failures30d : Nat
  artifactCount : Nat
  oidcClientId : Option String
  oidcIssuer : Option String
  allowedScopes : List String
  origin : Origin
  tombstoned : Bool

structure Distribution where
  iri : String
  contentIdentifier : Option String
  title : Option String
  accessUrl : Option String
  downloadUrl : Option String
  mediaType : Option String
  byteSize : Option Int
  checksum : Option ChecksumIn
  conformsTo : Option String
  license : Option String
  accessService : Option String
  accessProtocol : Option String
  authMethod : Option String
  availability : String
  accessRequestUrl : Option String

structure RunSummary where
  iri : String
  id : String
  label : Option String
  status : String
  startedAt : Option String
  endedAt : Option String
  durationSeconds : Option Int
  externalKey : Option String
  instanceIri : Option String
  instanceLabel : Option String
  release : Option String
  releaseVersion : Option String
  software : Option String
  softwareName : Option String
  usedCount : Nat
  generatedCount : Nat
  origin : Origin

structure Artifact where
  iri : String
  id : String
  title : Option String
  description : Option String
  conformsTo : Option TypeRef
  license : Option String
  keywords : List String
  issued : Option String
  publisher : Option AgentRef
  creators : List AgentRef
  contributors : List AgentRef
  contact : Option AgentRef
  modified : Option String
  version : Option String
  landingPage : Option String
  documentation : Option String
  source : Option String
  language : List String
  spatial : Option String
  temporalStart : Option String
  temporalEnd : Option String
  attributedTo : Option String
  producedBy : Option AgentRef
  producedByUser : Option AgentRef
  availability : String
  contentIdentifiers : List String
  distributions : List Distribution
  wasDerivedFrom : List String
  wasRevisionOf : Option String
  isVersionOf : Option String
  wasGeneratedBy : Option String
  generatedByRun : Option RunSummary
  externalKey : Option String
  origin : Origin
  tombstoned : Bool

/-! The formats an API description may follow. -/

def apiFormatIri : String → Option String
  | "openapi" => some "https://spec.openapis.org/oas/latest.html"
  | "asyncapi" => some "https://www.asyncapi.com/docs/reference/specification/latest"
  | "graphql" => some "https://spec.graphql.org/"
  | "sparql-service-description" => some "http://www.w3.org/ns/sparql-service-description"
  | "ols4" => some "https://www.ebi.ac.uk/ols4/api"
  | "postman" => some "https://schema.postman.com/collection/"
  | _ => none

def apiFormatFromIri (iri : String) : Option String :=
  ["openapi", "asyncapi", "graphql", "sparql-service-description", "ols4", "postman"].find?
    (fun format => decide (apiFormatIri format = some iri))

/-- The format the caller named, or a guess from the address. -/
def ApiDoc.normalisedFormat (doc : ApiDoc) : String :=
  if trim doc.format ≠ "" then toAsciiLowercase (trim doc.format)
  else
    let address := toAsciiLowercase doc.url
    if contains address "openapi" || contains address "swagger" then "openapi"
    else if contains address "asyncapi" then "asyncapi"
    else if contains address "graphql" then "graphql"
    else if contains address "sparql" then "sparql-service-description"
    else "other"

/-- The declared kinds, from the set or the older single value, in order and without repetition. -/
def SoftwareIn.resolvedKinds (input : SoftwareIn) : List String :=
  (input.kinds ++ input.kind.toList).foldl
    (fun out kind => if trim kind = "" ∨ trim kind ∈ out then out else out ++ [trim kind]) []

def syncableFields : List String :=
  ["tagline", "description", "readme", "homepage", "license", "keywords", "maturity", "releases", "image"]

end ToolArtifactRegistry.Model
