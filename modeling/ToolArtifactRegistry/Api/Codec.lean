import ToolArtifactRegistry.Domain.Instance

/-! The JSON forms of the input records, the merge a PATCH makes, and the two round trips from a
stored record back to its input. -/
namespace ToolArtifactRegistry.Api.Codec

open Library.Serde Model

def str (value : String) : Json := .string value

def optStr : Option String → Json := encodeOption str

def strs (values : List String) : Json := encodeList str values

/-- `skip_serializing_if = "Option::is_none"`. -/
def shown (key : String) : Option String → List (String × Json)
  | some value => [(key, .string value)]
  | none => []

def encodeAgent (agent : AgentIn) : Json :=
  .object (shown "iri" agent.iri ++ shown "name" agent.name ++ shown "kind" agent.kind ++
    shown "identifier" agent.identifier ++ shown "email" agent.email ++ shown "homepage" agent.homepage ++
    shown "version" agent.version)

def encodeCapability (cap : CapabilityIn) : Json :=
  .object [("produces", strs cap.produces), ("consumes", strs cap.consumes)]

def encodeApiDoc (doc : ApiDoc) : Json :=
  .object ([("url", str doc.url), ("format", str doc.format)] ++ shown "title" doc.title ++
    shown "description" doc.description)

def encodeSync (sync : SyncIn) : Json :=
  .object [("source", str sync.source), ("repo", str sync.repo), ("fields", strs sync.fields),
    ("enabled", .bool sync.enabled)]

def encodeInstance (input : InstanceIn) : Json :=
  .object ([("label", str input.label)] ++ shown "self_registered_by" input.selfRegisteredBy ++
    shown "self_registered_issuer" input.selfRegisteredIssuer ++ shown "instance_key" input.instanceKey ++
    [("software", optStr input.software), ("release", optStr input.release),
      ("endpoint_url", optStr input.endpointUrl), ("endpoint_description", optStr input.endpointDescription),
      ("operator", encodeOption encodeAgent input.operator), ("availability", optStr input.availability),
      ("jurisdiction", optStr input.jurisdiction), ("description", optStr input.description),
      ("oidc_client_id", optStr input.oidcClientId), ("oidc_issuer", optStr input.oidcIssuer),
      ("allowed_scopes", strs input.allowedScopes), ("health_endpoint", optStr input.healthEndpoint),
      ("capability", encodeOption encodeCapability input.capability)])

/-- The older single `kind` is read but never written. -/
def encodeSoftware (input : SoftwareIn) : Json :=
  .object [("name", str input.name), ("tagline", optStr input.tagline), ("description", optStr input.description),
    ("homepage", optStr input.homepage), ("code_repository", optStr input.codeRepository),
    ("documentation", optStr input.documentation), ("download_url", optStr input.downloadUrl),
    ("image", optStr input.image), ("screenshots", strs input.screenshots), ("readme", optStr input.readme),
    ("readme_base_url", optStr input.readmeBaseUrl), ("api_docs", encodeList encodeApiDoc input.apiDocs),
    ("registration_clients", strs input.registrationClients),
    ("registration_issuer", optStr input.registrationIssuer), ("license", optStr input.license),
    ("kinds", strs input.kinds), ("maturity", optStr input.maturity),
    ("deployable", encodeOption Json.bool input.deployable), ("topics", strs input.topics),
    ("keywords", strs input.keywords), ("publisher", encodeOption encodeAgent input.publisher),
    ("contact", encodeOption encodeAgent input.contact), ("publications", strs input.publications),
    ("capability", encodeOption encodeCapability input.capability), ("sync", encodeOption encodeSync input.sync)]

section Decode

def optString (source : Fields) (position : Nat) (key : String) : Decoded (Option String) :=
  defaulted none (decodeOption decodeString) source position key

def stringsOr (source : Fields) (position : Nat) (key : String) : Decoded (List String) :=
  defaulted [] (decodeList decodeString) source position key

def decodeAgent (value : Json) : Decoded AgentIn := do
  let f ← fields 7 value
  return { iri := ← optString f 0 "iri", name := ← optString f 1 "name", kind := ← optString f 2 "kind",
           identifier := ← optString f 3 "identifier", email := ← optString f 4 "email",
           homepage := ← optString f 5 "homepage", version := ← optString f 6 "version" }

def decodeCapability (value : Json) : Decoded CapabilityIn := do
  let f ← fields 2 value
  return { produces := ← stringsOr f 0 "produces", consumes := ← stringsOr f 1 "consumes" }

/-- An option without a default may be absent from an object, not from an array. -/
def optPlain (source : Fields) (position : Nat) (key : String) : Decoded (Option String) :=
  match source with
  | .keyed _ => optString source position key
  | .placed _ => required (decodeOption decodeString) source position key

def decodeApiDoc (value : Json) : Decoded ApiDoc := do
  let f ← fields 4 value
  return { url := ← required decodeString f 0 "url", format := ← defaulted "" decodeString f 1 "format",
           title := ← optPlain f 2 "title", description := ← optPlain f 3 "description" }

def decodeSync (value : Json) : Decoded SyncIn := do
  let f ← fields 4 value
  return { source := ← defaulted "github" decodeString f 0 "source", repo := ← required decodeString f 1 "repo",
           fields := ← stringsOr f 2 "fields", enabled := ← defaulted true decodeBool f 3 "enabled" }

def decodeInstance (value : Json) : Decoded InstanceIn := do
  let f ← fields 17 value
  return { label := ← required decodeString f 0 "label"
           selfRegisteredBy := ← optString f 1 "self_registered_by"
           selfRegisteredIssuer := ← optString f 2 "self_registered_issuer"
           instanceKey := ← optString f 3 "instance_key"
           software := ← optString f 4 "software"
           release := ← optString f 5 "release"
           endpointUrl := ← optString f 6 "endpoint_url"
           endpointDescription := ← optString f 7 "endpoint_description"
           operator := ← defaulted none (decodeOption decodeAgent) f 8 "operator"
           availability := ← optString f 9 "availability"
           jurisdiction := ← optString f 10 "jurisdiction"
           description := ← optString f 11 "description"
           oidcClientId := ← optString f 12 "oidc_client_id"
           oidcIssuer := ← optString f 13 "oidc_issuer"
           allowedScopes := ← stringsOr f 14 "allowed_scopes"
           healthEndpoint := ← optString f 15 "health_endpoint"
           capability := ← defaulted none (decodeOption decodeCapability) f 16 "capability" }

def decodeSoftware (value : Json) : Decoded SoftwareIn := do
  let f ← fields 26 value
  return { name := ← required decodeString f 0 "name"
           tagline := ← optString f 1 "tagline"
           description := ← optString f 2 "description"
           homepage := ← optString f 3 "homepage"
           codeRepository := ← optString f 4 "code_repository"
           documentation := ← optString f 5 "documentation"
           downloadUrl := ← optString f 6 "download_url"
           image := ← optString f 7 "image"
           screenshots := ← stringsOr f 8 "screenshots"
           readme := ← optString f 9 "readme"
           readmeBaseUrl := ← optString f 10 "readme_base_url"
           apiDocs := ← defaulted [] (decodeList decodeApiDoc) f 11 "api_docs"
           registrationClients := ← stringsOr f 12 "registration_clients"
           registrationIssuer := ← optString f 13 "registration_issuer"
           license := ← optString f 14 "license"
           kinds := ← stringsOr f 15 "kinds"
           kind := ← optString f 16 "kind"
           maturity := ← optString f 17 "maturity"
           deployable := ← defaulted none (decodeOption decodeBool) f 18 "deployable"
           topics := ← stringsOr f 19 "topics"
           keywords := ← stringsOr f 20 "keywords"
           publisher := ← defaulted none (decodeOption decodeAgent) f 21 "publisher"
           contact := ← defaulted none (decodeOption decodeAgent) f 22 "contact"
           publications := ← stringsOr f 23 "publications"
           capability := ← defaulted none (decodeOption decodeCapability) f 24 "capability"
           sync := ← defaulted none (decodeOption decodeSync) f 25 "sync" }

def decodeChecksum (value : Json) : Decoded ChecksumIn := do
  let f ← fields 2 value
  return { algorithm := ← required decodeString f 0 "algorithm", value := ← required decodeString f 1 "value" }

def decodeDistribution (value : Json) : Decoded DistributionIn := do
  let f ← fields 13 value
  return { title := ← optString f 0 "title"
           accessUrl := ← optString f 1 "access_url"
           downloadUrl := ← optString f 2 "download_url"
           mediaType := ← optString f 3 "media_type"
           byteSize := ← defaulted none (decodeOption (decodeNumber Library.Text.parseI64)) f 4 "byte_size"
           checksum := ← defaulted none (decodeOption decodeChecksum) f 5 "checksum"
           conformsTo := ← optString f 6 "conforms_to"
           license := ← optString f 7 "license"
           accessService := ← optString f 8 "access_service"
           accessProtocol := ← optString f 9 "access_protocol"
           authMethod := ← optString f 10 "auth_method"
           availability := ← optString f 11 "availability"
           accessRequestUrl := ← optString f 12 "access_request_url" }

end Decode

/-- Arrays and scalars replace; only objects are merged into. -/
def mergeJson (base : Json) (patch : Json) : Json :=
  match patch with
  | .object entries =>
    match base with
    | .object stored => .object (mergeEntries stored entries)
    | _ => .object entries
  | other => other
where
  mergeEntries (stored : List (String × Json)) : List (String × Json) → List (String × Json)
    | [] => stored
    | (key, value) :: rest =>
      mergeEntries (setEntry stored key (mergeValue (findEntry stored key) value)) rest
  mergeValue (existing : Option Json) : Json → Json
    | .object entries =>
      match existing with
      | some (.object stored) => .object (mergeEntries stored entries)
      | _ => .object entries
    | value => value

def agentIn (agent : AgentRef) : AgentIn where
  iri := some agent.iri
  name := agent.name
  kind := agent.kind
  identifier := agent.identifier
  email := agent.email
  homepage := agent.homepage
  version := agent.version

def capabilityIn (cap : Capability) : CapabilityIn :=
  ⟨cap.produces.map TypeRef.iri, cap.consumes.map TypeRef.iri⟩

/-- A stored Instance as an input a PATCH can be merged onto. -/
def instanceInFrom (i : Instance) : InstanceIn where
  label := i.label
  selfRegisteredBy := i.selfRegisteredBy
  selfRegisteredIssuer := i.selfRegisteredIssuer
  instanceKey := i.instanceKey
  software := i.software
  release := i.release
  endpointUrl := i.endpointUrl
  endpointDescription := i.endpointDescription
  operator := i.operator.map agentIn
  availability := i.availability
  jurisdiction := i.jurisdiction
  description := i.description
  oidcClientId := i.oidcClientId
  oidcIssuer := i.oidcIssuer
  allowedScopes := i.allowedScopes
  healthEndpoint := i.healthEndpoint
  capability := i.capability.map capabilityIn

/-- A stored Software as an input; the sync configuration is not among what it carries. -/
def softwareInFrom (s : Software) : SoftwareIn where
  name := s.name
  tagline := s.tagline
  description := s.description
  homepage := s.homepage
  codeRepository := s.codeRepository
  documentation := s.documentation
  downloadUrl := s.downloadUrl
  image := s.image
  screenshots := s.screenshots
  readme := s.readme
  readmeBaseUrl := s.readmeBaseUrl
  apiDocs := s.apiDocs
  registrationClients := s.registrationClients
  registrationIssuer := s.registrationIssuer
  license := s.license
  kinds := s.kinds
  kind := none
  maturity := s.maturity
  deployable := some s.deployable
  topics := s.topics.map TypeRef.iri
  keywords := s.keywords
  publisher := s.publisher.map agentIn
  contact := s.contact.map agentIn
  publications := s.publications
  capability := s.capability.map capabilityIn
  sync := none

end ToolArtifactRegistry.Api.Codec
