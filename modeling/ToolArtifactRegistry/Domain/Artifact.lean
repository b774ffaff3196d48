import ToolArtifactRegistry.Domain.Vocabulary
import ToolArtifactRegistry.Domain.Run
import ToolArtifactRegistry.Platform

/-! A name for bytes, derived from their digest. -/
namespace ToolArtifactRegistry.Domain.Content

open Library.Text

structure Algorithm where
  name : String
  aliases : List String
  bytes : Nat
  derives : Bool

def algorithms : List Algorithm :=
  [⟨"sha-256", ["sha256", "sha2256"], 32, true⟩, ⟨"sha-384", ["sha384", "sha2384"], 48, true⟩,
    ⟨"sha-512", ["sha512", "sha2512"], 64, true⟩, ⟨"sha-224", ["sha224"], 28, false⟩,
    ⟨"sha3-256", ["sha3256"], 32, false⟩, ⟨"sha3-384", ["sha3384"], 48, false⟩,
    ⟨"sha3-512", ["sha3512"], 64, false⟩, ⟨"blake2b-256", ["blake2b256"], 32, false⟩,
    ⟨"blake2b-512", ["blake2b512"], 64, false⟩, ⟨"blake3", ["blake3"], 32, false⟩,
    ⟨"sha-1", ["sha1"], 20, false⟩, ⟨"md5", ["md5"], 16, false⟩]

def normalise (algorithm : String) : String :=
  String.ofList ((toAsciiLowercase algorithm).toList.filter (fun c => c != '-' && c != '_' && c != ' '))

def algorithm (name : String) : Option Algorithm :=
  algorithms.find? (fun alg => decide (normalise alg.name = normalise name ∨ normalise name ∈ alg.aliases))

/-- The identifier of a digest, for the algorithms a name may be built from. -/
def identify (platform : Platform) (algorithmName value : String) : Option String := do
  let alg ← algorithm algorithmName
  let digest ← platform.decodeDigest value alg.bytes
  if alg.derives then some ("ni:///" ++ alg.name ++ ";" ++ digest) else none

/-- The identifier a caller asks for, by its own name or by a bare digest. -/
def parseQuery (platform : Platform) (value : String) : Option String :=
  let v := trim value
  if v = "" then none
  else
    match stripPrefix v "ni:///" with
    | some rest => (splitOnce rest ';').bind (fun parts => identify platform parts.1 parts.2)
    | none => (algorithms.filter Algorithm.derives).findSome? (fun alg => identify platform alg.name v)

end ToolArtifactRegistry.Domain.Content

/-! Artifact and Distribution projections. -/
namespace ToolArtifactRegistry.Domain.Artifact

open Library.Rdf Library.Text Ids Model Store Rdf Build

def typeDataset : String := "http://www.w3.org/ns/dcat#Dataset"
def typeEntity : String := "http://www.w3.org/ns/prov#Entity"
def typeDistribution : String := "http://www.w3.org/ns/dcat#Distribution"
def typeArtifactSeries : String := "https://w3id.org/tar/ns#ArtifactSeries"
def roleProducingSystem : String := "https://w3id.org/tar/ns#producingSystem"
def roleProducingUser : String := "https://w3id.org/tar/ns#producingUser"

section Writes

variable (platform : Platform) (base : String)

/-- One agent under each site of a list. -/
def agentList (draw : Draw) (agents : List AgentIn) : List (Option String × List Quad) :=
  agents.mapIdx (fun place agent => agentQuads platform base (draw.site place) agent)

def agentLinks (ns localName : String) (agents : List (Option String × List Quad)) : List Statement :=
  agents.flatMap (fun agent => optLink platform ns localName agent.1)

def checksumStatements (checksum : ChecksumIn) : List Statement :=
  a (Ns.spdx ++ "Checksum") ++
    link platform Ns.spdx "algorithm" (Ns.spdx ++ "checksumAlgorithm_" ++ checksum.algorithm) ++
    text Ns.spdx "checksumValue" checksum.value

def checksumNode (draw : Draw) : Node := .blank (draw.blank [])

/-- The bytes themselves, when the checksum names them. -/
def contentOf (checksum : Option ChecksumIn) : Option String :=
  checksum.bind (fun c => Content.identify platform c.algorithm c.value)

def distributionStatements (draw : Draw) (d : DistributionIn) : List Statement :=
  let availability := d.availability.getD "public"
  a typeDistribution ++
    optText Ns.dct "title" d.title ++
    optLink platform Ns.dcat "accessURL" d.accessUrl ++
    (if availability ≠ "metadata-only" then optLink platform Ns.dcat "downloadURL" d.downloadUrl else []) ++
    optText Ns.dcat "mediaType" d.mediaType ++
    optText Ns.dct "format" d.mediaType ++
    optInt Ns.dcat "byteSize" d.byteSize ++
    optLink platform Ns.dct "conformsTo" d.conformsTo ++
    optLink platform Ns.dct "license" d.license ++
    optLink platform Ns.dcat "accessService" d.accessService ++
    optText Ns.tar "accessProtocol" d.accessProtocol ++
    optText Ns.tar "authMethod" d.authMethod ++
    text Ns.tar "availability" availability ++
    optLink platform Ns.dct "accessRights" (accessRight availability) ++
    optLink platform Ns.tar "accessRequestURL" d.accessRequestUrl ++
    (if d.checksum.isSome then [(Ns.t Ns.spdx "checksum", (checksumNode draw).term)] else []) ++
    optLink platform Ns.prov "specializationOf" (contentOf platform d.checksum)

def checksumQuads (draw : Draw) : Option ChecksumIn → List Quad
  | some checksum => finish (checksumNode draw) Ns.gLocal (checksumStatements platform checksum)
  | none => []

def contentQuads (checksum : Option ChecksumIn) : List Quad :=
  match contentOf platform checksum with
  | some iri => describeLocal iri (a typeEntity)
  | none => []

def distributionQuads (iri : String) (draw : Draw) (d : DistributionIn) : List Quad :=
  describeLocal iri (distributionStatements platform draw d) ++ checksumQuads platform draw d.checksum ++
    contentQuads platform d.checksum

/-- The node of one qualified attribution: the artifact's IRI with the role's local name. -/
def attributionIri (iri role : String) : String := iri ++ "#" ++ iriTail role

def attributionStatements (agentIri role : String) : List Statement :=
  a (Ns.prov ++ "Attribution") ++ link platform Ns.prov "agent" agentIri ++ link platform Ns.prov "hadRole" role

/-- An agent in a role: what the artifact links to, and the agent with its attribution. -/
def qualified (iri role : String) (agent : Option String × List Quad) : List Statement × List Quad :=
  match agent.1 with
  | some agentIri =>
    ([(Ns.t Ns.prov "qualifiedAttribution", .named (attributionIri iri role))],
      agent.2 ++ describeLocal (attributionIri iri role) (attributionStatements platform agentIri role))
  | none => ([], [])

/-- A system acting for a person is a delegation, asserted only when both are given. -/
def delegationQuads (system user : Option String) : List Quad :=
  match system, user with
  | some system, some user => describeLocal system (link platform Ns.prov "actedOnBehalfOf" user)
  | _, _ => []

/-- The caller's series, or one minted for this artifact. -/
def seriesOf (draw : Draw) (input : ArtifactIn) : String :=
  input.isVersionOf.getD (mint base .artifactSeries (draw.site 2))

def seriesStatements (input : ArtifactIn) : List Statement :=
  a typeArtifactSeries ++ optText Ns.skos "prefLabel" input.title

def mintedDistributions (draw : Draw) (distributions : List DistributionIn) :
    List (String × Draw × DistributionIn) :=
  distributions.mapIdx (fun place d => (mint base .distribution (draw.site place), draw.site place, d))

def system (draw : Draw) (input : ArtifactIn) : Option String × List Quad :=
  optAgent platform base (draw.site 0) input.producedBy

def user (draw : Draw) (input : ArtifactIn) : Option String × List Quad :=
  optAgent platform base (draw.site 1) input.producedByUser

def artifactStatements (iri : String) (draw : Draw) (input : ArtifactIn) (actor : String)
    (runIri : Option String) : List Statement :=
  a typeDataset ++ a typeEntity ++
    optText Ns.dct "title" input.title ++
    optText Ns.dct "description" input.description ++
    optLink platform Ns.dct "conformsTo" input.conformsTo ++
    optLink platform Ns.dct "license" input.license ++
    texts Ns.dcat "keyword" (Keywords.normalise platform base input.keywords).1 ++
    links platform Ns.dcat "theme" (Keywords.normalise platform base input.keywords).2 ++
    datetime platform Ns.dct "issued" (input.issued.getD draw.now) ++
    links platform Ns.prov "wasDerivedFrom" input.wasDerivedFrom ++
    optLink platform Ns.prov "wasRevisionOf" input.wasRevisionOf ++
    optText Ns.dct "identifier" input.externalKey ++
    (qualified platform iri roleProducingSystem (system platform base draw input)).1 ++
    (qualified platform iri roleProducingUser (user platform base draw input)).1 ++
    optLink platform Ns.prov "wasGeneratedBy" runIri ++
    link platform Ns.dct "isVersionOf" (seriesOf base draw input) ++
    attributionAt platform draw actor input.modified ++
    optLink platform Ns.dct "publisher" (optAgent platform base (draw.site 3) input.publisher).1 ++
    agentLinks platform Ns.dct "creator" (agentList platform base (draw.site 4) input.creators) ++
    agentLinks platform Ns.dct "contributor" (agentList platform base (draw.site 5) input.contributors) ++
    optLink platform Ns.codemeta "maintainer" (optAgent platform base (draw.site 6) input.contact).1 ++
    optText Ns.dcat "version" input.version ++
    optLink platform Ns.dcat "landingPage" input.landingPage ++
    optLink platform Ns.foaf "page" input.documentation ++
    optLink platform Ns.dct "source" input.source ++
    texts Ns.dct "language" input.language ++
    optText Ns.dct "spatial" input.spatial ++
    optDatetime platform Ns.tar "temporalStart" input.temporalStart ++
    optDatetime platform Ns.tar "temporalEnd" input.temporalEnd ++
    (mintedDistributions base (draw.site 7) input.distributions).flatMap
      (fun entry => link platform Ns.dcat "distribution" entry.1)

def artifactQuads (iri : String) (draw : Draw) (input : ArtifactIn) (actor : String)
    (runIri : Option String) : List Quad :=
  (qualified platform iri roleProducingSystem (system platform base draw input)).2 ++
    (qualified platform iri roleProducingUser (user platform base draw input)).2 ++
    delegationQuads platform (system platform base draw input).1 (user platform base draw input).1 ++
    describeLocal (seriesOf base draw input) (seriesStatements input) ++
    (optAgent platform base (draw.site 3) input.publisher).2 ++
    (agentList platform base (draw.site 4) input.creators).flatMap Prod.snd ++
    (agentList platform base (draw.site 5) input.contributors).flatMap Prod.snd ++
    (optAgent platform base (draw.site 6) input.contact).2 ++
    (mintedDistributions base (draw.site 7) input.distributions).flatMap
      (fun entry => distributionQuads platform entry.1 entry.2.1 entry.2.2) ++
    describeLocal iri (artifactStatements platform base iri draw input actor runIri)

end Writes

section Reads

variable (ctx : Ctx)

/-- The agent behind one role's qualified attribution. -/
def attributedAgent (p : Props) (role : String) : Option AgentRef :=
  (((p.nodeKeys Ns.prov "qualifiedAttribution").filterMap (fun key => key.bind p.nestedFor)).find?
    (fun attribution => decide (attribution.iri Ns.prov "hadRole" = some role))).bind
      (fun attribution => ctx.optAgentRef (attribution.iri Ns.prov "agent"))

def contentIdentifier (d : Props) : Option String :=
  (d.iris Ns.prov "specializationOf").find? (fun iri => startsWith iri "ni:")

/-- Every leading repetition of the prefix goes. -/
def trimPrefix (pre : String) : Nat → String → String
  | 0, text => text
  | fuel + 1, text =>
    match stripPrefix text pre with
    | some rest => trimPrefix pre fuel rest
    | none => text

def checksumFrom (p d : Props) : Option ChecksumIn := do
  let key ← (d.nodeKeys Ns.spdx "checksum").head?
  let c ← p.nestedFor (← key)
  return { algorithm := ((c.iri Ns.spdx "algorithm").map (fun named =>
             trimPrefix "checksumAlgorithm_" named.length (iriTail named))).getD "sha256"
           value := (c.str Ns.spdx "checksumValue").getD "" }

def distributionFrom (p : Props) (key : Option String) : Option Distribution := do
  let iri ← key
  let d ← p.nestedFor iri
  return { iri, contentIdentifier := contentIdentifier d, title := d.str Ns.dct "title"
           accessUrl := d.iri Ns.dcat "accessURL", downloadUrl := d.iri Ns.dcat "downloadURL"
           mediaType := d.str Ns.dcat "mediaType", byteSize := d.i64 Ns.dcat "byteSize"
           checksum := checksumFrom p d, conformsTo := d.iri Ns.dct "conformsTo"
           license := d.iri Ns.dct "license", accessService := d.iri Ns.dcat "accessService"
           accessProtocol := d.str Ns.tar "accessProtocol", authMethod := d.str Ns.tar "authMethod"
           availability := (d.str Ns.tar "availability").getD "public"
           accessRequestUrl := d.iri Ns.tar "accessRequestURL" }

def availabilityRank : String → Nat
  | "public" => 0
  | "restricted" => 1
  | "embargoed" => 2
  | _ => 3

def moreOpen (best other : String) : String :=
  if availabilityRank other < availabilityRank best then other else best

/-- The most open availability of the distributions. -/
def overallAvailability (distributions : List Distribution) : String :=
  match distributions.map Distribution.availability with
  | [] => "metadata-only"
  | first :: rest => rest.foldl moreOpen first

def artifactFromProps (iri : String) (p : Props) : Artifact where
  iri := iri
  id := ((localId ctx.base iri).map Prod.snd).getD (iriTail iri)
  title := p.str Ns.dct "title"
  description := p.str Ns.dct "description"
  conformsTo := (p.iri Ns.dct "conformsTo").map ctx.typeRef
  license := p.iri Ns.dct "license"
  keywords := p.strs Ns.dcat "keyword"
  issued := p.str Ns.dct "issued"
  publisher := ctx.optAgentRef (p.iri Ns.dct "publisher")
  creators := (p.iris Ns.dct "creator").map ctx.agentRef
  contributors := (p.iris Ns.dct "contributor").map ctx.agentRef
  contact := ctx.optAgentRef ((p.iri Ns.codemeta "maintainer").or (p.iri Ns.tar "contact"))
  modified := p.str Ns.dct "modified"
  version := p.str Ns.dcat "version"
  landingPage := p.iri Ns.dcat "landingPage"
  documentation := p.iri Ns.foaf "page"
  source := p.iri Ns.dct "source"
  language := p.strs Ns.dct "language"
  spatial := p.str Ns.dct "spatial"
  temporalStart := p.str Ns.tar "temporalStart"
  temporalEnd := p.str Ns.tar "temporalEnd"
  attributedTo := p.iri Ns.prov "wasAttributedTo"
  producedBy := attributedAgent ctx p roleProducingSystem
  producedByUser := attributedAgent ctx p roleProducingUser
  distributions := (p.nodeKeys Ns.dcat "distribution").filterMap (distributionFrom p)
  availability := overallAvailability ((p.nodeKeys Ns.dcat "distribution").filterMap (distributionFrom p))
  contentIdentifiers := ((p.nodeKeys Ns.dcat "distribution").filterMap (distributionFrom p)).filterMap
    Distribution.contentIdentifier
  wasDerivedFrom := p.iris Ns.prov "wasDerivedFrom"
  wasRevisionOf := p.iri Ns.prov "wasRevisionOf"
  isVersionOf := p.iri Ns.dct "isVersionOf"
  wasGeneratedBy := p.iri Ns.prov "wasGeneratedBy"
  generatedByRun := none
  externalKey := (p.str Ns.dct "identifier").or (p.str Ns.tar "externalKey")
  origin := ctx.origin p.graph
  tombstoned := (p.bool Ns.tar "tombstoned").getD false

def loadArtifact (iri : String) : AppResult Artifact := do
  let quads ← describe ctx.platform ctx.data iri
  if quads.isEmpty then .error (AppError.notFound s!"no artifact at {iri}")
  let artifact := artifactFromProps ctx iri (Props.fromQuads iri quads)
  return { artifact with
    generatedByRun := artifact.wasGeneratedBy.bind (fun run => (Run.loadRunSummary ctx run).toOption) }

end Reads

end ToolArtifactRegistry.Domain.Artifact
