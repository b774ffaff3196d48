import ToolArtifactRegistry.Domain.Artifact
import ToolArtifactRegistry.Domain.Instance

/-! What each builder writes: the subjects its quads are about, and the vocabulary it speaks. -/
namespace ToolArtifactRegistry.Domain.Footprint

open Library.Rdf Ids Model Rdf Build

section Vocabulary

def agentVocabulary : List String :=
  [Ns.rdfType, Ns.t Ns.schema "name", Ns.t Ns.schema "identifier", Ns.t Ns.schema "email", Ns.t Ns.schema "url",
    Ns.t Ns.schema "softwareVersion"]

def stampVocabulary : List String := [Ns.t Ns.prov "wasAttributedTo", Ns.t Ns.dct "modified"]

def capabilityVocabulary : List String := [Ns.rdfType, Ns.t Ns.tar "produces", Ns.t Ns.tar "consumes"]

def apiDocVocabulary : List String :=
  [Ns.rdfType, Ns.t Ns.tar "apiFormat", Ns.t Ns.dct "conformsTo", Ns.t Ns.dct "title", Ns.t Ns.dct "description"]

def syncVocabulary : List String :=
  [Ns.rdfType, Ns.t Ns.tar "syncSource", Ns.t Ns.tar "syncRepo", Ns.t Ns.tar "syncField", Ns.t Ns.tar "syncEnabled"]

def catalogVocabulary : List String := [Ns.rdfType, Ns.t Ns.dcat "resource"]

def softwareVocabulary : List String :=
  [Ns.rdfType, Ns.t Ns.schema "name", Ns.t Ns.dct "abstract", Ns.t Ns.schema "description", Ns.t Ns.schema "url",
    Ns.t Ns.schema "codeRepository", Ns.t Ns.schema "softwareHelp", Ns.t Ns.schema "downloadUrl",
    Ns.t Ns.schema "image", Ns.t Ns.schema "screenshot", Ns.t Ns.tar "readme", Ns.t Ns.tar "readmeBaseURL",
    Ns.t Ns.dcat "endpointDescription", Ns.t Ns.dct "license", Ns.t Ns.schema "applicationCategory",
    Ns.t Ns.tar "maturity", Ns.t Ns.tar "deployable", Ns.t Ns.codemeta "developmentStatus",
    Ns.t Ns.tar "registrationClient", Ns.t Ns.tar "registrationIssuer", Ns.t Ns.dct "subject",
    Ns.t Ns.schema "keywords", Ns.t Ns.dct "references", Ns.t Ns.dct "created", Ns.t Ns.prov "wasAttributedTo",
    Ns.t Ns.dct "modified", Ns.t Ns.dct "publisher", Ns.t Ns.codemeta "maintainer", Ns.t Ns.tar "sync",
    Ns.t Ns.tar "hasCapability"]

def downloadVocabulary : List String :=
  [Ns.rdfType, Ns.t Ns.dcat "downloadURL", Ns.t Ns.dct "title", Ns.t Ns.schema "operatingSystem",
    Ns.t Ns.dcat "byteSize", Ns.t Ns.tar "availability", Ns.t Ns.dct "accessRights"]

def releaseVocabulary : List String :=
  [Ns.rdfType, Ns.t Ns.schema "softwareVersion", Ns.t Ns.schema "datePublished", Ns.t Ns.tar "containerImage",
    Ns.t Ns.tar "imageDigest", Ns.t Ns.schema "releaseNotes", Ns.t Ns.tar "installCommand",
    Ns.t Ns.dcat "distribution", Ns.t Ns.dct "isVersionOf", Ns.t Ns.prov "wasAttributedTo", Ns.t Ns.dct "modified",
    Ns.t Ns.tar "hasCapability"]

def instanceVocabulary : List String :=
  [Ns.rdfType, Ns.t Ns.rdfs "label", Ns.t Ns.dct "description", Ns.t Ns.tar "runsRelease", Ns.t Ns.tar "instanceOf",
    Ns.t Ns.dcat "endpointURL", Ns.t Ns.dcat "endpointDescription", Ns.t Ns.tar "healthEndpoint",
    Ns.t Ns.tar "selfRegisteredBy", Ns.t Ns.tar "selfRegisteredIssuer", Ns.t Ns.tar "instanceKey",
    Ns.t Ns.tar "availability", Ns.t Ns.dct "accessRights", Ns.t Ns.tar "jurisdiction", Ns.t Ns.tar "oidcClientId",
    Ns.t Ns.tar "oidcIssuer", Ns.t Ns.tar "allowedScope", Ns.t Ns.dcat "inCatalog", Ns.t Ns.prov "wasAttributedTo",
    Ns.t Ns.dct "modified", Ns.t Ns.dct "publisher", Ns.t Ns.tar "hasCapability"]

def runVocabulary : List String :=
  [Ns.rdfType, Ns.t Ns.rdfs "label", Ns.t Ns.prov "startedAtTime", Ns.t Ns.prov "endedAtTime", Ns.t Ns.tar "status",
    Ns.t Ns.schema "actionStatus", Ns.t Ns.dct "identifier", Ns.t Ns.prov "wasAssociatedWith",
    Ns.t Ns.tar "usedRelease", Ns.t Ns.prov "qualifiedAssociation", Ns.t Ns.prov "wasAttributedTo",
    Ns.t Ns.dct "modified"]

def associationVocabulary : List String := [Ns.rdfType, Ns.t Ns.prov "agent", Ns.t Ns.prov "hadPlan"]

def attributionVocabulary : List String := [Ns.rdfType, Ns.t Ns.prov "agent", Ns.t Ns.prov "hadRole"]

def seriesVocabulary : List String := [Ns.rdfType, Ns.t Ns.skos "prefLabel"]

def checksumVocabulary : List String := [Ns.rdfType, Ns.t Ns.spdx "algorithm", Ns.t Ns.spdx "checksumValue"]

def distributionVocabulary : List String :=
  [Ns.rdfType, Ns.t Ns.dct "title", Ns.t Ns.dcat "accessURL", Ns.t Ns.dcat "downloadURL", Ns.t Ns.dcat "mediaType",
    Ns.t Ns.dct "format", Ns.t Ns.dcat "byteSize", Ns.t Ns.dct "conformsTo", Ns.t Ns.dct "license",
    Ns.t Ns.dcat "accessService", Ns.t Ns.tar "accessProtocol", Ns.t Ns.tar "authMethod", Ns.t Ns.tar "availability",
    Ns.t Ns.dct "accessRights", Ns.t Ns.tar "accessRequestURL", Ns.t Ns.spdx "checksum",
    Ns.t Ns.prov "specializationOf"]

def artifactVocabulary : List String :=
  [Ns.rdfType, Ns.t Ns.dct "title", Ns.t Ns.dct "description", Ns.t Ns.dct "conformsTo", Ns.t Ns.dct "license",
    Ns.t Ns.dcat "keyword", Ns.t Ns.dcat "theme", Ns.t Ns.dct "issued", Ns.t Ns.prov "wasDerivedFrom",
    Ns.t Ns.prov "wasRevisionOf", Ns.t Ns.dct "identifier", Ns.t Ns.prov "qualifiedAttribution",
    Ns.t Ns.prov "wasGeneratedBy", Ns.t Ns.dct "isVersionOf", Ns.t Ns.prov "wasAttributedTo", Ns.t Ns.dct "modified",
    Ns.t Ns.dct "publisher", Ns.t Ns.dct "creator", Ns.t Ns.dct "contributor", Ns.t Ns.codemeta "maintainer",
    Ns.t Ns.dcat "version", Ns.t Ns.dcat "landingPage", Ns.t Ns.foaf "page", Ns.t Ns.dct "source",
    Ns.t Ns.dct "language", Ns.t Ns.dct "spatial", Ns.t Ns.tar "temporalStart", Ns.t Ns.tar "temporalEnd",
    Ns.t Ns.dcat "distribution"]

end Vocabulary

section Speaks

variable (platform : Platform) (base : String)

theorem agent_speaks (agent : AgentIn) : Speaks agentVocabulary (agentBody platform agent) := by
  have types : Speaks agentVocabulary (agentTypes agent.kind) := by
    unfold agentTypes
    split
    · exact speaks_a _ (by simp [agentVocabulary])
    · exact speaks_a _ (by simp [agentVocabulary])
    · exact speaks_append.2 ⟨speaks_a _ (by simp [agentVocabulary]), speaks_a _ (by simp [agentVocabulary])⟩
    · exact speaks_a _ (by simp [agentVocabulary])
  unfold agentBody
  simp only [speaks_append]
  and_intros
  all_goals with_reducible first
    | exact types
    | exact speaks_a _ (by simp [agentVocabulary])
    | exact speaks_optText _ (by simp [agentVocabulary])
    | exact speaks_optLink _ _ (by simp [agentVocabulary])

theorem stamp_speaks (draw : Draw) (actor : String) (modified : Option String) :
    Speaks stampVocabulary (attributionAt platform draw actor modified) := by
  unfold attributionAt
  exact speaks_append.2 ⟨speaks_link _ _ (by simp [stampVocabulary]), speaks_datetime _ _ (by simp [stampVocabulary])⟩

theorem capability_speaks (cap : CapabilityIn) :
    Speaks capabilityVocabulary (Software.capabilityStatements platform cap) := by
  unfold Software.capabilityStatements
  simp only [speaks_append]
  and_intros
  all_goals with_reducible first
    | exact speaks_a _ (by simp [capabilityVocabulary])
    | exact speaks_links _ _ (by simp [capabilityVocabulary])

theorem mintedCapability_speaks (draw : Draw) (cap : Option CapabilityIn) :
    Speaks [Ns.t Ns.tar "hasCapability"] (Software.mintedCapability platform base draw cap).1 := by
  cases cap with
  | none => exact speaks_nil _
  | some cap =>
    simp only [Software.mintedCapability]
    exact speaks_link _ _ (by simp)

theorem apiDoc_speaks (doc : ApiDoc) : Speaks apiDocVocabulary (Software.apiDocStatements platform doc) := by
  unfold Software.apiDocStatements
  simp only [speaks_append]
  and_intros
  all_goals with_reducible first
    | exact speaks_a _ (by simp [apiDocVocabulary])
    | exact speaks_text _ (by simp [apiDocVocabulary])
    | exact speaks_optLink _ _ (by simp [apiDocVocabulary])
    | exact speaks_optText _ (by simp [apiDocVocabulary])

theorem sync_speaks (sync : SyncIn) : Speaks syncVocabulary (Software.syncStatements sync) := by
  unfold Software.syncStatements
  simp only [speaks_append]
  and_intros
  all_goals with_reducible first
    | exact speaks_a _ (by simp [syncVocabulary])
    | exact speaks_text _ (by simp [syncVocabulary])
    | exact speaks_texts _ (by simp [syncVocabulary])
    | exact speaks_boolean _ (by simp [syncVocabulary])

theorem software_speaks (iri : String) (draw : Draw) (input : SoftwareIn) (actor : String) (created : Option String) :
    Speaks softwareVocabulary (Software.softwareStatements platform base iri draw input actor created) := by
  have docs : Speaks softwareVocabulary (Software.apiDocLinks input.apiDocs) := by
    intro statement mem
    obtain ⟨doc, _, rfl⟩ := List.mem_map.1 mem
    simp [softwareVocabulary]
  have deployable : Speaks softwareVocabulary (Software.deployableStatements input.deployable) := by
    unfold Software.deployableStatements
    split
    · exact speaks_boolean _ (by simp [softwareVocabulary])
    · exact speaks_nil _
  have registration : Speaks softwareVocabulary
      (Software.registrationStatements input.registrationClients input.registrationIssuer) := by
    unfold Software.registrationStatements
    refine speaks_append.2 ⟨speaks_texts _ (by simp [softwareVocabulary]), ?_⟩
    split
    · exact speaks_nil _
    · exact speaks_optText _ (by simp [softwareVocabulary])
  have sync : Speaks softwareVocabulary (Software.syncLink iri input.sync) := by
    cases input.sync with
    | none => exact speaks_nil _
    | some sync => exact speaks_cons.2 ⟨by simp [softwareVocabulary], speaks_nil _⟩
  have stamp : Speaks softwareVocabulary (attribution platform draw actor) :=
    (stamp_speaks platform draw actor none).mono (by simp [stampVocabulary, softwareVocabulary])
  have capability : Speaks softwareVocabulary
      (Software.mintedCapability platform base (draw.site 2) input.capability).1 :=
    (mintedCapability_speaks platform base _ _).mono (by simp [softwareVocabulary])
  unfold Software.softwareStatements
  simp only [speaks_append]
  and_intros
  all_goals with_reducible first
    | exact docs
    | exact deployable
    | exact registration
    | exact sync
    | exact stamp
    | exact capability
    | exact speaks_a _ (by simp [softwareVocabulary])
    | exact speaks_text _ (by simp [softwareVocabulary])
    | exact speaks_optText _ (by simp [softwareVocabulary])
    | exact speaks_texts _ (by simp [softwareVocabulary])
    | exact speaks_optLink _ _ (by simp [softwareVocabulary])
    | exact speaks_links _ _ (by simp [softwareVocabulary])
    | exact speaks_datetime _ _ (by simp [softwareVocabulary])

theorem download_speaks (download : DownloadIn) :
    Speaks downloadVocabulary (Software.downloadStatements platform download) := by
  unfold Software.downloadStatements
  simp only [speaks_append]
  and_intros
  all_goals with_reducible first
    | exact speaks_a _ (by simp [downloadVocabulary])
    | exact speaks_link _ _ (by simp [downloadVocabulary])
    | exact speaks_optText _ (by simp [downloadVocabulary])
    | exact speaks_optInt _ (by simp [downloadVocabulary])
    | exact speaks_text _ (by simp [downloadVocabulary])
    | exact speaks_optLink _ _ (by simp [downloadVocabulary])

theorem release_speaks (softwareIri : String) (draw : Draw) (input : ReleaseIn) (actor : String) :
    Speaks releaseVocabulary (Software.releaseStatements platform base softwareIri draw input actor) := by
  have distributions : Speaks releaseVocabulary ((Software.mintedDownloads base (draw.site 0) input.downloads).map
      (fun entry => (Ns.t Ns.dcat "distribution", Term.named entry.1))) := by
    intro statement mem
    obtain ⟨entry, _, rfl⟩ := List.mem_map.1 mem
    simp [releaseVocabulary]
  have stamp : Speaks releaseVocabulary (attribution platform draw actor) :=
    (stamp_speaks platform draw actor none).mono (by simp [stampVocabulary, releaseVocabulary])
  have capability : Speaks releaseVocabulary
      (Software.mintedCapability platform base (draw.site 1) input.capability).1 :=
    (mintedCapability_speaks platform base _ _).mono (by simp [releaseVocabulary])
  unfold Software.releaseStatements
  simp only [speaks_append]
  and_intros
  all_goals with_reducible first
    | exact distributions
    | exact stamp
    | exact capability
    | exact speaks_a _ (by simp [releaseVocabulary])
    | exact speaks_text _ (by simp [releaseVocabulary])
    | exact speaks_optText _ (by simp [releaseVocabulary])
    | exact speaks_link _ _ (by simp [releaseVocabulary])
    | exact speaks_optLink _ _ (by simp [releaseVocabulary])
    | exact speaks_optDatetime _ _ (by simp [releaseVocabulary])

theorem catalog_speaks (iri : String) : Speaks catalogVocabulary (Instance.catalogStatements platform iri) := by
  unfold Instance.catalogStatements
  exact speaks_append.2 ⟨speaks_a _ (by simp [catalogVocabulary]), speaks_link _ _ (by simp [catalogVocabulary])⟩

theorem instance_speaks (draw : Draw) (input : InstanceIn) (actor : String) (software : Option String) :
    Speaks instanceVocabulary (Instance.instanceStatements platform base draw input actor software) := by
  have service : Speaks instanceVocabulary (Instance.serviceType input.endpointUrl) := by
    unfold Instance.serviceType
    split
    · exact speaks_a _ (by simp [instanceVocabulary])
    · exact speaks_nil _
  have registered : Speaks instanceVocabulary (Instance.selfRegisteredStatements input) := by
    unfold Instance.selfRegisteredStatements
    refine speaks_append.2 ⟨speaks_optText _ (by simp [instanceVocabulary]), ?_⟩
    split
    · exact speaks_optText _ (by simp [instanceVocabulary])
    · exact speaks_nil _
  have stamp : Speaks instanceVocabulary (attribution platform draw actor) :=
    (stamp_speaks platform draw actor none).mono (by simp [stampVocabulary, instanceVocabulary])
  have capability : Speaks instanceVocabulary
      (Software.mintedCapability platform base (draw.site 1) input.capability).1 :=
    (mintedCapability_speaks platform base _ _).mono (by simp [instanceVocabulary])
  unfold Instance.instanceStatements
  simp only [speaks_append]
  and_intros
  all_goals with_reducible first
    | exact service
    | exact registered
    | exact stamp
    | exact capability
    | exact speaks_a _ (by simp [instanceVocabulary])
    | exact speaks_text _ (by simp [instanceVocabulary])
    | exact speaks_optText _ (by simp [instanceVocabulary])
    | exact speaks_texts _ (by simp [instanceVocabulary])
    | exact speaks_link _ _ (by simp [instanceVocabulary])
    | exact speaks_optLink _ _ (by simp [instanceVocabulary])

theorem run_speaks (draw : Draw) (input : RunIn) (instanceIri actor : String) :
    Speaks runVocabulary (Run.runStatements platform draw input instanceIri actor) := by
  have association : Speaks runVocabulary
      [(Ns.t Ns.prov "qualifiedAssociation", (Run.associationNode draw).term)] :=
    speaks_cons.2 ⟨by simp [runVocabulary], speaks_nil _⟩
  have stamp : Speaks runVocabulary (attribution platform draw actor) :=
    (stamp_speaks platform draw actor none).mono (by simp [stampVocabulary, runVocabulary])
  unfold Run.runStatements
  simp only [speaks_append]
  and_intros
  all_goals with_reducible first
    | exact association
    | exact stamp
    | exact speaks_a _ (by simp [runVocabulary])
    | exact speaks_text _ (by simp [runVocabulary])
    | exact speaks_optText _ (by simp [runVocabulary])
    | exact speaks_link _ _ (by simp [runVocabulary])
    | exact speaks_optLink _ _ (by simp [runVocabulary])
    | exact speaks_datetime _ _ (by simp [runVocabulary])
    | exact speaks_optDatetime _ _ (by simp [runVocabulary])

theorem association_speaks (input : RunIn) (instanceIri : String) :
    Speaks associationVocabulary (Run.associationStatements platform input instanceIri) := by
  unfold Run.associationStatements
  simp only [speaks_append]
  and_intros
  all_goals with_reducible first
    | exact speaks_a _ (by simp [associationVocabulary])
    | exact speaks_link _ _ (by simp [associationVocabulary])
    | exact speaks_optLink _ _ (by simp [associationVocabulary])

theorem qualified_speaks (agentIri role : String) :
    Speaks attributionVocabulary (Artifact.attributionStatements platform agentIri role) := by
  unfold Artifact.attributionStatements
  simp only [speaks_append]
  and_intros
  all_goals with_reducible first
    | exact speaks_a _ (by simp [attributionVocabulary])
    | exact speaks_link _ _ (by simp [attributionVocabulary])

theorem series_speaks (input : ArtifactIn) : Speaks seriesVocabulary (Artifact.seriesStatements input) := by
  unfold Artifact.seriesStatements
  exact speaks_append.2 ⟨speaks_a _ (by simp [seriesVocabulary]), speaks_optText _ (by simp [seriesVocabulary])⟩

theorem checksum_speaks (checksum : ChecksumIn) :
    Speaks checksumVocabulary (Artifact.checksumStatements platform checksum) := by
  unfold Artifact.checksumStatements
  simp only [speaks_append]
  and_intros
  all_goals with_reducible first
    | exact speaks_a _ (by simp [checksumVocabulary])
    | exact speaks_link _ _ (by simp [checksumVocabulary])
    | exact speaks_text _ (by simp [checksumVocabulary])

theorem distribution_speaks (draw : Draw) (d : DistributionIn) :
    Speaks distributionVocabulary (Artifact.distributionStatements platform draw d) := by
  have download : Speaks distributionVocabulary (if d.availability.getD "public" ≠ "metadata-only" then
      optLink platform Ns.dcat "downloadURL" d.downloadUrl else []) := by
    split
    · exact speaks_optLink _ _ (by simp [distributionVocabulary])
    · exact speaks_nil _
  have checksum : Speaks distributionVocabulary (if d.checksum.isSome then
      [(Ns.t Ns.spdx "checksum", (Artifact.checksumNode draw).term)] else []) := by
    split
    · exact speaks_cons.2 ⟨by simp [distributionVocabulary], speaks_nil _⟩
    · exact speaks_nil _
  unfold Artifact.distributionStatements
  simp only [speaks_append]
  and_intros
  all_goals with_reducible first
    | exact download
    | exact checksum
    | exact speaks_a _ (by simp [distributionVocabulary])
    | exact speaks_text _ (by simp [distributionVocabulary])
    | exact speaks_optText _ (by simp [distributionVocabulary])
    | exact speaks_optInt _ (by simp [distributionVocabulary])
    | exact speaks_optLink _ _ (by simp [distributionVocabulary])

theorem qualifiedLink_speaks (iri role : String) (agent : Option String × List Quad) :
    Speaks [Ns.t Ns.prov "qualifiedAttribution"] (Artifact.qualified platform iri role agent).1 := by
  unfold Artifact.qualified
  split
  · exact speaks_cons.2 ⟨by simp, speaks_nil _⟩
  · exact speaks_nil _

theorem agentLinks_speaks (ns localName : String) (agents : List (Option String × List Quad)) :
    Speaks [Ns.t ns localName] (Artifact.agentLinks platform ns localName agents) :=
  speaks_flatMap (fun _ _ => speaks_optLink _ _ (by simp))

theorem artifact_speaks (iri : String) (draw : Draw) (input : ArtifactIn) (actor : String) (runIri : Option String) :
    Speaks artifactVocabulary (Artifact.artifactStatements platform base iri draw input actor runIri) := by
  have system : Speaks artifactVocabulary (Artifact.qualified platform iri Artifact.roleProducingSystem
      (Artifact.system platform base draw input)).1 :=
    (qualifiedLink_speaks platform iri _ _).mono (by simp [artifactVocabulary])
  have user : Speaks artifactVocabulary (Artifact.qualified platform iri Artifact.roleProducingUser
      (Artifact.user platform base draw input)).1 :=
    (qualifiedLink_speaks platform iri _ _).mono (by simp [artifactVocabulary])
  have stamp : Speaks artifactVocabulary (attributionAt platform draw actor input.modified) :=
    (stamp_speaks platform draw actor input.modified).mono (by simp [stampVocabulary, artifactVocabulary])
  have creators : Speaks artifactVocabulary (Artifact.agentLinks platform Ns.dct "creator"
      (Artifact.agentList platform base (draw.site 4) input.creators)) :=
    (agentLinks_speaks platform _ _ _).mono (by simp [artifactVocabulary])
  have contributors : Speaks artifactVocabulary (Artifact.agentLinks platform Ns.dct "contributor"
      (Artifact.agentList platform base (draw.site 5) input.contributors)) :=
    (agentLinks_speaks platform _ _ _).mono (by simp [artifactVocabulary])
  have distributions : Speaks artifactVocabulary
      ((Artifact.mintedDistributions base (draw.site 7) input.distributions).flatMap
        (fun entry => link platform Ns.dcat "distribution" entry.1)) :=
    speaks_flatMap (fun _ _ => speaks_link _ _ (by simp [artifactVocabulary]))
  unfold Artifact.artifactStatements
  simp only [speaks_append]
  and_intros
  all_goals with_reducible first
    | exact system
    | exact user
    | exact stamp
    | exact creators
    | exact contributors
    | exact distributions
    | exact speaks_a _ (by simp [artifactVocabulary])
    | exact speaks_text _ (by simp [artifactVocabulary])
    | exact speaks_optText _ (by simp [artifactVocabulary])
    | exact speaks_texts _ (by simp [artifactVocabulary])
    | exact speaks_link _ _ (by simp [artifactVocabulary])
    | exact speaks_optLink _ _ (by simp [artifactVocabulary])
    | exact speaks_links _ _ (by simp [artifactVocabulary])
    | exact speaks_datetime _ _ (by simp [artifactVocabulary])
    | exact speaks_optDatetime _ _ (by simp [artifactVocabulary])

end Speaks

section Subjects

variable (base : String)

/-- The node an inline agent is described under. -/
def agentNodes (draw : Draw) : Option AgentIn → List Node
  | some agent =>
    match agentSubject base draw agent with
    | some (iri, true) => [.named iri]
    | _ => []
  | none => []

def capabilityNodes (draw : Draw) : Option CapabilityIn → List Node
  | some _ => [.named (mint base .capability draw)]
  | none => []

def apiDocNodes (docs : List ApiDoc) : List Node :=
  (Software.liveDocs docs).map (fun doc => .named (Library.Text.trim doc.url))

def syncNodes (iri : String) : Option SyncIn → List Node
  | some _ => [.named (Software.syncIri iri)]
  | none => []

/-- The nodes a software record is written with, beside its own. -/
def softwareNodes (iri : String) (draw : Draw) (input : SoftwareIn) : List Node :=
  agentNodes base (draw.site 0) input.publisher ++ agentNodes base (draw.site 1) input.contact ++
    capabilityNodes base (draw.site 2) input.capability ++ apiDocNodes input.apiDocs ++ syncNodes iri input.sync

def releaseNodes (draw : Draw) (input : ReleaseIn) : List Node :=
  capabilityNodes base (draw.site 1) input.capability ++
    (Software.mintedDownloads base (draw.site 0) input.downloads).map (fun entry => .named entry.1)

def instanceNodes (draw : Draw) (input : InstanceIn) : List Node :=
  .named base :: agentNodes base (draw.site 0) input.operator ++ capabilityNodes base (draw.site 1) input.capability

/-- The attribution of an agent in a role, and the agent itself. -/
def qualifiedNodes (iri role : String) (draw : Draw) (agent : Option AgentIn) : List Node :=
  agentNodes base draw agent ++ [.named (Artifact.attributionIri iri role)]

/-- The agent a delegation is asserted of. -/
def delegationNodes (system user : Option String) : List Node :=
  match system, user with
  | some system, some _ => [.named system]
  | _, _ => []

def agentListNodes (draw : Draw) (agents : List AgentIn) : List Node :=
  (agents.mapIdx (fun place agent => agentNodes base (draw.site place) (some agent))).flatten

def contentNodes (platform : Platform) (checksum : Option ChecksumIn) : List Node :=
  ((Artifact.contentOf platform checksum).map Node.named).toList

def distributionNodes (platform : Platform) (draw : Draw) (distributions : List DistributionIn) : List Node :=
  (Artifact.mintedDistributions base draw distributions).flatMap (fun entry =>
    .named entry.1 :: Artifact.checksumNode entry.2.1 :: contentNodes platform entry.2.2.checksum)

/-- The nodes an artifact is written with, beside its own. -/
def artifactNodes (platform : Platform) (iri : String) (draw : Draw) (input : ArtifactIn) : List Node :=
  qualifiedNodes base iri Artifact.roleProducingSystem (draw.site 0) input.producedBy ++
    qualifiedNodes base iri Artifact.roleProducingUser (draw.site 1) input.producedByUser ++
    delegationNodes (Artifact.system platform base draw input).1 (Artifact.user platform base draw input).1 ++
    [.named (Artifact.seriesOf base draw input)] ++
    agentNodes base (draw.site 3) input.publisher ++
    agentListNodes base (draw.site 4) input.creators ++
    agentListNodes base (draw.site 5) input.contributors ++
    agentNodes base (draw.site 6) input.contact ++
    distributionNodes base platform (draw.site 7) input.distributions

end Subjects

/-- The vocabulary of everything a record is written with, beside the record's own. -/
def supportVocabulary : List String :=
  agentVocabulary ++ capabilityVocabulary ++ apiDocVocabulary ++ syncVocabulary ++ catalogVocabulary ++
    downloadVocabulary ++ associationVocabulary ++ attributionVocabulary ++ seriesVocabulary ++
    checksumVocabulary ++ distributionVocabulary ++ [Ns.t Ns.prov "actedOnBehalfOf"]

/-- A quad about one of these nodes, in the local graph and in the support vocabulary. -/
structure Supports (nodes : List Node) (quad : Quad) : Prop where
  graph : quad.graph = Ns.gLocal
  subject : quad.subject ∈ nodes
  predicate : quad.predicate ∈ supportVocabulary

namespace Supports

theorem mono {small large : List Node} {quad : Quad} (supports : Supports small quad)
    (within : ∀ node ∈ small, node ∈ large) : Supports large quad :=
  ⟨supports.graph, within _ supports.subject, supports.predicate⟩

/-- A description in the support vocabulary. -/
theorem of_local {iri : String} {vocabulary : List String} {statements : List Statement} {nodes : List Node} {quad : Quad}
    (mem : quad ∈ describeLocal iri statements) (speaks : Speaks vocabulary statements)
    (within : ∀ predicate ∈ vocabulary, predicate ∈ supportVocabulary) (named : .named iri ∈ nodes) :
    Supports nodes quad := by
  obtain ⟨subject, graph, said⟩ := mem_finish.1 mem
  exact ⟨graph, subject ▸ named, within _ (speaks _ said)⟩

end Supports

/-- What a record's own node is said to be, or something it is written with. -/
def Written (iri : String) (statements : List Statement) (nodes : List Node) (quad : Quad) : Prop :=
  quad ∈ describeLocal iri statements ∨ Supports nodes quad

section Written

variable (platform : Platform) (base : String)

theorem agent_supports : ∀ predicate ∈ agentVocabulary, predicate ∈ supportVocabulary := by
  intro predicate mem
  simp [supportVocabulary, mem]

theorem capability_supports : ∀ predicate ∈ capabilityVocabulary, predicate ∈ supportVocabulary := by
  intro predicate mem
  simp [supportVocabulary, mem]

theorem mem_agentQuads {draw : Draw} {agent : AgentIn} {quad : Quad}
    (mem : quad ∈ (agentQuads platform base draw agent).2) : Supports (agentNodes base draw (some agent)) quad := by
  simp only [agentQuads] at mem
  split at mem
  · simp at mem
  · rename_i iri chosen
    exact Supports.of_local mem (agent_speaks platform agent) agent_supports (by simp [agentNodes, chosen])
  · simp at mem

theorem mem_optAgent {draw : Draw} {agent : Option AgentIn} {quad : Quad}
    (mem : quad ∈ (optAgent platform base draw agent).2) : Supports (agentNodes base draw agent) quad := by
  cases agent with
  | none => simp [optAgent] at mem
  | some agent => exact mem_agentQuads platform base mem

theorem mem_mintedCapability {draw : Draw} {cap : Option CapabilityIn} {quad : Quad}
    (mem : quad ∈ (Software.mintedCapability platform base draw cap).2) :
    Supports (capabilityNodes base draw cap) quad := by
  cases cap with
  | none => simp [Software.mintedCapability] at mem
  | some cap =>
    exact Supports.of_local mem (capability_speaks platform cap) capability_supports (by simp [capabilityNodes])

theorem mem_apiDocQuads {docs : List ApiDoc} {quad : Quad} (mem : quad ∈ Software.apiDocQuads platform docs) :
    Supports (apiDocNodes docs) quad := by
  obtain ⟨doc, live, inDoc⟩ := List.mem_flatMap.1 mem
  refine Supports.of_local inDoc (apiDoc_speaks platform doc) ?_ (List.mem_map.2 ⟨doc, live, rfl⟩)
  intro predicate known
  simp [supportVocabulary, known]

theorem mem_syncQuads {iri : String} {sync : Option SyncIn} {quad : Quad} (mem : quad ∈ Software.syncQuads iri sync) :
    Supports (syncNodes iri sync) quad := by
  cases sync with
  | none => simp [Software.syncQuads] at mem
  | some sync =>
    refine Supports.of_local mem (sync_speaks sync) ?_ (by simp [syncNodes])
    intro predicate known
    simp [supportVocabulary, known]

theorem mem_softwareQuads {iri : String} {draw : Draw} {input : SoftwareIn} {actor : String} {created : Option String}
    {quad : Quad} (mem : quad ∈ Software.softwareQuads platform base iri draw input actor created) :
    Written iri (Software.softwareStatements platform base iri draw input actor created)
      (softwareNodes base iri draw input) quad := by
  unfold Software.softwareQuads at mem
  simp only [List.mem_append] at mem
  rcases mem with ((((publisher | contact) | capability) | own) | docs) | sync
  · exact Or.inr ((mem_optAgent platform base publisher).mono (by simp +contextual [softwareNodes]))
  · exact Or.inr ((mem_optAgent platform base contact).mono (by simp +contextual [softwareNodes]))
  · exact Or.inr ((mem_mintedCapability platform base capability).mono (by simp +contextual [softwareNodes]))
  · exact Or.inl own
  · exact Or.inr ((mem_apiDocQuads platform docs).mono (by simp +contextual [softwareNodes]))
  · exact Or.inr ((mem_syncQuads sync).mono (by simp +contextual [softwareNodes]))

theorem mem_releaseQuads {iri softwareIri : String} {draw : Draw} {input : ReleaseIn} {actor : String} {quad : Quad}
    (mem : quad ∈ Software.releaseQuads platform base iri softwareIri draw input actor) :
    Written iri (Software.releaseStatements platform base softwareIri draw input actor)
      (releaseNodes base draw input) quad := by
  unfold Software.releaseQuads at mem
  simp only [List.mem_append] at mem
  rcases mem with (capability | own) | download
  · exact Or.inr ((mem_mintedCapability platform base capability).mono (by simp +contextual [releaseNodes]))
  · exact Or.inl own
  · obtain ⟨entry, minted, inDownload⟩ := List.mem_flatMap.1 download
    refine Or.inr (Supports.of_local inDownload (download_speaks platform entry.2) ?_ ?_)
    · intro predicate known
      simp [supportVocabulary, known]
    · exact List.mem_append_right _ (List.mem_map.2 ⟨entry, minted, rfl⟩)

theorem mem_instanceQuads {iri : String} {draw : Draw} {input : InstanceIn} {actor : String} {software : Option String}
    {quad : Quad} (mem : quad ∈ Instance.instanceQuads platform base iri draw input actor software) :
    Written iri (Instance.instanceStatements platform base draw input actor software)
      (instanceNodes base draw input) quad := by
  unfold Instance.instanceQuads at mem
  simp only [List.mem_append] at mem
  rcases mem with ((catalog | operator) | capability) | own
  · refine Or.inr (Supports.of_local catalog (catalog_speaks platform iri) ?_ (by simp [instanceNodes]))
    intro predicate known
    simp [supportVocabulary, known]
  · exact Or.inr ((mem_optAgent platform base operator).mono (by simp +contextual [instanceNodes]))
  · exact Or.inr ((mem_mintedCapability platform base capability).mono (by simp +contextual [instanceNodes]))
  · exact Or.inl own

theorem mem_runQuads {iri : String} {draw : Draw} {input : RunIn} {instanceIri actor : String} {quad : Quad}
    (mem : quad ∈ Run.runQuads platform iri draw input instanceIri actor) :
    Written iri (Run.runStatements platform draw input instanceIri actor) [Run.associationNode draw] quad := by
  rcases List.mem_append.1 mem with own | association
  · exact Or.inl own
  · obtain ⟨subject, graph, said⟩ := mem_finish.1 association
    refine Or.inr ⟨graph, by simp [subject], ?_⟩
    have known := association_speaks platform input instanceIri _ said
    simp [supportVocabulary, known]

theorem mem_qualified {iri role : String} {draw : Draw} {agent : Option AgentIn} {quad : Quad}
    (mem : quad ∈ (Artifact.qualified platform iri role (optAgent platform base draw agent)).2) :
    Supports (qualifiedNodes base iri role draw agent) quad := by
  unfold Artifact.qualified at mem
  split at mem
  · rename_i agentIri _
    rcases List.mem_append.1 mem with own | attributed
    · exact (mem_optAgent platform base own).mono (by simp +contextual [qualifiedNodes])
    · refine Supports.of_local attributed (qualified_speaks platform agentIri role) ?_ (by simp [qualifiedNodes])
      intro predicate known
      simp [supportVocabulary, known]
  · simp at mem

theorem mem_delegationQuads {system user : Option String} {quad : Quad}
    (mem : quad ∈ Artifact.delegationQuads platform system user) : Supports (delegationNodes system user) quad := by
  unfold Artifact.delegationQuads at mem
  split at mem
  · refine Supports.of_local mem (speaks_link platform _ (List.mem_singleton.2 rfl)) ?_ (by simp [delegationNodes])
    intro predicate known
    simp only [supportVocabulary, List.mem_append]
    exact Or.inr known
  · simp at mem

theorem mem_agentList {draw : Draw} {agents : List AgentIn} {quad : Quad}
    (mem : quad ∈ (Artifact.agentList platform base draw agents).flatMap Prod.snd) :
    Supports (agentListNodes base draw agents) quad := by
  obtain ⟨written, inList, inAgent⟩ := List.mem_flatMap.1 mem
  obtain ⟨place, bound, rfl⟩ := List.mem_mapIdx.1 inList
  refine (mem_agentQuads platform base inAgent).mono ?_
  intro node named
  exact List.mem_flatten.2 ⟨_, List.mem_mapIdx.2 ⟨place, bound, rfl⟩, named⟩

theorem mem_distributionQuads {iri : String} {draw : Draw} {d : DistributionIn} {quad : Quad}
    (mem : quad ∈ Artifact.distributionQuads platform iri draw d) :
    Supports (.named iri :: Artifact.checksumNode draw :: contentNodes platform d.checksum) quad := by
  unfold Artifact.distributionQuads at mem
  simp only [List.mem_append] at mem
  rcases mem with (own | checksum) | content
  · refine Supports.of_local own (distribution_speaks platform draw d) ?_ (by simp)
    intro predicate known
    simp [supportVocabulary, known]
  · unfold Artifact.checksumQuads at checksum
    split at checksum
    · rename_i given _
      obtain ⟨subject, graph, said⟩ := mem_finish.1 checksum
      refine ⟨graph, by simp [subject], ?_⟩
      have known := checksum_speaks platform given _ said
      simp [supportVocabulary, known]
    · simp at checksum
  · unfold Artifact.contentQuads at content
    split at content
    · rename_i contentIri held
      refine Supports.of_local content (speaks_a _ (List.mem_singleton.2 rfl)) ?_ (by simp [contentNodes, held])
      intro predicate known
      simp only [List.mem_singleton] at known
      simp [supportVocabulary, agentVocabulary, known]
    · simp at content

theorem mem_artifactQuads {iri : String} {draw : Draw} {input : ArtifactIn} {actor : String} {runIri : Option String}
    {quad : Quad} (mem : quad ∈ Artifact.artifactQuads platform base iri draw input actor runIri) :
    Written iri (Artifact.artifactStatements platform base iri draw input actor runIri)
      (artifactNodes base platform iri draw input) quad := by
  unfold Artifact.artifactQuads at mem
  simp only [List.mem_append] at mem
  rcases mem with ((((((((system | user) | delegation) | series) | publisher) | creators) | contributors) | contact) |
    distributions) | own
  · exact Or.inr ((mem_qualified platform base system).mono (by simp +contextual [artifactNodes]))
  · exact Or.inr ((mem_qualified platform base user).mono (by simp +contextual [artifactNodes]))
  · exact Or.inr ((mem_delegationQuads platform delegation).mono (by simp +contextual [artifactNodes]))
  · refine Or.inr (Supports.of_local series (series_speaks input) ?_ (by simp [artifactNodes]))
    intro predicate known
    simp [supportVocabulary, known]
  · exact Or.inr ((mem_optAgent platform base publisher).mono (by simp +contextual [artifactNodes]))
  · exact Or.inr ((mem_agentList platform base creators).mono (by simp +contextual [artifactNodes]))
  · exact Or.inr ((mem_agentList platform base contributors).mono (by simp +contextual [artifactNodes]))
  · exact Or.inr ((mem_optAgent platform base contact).mono (by simp +contextual [artifactNodes]))
  · obtain ⟨entry, minted, inEntry⟩ := List.mem_flatMap.1 distributions
    refine Or.inr ((mem_distributionQuads platform inEntry).mono ?_)
    intro node named
    have inside : node ∈ distributionNodes base platform (draw.site 7) input.distributions :=
      List.mem_flatMap.2 ⟨entry, minted, named⟩
    simp [artifactNodes, inside]
  · exact Or.inl own

end Written

end ToolArtifactRegistry.Domain.Footprint
