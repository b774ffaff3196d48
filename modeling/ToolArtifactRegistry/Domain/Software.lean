import Mathlib.Data.List.Sort
import ToolArtifactRegistry.Domain.Context

/-! Software, Release and Capability projections: what a write says, and what a record reads as. -/
namespace ToolArtifactRegistry.Domain.Software

open Library.Rdf Library.Text Ids Model Store Rdf Build

def typeSoftware : String := "https://schema.org/SoftwareApplication"
def typeTarSoftware : String := "https://w3id.org/tar/ns#Software"
def typeTarRelease : String := "https://w3id.org/tar/ns#Release"
def typeSource : String := "https://schema.org/SoftwareSourceCode"
def typeReleasePlan : String := "http://www.w3.org/ns/prov#Plan"
def typeCapability : String := "https://w3id.org/tar/ns#Capability"
def typeDistribution : String := "http://www.w3.org/ns/dcat#Distribution"

/-- The repostatus.org concept a maturity names, if it names one. -/
def repostatusIri (value : String) : Option String :=
  let v := toAsciiLowercase (trim value)
  if v ∈ ["concept", "wip", "suspended", "abandoned", "active", "inactive", "unsupported", "moved"] then
    some ("https://www.repostatus.org/#" ++ v)
  else none

section Writes

variable (platform : Platform) (base : String)

def capabilityStatements (cap : CapabilityIn) : List Statement :=
  a typeCapability ++ a typeReleasePlan ++ links platform Ns.tar "produces" cap.produces ++
    links platform Ns.tar "consumes" cap.consumes

def capabilityQuads (iri : String) (cap : CapabilityIn) : List Quad :=
  describeLocal iri (capabilityStatements platform cap)

/-- A declared capability: the link to its freshly minted node, and the node itself. -/
def mintedCapability (draw : Draw) : Option CapabilityIn → List Statement × List Quad
  | some cap =>
    let iri := mint base .capability draw
    (link platform Ns.tar "hasCapability" iri, capabilityQuads platform iri cap)
  | none => ([], [])

/-- The node of one API description, under the document's own URL. -/
def apiDocStatements (doc : ApiDoc) : List Statement :=
  a (Ns.t Ns.dct "Standard") ++ text Ns.tar "apiFormat" doc.normalisedFormat ++
    optLink platform Ns.dct "conformsTo" (apiFormatIri doc.normalisedFormat) ++
    optText Ns.dct "title" doc.title ++ optText Ns.dct "description" doc.description

def liveDocs (docs : List ApiDoc) : List ApiDoc := docs.filter (fun doc => trim doc.url != "")

def apiDocLinks (docs : List ApiDoc) : List Statement :=
  (liveDocs docs).map (fun doc => (Ns.t Ns.dcat "endpointDescription", .named (trim doc.url)))

def apiDocQuads (docs : List ApiDoc) : List Quad :=
  (liveDocs docs).flatMap (fun doc => describeLocal (trim doc.url) (apiDocStatements platform doc))

def syncIri (iri : String) : String := iri ++ "#sync"

def syncStatements (sync : SyncIn) : List Statement :=
  a (Ns.t Ns.tar "RepositorySync") ++ text Ns.tar "syncSource" sync.source ++ text Ns.tar "syncRepo" sync.repo ++
    texts Ns.tar "syncField" sync.fields ++ boolean Ns.tar "syncEnabled" sync.enabled

def syncLink (iri : String) : Option SyncIn → List Statement
  | some _ => [(Ns.t Ns.tar "sync", .named (syncIri iri))]
  | none => []

def syncQuads (iri : String) : Option SyncIn → List Quad
  | some sync => describeLocal (syncIri iri) (syncStatements sync)
  | none => []

def deployableStatements : Option Bool → List Statement
  | some false => boolean Ns.tar "deployable" false
  | _ => []

def registrationStatements (clients : List String) (issuer : Option String) : List Statement :=
  texts Ns.tar "registrationClient" clients ++
    if clients.isEmpty then [] else optText Ns.tar "registrationIssuer" issuer

/-- What a software record says about itself. -/
def softwareStatements (iri : String) (draw : Draw) (input : SoftwareIn) (actor : String)
    (created : Option String) : List Statement :=
  a typeSoftware ++ a typeSource ++ a typeTarSoftware ++
    text Ns.schema "name" input.name ++
    optText Ns.dct "abstract" input.tagline ++
    optText Ns.schema "description" input.description ++
    optLink platform Ns.schema "url" input.homepage ++
    optLink platform Ns.schema "codeRepository" input.codeRepository ++
    optLink platform Ns.schema "softwareHelp" input.documentation ++
    optLink platform Ns.schema "downloadUrl" input.downloadUrl ++
    optLink platform Ns.schema "image" input.image ++
    links platform Ns.schema "screenshot" input.screenshots ++
    optText Ns.tar "readme" input.readme ++
    optLink platform Ns.tar "readmeBaseURL" input.readmeBaseUrl ++
    apiDocLinks input.apiDocs ++
    optLink platform Ns.dct "license" input.license ++
    texts Ns.schema "applicationCategory" input.resolvedKinds ++
    optText Ns.tar "maturity" input.maturity ++
    deployableStatements input.deployable ++
    optLink platform Ns.codemeta "developmentStatus" (input.maturity.bind repostatusIri) ++
    registrationStatements input.registrationClients input.registrationIssuer ++
    links platform Ns.dct "subject" input.topics ++
    texts Ns.schema "keywords" input.keywords ++
    links platform Ns.dct "references" input.publications ++
    datetime platform Ns.dct "created" (created.getD draw.now) ++
    attribution platform draw actor ++
    optLink platform Ns.dct "publisher" (optAgent platform base (draw.site 0) input.publisher).1 ++
    optLink platform Ns.codemeta "maintainer" (optAgent platform base (draw.site 1) input.contact).1 ++
    syncLink iri input.sync ++
    (mintedCapability platform base (draw.site 2) input.capability).1

def softwareQuads (iri : String) (draw : Draw) (input : SoftwareIn) (actor : String)
    (created : Option String) : List Quad :=
  (optAgent platform base (draw.site 0) input.publisher).2 ++
    (optAgent platform base (draw.site 1) input.contact).2 ++
    (mintedCapability platform base (draw.site 2) input.capability).2 ++
    describeLocal iri (softwareStatements platform base iri draw input actor created) ++
    apiDocQuads platform input.apiDocs ++ syncQuads iri input.sync

def replaceSoftware (iri : String) (draw : Draw) (input : SoftwareIn) (actor : String)
    (created : Option String) : GraphTx :=
  (({} : GraphTx).replaceSubject iri Ns.gLocal).extend (softwareQuads platform base iri draw input actor created)

def downloadStatements (download : DownloadIn) : List Statement :=
  let availability := download.availability.getD "public"
  a typeDistribution ++ link platform Ns.dcat "downloadURL" download.url ++
    optText Ns.dct "title" download.label ++ optText Ns.schema "operatingSystem" download.platform ++
    optInt Ns.dcat "byteSize" download.byteSize ++ text Ns.tar "availability" availability ++
    optLink platform Ns.dct "accessRights" (accessRight availability)

/-- The distributions of a release, each with the IRI minted for it. -/
def mintedDownloads (draw : Draw) (downloads : List DownloadIn) : List (String × DownloadIn) :=
  downloads.mapIdx (fun place download => (mint base .distribution (draw.site place), download))

def releaseStatements (softwareIri : String) (draw : Draw) (input : ReleaseIn) (actor : String) : List Statement :=
  a typeSoftware ++ a typeReleasePlan ++ a typeTarRelease ++
    text Ns.schema "softwareVersion" input.version ++
    optDatetime platform Ns.schema "datePublished" input.datePublished ++
    optText Ns.tar "containerImage" input.containerImage ++
    optText Ns.tar "imageDigest" input.imageDigest ++
    optLink platform Ns.schema "releaseNotes" input.changelog ++
    optText Ns.tar "installCommand" input.installCommand ++
    (mintedDownloads base (draw.site 0) input.downloads).map
      (fun entry => (Ns.t Ns.dcat "distribution", .named entry.1)) ++
    link platform Ns.dct "isVersionOf" softwareIri ++
    attribution platform draw actor ++
    (mintedCapability platform base (draw.site 1) input.capability).1

def releaseQuads (iri softwareIri : String) (draw : Draw) (input : ReleaseIn) (actor : String) : List Quad :=
  (mintedCapability platform base (draw.site 1) input.capability).2 ++
    describeLocal iri (releaseStatements platform base softwareIri draw input actor) ++
    (mintedDownloads base (draw.site 0) input.downloads).flatMap
      (fun entry => describeLocal entry.1 (downloadStatements platform entry.2))

end Writes

section Reads

variable (ctx : Ctx)

def recordId (iri : String) : String := ((localId ctx.base iri).map Prod.snd).getD (iriTail iri)

def capabilityFrom (capIri declaredAt : String) : Option Capability :=
  if ctx.platform.validIri capIri then
    match describeQuads ctx.data capIri with
    | [] => none
    | quads =>
      let p := Props.fromQuads capIri quads
      some { iri := capIri, produces := ctx.typeRefs (p.iris Ns.tar "produces"),
             consumes := ctx.typeRefs (p.iris Ns.tar "consumes"), declaredAt }
  else none

def apiDocFrom (p : Props) (key : Option String) : Option ApiDoc := do
  let k ← key
  let doc ← p.nestedFor k
  return { url := trimEndMatches (trimStartMatches k (fun c => c == '<')) (fun c => c == '>')
           format := ((doc.str Ns.tar "apiFormat").or
             ((doc.iri Ns.dct "conformsTo").bind apiFormatFromIri)).getD "other"
           title := doc.str Ns.dct "title"
           description := doc.str Ns.dct "description" }

def syncFrom (p : Props) : Option SyncStatus := do
  let key ← (p.nodeKeys Ns.tar "sync").head?
  let sp ← p.nestedFor (← key)
  let repo ← sp.str Ns.tar "syncRepo"
  return { source := (sp.str Ns.tar "syncSource").getD "github", repo
           fields := sp.strs Ns.tar "syncField"
           enabled := (sp.bool Ns.tar "syncEnabled").getD true
           lastSyncedAt := sp.str Ns.tar "syncedAt"
           lastStatus := (sp.str Ns.tar "syncStatus").getD "never"
           lastError := sp.str Ns.tar "syncError"
           lastChanged := sp.strs Ns.tar "syncChanged" }

/-- The declared kinds, from the standard term or the older one, sorted. -/
def kindsFrom (p : Props) : List String :=
  let standard := p.strs Ns.schema "applicationCategory"
  let kinds := if standard.isEmpty then p.strs Ns.tar "kind" else standard
  kinds.insertionSort (fun left right => le left right = true)

/-- The literal, or the fragment of the status IRI an older build wrote. -/
def maturityFrom (p : Props) : Option String :=
  (p.str Ns.tar "maturity").or ((p.iri Ns.codemeta "developmentStatus").bind
    (fun status => (split status (fun c => c == '#')).getLast?))

def softwareFromProps (iri : String) (p : Props) : Software where
  iri := iri
  id := recordId ctx iri
  name := (p.str Ns.schema "name").getD (iriTail iri)
  tagline := (p.str Ns.dct "abstract").or (p.str Ns.tar "tagline")
  description := p.str Ns.schema "description"
  homepage := p.iri Ns.schema "url"
  codeRepository := p.iri Ns.schema "codeRepository"
  documentation := p.iri Ns.schema "softwareHelp"
  downloadUrl := p.iri Ns.schema "downloadUrl"
  image := p.iri Ns.schema "image"
  screenshots := p.iris Ns.schema "screenshot"
  readme := p.str Ns.tar "readme"
  readmeBaseUrl := p.iri Ns.tar "readmeBaseURL"
  apiDocs := (p.nodeKeys Ns.dcat "endpointDescription").filterMap (apiDocFrom p)
  license := p.iri Ns.dct "license"
  kinds := kindsFrom p
  kind := (kindsFrom p).head?
  maturity := maturityFrom p
  deployable := (p.bool Ns.tar "deployable").getD true
  registrationClients := p.strs Ns.tar "registrationClient"
  registrationIssuer := p.str Ns.tar "registrationIssuer"
  topics := ctx.typeRefs (p.iris Ns.dct "subject")
  keywords := p.strs Ns.schema "keywords"
  publisher := ctx.optAgentRef (p.iri Ns.dct "publisher")
  contact := ctx.optAgentRef ((p.iri Ns.codemeta "maintainer").or (p.iri Ns.tar "contact"))
  publications := p.iris Ns.dct "references"
  capability := (p.iri Ns.tar "hasCapability").bind (fun cap => capabilityFrom ctx cap "software")
  sync := syncFrom p
  latestRelease := none
  instanceCount := 0
  releaseCount := 0
  runs30d := 0
  created := p.str Ns.dct "created"
  modified := p.str Ns.dct "modified"
  origin := ctx.origin p.graph
  tombstoned := (p.bool Ns.tar "tombstoned").getD false

def downloadFrom (p : Props) (key : Option String) : Option DownloadIn := do
  let d ← p.nestedFor (← key)
  let url ← d.iri Ns.dcat "downloadURL"
  return { url, label := d.str Ns.dct "title", platform := d.str Ns.schema "operatingSystem"
           byteSize := d.i64 Ns.dcat "byteSize", availability := d.str Ns.tar "availability" }

def releaseFromProps (iri : String) (p : Props) : Release where
  iri := iri
  id := ((localId ctx.base iri).map Prod.snd).getD ""
  version := (p.str Ns.schema "softwareVersion").getD ""
  datePublished := p.str Ns.schema "datePublished"
  containerImage := p.str Ns.tar "containerImage"
  imageDigest := p.str Ns.tar "imageDigest"
  changelog := (p.iri Ns.schema "releaseNotes").or (p.str Ns.schema "releaseNotes")
  installCommand := p.str Ns.tar "installCommand"
  downloads := (p.nodeKeys Ns.dcat "distribution").filterMap (downloadFrom p)
  software := p.iri Ns.dct "isVersionOf"
  softwareName := none
  capability := (p.iri Ns.tar "hasCapability").bind (fun cap => capabilityFrom ctx cap "release")
  origin := ctx.origin p.graph

/-- The rows of a pattern that pairs two statements about one node in one graph. -/
def releaseRows (data : Dataset) (softwareIri : String) : List Node :=
  (data.matching (fun quad => decide (quad.predicate = Ns.t Ns.dct "isVersionOf" ∧
      quad.object = .named softwareIri))).flatMap (fun quad =>
    (data.matching (fun version => decide (version.subject = quad.subject ∧ version.graph = quad.graph ∧
      version.predicate = Ns.t Ns.schema "softwareVersion"))).map (fun _ => quad.subject))

/-- Newest first: by publication date, then by IRI. -/
def newerOrSame (left right : Release) : Bool :=
  let l := left.datePublished.getD ""
  let r := right.datePublished.getD ""
  if l = r then le right.iri left.iri else le r l

def listReleases (softwareIri : String) : List Release :=
  (((releaseRows ctx.data softwareIri).filter (fun node => !isTombstoned ctx.data node)).filterMap Node.iri?).map
    (fun iri => releaseFromProps ctx iri (propsOf ctx.data iri))
    |>.insertionSort (fun left right => newerOrSame left right = true)

/-- The live deployments of a software, counted once each. -/
def instanceCount (data : Dataset) (softwareIri : String) : Nat :=
  (((data.matching (fun quad => decide (quad.predicate = Ns.t Ns.tar "instanceOf" ∧
    quad.object = .named softwareIri))).filter (fun quad => !isTombstoned data quad.subject)).map
      Quad.subject).eraseDups.length

/-- The instances a run is associated with, by the standard term or the older one. -/
def associated (data : Dataset) (graph : String) (run : Node) : List Term :=
  (data.matching (fun quad => decide (quad.subject = run ∧ quad.graph = graph ∧
    (quad.predicate = Ns.t Ns.prov "wasAssociatedWith" ∨ quad.predicate = Ns.t Ns.tar "atInstance")))).map Quad.object

def activities (data : Dataset) : List Quad :=
  data.matching (fun quad => decide (quad.predicate = Ns.rdfType ∧ quad.object = .named (Ns.t Ns.prov "Activity")))

def startTimes (data : Dataset) (graph : String) (run : Node) : List Term :=
  (data.matching (fun quad => decide (quad.subject = run ∧ quad.graph = graph ∧
    quad.predicate = Ns.t Ns.prov "startedAtTime"))).map Quad.object

/-- The runs since the given time of the deployments of a software. -/
def recentRuns (softwareIri : String) : Nat :=
  ((activities ctx.data).filter (fun run =>
    (startTimes ctx.data run.graph run.subject).any (fun time => ctx.calendar.atOrAfter time ctx.since) &&
    (associated ctx.data run.graph run.subject).any (fun inst =>
      ctx.data.any (fun quad => decide (inst.node? = some quad.subject ∧ quad.graph = run.graph ∧
        quad.predicate = Ns.t Ns.tar "instanceOf" ∧ quad.object = .named softwareIri)))) |>.map
    Quad.subject).eraseDups.length

def loadSoftware (iri : String) : AppResult Software := do
  let quads ← describe ctx.platform ctx.data iri
  if quads.isEmpty then .error (AppError.notFound s!"no software at {iri}")
  let p := Props.fromQuads iri quads
  if !p.hasType typeSoftware && !p.hasType typeSource then
    .error (AppError.notFound s!"{iri} is not a Software record")
  let releases := listReleases ctx iri
  return { softwareFromProps ctx iri p with
    releaseCount := releases.length, latestRelease := releases.head?,
    instanceCount := instanceCount ctx.data iri, runs30d := recentRuns ctx iri }

end Reads

end ToolArtifactRegistry.Domain.Software
