import ToolArtifactRegistry.Domain.Software

/-! Instance projections. An Instance is a deployment: the agent that acts, and the thing an OIDC
client id is bound to. -/
namespace ToolArtifactRegistry.Domain.Instance

open Library.Rdf Library.Text Ids Model Store Rdf Build

def typeSoftwareAgent : String := "http://www.w3.org/ns/prov#SoftwareAgent"
def typeTarInstance : String := "https://w3id.org/tar/ns#Instance"
def typeDataService : String := "http://www.w3.org/ns/dcat#DataService"

section Writes

variable (platform : Platform) (base : String)

/-- Only a deployment that serves an endpoint is a data service. -/
def serviceType (endpoint : Option String) : List Statement :=
  if (nonEmpty endpoint).isSome then a typeDataService else []

/-- The issuer only beside the subject it qualifies. -/
def selfRegisteredStatements (input : InstanceIn) : List Statement :=
  optText Ns.tar "selfRegisteredBy" input.selfRegisteredBy ++
    (if input.selfRegisteredBy.isSome then optText Ns.tar "selfRegisteredIssuer" input.selfRegisteredIssuer else [])

/-- What an instance record says about itself. -/
def instanceStatements (draw : Draw) (input : InstanceIn) (actor : String) (software : Option String) :
    List Statement :=
  a typeSoftwareAgent ++ a typeTarInstance ++ serviceType input.endpointUrl ++
    text Ns.rdfs "label" input.label ++
    optText Ns.dct "description" input.description ++
    optLink platform Ns.tar "runsRelease" input.release ++
    optLink platform Ns.tar "instanceOf" (software.or input.software) ++
    optLink platform Ns.dcat "endpointURL" input.endpointUrl ++
    optLink platform Ns.dcat "endpointDescription" input.endpointDescription ++
    optLink platform Ns.tar "healthEndpoint" input.healthEndpoint ++
    selfRegisteredStatements input ++
    optText Ns.tar "instanceKey" input.instanceKey ++
    optText Ns.tar "availability" input.availability ++
    optLink platform Ns.dct "accessRights" (input.availability.bind accessRight) ++
    optText Ns.tar "jurisdiction" input.jurisdiction ++
    optText Ns.tar "oidcClientId" input.oidcClientId ++
    optText Ns.tar "oidcIssuer" input.oidcIssuer ++
    texts Ns.tar "allowedScope" input.allowedScopes ++
    link platform Ns.dcat "inCatalog" base ++
    attribution platform draw actor ++
    optLink platform Ns.dct "publisher" (optAgent platform base (draw.site 0) input.operator).1 ++
    (Software.mintedCapability platform base (draw.site 1) input.capability).1

/-- The catalog's side of the record's place in it. -/
def catalogStatements (iri : String) : List Statement :=
  a (Ns.t Ns.dcat "Catalog") ++ link platform Ns.dcat "resource" iri

def instanceQuads (iri : String) (draw : Draw) (input : InstanceIn) (actor : String)
    (software : Option String) : List Quad :=
  describeLocal base (catalogStatements platform iri) ++
    (optAgent platform base (draw.site 0) input.operator).2 ++
    (Software.mintedCapability platform base (draw.site 1) input.capability).2 ++
    describeLocal iri (instanceStatements platform base draw input actor software)

def replaceInstance (iri : String) (draw : Draw) (input : InstanceIn) (actor : String)
    (software : Option String) : GraphTx :=
  (({} : GraphTx).replaceSubject iri Ns.gLocal).extend (instanceQuads platform base iri draw input actor software)

end Writes

section Reads

variable (ctx : Ctx)

def instanceFromProps (iri : String) (p : Props) : Instance where
  iri := iri
  id := Software.recordId ctx iri
  label := (p.str Ns.rdfs "label").getD (iriTail iri)
  description := p.str Ns.dct "description"
  software := p.iri Ns.tar "instanceOf"
  softwareName := none
  release := p.iri Ns.tar "runsRelease"
  releaseVersion := none
  outdated := false
  latestVersion := none
  endpointUrl := p.iri Ns.dcat "endpointURL"
  endpointDescription := p.iri Ns.dcat "endpointDescription"
  operator := ctx.optAgentRef (p.iri Ns.dct "publisher")
  availability := p.str Ns.tar "availability"
  jurisdiction := p.str Ns.tar "jurisdiction"
  health := (p.str Ns.tar "health").getD "unknown"
  healthCheckedAt := p.str Ns.tar "healthCheckedAt"
  healthDetail := p.str Ns.tar "healthDetail"
  healthEndpoint := p.iri Ns.tar "healthEndpoint"
  selfRegisteredBy := p.str Ns.tar "selfRegisteredBy"
  selfRegisteredIssuer := p.str Ns.tar "selfRegisteredIssuer"
  instanceKey := p.str Ns.tar "instanceKey"
  lastSeenAt := p.str Ns.tar "lastSeenAt"
  homeRegistry := (p.iri Ns.dcat "inCatalog").or (p.iri Ns.tar "homeRegistry")
  capability := (p.iri Ns.tar "hasCapability").bind (fun cap => Software.capabilityFrom ctx cap "instance")
  lastRunAt := none
  runs30d := 0
  failures30d := 0
  artifactCount := 0
  oidcClientId := p.str Ns.tar "oidcClientId"
  oidcIssuer := p.str Ns.tar "oidcIssuer"
  allowedScopes := p.strs Ns.tar "allowedScope"
  origin := ctx.origin p.graph
  tombstoned := (p.bool Ns.tar "tombstoned").getD false

/-- The runs of a deployment, one row for each way a run names it. -/
def runRows (data : Dataset) (iri : String) : List Quad :=
  (Software.activities data).flatMap (fun run =>
    ((Software.associated data run.graph run.subject).filter (fun inst => decide (inst = .named iri))).map
      (fun _ => run))

def lastRunAt (iri : String) : Option String :=
  ctx.calendar.latest ((runRows ctx.data iri).flatMap (fun run =>
    Software.startTimes ctx.data run.graph run.subject))

/-- One row for each recent start time of a run of the deployment. -/
def recentRows (iri : String) : List Quad :=
  (runRows ctx.data iri).flatMap (fun run =>
    ((Software.startTimes ctx.data run.graph run.subject).filter
      (fun time => ctx.calendar.atOrAfter time ctx.since)).map (fun _ => run))

def failedStatus (status : Term) : Bool := decide (status = .simple "failed" ∨ status = .simple "aborted")

def statuses (data : Dataset) (graph : String) (run : Node) : List Term :=
  (data.matching (fun quad => decide (quad.subject = run ∧ quad.graph = graph ∧
    quad.predicate = Ns.t Ns.tar "status"))).map Quad.object

def failures30d (iri : String) : Nat :=
  ((recentRows ctx iri).flatMap (fun run =>
    (statuses ctx.data run.graph run.subject).filter failedStatus)).length

def artifactCount (data : Dataset) (iri : String) : Nat :=
  ((data.matching (fun quad => decide (quad.predicate = Ns.t Ns.prov "wasGeneratedBy"))).filter (fun quad =>
    data.any (fun assoc => decide (quad.object.node? = some assoc.subject ∧ assoc.graph = quad.graph ∧
      (assoc.predicate = Ns.t Ns.prov "wasAssociatedWith" ∨ assoc.predicate = Ns.t Ns.tar "atInstance") ∧
      assoc.object = .named iri))) |>.map Quad.subject).eraseDups.length

/-- The releases of a software: each with its version, and its date where it has one. -/
def versionRows (data : Dataset) (softwareIri : String) : List (String × String) :=
  (data.matching (fun quad => decide (quad.predicate = Ns.t Ns.dct "isVersionOf" ∧
      quad.object = .named softwareIri))).flatMap (fun quad =>
    let at_ (predicate : String) := (data.matching (fun other => decide (other.subject = quad.subject ∧
      other.graph = quad.graph ∧ other.predicate = predicate))).map Quad.object
    match quad.subject.iri? with
    | none => []
    | some release =>
      let dates := (at_ (Ns.t Ns.schema "datePublished")).map Props.termValue
      (at_ (Ns.t Ns.schema "softwareVersion")).flatMap (fun version =>
        (if dates.isEmpty then [release] else dates).map (fun date => (date, Props.termValue version))))

def laterVersion (best : String × String) (row : String × String) : String × String :=
  if !le row.1 best.1 then row else best

def latestVersion (data : Dataset) (softwareIri : String) : Option String :=
  match versionRows data softwareIri with
  | [] => none
  | first :: rest => some (rest.foldl laterVersion first).2

/-- The names of the software and the release, and the marker of an outdated one. -/
def decorate (inst : Instance) : Instance :=
  let version := inst.release.bind ctx.labelOf
  let named := { inst with softwareName := inst.software.bind ctx.labelOf, releaseVersion := version }
  match inst.software.bind (latestVersion ctx.data), version with
  | some latest, some current => { named with latestVersion := some latest, outdated := decide (latest ≠ current) }
  | _, _ => named

def loadInstance (iri : String) : AppResult Instance := do
  let quads ← describe ctx.platform ctx.data iri
  if quads.isEmpty then .error (AppError.notFound s!"no instance at {iri}")
  let p := Props.fromQuads iri quads
  if !p.hasType typeSoftwareAgent then
    .error (AppError.notFound s!"{iri} is not an Instance record")
  return decorate ctx { instanceFromProps ctx iri p with
    lastRunAt := lastRunAt ctx iri
    runs30d := ((recentRows ctx iri).map Quad.subject).eraseDups.length
    failures30d := failures30d ctx iri
    artifactCount := artifactCount ctx.data iri }

end Reads

end ToolArtifactRegistry.Domain.Instance
