import ToolArtifactRegistry.Domain.Context

/-! Run projections: who acted, what plan they followed, and how it ended. -/
namespace ToolArtifactRegistry.Domain.Run

open Library.Rdf Library.Text Ids Model Store Rdf Build

def typeActivity : String := "http://www.w3.org/ns/prov#Activity"
def typeSchemaAction : String := "https://schema.org/Action"

/-- The schema.org status of a run; the standard enumeration folds an aborted run into a failed one. -/
def actionStatus : String → Option String
  | "success" => some (Ns.schema ++ "CompletedActionStatus")
  | "failed" => some (Ns.schema ++ "FailedActionStatus")
  | "aborted" => some (Ns.schema ++ "FailedActionStatus")
  | "running" => some (Ns.schema ++ "ActiveActionStatus")
  | _ => none

section Writes

variable (platform : Platform)

def associationStatements (input : RunIn) (instanceIri : String) : List Statement :=
  a (Ns.prov ++ "Association") ++ link platform Ns.prov "agent" instanceIri ++
    optLink platform Ns.prov "hadPlan" input.release

def associationNode (draw : Draw) : Node := .blank (draw.blank [])

def runStatements (draw : Draw) (input : RunIn) (instanceIri actor : String) : List Statement :=
  a typeActivity ++ a typeSchemaAction ++
    optText Ns.rdfs "label" input.label ++
    datetime platform Ns.prov "startedAtTime" (input.startedAt.getD draw.now) ++
    optDatetime platform Ns.prov "endedAtTime" input.endedAt ++
    text Ns.tar "status" (input.status.getD "success") ++
    optLink platform Ns.schema "actionStatus" (actionStatus (input.status.getD "success")) ++
    optText Ns.dct "identifier" input.externalKey ++
    link platform Ns.prov "wasAssociatedWith" instanceIri ++
    optLink platform Ns.tar "usedRelease" input.release ++
    [(Ns.t Ns.prov "qualifiedAssociation", (associationNode draw).term)] ++
    attribution platform draw actor

def runQuads (iri : String) (draw : Draw) (input : RunIn) (instanceIri actor : String) : List Quad :=
  describeLocal iri (runStatements platform draw input instanceIri actor) ++
    finish (associationNode draw) Ns.gLocal (associationStatements platform input instanceIri)

/-- The status and the end of a run are replaced, not added to. -/
def updateRunOutcome (tx : GraphTx) (runIri : String) (run : RunIn) : GraphTx :=
  if run.endedAt.isNone && run.status.isNone then tx
  else
    let ended := if run.endedAt.isSome then tx.replaceProperty runIri (Ns.prov ++ "endedAtTime") Ns.gLocal else tx
    match run.status with
    | some status =>
      ((ended.replaceProperty runIri (Ns.tar ++ "status") Ns.gLocal).replaceProperty runIri
        (Ns.schema ++ "actionStatus") Ns.gLocal).extend (describeLocal runIri
          (optDatetime platform Ns.prov "endedAtTime" run.endedAt ++ text Ns.tar "status" status ++
            optLink platform Ns.schema "actionStatus" (actionStatus status)))
    | none => ended.extend (describeLocal runIri (optDatetime platform Ns.prov "endedAtTime" run.endedAt))

end Writes

section Reads

variable (ctx : Ctx)

def runSummaryFromProps (iri : String) (p : Props) : RunSummary where
  iri := iri
  id := ((localId ctx.base iri).map Prod.snd).getD (iriTail iri)
  label := p.str Ns.rdfs "label"
  status := (p.str Ns.tar "status").getD "unknown"
  startedAt := p.str Ns.prov "startedAtTime"
  endedAt := p.str Ns.prov "endedAtTime"
  durationSeconds := (p.str Ns.prov "startedAtTime").bind (fun started =>
    (p.str Ns.prov "endedAtTime").bind (fun ended => ctx.calendar.duration started ended))
  externalKey := (p.str Ns.dct "identifier").or (p.str Ns.tar "externalKey")
  instanceIri := (p.iri Ns.prov "wasAssociatedWith").or (p.iri Ns.tar "atInstance")
  instanceLabel := none
  release := p.iri Ns.tar "usedRelease"
  releaseVersion := none
  software := none
  softwareName := none
  usedCount := (p.iris Ns.prov "used").length
  generatedCount := 0
  origin := ctx.origin p.graph

def generatedIris (data : Dataset) (runIri : String) : List String :=
  (data.matching (fun quad => decide (quad.predicate = Ns.t Ns.prov "wasGeneratedBy" ∧
    quad.object = .named runIri))).filterMap (fun quad => quad.subject.iri?)

/-- The software of an instance: the last one the store enumerates. -/
def softwareOf (data : Dataset) (instanceIri : String) : Option String :=
  ((Ctx.objects data instanceIri (Ns.t Ns.tar "instanceOf")).filterMap Props.namedIri).getLast?

def decorate (summary : RunSummary) : RunSummary :=
  let software := summary.instanceIri.bind (softwareOf ctx.data)
  { summary with
    instanceLabel := summary.instanceIri.bind ctx.labelOf
    releaseVersion := summary.release.bind ctx.labelOf
    software := software
    softwareName := software.bind ctx.labelOf }

def loadRunSummary (iri : String) : AppResult RunSummary := do
  let quads ← describe ctx.platform ctx.data iri
  if quads.isEmpty then .error (AppError.notFound s!"no run at {iri}")
  return decorate ctx { runSummaryFromProps ctx iri (Props.fromQuads iri quads) with
    generatedCount := (generatedIris ctx.data iri).length }

end Reads

end ToolArtifactRegistry.Domain.Run
