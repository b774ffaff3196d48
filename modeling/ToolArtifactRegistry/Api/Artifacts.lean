import ToolArtifactRegistry.Api.Instances
import ToolArtifactRegistry.Domain.Artifact

/-! Direct registration of an artifact. -/
namespace ToolArtifactRegistry.Api.Artifacts

open Ids Model Store Auth Domain
open Instances (Write)

section

variable (server : Server)

def createPlan (state : State) (draw : Draw) (principal : Principal) (input : ArtifactIn) : AppResult Write := do
  if !principal.isCurator then principal.requireScope scopeAdvertiseProduce
  let iri := mint server.base .artifact (draw.site 0)
  let quads := Artifact.artifactQuads server.platform server.base iri (draw.site 1) input principal.subject none
  server.platform.enforceWrite state.data quads
  return ⟨iri, ({} : GraphTx).extend quads⟩

def rememberKey (state : State) (key : Option String) (iri : String) : State :=
  match key with
  | some key => { state with ops := state.ops.rememberArtifact key iri }
  | none => state

def create (state : State) (draw : Draw) (principal : Principal) (input : ArtifactIn) : Outcome Artifact :=
  Outcome.planned state (createPlan server state draw principal input) (fun write =>
    (Outcome.commit server state write.tx (fun _ => .ok ())).andThen (fun after _ =>
      ⟨rememberKey after input.externalKey write.iri,
        Artifact.loadArtifact (server.ctx (rememberKey after input.externalKey write.iri) draw) write.iri⟩))

end

end ToolArtifactRegistry.Api.Artifacts
