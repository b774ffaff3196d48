import ToolArtifactRegistry.Api.Announcing
import ToolArtifactRegistry.Api.Updating
import ToolArtifactRegistry.Library.Owing

/-! Every way a deployment or a software is written, one access to the store at a time: registration, PATCH and
announcement of the one, registration, PATCH and synchronisation of the other, among each other in any order. -/
namespace ToolArtifactRegistry.Api.Hosting

open Library.Rdf Library.Programs Library.Serde Ids Model Store Rdf Build Auth Domain Api.Updating

section

variable (server : Server)

/-- What the caller of a registration may say, and what its credential says for it. -/
def admitted (principal : Principal) (input : InstanceIn) : AppResult InstanceIn := do
  if !principal.isCurator then principal.requireScope scopeRegisterInstance
  let bound ← Instances.bindSoftware principal (Instances.received server input)
  return Instances.nameRelease server bound

/-- Registration of an instance. -/
def createInstance (draw : Draw) (principal : Principal) (input : InstanceIn) : Handler server :=
  let iri := mint server.base .instance_ (draw.site 0)
  proceed server (admitted server principal input) fun input =>
  .call (.resolveSoftwareFor input) fun resolved => proceed server resolved fun software =>
  .call (.checkDeployable software input) fun deployable => proceed server deployable fun _ =>
  rewrite server (({} : GraphTx).extend
      (Instance.instanceQuads server.platform server.base iri (draw.site 1) input principal.subject software))
    (.call (.answerInstance draw iri) fun answer => .done (answer.map Answer.instance_))

/-- Registration of a software. -/
def createSoftware (draw : Draw) (principal : Principal) (input : SoftwareIn) : Handler server :=
  let iri := mint server.base .software (draw.site 0)
  proceed server (do
    principal.requireCurator
    Software.checkRegistrationBinding server input
    Software.checkSync input.sync) fun _ =>
  rewrite server (({} : GraphTx).extend
      (Domain.Software.softwareQuads server.platform server.base iri (draw.site 1) input principal.subject none))
    (.call (.answerSoftware draw iri) fun answer => .done (answer.map Answer.software))

end

section Alone

open Library.Results (guard_bind)

variable {server : Server} {state : State}

theorem createPlan_instance (draw : Draw) (principal : Principal) (input : InstanceIn) :
    Instances.createPlan server state draw principal input = admitted server principal input >>= (fun input =>
      Instances.resolveSoftwareFor server state.data input >>= fun software =>
      Instances.checkDeployable server state.data software input >>= fun _ =>
      checked server state (mint server.base .instance_ (draw.site 0)) (({} : GraphTx).extend
        (Instance.instanceQuads server.platform server.base (mint server.base .instance_ (draw.site 0)) (draw.site 1) input
          principal.subject software))) := by
  unfold Instances.createPlan Instances.registration admitted checked
  simp only [guard_bind, bind_assoc, pure_bind]
  rfl

theorem finish_createInstance (draw : Draw) (principal : Principal) (input : InstanceIn) :
    (createInstance server draw principal input).finish state =
      served (Instances.create server state draw principal input) Answer.instance_ := by
  unfold Instances.create Instances.settle
  rw [createPlan_instance]
  refine finish_proceed (fun input => ?_)
  refine finish_proceed (fun software => ?_)
  refine finish_proceed (fun _ => ?_)
  exact finish_rewrite (fun _ => rfl)

theorem createPlan_software (draw : Draw) (principal : Principal) (input : SoftwareIn) :
    Software.createPlan server state draw principal input = (do
      principal.requireCurator
      Software.checkRegistrationBinding server input
      Software.checkSync input.sync) >>= (fun _ =>
      checked server state (mint server.base .software (draw.site 0)) (({} : GraphTx).extend
        (Domain.Software.softwareQuads server.platform server.base (mint server.base .software (draw.site 0)) (draw.site 1)
          input principal.subject none))) := by
  unfold Software.createPlan checked
  simp only [bind_assoc]
  rfl

theorem finish_createSoftware (draw : Draw) (principal : Principal) (input : SoftwareIn) :
    (createSoftware server draw principal input).finish state =
      served (Software.create server state draw principal input) Answer.software := by
  unfold Software.create Software.settle
  rw [createPlan_software]
  refine finish_proceed (fun _ => ?_)
  exact finish_rewrite (fun _ => rfl)

end Alone

/-- Announcements and the other writes of a record, over one store. -/
abbrev desk (server : Server) : System := (Announcing.desk server).both (Updating.perform server)

abbrev Replied := AppResult Instance ⊕ AppResult Answer

/-- A request that writes a deployment or a software. -/
inductive Request where
  | createInstance (draw : Draw) (principal : Principal) (input : InstanceIn)
  | createSoftware (draw : Draw) (principal : Principal) (input : SoftwareIn)
  | announce (draw : Draw) (principal : Principal) (input : SelfAnnounceIn)
  | update (update : Update)

namespace Request

variable (server : Server)

def program : Request → Program (desk server) Replied
  | .createInstance draw principal input => (Hosting.createInstance server draw principal input).right
  | .createSoftware draw principal input => (Hosting.createSoftware server draw principal input).right
  | .announce draw principal input => (Announcing.announceSelf server draw principal input).left
  | .update edit => (edit.program server).right

/-- The request as the endpoint makes it in one step. -/
def serve (state : State) : Request → Replied × State
  | .createInstance draw principal input =>
    let outcome := Instances.create server state draw principal input
    (.inr (outcome.response.map Answer.instance_), outcome.state)
  | .createSoftware draw principal input =>
    let outcome := Software.create server state draw principal input
    (.inr (outcome.response.map Answer.software), outcome.state)
  | .announce draw principal input =>
    let outcome := Instances.announceSelf server state draw principal input
    (.inl outcome.response, outcome.state)
  | .update edit => (.inr (edit.serve server state).1, (edit.serve server state).2)

variable {server}

/-- Served alone, the calls of a request do what the endpoint does in one step. -/
theorem finish_program (state : State) (request : Request) :
    (request.program server).finish state = request.serve server state := by
  cases request with
  | createInstance draw principal input =>
    refine (Program.finish_right _ _).trans ?_
    rw [finish_createInstance]
    rfl
  | createSoftware draw principal input =>
    refine (Program.finish_right _ _).trans ?_
    rw [finish_createSoftware]
    rfl
  | announce draw principal input =>
    refine (Program.finish_left _ _).trans ?_
    rw [Announcing.finish_announceSelf]
    rfl
  | update edit =>
    refine (Program.finish_right _ _).trans ?_
    rw [edit.finish_program]
    rfl

end Request

end ToolArtifactRegistry.Api.Hosting
