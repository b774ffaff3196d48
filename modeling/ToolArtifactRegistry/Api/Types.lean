import ToolArtifactRegistry.Api.Instances
import ToolArtifactRegistry.Domain.Vocabulary

/-! The artifact types this registry mints, and the terms it adopts. -/
namespace ToolArtifactRegistry.Api.Types

open Library.Rdf Library.Text Ids Model Store Rdf Build Auth Domain
open Instances (Write)

structure ArtifactTypeIn where
  label : String
  definition : Option String := none
  defaultMediaType : Option String := none
  slug : Option String := none
  iri : Option String := none
  scheme : Option String := none
  aliases : List String := []

structure ArtifactTypeOut where
  iri : String
  id : String
  label : String
  definition : Option String
  defaultMediaType : Option String
  artifactCount : Nat
  source : String
  adopted : Bool
  scheme : Option String
  aliases : List String

def typeConcept : String := "http://www.w3.org/2004/02/skos/core#Concept"

section

variable (server : Server)

/-- An IRI a caller wants to adopt, handed back unchanged. -/
def adoptable (data : Dataset) (given : String) : AppResult String :=
  if !isHttp given then
    .error (AppError.badRequest ("`iri` must be an absolute http(s) IRI, and " ++ given ++
      " is not one. Leave it out to mint a type identified by this registry instead."))
  else if isLocal server.base given && !startsWith given (server.base ++ "/type/") then
    .error (AppError.badRequest (given ++ " is a record of this registry, not a type. Leave `iri` out to mint one."))
  else match Vocabulary.holding server.platform server.reference data given with
    | some held =>
      if held.usableAs .type then .ok given
      else .error (AppError.conflict (given ++
        " is already a term here, and it is not one an artifact can be. Adopting it as a type would leave the same IRI meaning two things."))
    | none => .ok given

def slugify (text : String) : String :=
  let lowered := text.toList.flatMap server.platform.lowercase
  let dashed := lowered.map (fun c => if c.isAlphanum then c else '-')
  join "-" ((split (String.ofList dashed) (fun c => c == '-')).filter (fun piece => piece != ""))

/-- Adopted, named by a slug, or minted. -/
def typeIri (data : Dataset) (draw : Draw) (input : ArtifactTypeIn) : AppResult String :=
  match nonEmpty (input.iri.map trim) with
  | some given => adoptable server data given
  | none =>
    match nonEmpty (input.slug.map (slugify server)) with
    | some slug => .ok (server.base ++ "/type/" ++ slug)
    | none => .ok (mint server.base .type draw)

def typeStatements (input : ArtifactTypeIn) (actor : String) : List Statement :=
  a typeConcept ++ a Vocabulary.classArtifactType ++
    text Ns.skos "prefLabel" input.label ++
    optText Ns.skos "definition" input.definition ++
    texts Ns.skos "altLabel" input.aliases ++
    optLink server.platform Ns.skos "inScheme" input.scheme ++
    optText Ns.tar "defaultMediaType" input.defaultMediaType ++
    link server.platform Ns.prov "wasAttributedTo" actor

def createPlan (state : State) (draw : Draw) (principal : Principal) (input : ArtifactTypeIn) : AppResult Write := do
  principal.requireCurator
  if trim input.label = "" then .error (AppError.badRequest "an artifact type needs a label")
  let iri ← typeIri server state.data draw input
  return ⟨iri, (({} : GraphTx).replaceSubject iri Ns.gLocal).extend
    (describeLocal iri (typeStatements server input principal.subject))⟩

/-- How many subjects declare themselves of a type. -/
def artifactCount (data : Dataset) (iri : String) : Nat :=
  ((data.matching (fun quad => decide (quad.predicate = Ns.t Ns.dct "conformsTo" ∧ quad.object = .named iri))).map
    Quad.subject).eraseDups.length

def load (ctx : Ctx) (iri : String) : AppResult ArtifactTypeOut := do
  let quads ← describe ctx.platform ctx.data iri
  let p := Props.fromQuads iri quads
  let t := ctx.typeRef iri
  return { iri, id := ((localId ctx.base iri).map Prod.snd).getD (iriTail iri), label := t.label.getD (iriTail iri),
           definition := (p.str Ns.skos "definition").or t.definition,
           defaultMediaType := p.str Ns.tar "defaultMediaType", artifactCount := artifactCount ctx.data iri,
           source := Ctx.typeSource ctx.base iri, adopted := !isLocal ctx.base iri,
           scheme := p.iri Ns.skos "inScheme", aliases := p.strs Ns.skos "altLabel" }

def create (state : State) (draw : Draw) (principal : Principal) (input : ArtifactTypeIn) : Outcome ArtifactTypeOut :=
  Outcome.planned state (createPlan server state draw principal input) (fun write =>
    Outcome.commit server state write.tx (fun after => load (server.ctx after draw) write.iri))

end

end ToolArtifactRegistry.Api.Types
