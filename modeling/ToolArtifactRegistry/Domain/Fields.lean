import ToolArtifactRegistry.Domain.Instance

/-! The statements of a record sorted by predicate: what is said of it under each. -/
namespace ToolArtifactRegistry.Domain.Fields

open Library.Rdf Ids Model Rdf Build

section Instances

variable (platform : Platform) (base : String) (draw : Draw) (input : InstanceIn) (actor : String) (software : Option String)

def instanceFields : List (String × List Statement) :=
  [(Ns.rdfType, a Instance.typeSoftwareAgent ++ a Instance.typeTarInstance ++ Instance.serviceType input.endpointUrl),
    (Ns.t Ns.rdfs "label", text Ns.rdfs "label" input.label),
    (Ns.t Ns.dct "description", optText Ns.dct "description" input.description),
    (Ns.t Ns.tar "runsRelease", optLink platform Ns.tar "runsRelease" input.release),
    (Ns.t Ns.tar "instanceOf", optLink platform Ns.tar "instanceOf" (software.or input.software)),
    (Ns.t Ns.dcat "endpointURL", optLink platform Ns.dcat "endpointURL" input.endpointUrl),
    (Ns.t Ns.dcat "endpointDescription", optLink platform Ns.dcat "endpointDescription" input.endpointDescription),
    (Ns.t Ns.tar "healthEndpoint", optLink platform Ns.tar "healthEndpoint" input.healthEndpoint),
    (Ns.t Ns.tar "selfRegisteredBy", optText Ns.tar "selfRegisteredBy" input.selfRegisteredBy),
    (Ns.t Ns.tar "selfRegisteredIssuer", if input.selfRegisteredBy.isSome then
      optText Ns.tar "selfRegisteredIssuer" input.selfRegisteredIssuer else []),
    (Ns.t Ns.tar "instanceKey", optText Ns.tar "instanceKey" input.instanceKey),
    (Ns.t Ns.tar "availability", optText Ns.tar "availability" input.availability),
    (Ns.t Ns.dct "accessRights", optLink platform Ns.dct "accessRights" (input.availability.bind accessRight)),
    (Ns.t Ns.tar "jurisdiction", optText Ns.tar "jurisdiction" input.jurisdiction),
    (Ns.t Ns.tar "oidcClientId", optText Ns.tar "oidcClientId" input.oidcClientId),
    (Ns.t Ns.tar "oidcIssuer", optText Ns.tar "oidcIssuer" input.oidcIssuer),
    (Ns.t Ns.tar "allowedScope", texts Ns.tar "allowedScope" input.allowedScopes),
    (Ns.t Ns.dcat "inCatalog", link platform Ns.dcat "inCatalog" base),
    (Ns.t Ns.prov "wasAttributedTo", link platform Ns.prov "wasAttributedTo" actor),
    (Ns.t Ns.dct "modified", datetime platform Ns.dct "modified" draw.now),
    (Ns.t Ns.dct "publisher",
      optLink platform Ns.dct "publisher" (optAgent platform base (draw.site 0) input.operator).1),
    (Ns.t Ns.tar "hasCapability", (Software.mintedCapability platform base (draw.site 1) input.capability).1)]

theorem instanceStatements_eq : Instance.instanceStatements platform base draw input actor software =
    (instanceFields platform base draw input actor software).flatMap Prod.snd := by
  unfold Instance.instanceStatements instanceFields Instance.selfRegisteredStatements attribution attributionAt
  simp only [List.flatMap_cons, List.flatMap_nil, List.append_assoc, List.append_nil, Option.getD_none]

theorem instance_sorted : Sorted (instanceFields platform base draw input actor software) := by
  have types : Only Ns.rdfType (a Instance.typeSoftwareAgent ++ a Instance.typeTarInstance ++
      Instance.serviceType input.endpointUrl) := by
    unfold Instance.serviceType
    split <;> simp [Only, a]
  have issuer : Only (Ns.t Ns.tar "selfRegisteredIssuer") (if input.selfRegisteredBy.isSome then
      optText Ns.tar "selfRegisteredIssuer" input.selfRegisteredIssuer else []) := by
    split
    · exact only_optText _ _ _
    · simp [Only]
  have capability : Only (Ns.t Ns.tar "hasCapability")
      (Software.mintedCapability platform base (draw.site 1) input.capability).1 := by
    cases input.capability with
    | none => simp [Only, Software.mintedCapability]
    | some cap =>
      simp only [Software.mintedCapability]
      exact only_link platform Ns.tar "hasCapability" _
  unfold instanceFields
  simp only [sorted_cons, sorted_nil, and_true]
  and_intros
  all_goals with_reducible first
    | exact types
    | exact issuer
    | exact capability
    | exact only_text _ _ _
    | exact only_optText _ _ _
    | exact only_texts _ _ _
    | exact only_link _ _ _ _
    | exact only_optLink _ _ _ _
    | exact only_datetime _ _ _ _

def instancePredicates : List String :=
  [Ns.rdfType, Ns.t Ns.rdfs "label", Ns.t Ns.dct "description", Ns.t Ns.tar "runsRelease", Ns.t Ns.tar "instanceOf",
    Ns.t Ns.dcat "endpointURL", Ns.t Ns.dcat "endpointDescription", Ns.t Ns.tar "healthEndpoint",
    Ns.t Ns.tar "selfRegisteredBy", Ns.t Ns.tar "selfRegisteredIssuer", Ns.t Ns.tar "instanceKey",
    Ns.t Ns.tar "availability", Ns.t Ns.dct "accessRights", Ns.t Ns.tar "jurisdiction", Ns.t Ns.tar "oidcClientId",
    Ns.t Ns.tar "oidcIssuer", Ns.t Ns.tar "allowedScope", Ns.t Ns.dcat "inCatalog", Ns.t Ns.prov "wasAttributedTo",
    Ns.t Ns.dct "modified", Ns.t Ns.dct "publisher", Ns.t Ns.tar "hasCapability"]

theorem instance_apart : ((instanceFields platform base draw input actor software).map Prod.fst).Nodup := by
  have predicates : (instanceFields platform base draw input actor software).map Prod.fst = instancePredicates := by
    simp only [instanceFields, List.map_cons, List.map_nil, instancePredicates]
  rw [predicates]
  decide

/-- What an Instance's statements say under a predicate is what its field of that predicate says. -/
theorem instance_said {predicate : String} {statements : List Statement}
    (mem : (predicate, statements) ∈ instanceFields platform base draw input actor software) :
    said predicate (Instance.instanceStatements platform base draw input actor software) = statements.map Prod.snd := by
  rw [instanceStatements_eq]
  exact said_field (instance_sorted platform base draw input actor software)
    (instance_apart platform base draw input actor software) mem

end Instances

end ToolArtifactRegistry.Domain.Fields
