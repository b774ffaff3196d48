import ToolArtifactRegistry.Auth.Binding
import ToolArtifactRegistry.Library.Orders

/-! What a token is bound to when the rows of the lookups come in any order: the queries have none of their
own, and the candidates they name are a set to the engine. -/
namespace ToolArtifactRegistry.Auth.Ordering

open Library.Rdf Library.Text Library.Serde Library.Orders Rdf Domain Jwt

/-- The orders in which the three lookups return their rows. -/
structure RowOrder where
  clients : Order BindingRow
  registered : Order BindingRow
  software : Order (Node × Option Term)

section Lookups

variable (cfg : OidcConfig) (data : Dataset) (order : RowOrder) (issuer : String) (candidates : List String)

def admitted (row : BindingRow) : Bool := issuerAdmits cfg (issuerText row) issuer

/-- What a row of the client lookup binds, when its record has an IRI. -/
def declaredBinding (row : BindingRow) : Option InstanceBinding :=
  if admitted cfg issuer row then (rowIri row).map (rowBinding row none) else none

def findInstanceForClientBy : AppResult (Option InstanceBinding) :=
  if candidates.isEmpty then .ok none
  else if candidates.all quotable then
    .ok ((order.clients.arrange (clientRows data candidates)).findSome? (declaredBinding cfg issuer))
  else .error queryError

def findSelfRegisteredInstanceBy : AppResult (Option InstanceBinding) :=
  if candidates.isEmpty then .ok none
  else if candidates.all quotable then
    match (order.registered.arrange (selfRegisteredRows data candidates)).filter (admitted cfg issuer) with
    | [row] => .ok ((rowIri row).map (rowBinding row (row.software.bind Props.namedIri)))
    | _ => .ok none
  else .error queryError

/-- One row for each candidate a Software names and each issuer it pins. -/
def softwareRows : List (Node × Option Term) :=
  candidates.flatMap (fun candidate => (recordsWith data (Ns.t Ns.tar "registrationClient") [candidate]).flatMap
    (fun record => (Jwt.optional (localValues data record (Ns.t Ns.tar "registrationIssuer"))).map (fun pinned => (record, pinned))))

def declaredSoftware (row : Node × Option Term) : Option String :=
  if issuerAdmits cfg (row.2.map Props.termValue) issuer then row.1.iri? else none

def findSoftwareForClientBy : AppResult (Option String) :=
  if candidates.isEmpty then .ok none
  else if candidates.all quotable then
    .ok ((order.software.arrange (softwareRows data candidates)).findSome? (declaredSoftware cfg issuer))
  else .error queryError

end Lookups

/-- What a token is bound to, and by which lookup. -/
inductive Bound where
  | declared (binding : InstanceBinding)
  | registered (binding : InstanceBinding)
  | software (iri : String)
  | nothing

section Claims

variable (cfg : OidcConfig) (issuer : String) (claims : Json) (data : Dataset) (order : RowOrder)

def boundBy : AppResult Bound := do
  match ← findInstanceForClientBy cfg data order issuer (candidates cfg issuer claims) with
  | some binding => return .declared binding
  | none =>
    match ← findSelfRegisteredInstanceBy cfg data order issuer (candidates cfg issuer claims) with
    | some binding => return .registered binding
    | none =>
      if isPerson cfg issuer claims then return .nothing
      else
        match ← findSoftwareForClientBy cfg data order issuer (candidates cfg issuer claims) with
        | some iri => return .software iri
        | none => return .nothing

def principalOf : Bound → Principal
  | .declared binding => boundPrincipal cfg issuer claims binding
  | .registered binding => boundPrincipal cfg issuer claims binding
  | .software iri => unboundPrincipal cfg issuer claims (some iri)
  | .nothing => unboundPrincipal cfg issuer claims none

end Claims

section Stored

variable {cfg : OidcConfig} {data : Dataset} {issuer : String} {candidates : List String}

theorem mem_softwareRows {row : Node × Option Term} : row ∈ softwareRows data candidates ↔
    row.1 ∈ recordsWith data (Ns.t Ns.tar "registrationClient") candidates ∧
      row.2 ∈ Jwt.optional (localValues data row.1 (Ns.t Ns.tar "registrationIssuer")) := by
  simp only [softwareRows, List.mem_flatMap, List.mem_map, Binding.mem_recordsWith]
  constructor
  · rintro ⟨candidate, listed, record, ⟨value, same, held⟩, pinned, mem, rfl⟩
    rw [List.mem_singleton.1 same] at held
    exact ⟨⟨candidate, listed, held⟩, mem⟩
  · rintro ⟨⟨candidate, listed, held⟩, mem⟩
    exact ⟨candidate, listed, row.1, ⟨candidate, List.mem_singleton_self _, held⟩, row.2, mem, rfl⟩

/-- A Software answers with its IRI at any issuer it pins that admits the token. -/
theorem declaredSoftware_some {row : Node × Option Term} {iri : String} :
    declaredSoftware cfg issuer row = some iri ↔
      issuerAdmits cfg (row.2.map Props.termValue) issuer = true ∧ row.1 = .named iri := by
  unfold declaredSoftware
  rw [Option.ite_none_right_eq_some]
  cases row.1 <;> simp [Node.iri?]

/-- The Software the store's own order gives is the first in some order of the rows. -/
theorem software_of_order : ∃ order : Order (Node × Option Term), ∀ clients registered,
    findSoftwareForClientBy cfg data ⟨clients, registered, order⟩ issuer candidates =
      findSoftwareForClient cfg data issuer candidates := by
  unfold findSoftwareForClientBy findSoftwareForClient
  cases found : (recordsWith data (Ns.t Ns.tar "registrationClient") candidates).findSome? (fun record =>
      if (Jwt.optional (localValues data record (Ns.t Ns.tar "registrationIssuer"))).any
          (fun pinned => issuerAdmits cfg (pinned.map Props.termValue) issuer) then record.iri? else none) with
  | some iri =>
    obtain ⟨record, listed, answered⟩ := List.exists_of_findSome?_eq_some found
    obtain ⟨some_, named⟩ := Option.ite_none_right_eq_some.1 answered
    obtain ⟨pinned, held, admits⟩ := List.any_eq_true.1 some_
    have answers : declaredSoftware cfg issuer (record, pinned) = some iri := (if_pos admits).trans named
    refine ⟨Order.leading (fun row => decide (row = (record, pinned))), fun _ _ => ?_⟩
    rw [Order.first_leading (mem_softwareRows.2 ⟨listed, held⟩) answers]
  | none =>
    refine ⟨Order.asStored, fun _ _ => ?_⟩
    have none_ : (Order.asStored.arrange (softwareRows data candidates)).findSome? (declaredSoftware cfg issuer) = none := by
      rw [Order.first_none_iff]
      intro row mem
      obtain ⟨listed, held⟩ := mem_softwareRows.1 mem
      have missed := List.findSome?_eq_none_iff.1 found row.1 listed
      unfold declaredSoftware
      split
      · rename_i admits
        rwa [if_pos (List.any_eq_true.2 ⟨row.2, held, admits⟩)] at missed
      · rfl
    rw [none_]

end Stored

/-- The store's own order is one of them. -/
theorem principal_of_order (cfg : OidcConfig) (issuer : String) (claims : Json) (data : Dataset) :
    ∃ order, (boundBy cfg issuer claims data order).map (principalOf cfg issuer claims) =
      principalFromClaims cfg issuer claims data := by
  obtain ⟨software, same⟩ := @software_of_order cfg data issuer (candidates cfg issuer claims)
  refine ⟨⟨Order.asStored, Order.asStored, software⟩, ?_⟩
  unfold boundBy principalFromClaims findBinding
  rw [same]
  have client : findInstanceForClientBy cfg data ⟨Order.asStored, Order.asStored, software⟩ issuer
      (candidates cfg issuer claims) = findInstanceForClient cfg data issuer (candidates cfg issuer claims) := by
    unfold findInstanceForClientBy findInstanceForClient
    rw [findSome_filter]
    rfl
  have registered : findSelfRegisteredInstanceBy cfg data ⟨Order.asStored, Order.asStored, software⟩ issuer
      (candidates cfg issuer claims) = findSelfRegisteredInstance cfg data issuer (candidates cfg issuer claims) := rfl
  rw [client, registered]
  cases findInstanceForClient cfg data issuer (candidates cfg issuer claims) with
  | error e => rfl
  | ok declared =>
    cases declared with
    | some binding => rfl
    | none =>
      cases findSelfRegisteredInstance cfg data issuer (candidates cfg issuer claims) with
      | error e => rfl
      | ok own =>
        cases own with
        | some binding => rfl
        | none =>
          simp only [bind, Except.bind, pure, Except.pure]
          cases isPerson cfg issuer claims with
          | true => rfl
          | false =>
            cases findSoftwareForClient cfg data issuer (candidates cfg issuer claims) with
            | error e => rfl
            | ok named => cases named <;> rfl

end ToolArtifactRegistry.Auth.Ordering
