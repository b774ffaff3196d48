import ToolArtifactRegistry.Auth.Principal
import ToolArtifactRegistry.Domain.Context

/-! From a verified claim set to a principal: roles, scopes, and the three lookups that bind a
client to a deployment or to a software. -/
namespace ToolArtifactRegistry.Auth.Jwt

open Library.Rdf Library.Text Library.Serde Rdf Domain

/-- A dotted path through the claims. -/
def claimPath (claims : Json) (path : String) : Option Json :=
  (split path (fun c => c == '.')).foldlM (fun value key => value.get? key) claims

def stringList : Json → List String
  | .string text => splitWhitespace text
  | .array items => items.filterMap Json.asString?
  | _ => []

/-- Whether a record that pinned this issuer, or none, accepts a token from that one. -/
def issuerAdmits (cfg : OidcConfig) (declared : Option String) (issuer : String) : Bool :=
  match declared with
  | some pinned => decide (OidcConfig.trimIssuer pinned = issuer)
  | none => decide (cfg.defaultBindingIssuer = some issuer)

structure InstanceBinding where
  instanceIri : String
  label : Option String
  allowedScopes : List String
  registersSoftware : Option String
  deriving DecidableEq

/-- One solution of a binding lookup, grouped by the record and its single-valued columns. -/
structure BindingRow where
  record : Node
  label : Option Term
  issuer : Option Term
  software : Option Term
  scopes : Option String
  deriving DecidableEq

/-- The quads of one predicate about a record in the local graph. -/
def localValues (data : Dataset) (record : Node) (predicate : String) : List Term :=
  (data.matching (fun quad => decide (quad.subject = record ∧ quad.predicate = predicate ∧
    quad.graph = Ns.gLocal))).map Quad.object

/-- An `OPTIONAL` pattern leaves its variable unbound when nothing matches. -/
def optional (values : List Term) : List (Option Term) :=
  if values.isEmpty then [none] else values.map some

def isText : Term → Bool
  | .literal _ datatype language => decide (datatype = xsdString) || language.isSome
  | _ => false

/-- `GROUP_CONCAT(DISTINCT …; separator=" ")`, unbound when a value is not a text. -/
def groupConcat (values : List Term) : Option String :=
  if values.all isText then some (join " " (values.eraseDups.map Props.termValue)) else none

/-- The local records with one of these simple literals under a predicate. -/
def recordsWith (data : Dataset) (predicate : String) (values : List String) : List Node :=
  ((data.matching (fun quad => decide (quad.graph = Ns.gLocal ∧ quad.predicate = predicate ∧
    quad.object ∈ values.map Term.simple))).map Quad.subject).eraseDups

def rowScopes (row : BindingRow) : List String := (row.scopes.map splitWhitespace).getD []

def issuerText (row : BindingRow) : Option String := row.issuer.map Props.termValue

def rowIri (row : BindingRow) : Option String := row.record.iri?

/-- A candidate with a line break cannot stand in the query text. -/
def quotable (candidate : String) : Bool :=
  decide ('\n' ∉ candidate.toList) && decide ('\r' ∉ candidate.toList)

def queryError : AppError := AppError.internal "parsing SPARQL"

section Lookups

variable (cfg : OidcConfig) (data : Dataset)

def clientRows (candidates : List String) : List BindingRow :=
  (recordsWith data (Ns.t Ns.tar "oidcClientId") candidates).flatMap (fun record =>
    (optional (localValues data record (Ns.t Ns.rdfs "label"))).flatMap (fun label =>
      (optional (localValues data record (Ns.t Ns.tar "oidcIssuer"))).map (fun issuer =>
        { record, label, issuer, software := none,
          scopes := groupConcat (localValues data record (Ns.t Ns.tar "allowedScope")) })))

def rowBinding (row : BindingRow) (registersSoftware : Option String) (iri : String) : InstanceBinding where
  instanceIri := iri
  label := row.label.map Props.termValue
  allowedScopes := rowScopes row
  registersSoftware := registersSoftware

/-- The Instance that declared one of these client ids, at an issuer it admits. -/
def findInstanceForClient (issuer : String) (candidates : List String) : AppResult (Option InstanceBinding) :=
  if candidates.isEmpty then .ok none
  else if candidates.all quotable then
    .ok (((clientRows data candidates).filter (fun row => issuerAdmits cfg (issuerText row) issuer)).findSome?
      (fun row => (rowIri row).map (rowBinding row none)))
  else .error queryError

def selfRegisteredRows (candidates : List String) : List BindingRow :=
  ((recordsWith data (Ns.t Ns.tar "selfRegisteredBy") candidates).filter
      (fun record => !isTombstoned data record)).flatMap (fun record =>
    (optional (localValues data record (Ns.t Ns.rdfs "label"))).flatMap (fun label =>
      (optional (localValues data record (Ns.t Ns.tar "instanceOf"))).flatMap (fun software =>
        (optional (localValues data record (Ns.t Ns.tar "selfRegisteredIssuer"))).map (fun issuer =>
          { record, label, issuer, software,
            scopes := groupConcat (localValues data record (Ns.t Ns.tar "allowedScope")) }))))

/-- The deployment a credential registered for itself at this issuer, when there is exactly one. -/
def findSelfRegisteredInstance (issuer : String) (candidates : List String) :
    AppResult (Option InstanceBinding) :=
  if candidates.isEmpty then .ok none
  else if candidates.all quotable then
    match (selfRegisteredRows data candidates).filter (fun row => issuerAdmits cfg (issuerText row) issuer) with
    | [row] => .ok ((rowIri row).map (rowBinding row (row.software.bind Props.namedIri)))
    | _ => .ok none
  else .error queryError

/-- The Software that names one of these clients as a registration client. -/
def findSoftwareForClient (issuer : String) (candidates : List String) : AppResult (Option String) :=
  if candidates.isEmpty then .ok none
  else if candidates.all quotable then
    .ok ((recordsWith data (Ns.t Ns.tar "registrationClient") candidates).findSome? (fun record =>
      if (optional (localValues data record (Ns.t Ns.tar "registrationIssuer"))).any
          (fun pinned => issuerAdmits cfg (pinned.map Props.termValue) issuer) then record.iri?
      else none))
  else .error queryError

end Lookups

section Claims

variable (cfg : OidcConfig) (issuer : String) (claims : Json)

def claimSub : String := ((claims.get? "sub").bind Json.asString?).getD ""

def claimName : Option String :=
  (((claims.get? "preferred_username").or (claims.get? "name")).or (claims.get? "email")).bind Json.asString?

/-- Only the estate's own provider may say who is a curator or an admin. -/
def homeIssuer : Bool := decide (cfg.issuer.map OidcConfig.trimIssuer = some issuer)

def addCandidate (candidates : List String) (path : String) : List String :=
  match (claimPath claims path).bind Json.asString? with
  | some value => if value = "" ∨ value ∈ candidates then candidates else candidates ++ [value]
  | none => candidates

def claimedClients : List String :=
  [cfg.clientClaim, "azp", "client_id", "clientId"].foldl (addCandidate claims) []

/-- The browser sign-in client is a person's, never a deployment's. -/
def isUiClient : Bool :=
  homeIssuer cfg issuer && cfg.clientId.isSome && decide ((claimedClients cfg claims).head? = cfg.clientId)

def candidates : List String :=
  if isUiClient cfg issuer claims then []
  else if claimSub claims = "" then claimedClients cfg claims
  else claimedClients cfg claims ++ [claimSub claims]

def roleStrings : List String :=
  if homeIssuer cfg issuer then
    ((claimPath claims cfg.rolesClaim).map stringList).getD [] ++
      (match cfg.clientId with
        | some client => ((claimPath claims ("resource_access." ++ client ++ ".roles")).map stringList).getD []
        | none => []) ++
      ((claims.get? "roles").map stringList).getD []
  else []

def claimRoles : Finset Role := ((roleStrings cfg issuer claims).filterMap Role.parse).toFinset

/-- The scopes the token carries, of those this registry understands. -/
def tokenScopes : Finset String :=
  (([cfg.scopeClaim, "scope", "scp"].flatMap (fun path => ((claimPath claims path).map stringList).getD [])).filter
    (fun scope => decide (scope ∈ allScopes))).toFinset

def defaultScopes : Finset String := {scopeAdvertiseProduce, scopeAdvertiseConsume}

/-- A deployment's scopes: the token's, else the record's, else the default pair. -/
def boundScopes (binding : InstanceBinding) : Finset String :=
  if (tokenScopes cfg claims) ≠ ∅ then tokenScopes cfg claims
  else if !binding.allowedScopes.isEmpty then binding.allowedScopes.toFinset
  else defaultScopes

def isPerson : Bool :=
  decide (claimRoles cfg issuer claims ≠ ∅) ||
    (homeIssuer cfg issuer && (isUiClient cfg issuer claims || (claims.get? "sid").isSome))

/-- The record a client binds to: one that declares it, else the one it registered. -/
def findBinding (data : Dataset) : AppResult (Option InstanceBinding) := do
  match ← findInstanceForClient cfg data issuer (candidates cfg issuer claims) with
  | some binding => return some binding
  | none => findSelfRegisteredInstance cfg data issuer (candidates cfg issuer claims)

def boundPrincipal (binding : InstanceBinding) : Principal where
  credential := .oidcWorkload
  instanceIri := some binding.instanceIri
  softwareIri := binding.registersSoftware
  subject := (candidates cfg issuer claims).head?.getD (claimSub claims)
  displayName := binding.label.or (claimName claims)
  scopes := boundScopes cfg claims binding
  roles := claimRoles cfg issuer claims
  issuer := some issuer

def unboundSubject : String :=
  if isPerson cfg issuer claims then
    if claimSub claims = "" then (candidates cfg issuer claims).head?.getD "" else claimSub claims
  else ((candidates cfg issuer claims).head?.filter (fun c => c != "")).getD (claimSub claims)

def unboundPrincipal (softwareIri : Option String) : Principal where
  credential := if isPerson cfg issuer claims then .oidcHuman else .oidcWorkload
  instanceIri := none
  softwareIri := softwareIri
  subject := unboundSubject cfg issuer claims
  displayName := claimName claims
  scopes := tokenScopes cfg claims
  roles := claimRoles cfg issuer claims
  issuer := some issuer

/-- Map a verified claim set onto a registry principal. -/
def principalFromClaims (data : Dataset) : AppResult Principal := do
  match ← findBinding cfg issuer claims data with
  | some binding => return boundPrincipal cfg issuer claims binding
  | none =>
    let softwareIri ← if isPerson cfg issuer claims then .ok none
      else findSoftwareForClient cfg data issuer (candidates cfg issuer claims)
    return unboundPrincipal cfg issuer claims softwareIri

end Claims

end ToolArtifactRegistry.Auth.Jwt
