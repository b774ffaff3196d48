import ToolArtifactRegistry.Auth.Jwt
import ToolArtifactRegistry.Ops

/-! The credential a request presents, and the principal it makes. -/
namespace ToolArtifactRegistry.Auth

open Library.Text Library.Serde

/-- The issuer a token names, read before anything about it is verified. -/
def unverifiedIssuer (platform : Platform) (token : String) : Option String :=
  ((platform.jwtPayload token).bind (fun payload => (payload.get? "iss").bind Json.asString?)).map
    OidcConfig.trimIssuer

/-- The audiences a token may carry: the configured one, and the former bases of a registry whose
audience is its own base. -/
def acceptedAudiences (cfg : Config) : Option (List String) :=
  match cfg.oidc.audience, cfg.oidc.requireAudience with
  | some audience, true =>
    some (audience :: if audience = cfg.baseIri then cfg.previousBaseIris else [])
  | _, _ => none

def authenticateJwt (server : Server) (state : State) (token : String) : AppResult Principal :=
  let cfg := server.config.oidc
  if !cfg.enabled then
    .error (AppError.unauthorized
      "this registry accepts registry API tokens only — no OIDC issuer is configured (set TAR_OIDC_ISSUER / TAR_WORKLOAD_ISSUERS to accept Keycloak or Kubernetes tokens)")
  else match unverifiedIssuer server.platform token with
    | none => .error (AppError.unauthorized "token is not a readable JWT")
    | some issuer =>
      if issuer ∈ cfg.acceptedIssuers then
        match server.platform.jwtClaims issuer (acceptedAudiences server.config) token with
        | .error message => .error (AppError.unauthorized ("JWT rejected: " ++ message))
        | .ok claims => Jwt.principalFromClaims cfg issuer claims state.data
      else .error (AppError.unauthorized ("issuer " ++ issuer ++ " is not trusted by this registry (trusted: " ++
        join ", " cfg.acceptedIssuers ++ ")"))

def rootPrincipal : Principal where
  credential := .rootToken
  instanceIri := none
  softwareIri := none
  subject := "urn:tar:root"
  displayName := some "bootstrap admin"
  scopes := allScopes.toFinset
  roles := {Role.admin}
  issuer := none

def tokenPrincipal (row : TokenRow) : Principal where
  credential := .localToken
  instanceIri := row.instanceIri
  softwareIri := row.softwareIri
  subject := row.instanceIri.getD ("urn:tar:token:" ++ row.id)
  displayName := row.label
  scopes := (splitWhitespace row.scopes).toFinset
  roles := ∅
  issuer := none

def dots (text : String) : Nat := (text.toList.filter (fun c => c == '.')).length

/-- A bearer credential: the bootstrap token, a registry token, or a JWT. -/
def authenticate (server : Server) (state : State) (now raw : String) : AppResult Principal :=
  if server.config.rootToken = some raw then .ok rootPrincipal
  else if startsWith raw "tar_" then
    match Ops.verifyToken server.platform state.ops now raw with
    | some row => .ok (tokenPrincipal row)
    | none => .error (AppError.unauthorized "token is unknown, revoked or expired")
  else if dots raw = 2 then authenticateJwt server state raw
  else .error (AppError.unauthorized "unrecognised credential format")

/-- An absent credential is the anonymous principal. -/
def principalOf (server : Server) (state : State) (now : String) : Option String → AppResult Principal
  | none => .ok Principal.anonymous
  | some raw => authenticate server state now raw

end ToolArtifactRegistry.Auth
