import ToolArtifactRegistry.Auth.Authenticate

/-! API tokens: the credential a registry with no identity provider issues for itself. -/
namespace ToolArtifactRegistry.Api.Tokens

open Library.Text Ids Model Store Auth

/-- The unit a duration ends in, and the text before it. -/
def durationParts (text : String) : String × Nat :=
  let body := String.ofList text.toList.dropLast
  match text.toList.getLast? with
  | some 's' => (body, 1)
  | some 'm' => (body, 60)
  | some 'h' => (body, 3600)
  | some 'd' => (body, 86400)
  | _ => (text, 1)

/-- Seconds; the product wraps at 64 bits. -/
def parseDuration (platform : Platform) (text : String) : Except String Nat :=
  let (number, unit) := durationParts (trim text)
  match parseU64 (trim number) with
  | some n => .ok (n * unit % 2 ^ 64)
  | none => .error ("bad duration " ++ platform.quoted (trim text))

/-- The longest duration the calendar's arithmetic takes, in seconds. -/
def longest : Nat := (2 ^ 63 - 1) / 1000

section

variable (server : Server)

/-- The deployment itself, or someone who rules over its record. -/
def mayManage (principal : Principal) (instanceIri : String) : AppResult Unit :=
  if principal.isAdmin || principal.isCurator then .ok ()
  else if principal.actsForInstance instanceIri then .ok ()
  else .error (AppError.forbidden "only the instance owner, a curator or an admin may manage these tokens")

def mayManageSoftware (principal : Principal) : AppResult Unit :=
  if principal.isAdmin || principal.isCurator then .ok ()
  else .error (AppError.forbidden
    "only a curator or an admin may issue an auto-registration key for a piece of software")

/-- One scope of a request: it must be known, and only an admin may hand out admin. -/
def checkScope (principal : Principal) (scope : String) : AppResult Unit :=
  if scope ∉ allScopes then
    .error (AppError.badRequest ("unknown scope " ++ server.platform.quoted scope ++ "; known: " ++ join ", " allScopes))
  else if scope = scopeAdmin ∧ !principal.isAdmin then
    .error (AppError.forbidden "only an admin can mint an admin:* token")
  else .ok ()

def checkScopes (principal : Principal) : List String → AppResult Unit
  | [] => .ok ()
  | scope :: rest => do
    checkScope server principal scope
    checkScopes principal rest

def lifetime (draw : Draw) : Option String → AppResult (Option String)
  | none => .ok none
  | some text =>
    match parseDuration server.platform text with
    | .error message => .error (AppError.badRequest message)
    | .ok seconds =>
      if longest < seconds then .error (AppError.badRequest "Source duration value is out of range for the target type")
      else match server.platform.later draw.now seconds with
        | some expiry => .ok (some expiry)
        | none => .error (AppError.internal "DateTime + TimeDelta overflowed")

def scopesOr (fallback : List String) (input : MintToken) : List String :=
  if input.scopes.isEmpty then fallback else input.scopes

structure Minted where
  token : String
  record : TokenRow

/-- The row a request mints once it is allowed to. -/
def mintPlan (state : State) (draw : Draw) (principal : Principal) (subject : TokenSubject) (iri what : String)
    (fallback : List String) (input : MintToken) : AppResult (TokenRow × Ops) := do
  if !(← exists_ server.platform state.data iri) then .error (AppError.notFound (what ++ iri))
  checkScopes server principal (scopesOr fallback input)
  let expiry ← lifetime server draw input.expiresIn
  let row := Ops.tokenRow server.platform draw subject (scopesOr fallback input) input.label (some principal.subject) expiry
  let ops ← state.ops.addToken row
  return (row, ops)

/-- The plaintext is shown exactly once. -/
def settle (state : State) (draw : Draw) (plan : AppResult (TokenRow × Ops)) : Outcome Minted :=
  Outcome.planned state plan (fun (row, ops) => ⟨{ state with ops }, .ok ⟨Ops.plaintext draw, row⟩⟩)

def instanceDefaults : List String := [scopeAdvertiseProduce, scopeAdvertiseConsume]

def create (state : State) (draw : Draw) (principal : Principal) (id : String) (input : MintToken) : Outcome Minted :=
  let iri := iriFor server.base .instance_ id
  settle state draw (do
    mayManage principal iri
    mintPlan server state draw principal (.instance_ iri) iri "no instance at " instanceDefaults input)

def softwareDefaults : List String := [scopeRegisterInstance, scopeAdvertiseProduce, scopeAdvertiseConsume]

/-- Mint an auto-registration key. -/
def createForSoftware (state : State) (draw : Draw) (principal : Principal) (id : String) (input : MintToken) :
    Outcome Minted :=
  let iri := iriFor server.base .software id
  settle state draw (do
    mayManageSoftware principal
    mintPlan server state draw principal (.software iri) iri "no software at " softwareDefaults input)

/-- A token is revoked under the record it was issued for. -/
def owned (state : State) (tokenId : String) (of : TokenRow → Option String) (iri what : String) : AppResult Unit :=
  match state.ops.getToken tokenId with
  | none => .error (AppError.notFound "no such token")
  | some row => if of row ≠ some iri then .error (AppError.notFound what) else .ok ()

def revokeIn (state : State) (draw : Draw) (tokenId : String) (plan : AppResult Unit) : Outcome Unit :=
  Outcome.planned state plan (fun _ => ⟨{ state with ops := state.ops.revokeToken draw.now tokenId }, .ok ()⟩)

def revoke (state : State) (draw : Draw) (principal : Principal) (id tokenId : String) : Outcome Unit :=
  let iri := iriFor server.base .instance_ id
  revokeIn state draw tokenId (do
    mayManage principal iri
    owned state tokenId TokenRow.instanceIri iri "no such token for this instance")

def revokeForSoftware (state : State) (draw : Draw) (principal : Principal) (id tokenId : String) : Outcome Unit :=
  let iri := iriFor server.base .software id
  revokeIn state draw tokenId (do
    mayManageSoftware principal
    owned state tokenId TokenRow.softwareIri iri "no such token for this software")

end

end ToolArtifactRegistry.Api.Tokens
