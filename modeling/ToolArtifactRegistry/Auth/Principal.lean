import Mathlib.Data.Finset.Basic
import Mathlib.Data.Finset.Sort
import Mathlib.Data.String.Basic
import ToolArtifactRegistry.Platform

/-! Principals and the guards every handler asks. -/
namespace ToolArtifactRegistry.Auth

open Library.Text

def scopeAdvertiseProduce : String := "advertise:produce"
def scopeAdvertiseConsume : String := "advertise:consume"
def scopeRegisterSoftware : String := "register:software"
def scopeRegisterInstance : String := "register:instance"
def scopeReadPrivate : String := "read:private"
def scopeSubscribeArtifacts : String := "subscribe:artifacts"
def scopeAdmin : String := "admin:*"

def allScopes : List String :=
  [scopeAdvertiseProduce, scopeAdvertiseConsume, scopeRegisterSoftware, scopeRegisterInstance,
    scopeReadPrivate, scopeSubscribeArtifacts, scopeAdmin]

inductive CredentialKind where
  | none
  | localToken
  | oidcWorkload
  | oidcHuman
  | rootToken
  deriving DecidableEq

inductive Role where
  | reader
  | curator
  | admin
  deriving DecidableEq

def Role.parse (text : String) : Option Role :=
  match toAsciiLowercase (trim text) with
  | "reader" => some .reader
  | "tar-reader" => some .reader
  | "tar_reader" => some .reader
  | "curator" => some .curator
  | "tar-curator" => some .curator
  | "tar_curator" => some .curator
  | "admin" => some .admin
  | "tar-admin" => some .admin
  | "tar_admin" => some .admin
  | _ => none

structure Principal where
  credential : CredentialKind
  /-- The deployment this credential acts as. -/
  instanceIri : Option String
  /-- The software this credential may register deployments of. -/
  softwareIri : Option String
  subject : String
  displayName : Option String
  scopes : Finset String
  roles : Finset Role
  issuer : Option String
  deriving DecidableEq

namespace Principal

def anonymous : Principal := ⟨.none, none, none, "anonymous", none, ∅, ∅, none⟩

def isAnonymous (p : Principal) : Bool := p.credential == .none

def isAdmin (p : Principal) : Bool := decide (Role.admin ∈ p.roles) || decide (scopeAdmin ∈ p.scopes)

def isCurator (p : Principal) : Bool := p.isAdmin || decide (Role.curator ∈ p.roles)

/-- Holds `subscribe:artifacts` and no other scope. -/
def isSubscribeOnly (p : Principal) : Bool :=
  decide (p.scopes ≠ ∅) && decide (∀ s ∈ p.scopes, s = scopeSubscribeArtifacts)

def actsForInstance (p : Principal) (instanceIri : String) : Bool :=
  decide (p.instanceIri = some instanceIri) && !p.isSubscribeOnly

def hasScope (p : Principal) (scope : String) : Bool := p.isAdmin || decide (scope ∈ p.scopes)

def requireAuthenticated (p : Principal) : AppResult Unit :=
  if p.isAnonymous then
    .error (AppError.unauthorized
      "this endpoint needs a credential: an OIDC token from a trusted issuer, or a registry API token")
  else .ok ()

def heldScopes (p : Principal) : String :=
  if p.scopes = ∅ then "none" else join " " (p.scopes.sort (· ≤ ·))

def requireScope (p : Principal) (scope : String) : AppResult Unit := do
  p.requireAuthenticated
  if p.hasScope scope then return
  .error (AppError.forbidden ("credential lacks the " ++ scope ++ " scope (has: " ++ p.heldScopes ++ ")"))

def requireCurator (p : Principal) : AppResult Unit := do
  p.requireAuthenticated
  if p.isCurator || p.hasScope scopeRegisterSoftware then return
  .error (AppError.forbidden "curator role required")

def requireAdmin (p : Principal) : AppResult Unit := do
  p.requireAuthenticated
  if p.isAdmin then return
  .error (AppError.forbidden "admin role required")

def requireInstance (p : Principal) : AppResult String := do
  p.requireAuthenticated
  match p.instanceIri with
  | some iri => return iri
  | none => .error (AppError.forbidden
      "this credential does not act as an Instance; advertisement must be authenticated as the deployment that performed the run (spec §8.3)")

theorem isAdmin_iff {p : Principal} : p.isAdmin = true ↔ Role.admin ∈ p.roles ∨ scopeAdmin ∈ p.scopes := by
  simp [isAdmin]

theorem hasScope_iff {p : Principal} {scope : String} :
    p.hasScope scope = true ↔ p.isAdmin = true ∨ scope ∈ p.scopes := by
  simp [hasScope]

theorem requireScope_ok {p : Principal} {scope : String} :
    p.requireScope scope = .ok () ↔ p.credential ≠ .none ∧ p.hasScope scope = true := by
  unfold requireScope requireAuthenticated isAnonymous
  by_cases anon : p.credential = .none
  · simp [anon, bind, Except.bind]
  · by_cases held : p.hasScope scope = true <;> simp [anon, held, bind, Except.bind, pure, Except.pure]

theorem requireCurator_ok {p : Principal} :
    p.requireCurator = .ok () ↔
      p.credential ≠ .none ∧ (p.isCurator = true ∨ p.hasScope scopeRegisterSoftware = true) := by
  unfold requireCurator requireAuthenticated isAnonymous
  by_cases anon : p.credential = .none
  · simp [anon, bind, Except.bind]
  · by_cases curator : p.isCurator = true
    · simp [anon, curator, bind, Except.bind, pure, Except.pure]
    · by_cases held : p.hasScope scopeRegisterSoftware = true <;>
        simp [anon, curator, held, bind, Except.bind, pure, Except.pure]

theorem requireAdmin_ok {p : Principal} :
    p.requireAdmin = .ok () ↔ p.credential ≠ .none ∧ p.isAdmin = true := by
  unfold requireAdmin requireAuthenticated isAnonymous
  by_cases anon : p.credential = .none
  · simp [anon, bind, Except.bind]
  · by_cases admin : p.isAdmin = true <;> simp [anon, admin, bind, Except.bind, pure, Except.pure]

theorem requireInstance_ok {p : Principal} {iri : String} :
    p.requireInstance = .ok iri ↔ p.credential ≠ .none ∧ p.instanceIri = some iri := by
  unfold requireInstance requireAuthenticated isAnonymous
  by_cases anon : p.credential = .none
  · simp [anon, bind, Except.bind]
  · cases bound : p.instanceIri <;> simp [anon, bind, Except.bind, pure, Except.pure]

end Principal

end ToolArtifactRegistry.Auth
