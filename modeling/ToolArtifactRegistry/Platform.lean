import ToolArtifactRegistry.Library.Serde
import ToolArtifactRegistry.Library.Text
import ToolArtifactRegistry.Ns

/-! Errors, configuration, and what the registry takes from outside its own source. -/
namespace ToolArtifactRegistry

open Library.Serde Library.Text Library.Rdf

structure AppError where
  status : Nat
  kind : String
  title : String
  detail : Option String
  report : Option String
  extra : List (String × Json)

abbrev AppResult := Except AppError

/-- A result is read off its evaluation. -/
theorem ok_of_toOption {α : Type} {result : AppResult α} {value : α} (evaluates : result.toOption = some value) :
    result = .ok value := by
  cases result with
  | error e => simp [Except.toOption] at evaluates
  | ok other =>
    simp only [Except.toOption, Option.some.injEq] at evaluates
    rw [evaluates]

namespace AppError

def new (status : Nat) (kind title : String) : AppError := ⟨status, kind, title, none, none, []⟩

def withDetail (error : AppError) (detail : String) : AppError := { error with detail := some detail }

def withField (error : AppError) (key : String) (value : Json) : AppError :=
  { error with extra := setEntry error.extra key value }

def notFound (what : String) : AppError := (new 404 "not-found" "Not found").withDetail what
def badRequest (detail : String) : AppError := (new 400 "bad-request" "Bad request").withDetail detail
def unauthorized (detail : String) : AppError :=
  (new 401 "unauthorized" "Authentication required").withDetail detail
def forbidden (detail : String) : AppError := (new 403 "forbidden" "Forbidden").withDetail detail
def conflict (detail : String) : AppError := (new 409 "conflict" "Conflict").withDetail detail
def badGateway (detail : String) : AppError :=
  (new 502 "upstream-failed" "Upstream request failed").withDetail detail
def internal (detail : String) : AppError := (new 500 "internal" "Internal error").withDetail detail

def validation (reportTtl summary : String) : AppError :=
  { status := 422, kind := "shacl-validation-failed", title := "Write rejected by SHACL validation",
    detail := some summary, report := some reportTtl, extra := [] }

end AppError

structure OidcConfig where
  issuer : Option String := none
  clientId : Option String := none
  workloadIssuers : List String := []
  audience : Option String := none
  requireAudience : Bool := false
  clientClaim : String := "azp"
  rolesClaim : String := "realm_access.roles"
  scopeClaim : String := "tar_scopes"
  autoRegisterInstances : Bool := false

namespace OidcConfig

def trimIssuer (issuer : String) : String := trimEndMatches issuer (fun c => c == '/')

def enabled (cfg : OidcConfig) : Bool := cfg.issuer.isSome || !cfg.workloadIssuers.isEmpty

def addIssuer (accepted : List String) (issuer : String) : List String :=
  if trimIssuer issuer ∈ accepted then accepted else accepted ++ [trimIssuer issuer]

/-- Every issuer whose tokens may authenticate a workload. -/
def acceptedIssuers (cfg : OidcConfig) : List String :=
  cfg.workloadIssuers.foldl addIssuer (cfg.issuer.toList.map trimIssuer)

/-- The issuer a binding is read against when its record names none. -/
def defaultBindingIssuer (cfg : OidcConfig) : Option String :=
  match cfg.issuer with
  | some issuer => some (trimIssuer issuer)
  | none =>
    match cfg.workloadIssuers with
    | [only] => some (trimIssuer only)
    | _ => none

def issuerPinRequired (cfg : OidcConfig) : Bool := cfg.enabled && cfg.defaultBindingIssuer.isNone

end OidcConfig

/-- The base is read from the environment, stripped of trailing slashes, and must be a web address. -/
structure Config where
  baseIri : String
  http : startsWith baseIri "http://" = true ∨ startsWith baseIri "https://" = true
  previousBaseIris : List String := []
  rootToken : Option String := none
  oidc : OidcConfig := {}

/-- The behaviour of libraries the source calls: IRI syntax, date parsing, the check of a write
against the shapes, the verification of a JWT, the hash of a token, and the digest functions. -/
structure Platform where
  validIri : String → Bool
  /-- An RFC 3339 text as UTC to the second, when it parses. -/
  rfc3339 : String → Option String
  /-- The Turtle report and the summary of a write that does not conform. -/
  violations : Dataset → List Quad → Option (String × String)
  /-- The report and the summary of a write that names terms the registry does not hold. -/
  unknownTerms : Dataset → List Quad → Option (String × String)
  /-- The text of a JSON value. -/
  printJson : Json → String
  /-- The triples of a Turtle document read against a base IRI. -/
  turtle : String → String → Except String (List (Node × String × Term))
  /-- The message of a decoder for a JSON value that does not fit the record. -/
  decodeMessage : DecodeError → String
  /-- The payload of a JWT, read without verifying it. -/
  jwtPayload : String → Option Json
  /-- The claims of a token whose signature, expiry and audience hold at this issuer. -/
  jwtClaims : String → Option (List String) → String → Except String Json
  /-- Whether a secret matches a stored hash. -/
  verifySecret : String → String → Bool
  hashSecret : String → String
  /-- Whether an expiry lies before the clock; a text that is not a date never does. -/
  expired : String → String → Bool
  /-- The clock advanced by some seconds, when the calendar reaches that far. -/
  later : String → Nat → Option String
  /-- The first sixteen bytes of a SHA-256 over some texts, in hexadecimal. -/
  digest16 : List String → String
  /-- A digest of exactly this many bytes, written in hexadecimal or in base64, as base64url. -/
  decodeDigest : String → Nat → Option String
  /-- Unicode's alphanumeric characters, and its two case mappings. -/
  alphanumeric : Char → Bool
  lowercase : Char → List Char
  uppercase : Char → List Char
  /-- The `Debug` form of a text. -/
  quoted : String → String

namespace Platform

/-- The shapes, the vocabulary rule and the digest rule, as one check on a candidate write. -/
def enforceWrite (platform : Platform) (data : Dataset) (quads : List Quad) : AppResult Unit :=
  match platform.violations data quads with
  | some (report, summary) => .error (AppError.validation report summary)
  | none => .ok ()

/-- The vocabulary rule alone, for a write path that does not run the shapes. -/
def enforceVocabulary (platform : Platform) (data : Dataset) (quads : List Quad) : AppResult Unit :=
  match platform.unknownTerms data quads with
  | some (report, summary) => .error (AppError.validation report summary)
  | none => .ok ()

end Platform

end ToolArtifactRegistry
