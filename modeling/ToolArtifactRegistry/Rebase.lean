import ToolArtifactRegistry.Ids
import ToolArtifactRegistry.Platform

/-! Changing the base IRI after data exists: which pairs of bases are accepted, how an IRI under
the old one is renamed, and where a request to an old host is sent. -/
namespace ToolArtifactRegistry.Rebase

open Library.Text Ids

def isUnder (iri base : String) : Bool := (stripPrefix iri base).any (fun rest => startsWith rest "/")

/-- Equal and nested bases are refused, whatever slashes they end with. -/
def checkBases (platform : Platform) (old new : String) : Except String Unit :=
  let old := trimSlash old
  let new := trimSlash new
  if !isHttp old then .error (platform.quoted old ++ " is not an http(s) URL")
  else if old = new then .error (platform.quoted old ++ " is the current TAR_BASE_IRI")
  else if isUnder new old || isUnder old new then
    .error (platform.quoted old ++ " and " ++ platform.quoted new ++
      " are nested; one base cannot be a prefix of the other")
  else .ok ()

/-- The renamed IRI, when it is the old base itself or lies under it. -/
def rewriteIri (iri old new : String) : Option String :=
  match stripPrefix iri old with
  | none => none
  | some "" => some new
  | some rest => (stripPrefix rest "/").map (fun rest => new ++ "/" ++ rest)

/-- The bases a registry runs with. -/
structure Bases where
  baseIri : String
  previousBaseIris : List String

/-- A variable that is set to more than white space. -/
def env (value : Option String) : Option String := value.filter (fun v => trim v != "")

/-- The base and the comma-separated previous bases, as the environment gives them. -/
def readBases (platform : Platform) (base previous : Option String) : Except String Bases := do
  let some base := env base
    | .error "TAR_BASE_IRI is required — the registry cannot mint dereferenceable IRIs without it"
  let baseIri := trimSlash base
  if !isHttp baseIri then .error ("TAR_BASE_IRI must be an http(s) URL, got " ++ platform.quoted baseIri)
  let previousBaseIris :=
    ((split ((env previous).getD "") (fun c => c == ',')).map (fun s => trimSlash (trim s))).filter (fun s => s != "")
  previousBaseIris.forM (fun old => checkBases platform old baseIri)
  return ⟨baseIri, previousBaseIris⟩

/-- What a URL parser makes of a base: the port is left out when it is the scheme's own. -/
structure Url where
  host : Option String
  port : Option Nat
  path : String

/-- The URL parser and the check of a header value. The path of a parsed URL is percent-encoded, so
it can stand in a header and holds no question mark. -/
structure Web where
  parseUrl : String → Option Url
  headerChar : Char → Bool
  slash : headerChar '/' = true
  encoded : ∀ text url, parseUrl text = some url → ∀ c ∈ url.path.toList, headerChar c = true ∧ c ≠ '?'

def Web.headerValue (web : Web) (text : String) : Bool := text.toList.all web.headerChar

/-- A request line with its `Host` header; what arrived as a path can be sent back in a header. -/
structure Addressed (web : Web) where
  host : Option String
  pathAndQuery : String
  visible : web.headerValue pathAndQuery = true

def Url.authority (url : Url) : Option String :=
  match url.port with
  | some port => url.host.map (fun host => host ++ ":" ++ toString port)
  | none => url.host

def Url.prefix_ (url : Url) : String := trimSlash url.path

/-- What follows a path in a request below it. -/
def restUnder (pathAndQuery pre : String) : Option String :=
  (stripPrefix pathAndQuery pre).filter (fun rest => rest == "" || startsWith rest "/" || startsWith rest "?")

/-- The rest of a request addressed to a base: host, port and path prefix agree, the scheme is not
compared. -/
def restAt (web : Web) (base : String) (request : Addressed web) : Option String := do
  let host ← request.host
  let url ← web.parseUrl base
  let authority ← url.authority
  if eqIgnoreAsciiCase host authority then restUnder request.pathAndQuery url.prefix_ else none

def redirectTarget (web : Web) (request : Addressed web) (previous : List String) (new : String) : Option String :=
  previous.findSome? (fun old => (restAt web old request).map (fun rest => new ++ rest))

/-- The `Location` a request is answered with, when it is redirected. -/
def redirect (web : Web) (bases : Bases) (request : Addressed web) : Option String :=
  if bases.previousBaseIris = [] then none
  else (redirectTarget web request bases.previousBaseIris (trimSlash bases.baseIri)).filter web.headerValue

end ToolArtifactRegistry.Rebase
