import ToolArtifactRegistry.Ids
import ToolArtifactRegistry.Library.Percent
import ToolArtifactRegistry.Mcp.Transport

/-! The tools that name one record: a call becomes a request of the REST interface, dispatched in the same process. -/
namespace ToolArtifactRegistry.Mcp.Call

open Library.Serde Library.Text Ids Auth

def enc (text : String) : String := Library.Percent.encode Library.Percent.alphanumeric text

/-- A query string from the pairs whose value is present and non-empty. -/
def query (pairs : List (String × Option String)) : String :=
  let parts := pairs.filterMap (fun pair => (pair.2.filter (fun value => value != "")).map (fun value => pair.1 ++ "=" ++ enc value))
  if parts.isEmpty then "" else "?" ++ join "&" parts

def strArg (args : Json) (key : String) : Option String :=
  (((args.get? key).bind Json.asString?).map trim).filter (fun text => text != "")

def asI64 : Json → Option Int
  | .number text => parseI64 text
  | _ => none

def numArg (args : Json) (key : String) : Option String := ((args.get? key).bind asI64).map (fun n => toString n)

/-- A record id for a path position: accept either a bare local id or a full IRI. -/
def pathId (arg : String) : String := enc (if isHttp arg then iriTail arg else arg)

/-- The argument keys that map one-to-one onto a request body. -/
def bodyFrom (args : Json) (keys : List String) : Json :=
  .object (keys.foldl (fun out key => match args.get? key with
    | none => out
    | some .null => out
    | some value => setEntry out key value) [])

/-- A request of the REST interface; the query is what follows the path. -/
structure Request where
  method : String
  path : String
  query : String := ""
  body : Option Json := none

/-- What a handler of one record does. -/
inductive Action where
  | get
  | patch
  | lineage
  | createRelease
  deriving DecidableEq, Repr

/-- A route with the id of a record in its path. -/
structure Route where
  method : String
  collection : String
  below : Option String
  action : Action
  kind : Kind

/-- The routes by which the tools reach one record. -/
def routes : List Route :=
  [⟨"GET", "software", none, .get, .software⟩, ⟨"PATCH", "software", none, .patch, .software⟩,
   ⟨"POST", "software", some "releases", .createRelease, .software⟩, ⟨"GET", "instances", none, .get, .instance_⟩,
   ⟨"GET", "artifacts", none, .get, .artifact⟩, ⟨"GET", "artifacts", some "lineage", .lineage, .artifact⟩,
   ⟨"GET", "runs", none, .get, .run⟩, ⟨"GET", "types", none, .get, .type⟩]

/-- The paths with a word where an id would stand that are routes of their own, and what they answer to a `GET` with no query. -/
def keptWord (collection id : String) : Option AppError :=
  if collection = "instances" ∧ id = "self" then some ((AppError.new 405 "" "").withDetail "")
  else if collection = "artifacts" ∧ id = "identify" then
    some (AppError.badRequest
      "send the digest as `value`, with the algorithm that produced it as `algorithm` (default sha256)")
  else none

/-- The action, the kind and the segment of the path that a request leads to. -/
def route (method path : String) : Except AppError (Action × Kind × String) :=
  let found (collection id : String) (below : Option String) :=
    match routes.find? (fun route => route.method == method && route.collection == collection && route.below == below) with
    | some route => .ok (route.action, route.kind, id)
    | none => .error ((AppError.new 404 "" "").withDetail "")
  match split path (fun c => c == '/') with
  | [_, _, _, collection, id] =>
    match keptWord collection id with
    | some refusal => .error refusal
    | none => found collection id none
  | [_, _, _, collection, id, below] => found collection id (some below)
  | _ => .error ((AppError.new 404 "" "").withDetail "")

/-- What the handlers of the REST interface do: each works on one IRI. -/
abbrev Handlers (σ : Type) := Action → Kind → String → Request → σ → AppResult Json × σ

/-- The longest address of a request. -/
def uriLimit : Nat := 65534

section

variable {σ : Type} (handlers : Handlers σ) (base : String)

/-- The record a request leads to: what the handler expands the id in the path to. -/
def target (req : Request) : AppResult (Action × Kind × String) :=
  if uriLimit < (req.path ++ req.query).length then .error (AppError.internal "could not build the internal request")
  else match route req.method req.path with
    | .error refusal => .error refusal
    | .ok (action, kind, segment) =>
      match Library.Percent.decode segment with
      | none => .error ((AppError.new 400 "" "").withDetail "Invalid URL: Invalid UTF-8 in `id`")
      | some id => .ok (action, kind, iriFor base kind id)

/-- Dispatch one request through the registry's own router. -/
def rest (req : Request) (state : σ) : AppResult Json × σ :=
  match target base req with
  | .error refusal => (.error refusal, state)
  | .ok (action, kind, iri) => handlers action kind iri req state

/-- A registry error response as something a model can act on. -/
def problemToMessage (error : AppError) : String :=
  let detail := error.detail.getD error.title
  if error.status = 422 then
    "The registry refused this write: one or more fields are not values it accepts.\n\nOffending fields: " ++ detail ++
      "\n\nFix exactly the named field(s) and retry. If you cannot establish the true value of a field, remove it from " ++
      "the request rather than substituting a plausible one — the registry renders an absent field honestly. If the field " ++
      "is a vocabulary IRI, get a real one from `vocab_search`, or register the term with `register_artifact_type`. If " ++
      "the field is a closed value set, get the allowed values from `list_enumerations`."
  else if error.status = 403 then
    "Refused: " ++ detail ++ "\n\nThis is an authorisation limit on your credential, not a mistake in the arguments. Do " ++
      "not retry with different arguments; report it, or ask for the role or scope you are missing."
  else if error.status = 401 then "The credential on this request was rejected by the registry: " ++ detail
  else if error.status = 404 then
    "Not found: " ++ detail ++ "\n\nCheck the id with `search_registry` or `list_records` — it may belong to another " ++
      "registry, or be an id you assumed rather than read."
  else if error.status = 409 then "Conflict: " ++ detail
  else if error.status = 400 then "The registry rejected the arguments: " ++ detail
  else "The registry returned " ++ toString error.status ++ ": " ++ detail

/-- The four tools that take the id of one record. -/
inductive Tool where
  | getRecord
  | lineage
  | updateSoftware
  | addRelease
  deriving DecidableEq, Repr

/-- The argument that names the record. -/
def Tool.key : Tool → String
  | .addRelease => "software"
  | _ => "id"

def softwareFields : List String :=
  ["name", "tagline", "description", "homepage", "code_repository", "documentation", "download_url", "readme",
   "readme_base_url", "image", "license", "kinds", "maturity", "deployable", "topics", "keywords", "publications",
   "capability"]

/-- The body of an update: the fields of a record, and the two that a null clears. -/
def softwareBody (args : Json) : Json :=
  match bodyFrom args softwareFields with
  | .object entries => .object (["publisher", "contact"].foldl (fun out key => match args.get? key with
    | none => out
    | some value => setEntry out key value) entries)
  | other => other

def releaseFields : List String :=
  ["version", "date_published", "container_image", "image_digest", "changelog", "install_command", "downloads",
   "capability"]

/-- The kinds `get_record` reads, with their collections. -/
def readable : List (String × String × Kind) :=
  [("software", "software", .software), ("instance", "instances", .instance_), ("artifact", "artifacts", .artifact),
   ("run", "runs", .run), ("type", "types", .type)]

/-- The kind of record a call is about; the last of them only of one that `get_record` names. -/
def Tool.kind (tool : Tool) (args : Json) : Option Kind :=
  match tool with
  | .getRecord => (readable.find? (fun entry => entry.1 == (strArg args "kind").getD "software")).map (fun entry => entry.2.2)
  | .lineage => some .artifact
  | .updateSoftware => some .software
  | .addRelease => some .software

def pathOf (collection arg : String) : String := "/api/v1/" ++ collection ++ "/" ++ pathId arg

/-- The request a call makes for the record its argument names. -/
def request (tool : Tool) (args : Json) (arg : String) : Except String Request :=
  match tool with
  | .getRecord =>
    let kind := (strArg args "kind").getD "software"
    match readable.find? (fun entry => entry.1 == kind) with
    | some (_, collection, _) => .ok { method := "GET", path := pathOf collection arg }
    | none => .error ("`" ++ kind ++ "` is not a readable record kind here. Use software, instance, artifact, run or type; for one release, list the software's releases with `list_records`.")
  | .lineage => .ok { method := "GET", path := pathOf "artifacts" arg ++ "/lineage",
                      query := query [("depth", numArg args "depth"), ("direction", strArg args "direction")] }
  | .updateSoftware => .ok { method := "PATCH", path := pathOf "software" arg, body := some (softwareBody args) }
  | .addRelease => .ok { method := "POST", path := pathOf "software" arg ++ "/releases",
                         body := some (bodyFrom args releaseFields) }

def success (tool : Tool) (args : Json) (arg : String) : String :=
  match tool with
  | .getRecord => "The " ++ (strArg args "kind").getD "software" ++ " record for " ++ arg ++ "."
  | .lineage => "Lineage around " ++ arg ++ "."
  | .updateSoftware => "Updated."
  | .addRelease => "Release recorded."

/-- One call of a tool, and the state it leaves. -/
def call (tool : Tool) (args : Json) (state : σ) : Outcome × σ :=
  match strArg args tool.key with
  | none => (⟨"`" ++ tool.key ++ "` is required", none, true⟩, state)
  | some arg =>
    match request tool args arg with
    | .error refusal => (⟨refusal, none, true⟩, state)
    | .ok req =>
      match rest handlers base req state with
      | (.error error, after) => (⟨problemToMessage error, none, true⟩, after)
      | (.ok body, after) => (⟨success tool args arg, some body, false⟩, after)

end

/-! The catalogue of tools, and what is asked before one is called. -/

/-- What authority a tool needs. -/
inductive Gate where
  | read
  | curator
  | curatorOrScope (scope : String)
  | instanceScope (scope : String)
  deriving DecidableEq

def Gate.allows (p : Principal) (publicRead : Bool) : Gate → Bool
  | .read => publicRead || !p.isAnonymous
  | .curator => p.isCurator || p.hasScope scopeRegisterSoftware
  | .curatorOrScope scope => p.isCurator || p.hasScope scope
  | .instanceScope scope => p.instanceIri.isSome && p.hasScope scope

/-- What a model is told when it calls a tool it may not call. -/
def Gate.refusal (p : Principal) (gate : Gate) : String :=
  let held := if p.scopes = ∅ then "no scopes" else p.heldScopes
  match gate with
  | .read => "this registry does not serve anonymous reads; this tool needs a credential"
  | .curator => "this tool needs the curator role or the " ++ scopeRegisterSoftware ++ " scope; your credential has " ++ held ++
      ". Ask a registry curator to make the change, or to grant the scope."
  | .curatorOrScope scope => "this tool needs the curator role or the " ++ scope ++ " scope; your credential has " ++ held ++ "."
  | .instanceScope scope =>
    if p.instanceIri.isNone then
      "this tool advertises on behalf of a deployment, so it needs a credential that acts as an Instance (an instance API " ++
        "token, or an OIDC workload token whose client id an Instance declares). Your credential does not map to an " ++
        "Instance, and the registry never takes the Instance from the request body. It also needs the " ++ scope ++ " scope."
    else "this tool needs the " ++ scope ++ " scope; your credential has " ++ held ++ "."

/-- A tool, less what describes it to a model. -/
structure Entry where
  name : String
  write : Bool
  gate : Gate
  deriving DecidableEq

def catalogue : List Entry :=
  [⟨"registry_info", false, .read⟩, ⟨"vocab_search", false, .read⟩, ⟨"vocab_resolve", false, .read⟩,
   ⟨"list_enumerations", false, .read⟩, ⟨"register_artifact_type", true, .curator⟩, ⟨"search_registry", false, .read⟩,
   ⟨"list_records", false, .read⟩, ⟨"get_record", false, .read⟩, ⟨"find_capable_software", false, .read⟩,
   ⟨"get_artifact_lineage", false, .read⟩, ⟨"identify_content", false, .read⟩, ⟨"register_software", true, .curator⟩,
   ⟨"update_software", true, .curator⟩, ⟨"add_release", true, .curator⟩, ⟨"declare_capability", true, .curator⟩,
   ⟨"register_instance", true, .curatorOrScope scopeRegisterInstance⟩,
   ⟨"advertise_produced", true, .instanceScope scopeAdvertiseProduce⟩,
   ⟨"advertise_consumed", true, .instanceScope scopeAdvertiseConsume⟩]

def find (name : String) : Option Entry := catalogue.find? (fun entry => entry.name == name)

/-- The tools a principal may call. -/
def visible (p : Auth.Principal) (readOnly publicRead : Bool) : List Entry :=
  (catalogue.filter (fun entry => !(readOnly && entry.write))).filter (fun entry => entry.gate.allows p publicRead)

/-- What is asked before a tool is called. -/
def admission (p : Auth.Principal) (readOnly publicRead : Bool) (name : String) : Except String Entry :=
  match find name with
  | none => .error ("There is no tool called `" ++ name ++
      "` on this server. Call `tools/list` for the tools your credential can use.")
  | some entry =>
    if entry.write && readOnly then
      .error ("This registry's MCP endpoint is running in read-only mode, so no write tool is available. " ++
        "Reads still work. Ask the registry operator to unset TAR_MCP_READ_ONLY.")
    else if !entry.gate.allows p publicRead then .error ("Refused: " ++ entry.gate.refusal p)
    else .ok entry

end ToolArtifactRegistry.Mcp.Call
