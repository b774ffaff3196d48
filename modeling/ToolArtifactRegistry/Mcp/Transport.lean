import ToolArtifactRegistry.Auth.Authenticate
import ToolArtifactRegistry.Mcp.Rpc
import ToolArtifactRegistry.Translating

/-! The MCP endpoint: one message a request, its metadata mirrored in headers and checked against the body. -/
namespace ToolArtifactRegistry.Mcp

open Library.Serde Library.Text Auth

/-- The headers of a request under their names in lower case; a value that is not visible text reads as nothing. -/
abbrev Headers := List (String × Option String)

/-- The first header of a name, as a text. -/
def headerStr (headers : Headers) (name : String) : Option String :=
  (headers.find? (fun header => header.1 == name)).bind Prod.snd

/-- What the environment and the configuration switch. -/
structure Settings where
  enabled : Bool
  readOnly : Bool
  allowedOrigins : Option String
  publicRead : Bool

structure Outcome where
  text : String
  structured : Option Json
  isError : Bool

/-- The tools, as the endpoint uses them: which are shown to a principal, and what calling one answers. -/
structure Tools where
  instructions : String
  version : String
  /-- For a principal, a read-only endpoint and public reads. -/
  visible : Principal → Bool → Bool → List Json
  /-- For a principal, its credential, the name, the arguments and a read-only endpoint. -/
  call : Principal → Option String → String → Json → Bool → Outcome

structure Response where
  status : Nat
  headers : List (String × String)
  body : Option Json

def jsonResponse (status : Nat) (body : Json) : Response := ⟨status, [("content-type", "application/json")], some body⟩

/-- An error of the protocol or of HTTP. -/
def Response.isError (response : Response) : Bool :=
  decide (400 ≤ response.status) || (response.body.bind (fun body => body.get? "error")).isSome

def serverName : String := "tool-artifact-registry"
def toolsTtlMs : Nat := 60000
def discoverTtlMs : Nat := 3600000

def originAllowed (settings : Settings) (base : String) (headers : Headers) : Bool :=
  match headerStr headers "origin" with
  | none => true
  | some origin =>
    let baseOrigin := match Rebase.cutAt "://".toList base.toList with
      | some (scheme, rest) => String.ofList scheme ++ "://" ++ String.ofList (rest.takeWhile (fun c => c != '/'))
      | none => base
    eqIgnoreAsciiCase origin baseOrigin ||
      match settings.allowedOrigins with
      | some listed => (split listed (fun c => c == ',')).any (fun allowed => eqIgnoreAsciiCase (trim allowed) origin)
      | none => false

def challenge (base : String) : String :=
  "Bearer realm=\"" ++ serverName ++ "\", resource_metadata=\"" ++ base ++ "/.well-known/oauth-protected-resource" ++
    "\", error=\"invalid_token\", error_description=\"an MCP request needs a bearer token: an OIDC token from a trusted issuer, or a tar_ registry token\""

def unauthorized (base : String) (id : Json) (detail : String) : Response :=
  ⟨401, [("www-authenticate", challenge base), ("content-type", "application/json")], some (error id Code.unauthorized detail)⟩

section

variable (platform : Platform) (base64 : String → Option String)

/-- The version a request declares, in its header before its body. -/
def declared (headers : Headers) (req : RpcRequest) : Option String :=
  (headerStr headers "mcp-protocol-version").or req.metaVersion

/-- The era of a request, or the version that is not spoken. -/
def era (headers : Headers) (req : RpcRequest) : Except String Era :=
  if req.method = "initialize" then .ok .legacy
  else match declared headers req with
    | some version =>
      match eraOf version with
      | some era => .ok era
      | none => .error version
    | none => .ok .legacy

def checkVersion (headers : Headers) (req : RpcRequest) : Except String Unit :=
  match headerStr headers "mcp-protocol-version" with
  | none => .error "MCP-Protocol-Version is required on a 2026-07-28 request"
  | some version =>
    match req.metaVersion with
    | none => .ok ()
    | some bodyVersion =>
      if bodyVersion ≠ version then
        .error ("MCP-Protocol-Version header " ++ platform.quoted version ++
          " does not match _meta[\"io.modelcontextprotocol/protocolVersion\"] " ++ platform.quoted bodyVersion)
      else .ok ()

def checkMethod (headers : Headers) (req : RpcRequest) : Except String Unit :=
  match headerStr headers "mcp-method" with
  | none => .error "Mcp-Method is required on a 2026-07-28 request"
  | some method =>
    if method ≠ req.method then
      .error ("Mcp-Method header " ++ platform.quoted method ++ " does not match the body method " ++ platform.quoted req.method)
    else .ok ()

def checkName (headers : Headers) (req : RpcRequest) : Except String Unit :=
  if requiresMcpName req.method then
    match headerStr headers "mcp-name" with
    | none => .ok ()
    | some raw =>
      match decodeHeaderValue base64 raw with
      | none => .error ("Mcp-Name " ++ platform.quoted raw ++ " is not a decodable header value")
      | some decoded =>
        if some decoded ≠ req.mcpName then
          .error ("Mcp-Name header " ++ platform.quoted decoded ++ " does not match the body value " ++
            platform.quoted (req.mcpName.getD "(absent)"))
        else .ok ()
  else .ok ()

def validateMirroredHeaders (headers : Headers) (req : RpcRequest) : Except String Unit := do
  checkVersion platform headers req
  checkMethod platform headers req
  checkName platform base64 headers req

end

section

variable (tools : Tools)

def serverInfo : Json :=
  .object [("name", .string serverName), ("title", .string "Tool Artifact Registry"), ("version", .string tools.version),
    ("websiteUrl", .string "https://w3id.org/tar/ns#")]

def discover : Json :=
  .object [("resultType", .string "complete"), ("supportedVersions", supportedJson),
    ("capabilities", .object [("tools", .object [])]), ("instructions", .string tools.instructions),
    ("_meta", .object [("io.modelcontextprotocol/serverInfo", serverInfo tools)]),
    ("ttlMs", .number (toString discoverTtlMs)), ("cacheScope", .string "public")]

def initialized (params : Json) : Json :=
  let requested := ((params.get? "protocolVersion").bind Json.asString?).getD v20251125
  let negotiated := if eraOf requested = some .legacy then requested else v20251125
  .object [("protocolVersion", .string negotiated),
    ("capabilities", .object [("tools", .object [("listChanged", .bool false)])]),
    ("serverInfo", serverInfo tools), ("instructions", .string tools.instructions)]

end

/-- The bearer token of an authorization header. -/
def bearerToken (header : String) : Option String :=
  match splitOnce header ' ' with
  | some (scheme, token) => if eqIgnoreAsciiCase scheme "bearer" then some (trim token) else none
  | none => none

def principalOfHeader (server : Server) (state : State) (now : String) (header : Option String) : AppResult Principal :=
  match header.bind bearerToken with
  | none => .ok Principal.anonymous
  | some token => authenticate server state now token

section

variable (server : Server) (settings : Settings) (tools : Tools)

def listTools (era : Era) (id : Json) (principal : Principal) : Response :=
  if principal.isAnonymous && !settings.publicRead then unauthorized server.base id "listing tools needs a credential"
  else
    let listed := ("tools", Json.array (tools.visible principal settings.readOnly settings.publicRead))
    jsonResponse 200 (result id (.object (listed :: if era = .modern then
      [("resultType", .string "complete"), ("ttlMs", .number (toString toolsTtlMs)), ("cacheScope", .string "private")]
    else [])))

/-- The tool a call names. -/
def toolName (req : RpcRequest) : String := ((req.params.get? "name").bind Json.asString?).getD ""

def callTool (era : Era) (id : Json) (principal : Principal) (auth : Option String) (req : RpcRequest) : Response :=
  if principal.isAnonymous && !settings.publicRead then unauthorized server.base id "calling a tool needs a credential"
  else if toolName req = "" then jsonResponse 200 (error id Code.invalidParams "tools/call needs params.name")
  else
    let outcome := tools.call principal auth (toolName req) ((req.params.get? "arguments").getD (.object [])) settings.readOnly
    let texts := outcome.text :: (outcome.structured.map server.platform.printJson).toList
    let content := texts.map (fun text => Json.object [("type", .string "text"), ("text", .string text)])
    jsonResponse 200 (result id (.object ([("content", .array content), ("isError", .bool outcome.isError)] ++
      (outcome.structured.map (fun structured => ("structuredContent", structured))).toList ++
      if era = .modern then [("resultType", .string "complete")] else [])))

def dispatch (era : Era) (id : Json) (principal : Principal) (auth : Option String) (req : RpcRequest) : Response :=
  if req.method = "server/discover" ∧ era = .modern then jsonResponse 200 (result id (discover tools))
  else if req.method = "initialize" ∧ era = .legacy then jsonResponse 200 (result id (initialized tools req.params))
  else if req.method = "ping" then jsonResponse 200 (result id (.object []))
  else if req.method = "tools/list" then listTools server settings tools era id principal
  else if req.method = "tools/call" then callTool server settings tools era id principal auth req
  else if req.method = "initialize" ∨ req.method = "server/discover" then
    jsonResponse 400 (errorWithData id Code.invalidRequest
      ("`" ++ req.method ++ "` does not belong to the protocol era this request declared")
      (.object [("supported", supportedJson)]))
  else
    jsonResponse 404 (errorWithData id Code.methodNotFound
      ("this server implements tools only; `" ++ req.method ++ "` is not available")
      (.object [("supported", supportedJson)]))

variable (base64 : String → Option String) (state : State) (now : String)

/-- A message of an era that is known. -/
def answer (headers : Headers) (era : Era) (id : Json) (req : RpcRequest) : Response :=
  if req.isNotification then ⟨202, [], none⟩
  else match principalOfHeader server state now (headerStr headers "authorization") with
    | .error e => unauthorized server.base id (e.detail.getD "the bearer token was rejected")
    | .ok principal => dispatch server settings tools era id principal (headerStr headers "authorization") req

def endpoint (headers : Headers) (body : Option Json) : Response :=
  if !settings.enabled then
    jsonResponse 404 (.object [("type", .string "https://w3id.org/tar/problem/not-found"),
      ("title", .string "MCP endpoint disabled"), ("status", .number "404")])
  else if !originAllowed settings server.base headers then
    jsonResponse 403 (error .null Code.invalidRequest "Origin not allowed")
  else match body.map RpcRequest.decode with
    | some (.ok req) =>
      let id := req.id.getD .null
      match era headers req with
      | .error version => jsonResponse 400 (unsupportedVersion id version)
      | .ok .modern =>
        match validateMirroredHeaders server.platform base64 headers req with
        | .error message => jsonResponse 400 (error id Code.headerMismatch message)
        | .ok _ => answer server settings tools state now headers .modern id req
      | .ok .legacy => answer server settings tools state now headers .legacy id req
    | _ => jsonResponse 400 (error .null Code.parseError "request body is not a JSON-RPC message")

end

end ToolArtifactRegistry.Mcp
