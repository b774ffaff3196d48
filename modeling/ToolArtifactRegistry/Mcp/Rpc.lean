import ToolArtifactRegistry.Library.Serde
import ToolArtifactRegistry.Library.Text

/-! The framing of a message to the MCP endpoint, the protocol versions, and the metadata its headers mirror. -/
namespace ToolArtifactRegistry.Mcp

open Library.Serde Library.Text

def v20260728 : String := "2026-07-28"
def v20251125 : String := "2025-11-25"
def v20250618 : String := "2025-06-18"
def v20250326 : String := "2025-03-26"

/-- The versions spoken, newest first. -/
def supported : List String := [v20260728, v20251125, v20250618, v20250326]

/-- Whether each request carries its own metadata, or a handshake has opened a session. -/
inductive Era where
  | modern
  | legacy
  deriving DecidableEq

def eraOf (version : String) : Option Era :=
  if version = v20260728 then some .modern
  else if version ∈ [v20251125, v20250618, v20250326] then some .legacy
  else none

namespace Code

def parseError : Int := -32700
def invalidRequest : Int := -32600
def methodNotFound : Int := -32601
def invalidParams : Int := -32602
def headerMismatch : Int := -32020
def unsupportedProtocolVersion : Int := -32022
def unauthorized : Int := -32001

end Code

structure RpcRequest where
  jsonrpc : Option String
  id : Option Json
  method : String
  params : Json

namespace RpcRequest

/-- A value of any kind; a null is no value. -/
def decodeValue : Json → Decoded Json := fun value => .ok value

def decode (message : Json) : Decoded RpcRequest := do
  let source ← fields 4 message
  let jsonrpc ← defaulted none (decodeOption decodeString) source 0 "jsonrpc"
  let id ← defaulted none (decodeOption decodeValue) source 1 "id"
  let method ← required decodeString source 2 "method"
  let params ← defaulted .null decodeValue source 3 "params"
  return { jsonrpc, id, method, params }

def isNotification (req : RpcRequest) : Bool :=
  match req.id with
  | none => true
  | some .null => true
  | some _ => false

/-- The name of the tool, or the URI where there is no name. -/
def mcpName (req : RpcRequest) : Option String :=
  ((req.params.get? "name").or (req.params.get? "uri")).bind Json.asString?

/-- The version the body declares. -/
def metaVersion (req : RpcRequest) : Option String :=
  ((req.params.get? "_meta").bind (fun metadata => metadata.get? "io.modelcontextprotocol/protocolVersion")).bind Json.asString?

end RpcRequest

def result (id value : Json) : Json := .object [("jsonrpc", .string "2.0"), ("id", id), ("result", value)]

def error (id : Json) (code : Int) (message : String) : Json :=
  .object [("jsonrpc", .string "2.0"), ("id", id),
    ("error", .object [("code", .number (toString code)), ("message", .string message)])]

def errorWithData (id : Json) (code : Int) (message : String) (data : Json) : Json :=
  .object [("jsonrpc", .string "2.0"), ("id", id),
    ("error", .object [("code", .number (toString code)), ("message", .string message), ("data", data)])]

def supportedJson : Json := encodeList .string supported

def unsupportedVersion (id : Json) (requested : String) : Json :=
  errorWithData id Code.unsupportedProtocolVersion "Unsupported protocol version"
    (.object [("supported", supportedJson), ("requested", .string requested)])

/-- What a text holds between a prefix and a suffix. -/
def between (text pre post : String) : Option String :=
  (stripPrefix text pre).bind (fun rest =>
    if post.toList.isSuffixOf rest.toList then some (String.ofList (rest.toList.take (rest.length - post.length))) else none)

/-- A header's value with the encoding of texts that are not header-safe undone; `base64` gives the text that a
base64 text encodes, if it encodes one. -/
def decodeHeaderValue (base64 : String → Option String) (raw : String) : Option String :=
  match between raw "=?base64?" "?=" with
  | none => some raw
  | some inner => base64 inner

/-- The methods whose name is mirrored. -/
def requiresMcpName (method : String) : Bool :=
  method == "tools/call" || method == "resources/read" || method == "prompts/get"

end ToolArtifactRegistry.Mcp
