import ToolArtifactRegistry.Laws.Specimen
import ToolArtifactRegistry.Library.Results
import ToolArtifactRegistry.Mcp.Transport

/-! The headers of an MCP request and its body. A request of the current revision is answered only when they
agree; one of an earlier revision mirrors nothing, and its headers are not looked at. -/
namespace ToolArtifactRegistry.Laws

open Library.Serde Library.Results Mcp

/-- The name of the tool that a request calls. -/
def nameUsed (req : RpcRequest) : Option String :=
  if req.method = "tools/call" then (req.params.get? "name").bind Json.asString? else none

/-- Every mirrored header that is there says what the body does. -/
structure HeadersAgree (base64 : String → Option String) (headers : Headers) (req : RpcRequest) : Prop where
  version : ∀ said version, headerStr headers "mcp-protocol-version" = some said → req.metaVersion = some version →
    said = version
  method : ∀ said, headerStr headers "mcp-method" = some said → said = req.method
  name : ∀ said used, headerStr headers "mcp-name" = some said → nameUsed req = some used →
    decodeHeaderValue base64 said = some used

/-- A request of the current revision. -/
def Modern (headers : Headers) (req : RpcRequest) : Prop :=
  req.method ≠ "initialize" ∧ declared headers req = some v20260728

/-- A request of an earlier revision, whose body does not say otherwise. -/
def Earlier (headers : Headers) (req : RpcRequest) : Prop :=
  req.method = "initialize" ∨ declared headers req ≠ some v20260728 ∧ req.metaVersion ≠ some v20260728

def without (names : List String) (headers : Headers) : Headers := headers.filter (fun header => !names.contains header.1)

section Mirrored

variable {platform : Platform} {base64 : String → Option String} {headers : Headers} {req : RpcRequest}

theorem eraOf_modern {version : String} : eraOf version = some .modern ↔ version = v20260728 := by
  unfold eraOf
  by_cases current : version = v20260728
  · simp [current]
  · rw [if_neg current]
    split <;> simp [current]

theorem era_modern : era headers req = .ok .modern ↔ Modern headers req := by
  unfold era Modern
  by_cases opens : req.method = "initialize"
  · simp [opens]
  · rw [if_neg opens]
    cases declared headers req with
    | none => simp
    | some version =>
      dsimp only
      have current := @eraOf_modern version
      cases spoken : eraOf version with
      | none =>
        rw [spoken] at current
        simpa [opens] using current
      | some era =>
        rw [spoken] at current
        simpa [opens] using current

theorem checkVersion_ok (checked : checkVersion platform headers req = .ok ()) :
    ∃ said, headerStr headers "mcp-protocol-version" = some said ∧ ∀ version, req.metaVersion = some version → said = version := by
  unfold checkVersion at checked
  cases said : headerStr headers "mcp-protocol-version" with
  | none => rw [said] at checked; cases checked
  | some version =>
    rw [said] at checked
    refine ⟨version, rfl, fun bodyVersion bodySays => ?_⟩
    rw [bodySays] at checked
    by_contra differ
    dsimp only at checked
    rw [if_pos (Ne.symm differ)] at checked
    cases checked

theorem checkMethod_ok (checked : checkMethod platform headers req = .ok ()) :
    headerStr headers "mcp-method" = some req.method := by
  unfold checkMethod at checked
  cases said : headerStr headers "mcp-method" with
  | none => rw [said] at checked; cases checked
  | some method =>
    rw [said] at checked
    by_contra differ
    dsimp only at checked
    rw [if_pos (fun same => differ (congrArg some same))] at checked
    cases checked

theorem checkName_ok (checked : checkName platform base64 headers req = .ok ())
    (mirrored : requiresMcpName req.method = true) {said : String} (there : headerStr headers "mcp-name" = some said) :
    ∃ name, decodeHeaderValue base64 said = some name ∧ req.mcpName = some name := by
  unfold checkName at checked
  rw [if_pos mirrored, there] at checked
  dsimp only at checked
  cases decoded : decodeHeaderValue base64 said with
  | none => rw [decoded] at checked; cases checked
  | some name =>
    rw [decoded] at checked
    refine ⟨name, rfl, ?_⟩
    by_contra differ
    dsimp only at checked
    rw [if_pos (Ne.symm differ)] at checked
    cases checked

/-- The name a call uses is the one that is mirrored. -/
theorem mcpName_of_used {used : String} (uses : nameUsed req = some used) :
    requiresMcpName req.method = true ∧ req.mcpName = some used := by
  unfold nameUsed at uses
  by_cases calls : req.method = "tools/call"
  · rw [if_pos calls] at uses
    refine ⟨by rw [calls]; rfl, ?_⟩
    unfold RpcRequest.mcpName
    cases name : req.params.get? "name" with
    | none => rw [name] at uses; cases uses
    | some value => rw [name] at uses; exact uses
  · rw [if_neg calls] at uses
    cases uses

/-- What passes the validation agrees. -/
theorem agree_of_validated (validated : validateMirroredHeaders platform base64 headers req = .ok ()) :
    HeadersAgree base64 headers req ∧ (∃ said, headerStr headers "mcp-protocol-version" = some said) ∧
      headerStr headers "mcp-method" = some req.method := by
  unfold validateMirroredHeaders at validated
  obtain ⟨_, versionChecked, rest⟩ := bind_ok.1 validated
  obtain ⟨_, methodChecked, nameChecked⟩ := bind_ok.1 rest
  obtain ⟨version, there, same⟩ := checkVersion_ok versionChecked
  have method := checkMethod_ok methodChecked
  refine ⟨⟨?_, ?_, ?_⟩, ⟨version, there⟩, method⟩
  · intro said bodyVersion read bodySays
    rw [there] at read
    exact Option.some.inj read ▸ same bodyVersion bodySays
  · intro said read
    rw [method] at read
    exact (Option.some.inj read).symm
  · intro said used read uses
    obtain ⟨mirrored, named⟩ := mcpName_of_used uses
    obtain ⟨name, decoded, mirrors⟩ := checkName_ok nameChecked mirrored read
    rw [decoded, ← mirrors, named]

end Mirrored

section Serving

variable {server : Server} {settings : Settings} {tools : Tools} {base64 : String → Option String} {state : State}
variable {now : String} {headers : Headers} {body : Json} {req : RpcRequest}

theorem headerStr_without {names : List String} {name : String} (other : name ∉ names) :
    headerStr (without names headers) name = headerStr headers name := by
  unfold headerStr without
  rw [List.find?_filter]
  have same : (fun header : String × Option String => decide ((!names.contains header.1) = true ∧ (header.1 == name) = true)) =
      (fun header => header.1 == name) := by
    funext header
    by_cases here : header.1 = name
    · simp [here, other]
    · simp [here]
  rw [same]

/-- A request that is answered other than with an error has been read and, in the current revision, validated. -/
theorem validated_of_served (read : RpcRequest.decode body = .ok req)
    (served : (endpoint server settings tools base64 state now headers (some body)).isError = false)
    (modern : Modern headers req) : validateMirroredHeaders server.platform base64 headers req = .ok () := by
  unfold endpoint at served
  split at served
  · cases served
  · split at served
    · cases served
    · rw [Option.map_some, read] at served
      dsimp only at served
      rw [era_modern.2 modern] at served
      dsimp only at served
      cases validated : validateMirroredHeaders server.platform base64 headers req with
      | ok _ => rfl
      | error message =>
        rw [validated] at served
        cases served

/-- What the endpoint reads of the headers, other than what they mirror. -/
theorem endpoint_congr {other : Headers} (read : RpcRequest.decode body = .ok req)
    (origin : headerStr other "origin" = headerStr headers "origin")
    (authorization : headerStr other "authorization" = headerStr headers "authorization")
    (eras : era other req = era headers req) (legacy : era headers req ≠ .ok .modern) :
    endpoint server settings tools base64 state now other (some body) =
      endpoint server settings tools base64 state now headers (some body) := by
  unfold endpoint originAllowed
  rw [origin, Option.map_some, read]
  dsimp only
  rw [eras]
  unfold answer
  rw [authorization]
  cases here : era headers req with
  | error version => rfl
  | ok era =>
    cases era with
    | modern => exact absurd here legacy
    | legacy => rfl

end Serving

/-- In the current revision a request is answered other than with an error only if its headers agree with its body,
the version and the method being there; in an earlier one they are not looked at, nor is the version when a session
is opened. -/
theorem modern_headers_agree (server : Server) (settings : Settings) (tools : Tools) (base64 : String → Option String)
    (state : State) (now : String) (headers : Headers) (body : Json) (req : RpcRequest)
    (read : RpcRequest.decode body = .ok req) :
    ((endpoint server settings tools base64 state now headers (some body)).isError = false → Modern headers req →
      HeadersAgree base64 headers req ∧ headerStr headers "mcp-protocol-version" = some v20260728 ∧
        headerStr headers "mcp-method" = some req.method) ∧
    (Earlier headers req → endpoint server settings tools base64 state now (without ["mcp-method", "mcp-name"] headers) (some body) =
      endpoint server settings tools base64 state now headers (some body)) ∧
    (req.method = "initialize" →
      endpoint server settings tools base64 state now (without ["mcp-method", "mcp-name", "mcp-protocol-version"] headers) (some body) =
        endpoint server settings tools base64 state now headers (some body)) := by
  refine ⟨fun served modern => ?_, fun earlier => ?_, fun opens => ?_⟩
  · obtain ⟨agree, there, method⟩ := agree_of_validated (validated_of_served read served modern)
    obtain ⟨said, there⟩ := there
    refine ⟨agree, ?_, method⟩
    have current := modern.2
    unfold declared at current
    rw [there] at current ⊢
    exact current
  · have same (name : String) (other : name ∉ ["mcp-method", "mcp-name"]) := @headerStr_without headers _ _ other
    refine endpoint_congr read (same _ (by decide)) (same _ (by decide)) ?_ ?_
    · unfold era declared
      rw [same _ (by decide)]
    · intro modern
      obtain ⟨opens, current⟩ := era_modern.1 modern
      rcases earlier with initializes | ⟨before, -⟩
      · exact opens initializes
      · exact before current
  · have same (name : String) (other : name ∉ ["mcp-method", "mcp-name", "mcp-protocol-version"]) :=
      @headerStr_without headers _ _ other
    refine endpoint_congr read (same _ (by decide)) (same _ (by decide)) ?_ ?_
    · unfold era
      rw [if_pos opens, if_pos opens]
    · intro modern
      exact (era_modern.1 modern).1 opens

section Specimen

open Specimen

def openSettings : Settings := ⟨true, false, none, true⟩

/-- Tools that are called and answer nothing. -/
def silentTools : Tools := ⟨"", "", fun _ _ _ => [], fun _ _ _ _ _ => ⟨"", none, false⟩⟩

def toolCall (version : String) : Json :=
  .object [("id", .number "1"), ("method", .string "tools/call"), ("params", .object [("name", .string "vocab_search"),
    ("_meta", .object [("io.modelcontextprotocol/protocolVersion", .string version)])])]

def toolCallReq (version : String) : RpcRequest :=
  ⟨none, some (.number "1"), "tools/call", .object [("name", .string "vocab_search"),
    ("_meta", .object [("io.modelcontextprotocol/protocolVersion", .string version)])]⟩

def mirroring (version method name : String) : Headers :=
  [("mcp-protocol-version", some version), ("mcp-method", some method), ("mcp-name", some name)]

/-- A client of an earlier revision is served whatever its headers say. -/
theorem earlier_headers_disagree : ¬ ∀ (server : Server) (settings : Settings) (tools : Tools)
    (base64 : String → Option String) (state : State) (now : String) (headers : Headers) (body : Json) (req : RpcRequest),
    RpcRequest.decode body = .ok req →
      (endpoint server settings tools base64 state now headers (some body)).isError = false → HeadersAgree base64 headers req := by
  intro all
  have agree := all (registry []) openSettings silentTools some State.empty "" (mirroring v20250618 "tools/list" "register_software")
    (toolCall v20250618) (toolCallReq v20250618) rfl (by decide)
  exact absurd (agree.method "tools/list" rfl) (by decide)

theorem modern_headers_agree_called : HeadersAgree some (mirroring v20260728 "tools/call" "vocab_search") (toolCallReq v20260728) :=
  ((modern_headers_agree (registry []) openSettings silentTools some State.empty "" (mirroring v20260728 "tools/call" "vocab_search")
    (toolCall v20260728) (toolCallReq v20260728) rfl).1 (by decide) ⟨by decide, rfl⟩).1

end Specimen

end ToolArtifactRegistry.Laws
