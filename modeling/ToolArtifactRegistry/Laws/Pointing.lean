import ToolArtifactRegistry.Api.Types
import ToolArtifactRegistry.Laws.Specimen
import ToolArtifactRegistry.Library.Text
import ToolArtifactRegistry.Mcp.Call

/-! The record a tool acts on, against the record its argument names. -/
namespace ToolArtifactRegistry.Laws

open Library.Serde Library.Text Ids Mcp Mcp.Call

/-- What a tool makes of the argument before it writes it into a path. -/
def bareId (arg : String) : String := if isHttp arg then iriTail arg else arg

theorem decode_pathId (arg : String) : Library.Percent.decode (pathId arg) = some (bareId arg) :=
  Library.Percent.decode_encode Library.Percent.alphanumeric_plain _

theorem slash_not_mem_pathId (arg : String) : '/' ∉ (pathId arg).toList := by
  intro mem
  rcases Library.Percent.mem_encode mem with ⟨byte, kept, same⟩ | percent | ⟨n, small, digit⟩
  · obtain ⟨ascii, _⟩ := Library.Percent.alphanumeric_plain byte kept
    have all : ∀ n < 128, '/' = Char.ofNat n → n = 47 := by decide
    have value := all byte.toNat ascii same
    simp only [Library.Percent.alphanumeric, value] at kept
    revert kept
    decide
  · revert percent
    decide
  · have all : ∀ n < 16, '/' ≠ Library.Percent.hexChar n := by decide
    exact all n small digit

theorem split_slash {left right : String} : split (left ++ "/" ++ right) (fun c => c == '/') =
    split left (fun c => c == '/') ++ split right (fun c => c == '/') := by
  have parts := piecesOn_append_sep (fun c => c == '/') left.toList right.toList '/' (by decide)
  rw [split, String.toList_append, String.toList_append, List.append_assoc]
  change (piecesOn _ (left.toList ++ '/' :: right.toList)).map String.ofList = _
  rw [parts, List.map_append]
  rfl

theorem split_whole {text : String} (clean : '/' ∉ text.toList) : split text (fun c => c == '/') = [text] := by
  have whole := piecesOn_of_forall (fun c => c == '/') text.toList (by
    intro c mem
    simp only [beq_eq_false_iff_ne, ne_eq]
    rintro rfl
    exact clean mem)
  rw [split, whole, List.map_singleton, ofList_toList_eq]

/-- The pieces of the path of a record. -/
theorem split_pathOf {collection : String} (clean : '/' ∉ collection.toList) (arg : String) :
    split (pathOf collection arg) (fun c => c == '/') = ["", "api", "v1", collection, pathId arg] := by
  have start : split ("/api/v1/" ++ collection) (fun c => c == '/') = ["", "api", "v1", collection] := by
    have joined : "/api/v1/" ++ collection = "/api/v1" ++ "/" ++ collection := rfl
    rw [joined, split_slash, split_whole clean]
    rfl
  rw [pathOf, split_slash, start, split_whole (slash_not_mem_pathId arg)]
  rfl

theorem isHttp_cons {iri : String} (http : isHttp iri = true) : ∃ rest, iri.toList = 'h' :: rest := by
  have starts : ∀ pre : String, pre.toList.head? = some 'h' → startsWith iri pre = true → ∃ rest, iri.toList = 'h' :: rest := by
    intro pre first start
    obtain ⟨rest, whole⟩ := List.isPrefixOf_iff_prefix.1 start
    obtain ⟨more, shape⟩ := List.head?_eq_some_iff.1 first
    exact ⟨more ++ rest, by rw [← whole, shape]; rfl⟩
  rcases Bool.or_eq_true _ _ ▸ http with plain | secure
  · exact starts _ (by decide) plain
  · exact starts _ (by decide) secure

/-- The tail of a web address is no web address. -/
theorem isHttp_iriTail {iri : String} (http : isHttp iri = true) : isHttp (iriTail iri) = false := by
  obtain ⟨rest, letters⟩ := isHttp_cons http
  obtain ⟨piece, mem, filled⟩ := @exists_piece (fun c => c == '#' || c == '/') 'h' (by decide) rest
  have piece_text : String.ofList piece ∈ (split iri (fun c => c == '#' || c == '/')).reverse := by
    rw [List.mem_reverse, split, letters]
    exact List.mem_map_of_mem mem
  have filled_text : (String.ofList piece != "") = true := by
    rw [bne_iff_ne]
    intro empty
    exact filled (by rw [← String.toList_ofList (l := piece), empty]; rfl)
  have some_ : ((split iri (fun c => c == '#' || c == '/')).reverse.find? (fun piece => piece != "")).isSome = true :=
    List.find?_isSome.2 ⟨_, piece_text, filled_text⟩
  obtain ⟨tail, found⟩ := Option.isSome_iff_exists.1 some_
  have one := List.mem_of_find?_eq_some found
  rw [List.mem_reverse, split, List.mem_map] at one
  obtain ⟨last, among, same⟩ := one
  rw [iriTail, found, Option.getD_some, ← same]
  have clean : '/' ∉ last := by
    intro slash
    have letter := not_sep_of_mem_piece among slash
    revert letter
    decide
  have no_scheme : ∀ pre : String, '/' ∈ pre.toList → startsWith (String.ofList last) pre = false := by
    intro pre slash
    rw [startsWith, String.toList_ofList, Bool.eq_false_iff]
    intro start
    obtain ⟨more, whole⟩ := List.isPrefixOf_iff_prefix.1 start
    exact clean (whole ▸ List.mem_append_left _ slash)
  rw [isHttp, no_scheme _ (by decide), no_scheme _ (by decide), Bool.or_false]

theorem iriFor_bare (base : String) (kind : Kind) (arg : String) :
    iriFor base kind (bareId arg) = iriOf base kind (bareId arg) := by
  have local_ : isHttp (bareId arg) = false := by
    unfold bareId
    split
    · rename_i http
      exact isHttp_iriTail http
    · rename_i plain
      exact Bool.not_eq_true _ ▸ plain
  rw [iriFor, local_, if_neg Bool.false_ne_true]

/-- The action of the handler a tool calls. -/
def actionOf : Tool → Action
  | .getRecord => .get
  | .lineage => .lineage
  | .updateSoftware => .patch
  | .addRelease => .createRelease

/-- The request is built, and its path is that of a record. -/
def Carried (req : Request) : Prop :=
  (req.path ++ req.query).length ≤ uriLimit ∧ (route req.method req.path).isOk = true

theorem mem_readable {kind : String} {entry : String × String × Kind}
    (found : readable.find? (fun entry => entry.1 == kind) = some entry) :
    '/' ∉ entry.2.1.toList ∧
      routes.find? (fun route => route.method == "GET" && route.collection == entry.2.1 && route.below == none) =
        some ⟨"GET", entry.2.1, none, .get, entry.2.2⟩ := by
  have all : ∀ entry ∈ readable, '/' ∉ entry.2.1.toList ∧
      routes.find? (fun route => route.method == "GET" && route.collection == entry.2.1 && route.below == none) =
        some ⟨"GET", entry.2.1, none, .get, entry.2.2⟩ := by
    intro entry mem
    simp only [readable, List.mem_cons, List.not_mem_nil, or_false] at mem
    rcases mem with rfl | rfl | rfl | rfl | rfl <;> exact ⟨by decide, rfl⟩
  exact all entry (List.mem_of_find?_eq_some found)

theorem route_below {collection word : String} {route_ : Route} (clean : '/' ∉ collection.toList) (plain : '/' ∉ word.toList)
    (method arg : String)
    (found : routes.find? (fun route => route.method == method && route.collection == collection && route.below == some word) =
      some route_) :
    route method (pathOf collection arg ++ ("/" ++ word)) = .ok (route_.action, route_.kind, pathId arg) := by
  have pieces : split (pathOf collection arg ++ ("/" ++ word)) (fun c => c == '/') =
      ["", "api", "v1", collection, pathId arg, word] := by
    rw [← String.append_assoc, split_slash, split_pathOf clean, split_whole plain]
    rfl
  rw [route, pieces]
  simp only [found]

theorem route_record {collection : String} {route_ : Route} (clean : '/' ∉ collection.toList) (method arg : String)
    (found : routes.find? (fun route => route.method == method && route.collection == collection && route.below == none) =
      some route_) :
    route method (pathOf collection arg) =
      match keptWord collection (pathId arg) with
      | some refusal => .error refusal
      | none => .ok (route_.action, route_.kind, pathId arg) := by
  rw [route, split_pathOf clean]
  cases kept : keptWord collection (pathId arg) with
  | some refusal => simp only [kept]
  | none => simp only [found, kept]

/-- Where a request of a tool is routed, it is to its own handler, with the id the path was written from. -/
theorem route_request {tool : Tool} {args : Json} {arg : String} {kind : Kind} {req : Request} (about : tool.kind args = some kind)
    (made : request tool args arg = .ok req) :
    route req.method req.path = .ok (actionOf tool, kind, pathId arg) ∨ ∃ refusal, route req.method req.path = .error refusal := by
  cases tool with
  | getRecord =>
    unfold Tool.kind at about
    unfold request at made
    cases found : readable.find? (fun entry => entry.1 == (strArg args "kind").getD "software") with
    | none =>
      simp only [found] at about
      cases about
    | some entry =>
      obtain ⟨clean, routed⟩ := mem_readable found
      simp only [found, Option.map_some, Option.some.injEq] at about
      simp only [found] at made
      cases made
      rw [route_record clean "GET" arg routed, about]
      cases keptWord entry.2.1 (pathId arg) with
      | none => exact Or.inl rfl
      | some refusal => exact Or.inr ⟨refusal, rfl⟩
  | lineage =>
    simp only [Tool.kind, Option.some.injEq] at about
    simp only [request, Except.ok.injEq] at made
    subst about made
    have routed := @route_below "artifacts" "lineage" _ (by decide) (by decide) "GET" arg rfl
    exact Or.inl routed
  | updateSoftware =>
    simp only [Tool.kind, Option.some.injEq] at about
    simp only [request, Except.ok.injEq] at made
    subst about made
    have routed := @route_record "software" _ (by decide) "PATCH" arg rfl
    have free : keptWord "software" (pathId arg) = none := by simp [keptWord]
    rw [free] at routed
    exact Or.inl routed
  | addRelease =>
    simp only [Tool.kind, Option.some.injEq] at about
    simp only [request, Except.ok.injEq] at made
    subst about made
    have routed := @route_below "software" "releases" _ (by decide) (by decide) "POST" arg rfl
    exact Or.inl routed

theorem request_made {tool : Tool} {args : Json} {kind : Kind} (about : tool.kind args = some kind) (arg : String) :
    ∃ req, request tool args arg = .ok req := by
  cases tool with
  | getRecord =>
    unfold Tool.kind at about
    unfold request
    cases found : readable.find? (fun entry => entry.1 == (strArg args "kind").getD "software") with
    | none =>
      simp only [found] at about
      cases about
    | some entry => exact ⟨{ method := "GET", path := pathOf entry.2.1 arg }, by simp only [found]⟩
  | lineage => exact ⟨_, rfl⟩
  | updateSoftware => exact ⟨_, rfl⟩
  | addRelease => exact ⟨_, rfl⟩

section

variable {σ : Type} (handlers : Handlers σ) (base : String)

/-- A call acts on a record: its request leads there, and it succeeds or leaves another state. -/
def ActsOn (tool : Tool) (args : Json) (state : σ) (iri : String) : Prop :=
  ∃ arg req action kind, strArg args tool.key = some arg ∧ request tool args arg = .ok req ∧
    Mcp.Call.target base req = .ok (action, kind, iri) ∧
    ((call handlers base tool args state).1.isError = false ∨ (call handlers base tool args state).2 ≠ state)

/-- A handler refuses a request about a record and leaves the state as it is. -/
def Declines (action : Action) (kind : Kind) (iri : String) (req : Request) (state : σ) : Prop :=
  ∃ error, handlers action kind iri req state = (.error error, state)

/-- The record a carried request leads to is made of the bare argument. -/
theorem target_request {tool : Tool} {args : Json} {arg : String} {kind : Kind} {req : Request}
    (about : tool.kind args = some kind) (made : request tool args arg = .ok req) :
    (Carried req ∧ Mcp.Call.target base req = .ok (actionOf tool, kind, iriOf base kind (bareId arg))) ∨
      (¬ Carried req ∧ ∃ refusal, Mcp.Call.target base req = .error refusal) := by
  by_cases long : uriLimit < (req.path ++ req.query).length
  · refine Or.inr ⟨fun carried => ?_, _, by rw [Mcp.Call.target, if_pos long]⟩
    have fits := carried.1
    omega
  · rcases route_request about made with routed | ⟨refusal, stray⟩
    · refine Or.inl ⟨⟨by omega, by rw [routed]; rfl⟩, ?_⟩
      rw [Mcp.Call.target, if_neg long, routed]
      simp only [decode_pathId, iriFor_bare]
    · refine Or.inr ⟨fun carried => ?_, refusal, by rw [Mcp.Call.target, if_neg long, stray]⟩
      have ok := carried.2
      rw [stray] at ok
      cases ok

/-- What a call leaves where its request is handled. -/
theorem call_handled {tool : Tool} {args : Json} {arg iri : String} {req : Request} {action : Action} {kind : Kind} (state : σ)
    (given : strArg args tool.key = some arg) (made : request tool args arg = .ok req)
    (led : Mcp.Call.target base req = .ok (action, kind, iri)) :
    ((call handlers base tool args state).1.isError = false ∨ (call handlers base tool args state).2 ≠ state) ↔
      ¬ Declines handlers action kind iri req state := by
  have answer : rest handlers base req state = handlers action kind iri req state := by rw [rest, led]
  rw [call, given]
  simp only [made, answer, Declines]
  cases handled : handlers action kind iri req state with
  | mk result after =>
    cases result with
    | error error => simp [Prod.mk.injEq]
    | ok body => simp

/-- What a call acts on is the record of the tool's kind with the bare argument for an id. -/
theorem acts_iff {tool : Tool} {args : Json} {arg iri : String} {kind : Kind} {req : Request} (state : σ)
    (given : strArg args tool.key = some arg) (about : tool.kind args = some kind)
    (made : request tool args arg = .ok req) :
    ActsOn handlers base tool args state iri ↔ iri = iriOf base kind (bareId arg) ∧ Carried req ∧
      ¬ Declines handlers (actionOf tool) kind (iriOf base kind (bareId arg)) req state := by
  constructor
  · rintro ⟨arg', req', action, kind', given', made', led, effect⟩
    have same_arg : arg = arg' := Option.some.inj (given.symm.trans given')
    subst same_arg
    have same_req : req = req' := Except.ok.inj (made.symm.trans made')
    subst same_req
    rcases target_request base about made with ⟨carried, led'⟩ | ⟨_, refusal, stray⟩
    · have same := Except.ok.inj (led.symm.trans led')
      obtain ⟨rfl, rfl, rfl⟩ := Prod.mk.injEq _ _ _ _ ▸ same
      exact ⟨rfl, carried, (call_handled handlers base state given made led).1 effect⟩
    · rw [stray] at led
      cases led
  · rintro ⟨rfl, carried, effect⟩
    rcases target_request base about made with ⟨_, led⟩ | ⟨stray, _⟩
    · exact ⟨arg, req, _, _, given, made, led, (call_handled handlers base state given made led).2 effect⟩
    · exact absurd carried stray

/-- A tool acts only on the record its argument names exactly when the argument is no web address, or is the address of
a local record of the tool's kind, or there is nothing to act on under its tail. -/
theorem pointed_iff (tool : Tool) (args : Json) (state : σ) (arg : String) (kind : Kind)
    (given : strArg args tool.key = some arg) (about : tool.kind args = some kind) :
    (∀ iri, ActsOn handlers base tool args state iri → iri = iriFor base kind arg) ↔
      (isHttp arg = false ∨ arg = iriOf base kind (iriTail arg) ∨ ∀ req, request tool args arg = .ok req → Carried req →
        Declines handlers (actionOf tool) kind (iriOf base kind (iriTail arg)) req state) := by
  obtain ⟨req, made⟩ := request_made about arg
  by_cases http : isHttp arg = true
  · have tail : bareId arg = iriTail arg := if_pos http
    have self : iriFor base kind arg = arg := iriFor_of_isHttp http
    constructor
    · intro right
      by_cases own : arg = iriOf base kind (iriTail arg)
      · exact Or.inr (Or.inl own)
      · refine Or.inr (Or.inr fun req' made' carried => ?_)
        have same : req = req' := Except.ok.inj (made.symm.trans made')
        subst same
        by_contra works
        have acts : ActsOn handlers base tool args state (iriOf base kind (bareId arg)) :=
          (acts_iff handlers base state given about made).2 ⟨rfl, carried, tail ▸ works⟩
        have named := right _ acts
        rw [self, tail] at named
        exact own named.symm
    · intro fits iri acts
      obtain ⟨rfl, carried, works⟩ := (acts_iff handlers base state given about made).1 acts
      rw [tail] at works ⊢
      rcases fits with plain | own | idle
      · rw [http] at plain
        cases plain
      · rw [self, ← own]
      · exact absurd (idle req made carried) works
  · have plain : isHttp arg = false := Bool.not_eq_true _ ▸ http
    refine ⟨fun _ => Or.inl plain, fun _ iri acts => ?_⟩
    obtain ⟨rfl, _⟩ := (acts_iff handlers base state given about made).1 acts
    rw [iriFor, plain, bareId, plain]
    rfl

end

/-- The version a release of one software is recorded with. -/
def oneRelease : Json := .object [("software", .string " 01a "), ("version", .string "1.0")]

/-- Where every request succeeds, a release is recorded on the software its argument names. -/
theorem local_release_pointed : strArg oneRelease Tool.addRelease.key = some "01a" ∧
    ∀ iri, ActsOn (fun _ _ _ _ state => (.ok .null, state)) "https://reg.example" .addRelease oneRelease () iri →
      iri = iriFor "https://reg.example" .software "01a" := by
  have given : strArg oneRelease Tool.addRelease.key = some "01a" := by decide
  exact ⟨given, (pointed_iff _ "https://reg.example" .addRelease oneRelease () "01a" .software given rfl).2
    (Or.inl (by decide))⟩

def typeJson (out : Api.Types.ArtifactTypeOut) : Json :=
  .object ([("iri", .string out.iri), ("id", .string out.id), ("label", .string out.label)] ++
    out.definition.toList.map (fun text => ("definition", .string text)) ++
    out.defaultMediaType.toList.map (fun text => ("default_media_type", .string text)) ++
    [("artifact_count", .number (toString out.artifactCount)), ("source", .string out.source), ("adopted", .bool out.adopted)] ++
    out.scheme.toList.map (fun text => ("scheme", .string text)) ++
    (if out.aliases.isEmpty then [] else [("aliases", encodeList .string out.aliases)]))

/-- The handler of one type as the registry has it; no other record is held. -/
def typeHandlers (server : Server) (draw : Draw) : Handlers State := fun action kind iri _ state =>
  match action, kind with
  | .get, .type => ((Api.Types.load (server.ctx state draw) iri).map typeJson, state)
  | _, _ => (.error (AppError.notFound ("nothing at " ++ iri)), state)

/-- A type is read for every address, whether anything is said about it or not. -/
theorem type_answered (server : Server) (draw : Draw) {iri : String} (valid : server.platform.validIri iri = true) (req : Request)
    (state : State) : ¬ Declines (typeHandlers server draw) .get .type iri req state := by
  rintro ⟨error, refused⟩
  have described : Store.describe (server.ctx state draw).platform (server.ctx state draw).data iri =
      .ok (Store.describeQuads state.data iri) := if_pos valid
  simp only [typeHandlers, Api.Types.load, described] at refused
  cases refused

/-- A term of another vocabulary, asked for as a type. -/
def foreignType : Json :=
  .object [("kind", .string "type"), ("id", .string "http://edamontology.org/format_2572")]

/-- The record of a foreign type is read at an address of this registry's. -/
theorem foreign_type_mispointed :
    ¬ ∀ iri, ActsOn (typeHandlers (Specimen.registry []) (Specimen.draw "d")) "https://reg.example" .getRecord foreignType
      State.empty iri → iri = iriFor "https://reg.example" .type "http://edamontology.org/format_2572" := by
  intro right
  have given : strArg foreignType Tool.getRecord.key = some "http://edamontology.org/format_2572" := by decide
  have about : Tool.getRecord.kind foreignType = some .type := by decide
  have made : request .getRecord foreignType "http://edamontology.org/format_2572" =
      .ok { method := "GET", path := "/api/v1/types/format%5F2572" } := by rfl
  have carried : Carried { method := "GET", path := "/api/v1/types/format%5F2572" } := ⟨by decide, by decide⟩
  have acts := (acts_iff (typeHandlers (Specimen.registry []) (Specimen.draw "d")) "https://reg.example" State.empty given about
    made).2 ⟨rfl, carried, type_answered _ _ (by decide) _ _⟩
  have same := right _ acts
  revert same
  decide

end ToolArtifactRegistry.Laws
