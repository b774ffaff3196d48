import ToolArtifactRegistry.Api.Paging
import ToolArtifactRegistry.Laws.Filtering

/-! Following the cursors of a listing, and the totals met on the way. -/
namespace ToolArtifactRegistry.Laws

open Library.Rdf Library.Queries Library.Keyset Library.Text Ids Domain Api.Listing Api.Paging

section Writing

/-- The lines behind the first. -/
def behind (body : Body) : String := join "" (body.map (fun line => "\n" ++ (line.map Element.written).getD ""))

theorem join_cons (text : String) (rest : List String) : join "\n" (text :: rest) = text ++ join "" (rest.map ("\n" ++ ·)) := by
  induction rest generalizing text with
  | nil => simp [join]
  | cons next rest ih =>
    rw [join, ih next, List.map_cons]
    · cases rest with
      | nil => simp [join, String.append_assoc]
      | cons => simp [join, String.append_assoc]
    · exact fun none_ => List.cons_ne_nil _ _ none_

theorem written_cons (element : Element) (rest : Body) : Body.written (some element :: rest) = element.written ++ behind rest := by
  rw [Body.written, List.map_cons, join_cons, List.map_map]
  rfl

theorem join_empty_cons (text : String) (rest : List String) : join "" (text :: rest) = text ++ join "" rest := by
  cases rest with
  | nil => simp [join]
  | cons => simp [join]

theorem behind_append (first second : Body) : behind (first ++ second) = behind first ++ behind second := by
  induction first with
  | nil => simp [behind, join]
  | cons line first ih =>
    unfold behind at ih ⊢
    rw [List.cons_append, List.map_cons, List.map_cons, join_empty_cons, join_empty_cons, ih]
    simp only [String.append_assoc]

theorem behind_some (element : Element) : behind [some element] = "\n" ++ element.written := rfl

theorem behind_none : behind [none] = "\n" := by
  simp [behind, join]

theorem behind_line {value : Option String} {element : String → Element} {clause : String → String}
    (same : ∀ v, "\n" ++ (element v).written = clause v) : behind (line value element) = given value clause := by
  unfold line given
  cases value.filter (fun v => v != "") with
  | none => rfl
  | some v => rw [behind_some, same]

theorem equals_written (peer : String) : "\n" ++ (Element.equals "g" peer).written = "\nFILTER(?g = " ++ Api.Listing.angle peer ++ ")" := by
  have same : Library.Queries.angle peer = Api.Listing.angle peer := rfl
  show "\n" ++ ("FILTER(?" ++ "g" ++ " = " ++ Library.Queries.angle peer ++ ")") = _
  rw [same]
  simp only [← String.append_assoc, String.reduceAppend]

theorem behind_registry (registry : Option String) : behind (registryLine registry) = registryClause registry := by
  unfold registryLine registryClause
  cases registry with
  | none => rfl
  | some peer =>
    dsimp only
    split
    · rw [behind_some, equals_written]
    · split
      · rw [behind_some, equals_written]
      · rfl

/-- A block in any graph, as the listings write it. -/
theorem graph_written (items : List Item) : (Element.graph (.var "g") items).written = graph (writtenItems items) := by
  have opening : ("GRAPH " ++ ("?" ++ "g") ++ " " : String) = "GRAPH ?g " := by decide
  show "GRAPH " ++ ("?" ++ "g") ++ " " ++ Library.Queries.braces (writtenItems items) = graph (writtenItems items)
  rw [opening]
  rfl

theorem clause_written {path : Path} {object : Place} {opening : String} (same : "?" ++ "s" ++ " " ++ path.written ++ " " = opening) :
    "\n" ++ (clause path object).written = "\n" ++ graph (opening ++ object.written) := by
  rw [clause, graph_written, ← same]
  rfl

theorem test_written (name spelled : String) :
    "REGEX(" ++ textOf name ++ ", " ++ Library.Queries.inQuotes spelled ++ ", \"i\")" =
      "REGEX(STR(" ++ ("?" ++ name) ++ "), " ++ Api.Listing.inQuotes spelled ++ ", \"i\")" := by
  have opening : "REGEX(STR(".toList = "REGEX(".toList ++ "STR(".toList := by decide
  have closing : "), ".toList = ")".toList ++ ", ".toList := by decide
  have same : Library.Queries.inQuotes spelled = Api.Listing.inQuotes spelled := rfl
  apply String.toList_inj.mp
  simp only [textOf, same, String.toList_append, opening, closing, List.append_assoc]

theorem behind_text {q : Option String} {names vars : List String} (same : names.map ("?" ++ ·) = vars) :
    behind (textLine q names) = textClause q vars := by
  unfold textLine textClause
  cases q with
  | none => rfl
  | some q =>
    dsimp only
    unfold textFilter
    by_cases blank : trim q = ""
    · rw [if_pos blank, if_pos blank, behind_none]
      rfl
    · rw [if_neg blank, if_neg blank, behind_some, ← same]
      have tests : names.map (fun name => "REGEX(" ++ textOf name ++ ", " ++
          Library.Queries.inQuotes (escapeLiteral (regexEscape q)) ++ ", \"i\")") =
          (names.map ("?" ++ ·)).map (fun v => "REGEX(STR(" ++ v ++ "), " ++
            Api.Listing.inQuotes (escapeLiteral (regexEscape q)) ++ ", \"i\")") := by
        rw [List.map_map]
        exact List.map_congr_left (fun name _ => test_written name _)
      show "\n" ++ ("FILTER(" ++ join " || " _ ++ ")") = _
      rw [tests]

theorem behind_cursor (paging : Api.Listing.Paging) : behind [cursorLine paging] = "\n" ++ paging.cursorFilter := by
  unfold cursorLine Paging.cursorFilter given
  cases paging.cursor.filter (fun c => c != "") with
  | none => exact behind_none
  | some c =>
    have opening : ("FILTER(" ++ ("STR(" ++ ("?" ++ "s") ++ ")") ++ " < " : String) = "FILTER(STR(?s) < " := by decide
    show "\n" ++ ("FILTER(" ++ ("STR(" ++ ("?" ++ "s") ++ ")") ++ " < " ++ _ ++ ")") = _
    rw [opening]
    rfl

/-- A filter on an IRI. -/
theorem behind_iris {value : Option String} {iri : String → String} (path : Path) (opening : String)
    (same : "?" ++ "s" ++ " " ++ path.written ++ " " = opening) :
    behind (line value (fun v => clause path (.iri (iri v)))) =
      given value (fun v => "\n" ++ graph (opening ++ Api.Listing.angle (iri v))) := by
  apply behind_line
  intro v
  rw [clause_written same]
  rfl

/-- A filter on a literal. -/
theorem behind_literals {value : Option String} (path : Path) (opening : String)
    (same : "?" ++ "s" ++ " " ++ path.written ++ " " = opening) :
    behind (line value (fun v => clause path (literal v))) =
      given value (fun v => "\n" ++ graph (opening ++ Api.Listing.inQuotes (escapeLiteral v))) := by
  apply behind_line
  intro v
  rw [clause_written same]
  rfl

theorem written_headed {block : Element} {rest : Body} {head : String}
    (same : block.written ++ behind [untombstoned] = head) :
    Body.written ([some block, untombstoned] ++ rest) = head ++ behind rest := by
  rw [List.cons_append, written_cons, behind_append, ← String.append_assoc, same]

theorem softwareStem_written (f : SoftwareFilter) (paging : Api.Listing.Paging) :
    Body.written (softwareStem f ++ [cursorLine paging]) = softwareWhere { f with paging := paging } := by
  have head : softwareBlock.written ++ behind [untombstoned] = softwareHead := by decide +kernel
  have names : ["name", "tagline", "desc"].map ("?" ++ ·) = ["?name", "?tagline", "?desc"] := by decide
  rw [softwareWhere_eq, softwareStem]
  simp only [List.append_assoc]
  rw [written_headed head]
  simp only [behind_append, behind_cursor, behind_registry]
  rw [behind_text names, behind_iris (one "dct" "license") "?s dct:license " rfl,
    behind_iris (one "dct" "publisher") "?s dct:publisher " rfl, behind_iris (one "dct" "subject") "?s dct:subject " rfl,
    behind_iris (.through [.name "tar" "hasCapability", .name "tar" "produces"]) "?s tar:hasCapability/tar:produces " rfl,
    behind_iris (.through [.name "tar" "hasCapability", .name "tar" "consumes"]) "?s tar:hasCapability/tar:consumes " rfl,
    behind_literals (one "schema" "keywords") "?s schema:keywords " rfl,
    behind_literals (.either [.name "schema" "applicationCategory", .name "tar" "kind"]) "?s schema:applicationCategory|tar:kind " rfl]
  simp only [String.append_assoc]

theorem instances_written (base : String) (f : InstanceFilter) (paging : Api.Listing.Paging) :
    Body.written (instanceStem base f ++ [cursorLine paging]) = instanceWhere base { f with paging := paging } := by
  have head : instanceBlock.written ++ behind [untombstoned] = instanceHead := by decide
  have names : ["label"].map ("?" ++ ·) = ["?label"] := by decide
  rw [instanceWhere, instanceStem]
  simp only [List.append_assoc]
  rw [written_headed head]
  simp only [behind_append, behind_cursor, behind_registry]
  rw [behind_text names, behind_iris (one "tar" "instanceOf") "?s tar:instanceOf " rfl,
    behind_iris (one "tar" "runsRelease") "?s tar:runsRelease " rfl, behind_iris (one "dct" "publisher") "?s dct:publisher " rfl,
    behind_literals (one "tar" "health") "?s tar:health " rfl]
  simp only [String.append_assoc]

theorem keyword_written (platform : Platform) (base k : String) :
    "\n" ++ (keywordElement platform base k).written = keywordClause platform base k := by
  unfold keywordElement keywordClause
  cases (Keywords.lookup platform (lastSegment k)).or (Keywords.lookup platform k) with
  | some entry =>
    have opening : "?" ++ "s" ++ " " ++ (one "dcat" "theme").written ++ " " = "?s dcat:theme " := rfl
    exact clause_written opening
  | none =>
    have opening : "?" ++ "s" ++ " " ++ (one "dcat" "keyword").written ++ " " = "?s dcat:keyword " := rfl
    exact clause_written opening

theorem content_written (platform : Platform) (c : String) :
    "\n" ++ (contentElement platform c).written = contentClause platform c := by
  unfold contentElement contentClause
  cases Content.parseQuery platform c with
  | some iri =>
    have opening : "?" ++ "s" ++ " " ++ (Path.through [.name "dcat" "distribution", .name "prov" "specializationOf"]).written ++ " " =
        "?s dcat:distribution/prov:specializationOf " := rfl
    exact clause_written opening
  | none => rfl

/-- Triples about the subject lead to another place, about which there is one more. -/
theorem chain_written (first second : Path) (name iri opening : String)
    (same : "?" ++ "s" ++ " " ++ (first.written ++ " " ++ ("?" ++ name)) ++ " . " ++ ("?" ++ name ++ " " ++ (second.written ++ " ")) = opening) :
    writtenItems [.triples s [(first, .var name)], .triples (.var name) [(second, .iri iri)]] = opening ++ Api.Listing.angle iri := by
  rw [← same]
  show "?" ++ "s" ++ " " ++ (first.written ++ " " ++ ("?" ++ name)) ++ " . " ++
    ("?" ++ name ++ " " ++ (second.written ++ " " ++ Api.Listing.angle iri)) = _
  simp only [String.append_assoc]

theorem viaSoftware_written (iri : String) :
    writtenItems [.triples s [(generatedBy, r)], .triples r [(atInstance, i)], .triples i [(one "tar" "instanceOf", .iri iri)]] =
      "?s prov:wasGeneratedBy ?r . ?r prov:wasAssociatedWith|tar:atInstance ?i . ?i tar:instanceOf " ++ Api.Listing.angle iri := by
  show "?s prov:wasGeneratedBy ?r" ++ " . " ++ ("?r prov:wasAssociatedWith|tar:atInstance ?i" ++ " . " ++
    ("?" ++ "i" ++ " " ++ ("tar:instanceOf" ++ " " ++ Api.Listing.angle iri))) = _
  simp only [← String.append_assoc, String.reduceAppend]

theorem artifacts_written (platform : Platform) (base : String) (f : ArtifactFilter) (paging : Api.Listing.Paging) :
    Body.written (artifactStem platform base f ++ [cursorLine paging]) = artifactWhere platform base { f with paging := paging } := by
  have head : artifactBlock.written ++ behind [untombstoned] = artifactHead := by decide +kernel
  have names : ["title", "desc"].map ("?" ++ ·) = ["?title", "?desc"] := by decide
  have atInstance_ : behind (line f.instance_ (fun id => .graph (.var "g")
      [.triples s [(generatedBy, r)], .triples r [(atInstance, .iri (iriFor base .instance_ id))]])) =
      given f.instance_ (fun i => "\n" ++ graph ("?s prov:wasGeneratedBy ?r . ?r prov:wasAssociatedWith|tar:atInstance " ++
        Api.Listing.angle (iriFor base .instance_ i))) := by
    apply behind_line
    intro id
    rw [graph_written, r, chain_written generatedBy atInstance "r" _ _ rfl]
    rfl
  have ofSoftware : behind (line f.software (fun sw => .graph (.var "g")
      [.triples s [(generatedBy, r)], .triples r [(atInstance, i)],
        .triples i [(one "tar" "instanceOf", .iri (iriFor base .software sw))]])) =
      given f.software (fun sw => "\n" ++
        graph ("?s prov:wasGeneratedBy ?r . ?r prov:wasAssociatedWith|tar:atInstance ?i . ?i tar:instanceOf " ++
          Api.Listing.angle (iriFor base .software sw))) := by
    apply behind_line
    intro sw
    rw [graph_written, viaSoftware_written]
  rw [artifactWhere, artifactStem]
  simp only [List.append_assoc]
  rw [written_headed head]
  simp only [behind_append, behind_cursor, behind_registry]
  rw [behind_text names, behind_iris (one "dct" "conformsTo") "?s dct:conformsTo " rfl,
    behind_iris (one "dct" "license") "?s dct:license " rfl,
    behind_literals (.through [.name "dcat" "distribution", .name "tar" "availability"]) "?s dcat:distribution/tar:availability " rfl,
    behind_line (keyword_written platform base), atInstance_, ofSoftware, generatedBy,
    behind_iris (one "prov" "wasGeneratedBy") "?s prov:wasGeneratedBy " rfl, behind_line (content_written platform)]
  simp only [String.append_assoc]

theorem runs_written (base : String) (f : RunFilter) (paging : Api.Listing.Paging) :
    Body.written (runStem base f ++ [cursorLine paging]) = runWhere base { f with paging := paging } := by
  have head : runBlock.written = runHead := by decide
  have names : ["label", "key"].map ("?" ++ ·) = ["?label", "?key"] := by decide
  have ofSoftware : behind (line f.software (fun sw => .graph (.var "g")
      [.triples s [(atInstance, i)], .triples i [(one "tar" "instanceOf", .iri (iriFor base .software sw))]])) =
      given f.software (fun sw => "\n" ++ graph ("?s prov:wasAssociatedWith|tar:atInstance ?i . ?i tar:instanceOf " ++
        Api.Listing.angle (iriFor base .software sw))) := by
    apply behind_line
    intro sw
    rw [graph_written, i, chain_written atInstance (one "tar" "instanceOf") "i" _ _ rfl]
    rfl
  rw [runWhere, runStem]
  simp only [List.append_assoc, List.cons_append, List.nil_append]
  rw [written_cons, head]
  simp only [behind_append, behind_cursor]
  rw [behind_text names, behind_iris atInstance "?s prov:wasAssociatedWith|tar:atInstance " rfl, ofSoftware, behind_literals (one "tar" "status") "?s tar:status " rfl]
  simp only [String.append_assoc]

theorem instanceRuns_written (base id : String) (paging : Api.Listing.Paging) :
    Body.written (instanceRunsStem base id ++ [cursorLine paging]) = instanceRunsWhere base id paging := by
  have items : writtenItems [.triples s [Api.Paging.typed Run.typeActivity, (atInstance, .iri (iriFor base .instance_ id))]] =
      "?s a " ++ Api.Listing.angle Run.typeActivity ++ " ; prov:wasAssociatedWith|tar:atInstance " ++
        Api.Listing.angle (iriFor base .instance_ id) := by
    show "?s" ++ " " ++ ("a" ++ " " ++ Api.Listing.angle Run.typeActivity ++ " ; " ++
      ("prov:wasAssociatedWith|tar:atInstance" ++ " " ++ Api.Listing.angle (iriFor base .instance_ id))) = _
    have opening : ("?s" ++ " " ++ "a" ++ " " : String) = "?s a " := by decide
    have between : (" ; " ++ "prov:wasAssociatedWith|tar:atInstance" ++ " " : String) = " ; prov:wasAssociatedWith|tar:atInstance " := by
      decide
    rw [← opening, ← between]
    simp only [String.append_assoc]
  rw [instanceRunsWhere, instanceRunsStem, List.singleton_append, written_cons, graph_written, items, behind_cursor]
  exact String.append_assoc.symm

theorem instanceArtifacts_written (base id : String) (paging : Api.Listing.Paging) :
    Body.written (instanceArtifactsStem base id ++ [cursorLine paging]) = instanceArtifactsWhere base id paging := by
  have items : writtenItems [.triples (.var "run") [(atInstance, .iri (iriFor base .instance_ id))],
      .triples s [(generatedBy, .var "run")]] =
      "?run prov:wasAssociatedWith|tar:atInstance " ++ Api.Listing.angle (iriFor base .instance_ id) ++
        " . ?s prov:wasGeneratedBy ?run" := by
    show "?run" ++ " " ++ ("prov:wasAssociatedWith|tar:atInstance" ++ " " ++ Api.Listing.angle (iriFor base .instance_ id)) ++
      " . " ++ "?s prov:wasGeneratedBy ?run" = _
    have opening : ("?run" ++ " " ++ "prov:wasAssociatedWith|tar:atInstance" ++ " " : String) =
        "?run prov:wasAssociatedWith|tar:atInstance " := by decide
    have closing : (" . " ++ "?s prov:wasGeneratedBy ?run" : String) = " . ?s prov:wasGeneratedBy ?run" := by decide
    rw [← opening, ← closing]
    simp only [String.append_assoc]
  rw [instanceArtifactsWhere, instanceArtifactsStem, List.singleton_append, written_cons, graph_written, items, behind_cursor]
  exact String.append_assoc.symm

/-- The queries of the listings are written as the code writes them. -/
theorem body_written (platform : Platform) (base : String) (endpoint : Endpoint) (paging : Api.Listing.Paging) :
    (endpoint.body platform base paging).written = endpoint.written platform base paging := by
  cases endpoint with
  | software f => exact softwareStem_written f paging
  | instances f => exact instances_written base f paging
  | artifacts f => exact artifacts_written platform base f paging
  | runs f => exact runs_written base f paging
  | instanceRuns id => exact instanceRuns_written base id paging
  | instanceArtifacts id => exact instanceArtifacts_written base id paging

end Writing

section Turning

variable (regex : String → String → Bool) (data : Dataset) (platform : Platform) (base : String) (endpoint : Endpoint)

/-- What a listing matches: nodes, the IRIs among which are the matchedIris. -/
def matchedNodes : List Term := (endpoint.stem platform base).answers regex vocabulary data "s"

def matchedIris : List String := (matchedNodes regex data platform base endpoint).filterMap iriOf

/-- The page that a cursor asks for. -/
def pageAt (limit cursor : Option String) : Page := list regex data platform base endpoint ⟨cursor, limit⟩

variable {regex data platform base endpoint}

theorem unquote_escape (text : String) : unquote (escapeLiteral text) = some text := by
  apply unquote_of_denotes
  rw [escapeLiteral, String.toList_ofList]
  exact denotes_escapeChars text.toList

theorem mem_records {iri : String} :
    iri ∈ matchedIris regex data platform base endpoint ↔ .named iri ∈ matchedNodes regex data platform base endpoint := mem_iris

theorem records_nodup : (matchedIris regex data platform base endpoint).Nodup := Library.Queries.nodup_iris (answers_nodup _ _ _ _ _)

/-- Each listing matches nodes only. -/
theorem body_nodes (paging : Api.Listing.Paging) :
    ∀ value ∈ (endpoint.body platform base paging).answers regex vocabulary data "s", IsNode value := by
  cases endpoint with
  | software | instances | artifacts | runs | instanceRuns =>
    apply answers_nodes (List.mem_cons_self) List.mem_cons_self
    exact List.cons_ne_nil _ _
  | instanceArtifacts =>
    apply answers_nodes (List.mem_cons_self) (List.mem_cons_of_mem _ List.mem_cons_self)
    exact List.cons_ne_nil _ _

/-- A page matches what the listing does, cut at the cursor. -/
theorem mem_body {limit cursor : Option String} {value : Term} :
    value ∈ (endpoint.body platform base ⟨cursor, limit⟩).answers regex vocabulary data "s" ↔
      value ∈ matchedNodes regex data platform base endpoint ∧
        ∀ bound, cursor.filter (fun c => c != "") = some bound → ∃ text, orderText value = some text ∧ text < bound := by
  unfold Endpoint.body cursorLine matchedNodes
  dsimp only
  cases cursor.filter (fun c => c != "") with
  | none =>
    unfold Body.answers
    rw [Option.map_none, solutions_blank]
    simp
  | some bound =>
    rw [Option.map_some, mem_answers_before (unquote_escape bound)]
    simp

/-- The keys left from the cursor on are the IRIs the page's query finds. -/
theorem descending_body (limit cursor : Option String) :
    descending (((endpoint.body platform base ⟨cursor, limit⟩).answers regex vocabulary data "s").filterMap iriOf) =
      left (matchedIris regex data platform base endpoint) (cursor.filter (fun c => c != "")) := by
  apply sorted_unique (descending_sorted (Library.Queries.nodup_iris (answers_nodup _ _ _ _ _))) (left_sorted records_nodup)
  intro iri
  rw [mem_descending, mem_iris, mem_body, mem_left, mem_records]
  simp [orderText]

theorem turn_leaf (limit cursor : Option String) :
    (pageAt regex data platform base endpoint limit cursor).iris =
        (leaf (matchedIris regex data platform base endpoint) (Paging.limitOf ⟨cursor, limit⟩) (cursor.filter (fun c => c != ""))).items ∧
      (pageAt regex data platform base endpoint limit cursor).next =
        (leaf (matchedIris regex data platform base endpoint) (Paging.limitOf ⟨cursor, limit⟩) (cursor.filter (fun c => c != ""))).next := by
  have rows := top_iris (@body_nodes regex data platform base endpoint ⟨cursor, limit⟩)
    (Paging.limitOf ⟨cursor, limit⟩ + 1)
  rw [descending_body] at rows
  have kept (keys : List String) (n : Nat) : (keys.take (n + 1)).take n = keys.take n := by
    rw [List.take_take, Nat.min_eq_left (Nat.le_succ n)]
  have longer (keys : List String) (n : Nat) : n < (keys.take (n + 1)).length ↔ n < keys.length := by
    rw [List.length_take]
    omega
  unfold pageAt list pageIris
  dsimp only
  rw [rows]
  simp only [kept, longer, leaf, and_self]

end Turning

section Following

variable {regex : String → String → Bool} {data : Dataset} {platform : Platform} {base : String} {endpoint : Endpoint}

def pageSize (limit : Option String) : Nat := Paging.limitOf ⟨none, limit⟩

theorem size_pos (limit : Option String) : 0 < pageSize limit := Nat.lt_of_lt_of_le Nat.zero_lt_one (Nat.le_max_left _ _)

theorem kept_cursor {cursor : Option String} (whole : cursor ≠ some "") : cursor.filter (fun c => c != "") = cursor := by
  cases cursor with
  | none => rfl
  | some c =>
    have some_ : (c != "") = true := by
      rw [bne_iff_ne]
      rintro rfl
      exact whole rfl
    rw [Option.filter_some, if_pos some_]

/-- A cursor is never the empty text, which would begin the listing again. -/
theorem next_whole {limit : Nat} {cursor : Option String} {key : String}
    (further : (leaf (matchedIris regex data platform base endpoint) limit cursor).next = some key) : some key ≠ some "" := by
  rintro same
  obtain ⟨other, _, lower⟩ := next_above records_nodup further
  rw [Option.some.inj same] at lower
  exact List.not_lt_nil other.toList (String.lt_iff_toList_lt.1 lower)

theorem follows_turn {limit cursor : Option String} {leaves : List (Leaf String)} (whole : cursor ≠ some "")
    (follows : Library.Keyset.Follows (leaf (matchedIris regex data platform base endpoint) (pageSize limit)) Leaf.next cursor leaves) :
    ∃ pages, Library.Keyset.Follows (pageAt regex data platform base endpoint limit) Page.next cursor pages ∧
      pages.flatMap Page.iris = leaves.flatMap Leaf.items := by
  induction follows with
  | @last cursor done =>
    obtain ⟨iris, next⟩ := @turn_leaf regex data platform base endpoint limit cursor
    rw [kept_cursor whole] at iris next
    refine ⟨_, .last (next.trans done), ?_⟩
    rw [List.flatMap_singleton, List.flatMap_singleton]
    exact iris
  | @more cursor key rest further _ ih =>
    obtain ⟨iris, next⟩ := @turn_leaf regex data platform base endpoint limit cursor
    rw [kept_cursor whole] at iris next
    obtain ⟨pages, follows, same⟩ := ih (next_whole further)
    refine ⟨_, .more (next.trans further) follows, ?_⟩
    rw [List.flatMap_cons, List.flatMap_cons, same]
    exact congrArg (· ++ _) iris

/-- Following the cursors from the first page ends, and the pages hold each record once, greatest first. -/
theorem pages_cover (regex : String → String → Bool) (data : Dataset) (platform : Platform) (base : String) (endpoint : Endpoint)
    (limit : Option String) :
    ∃ pages, Library.Keyset.Follows (pageAt regex data platform base endpoint limit) Page.next none pages ∧
      (∀ others, Library.Keyset.Follows (pageAt regex data platform base endpoint limit) Page.next none others → others = pages) ∧
      (pages.flatMap Page.iris).Pairwise (· > ·) ∧
      (∀ iri, iri ∈ pages.flatMap Page.iris ↔ .named iri ∈ matchedNodes regex data platform base endpoint) ∧
      pageAt regex data platform base endpoint limit (some "") = pageAt regex data platform base endpoint limit none := by
  obtain ⟨leaves, follows, through, _⟩ :=
    @follows_left _ _ (matchedIris regex data platform base endpoint) (pageSize limit) records_nodup (size_pos limit) none
  obtain ⟨pages, follows, same⟩ := @follows_turn _ _ _ _ _ limit none _ (fun same => by cases same) follows
  rw [through] at same
  refine ⟨pages, follows, fun others other => other.unique follows, ?_, ?_, rfl⟩
  · rw [same]
    exact left_sorted records_nodup
  · intro iri
    rw [same, mem_left, mem_records]
    exact ⟨And.left, fun mem => ⟨mem, nofun⟩⟩

/-! Totals. -/

theorem total_eq (limit cursor : Option String) :
    (pageAt regex data platform base endpoint limit cursor).total =
      ((endpoint.body platform base ⟨cursor, limit⟩).answers regex vocabulary data "s").length := rfl

/-- The first page reports everything that matches. -/
theorem first_total (limit : Option String) :
    (pageAt regex data platform base endpoint limit none).total = (matchedNodes regex data platform base endpoint).length := by
  have same : (endpoint.body platform base ⟨none, limit⟩).answers regex vocabulary data "s" =
      matchedNodes regex data platform base endpoint := by
    unfold Endpoint.body cursorLine matchedNodes Body.answers
    rw [Option.filter_none, Option.map_none, solutions_blank]
  rw [total_eq, same]

theorem length_iris {values : List Term} (named : ∀ value ∈ values, (iriOf value).isSome = true) :
    (values.filterMap iriOf).length = values.length := List.filterMap_length_eq_length.2 named

/-- A further page reports only what lies below its cursor. -/
theorem later_total {limit : Option String} {key : String} (whole : some key ≠ some "") :
    (pageAt regex data platform base endpoint limit (some key)).total =
      (below (matchedIris regex data platform base endpoint) (some key)).length := by
  have named : ∀ value ∈ (endpoint.body platform base ⟨some key, limit⟩).answers regex vocabulary data "s",
      (iriOf value).isSome = true := by
    intro value mem
    obtain ⟨node, same⟩ := body_nodes _ value mem
    obtain ⟨text, read, _⟩ := (mem_body.1 mem).2 key (kept_cursor whole)
    cases node with
    | named iri => rw [same]; rfl
    | blank label =>
      rw [same] at read
      cases read
  have sorted := congrArg List.length (@descending_body regex data platform base endpoint limit (some key))
  rw [kept_cursor whole, left, descending, descending, List.length_mergeSort, List.length_mergeSort, length_iris named] at sorted
  rw [total_eq, sorted]

/-- Every record stands on the first page, and nothing matches that is no record. -/
def OnOnePage (regex : String → String → Bool) (data : Dataset) (platform : Platform) (base : String) (endpoint : Endpoint)
    (limit : Option String) : Prop :=
  (matchedIris regex data platform base endpoint).length ≤ pageSize limit ∧
    ∀ value ∈ matchedNodes regex data platform base endpoint, (iriOf value).isSome = true

theorem met_none {limit cursor : Option String} (fits : OnOnePage regex data platform base endpoint limit)
    (met : Library.Keyset.Met (pageAt regex data platform base endpoint limit) Page.next cursor) : cursor = none := by
  induction met with
  | start => rfl
  | onward _ further first =>
    rw [first, turn_leaf limit none |>.2] at further
    have longer := (next_some further).2
    have count : (left (matchedIris regex data platform base endpoint) none).length =
        (matchedIris regex data platform base endpoint).length := by
      rw [left, descending, List.length_mergeSort, below]
      simp
    have few := fits.1
    exact absurd longer (by rw [Option.filter_none, count]; exact Nat.not_lt.2 few)

theorem count_left : (left (matchedIris regex data platform base endpoint) none).length = (matchedIris regex data platform base endpoint).length := by
  rw [left, descending, List.length_mergeSort, below]
  simp

/-- Where there are more matchedIris than one page holds, the second page reports fewer than there are. -/
theorem second_total {limit : Option String} (many : pageSize limit < (matchedIris regex data platform base endpoint).length) :
    ∃ key, (pageAt regex data platform base endpoint limit none).next = some key ∧
      (pageAt regex data platform base endpoint limit (some key)).total < (matchedIris regex data platform base endpoint).length := by
  have next := (@turn_leaf regex data platform base endpoint limit none).2
  rw [Option.filter_none] at next
  cases further : (leaf (matchedIris regex data platform base endpoint) (Paging.limitOf ⟨none, limit⟩) none).next with
  | none =>
    have short := (next_none_iff (size_pos limit)).1 further
    rw [count_left] at short
    omega
  | some key =>
    have fewer : (below (matchedIris regex data platform base endpoint) (some key)).length <
        (matchedIris regex data platform base endpoint).length :=
      List.length_filter_lt_length_iff_exists.2 ⟨key, (next_some further).1, fun here => lt_irrefl key (of_decide_eq_true here)⟩
    refine ⟨key, next.trans further, ?_⟩
    rw [later_total (next_whole further)]
    exact fewer

/-- The total is the number of matchedIris on each page just when there is one page and all that matches is matchedIris; the
listing of the types, which has one page, reports what it found before it cuts it. -/
theorem total_right_iff (regex : String → String → Bool) (data : Dataset) (platform : Platform) (base : String)
    (limit : Option String) :
    (∀ endpoint, (∀ cursor, Library.Keyset.Met (pageAt regex data platform base endpoint limit) Page.next cursor →
        (pageAt regex data platform base endpoint limit cursor).total = (matchedIris regex data platform base endpoint).length) ↔
      OnOnePage regex data platform base endpoint limit) ∧
    ∀ cursor, Library.Keyset.Met (fun cursor => listTypes data base ⟨cursor, limit⟩) Page.next cursor →
      (listTypes data base ⟨cursor, limit⟩).total = (typeIris data base).length := by
  refine ⟨fun endpoint => ⟨fun right => ?_, fun fits cursor met => ?_⟩, fun _ _ => rfl⟩
  · have first := right none .start
    rw [first_total] at first
    refine ⟨?_, List.filterMap_length_eq_length.1 first.symm⟩
    by_contra many
    obtain ⟨key, further, fewer⟩ := second_total (Nat.lt_of_not_le many)
    have here := right (some key) (.onward .start further)
    omega
  · rw [met_none fits met, first_total]
    exact (length_iris fits.2).symm

/-- Two pieces of software. -/
def shelf : Dataset where
  quads :=
    [⟨.named "https://reg.example/software/one", Ns.rdfType, .named Software.typeSoftware, Ns.gLocal⟩,
      ⟨.named "https://reg.example/software/one", Ns.t Ns.schema "name", .simple "One", Ns.gLocal⟩,
      ⟨.named "https://reg.example/software/two", Ns.rdfType, .named Software.typeSoftware, Ns.gLocal⟩,
      ⟨.named "https://reg.example/software/two", Ns.t Ns.schema "name", .simple "Two", Ns.gLocal⟩]
  nodup := by decide

def shelved (cursor : Option String) : Page :=
  pageAt (fun _ _ => false) shelf (Specimen.platform []) "https://reg.example" (.software {}) (some "1") cursor

/-- Two matchedIris are met on two pages, and the second reports fewer than two. -/
theorem total_shrinks : (matchedIris (fun _ _ => false) shelf (Specimen.platform []) "https://reg.example" (.software {})).length = 2 ∧
    ∃ cursor, Library.Keyset.Met shelved Page.next cursor ∧ (shelved cursor).total < 2 := by
  have two : (matchedIris (fun _ _ => false) shelf (Specimen.platform []) "https://reg.example" (.software {})).length = 2 := by
    decide
  have many : pageSize (some "1") < 2 := by decide
  obtain ⟨key, further, fewer⟩ := second_total (by rw [two]; exact many)
  rw [two] at fewer
  exact ⟨two, some key, .onward .start further, fewer⟩

end Following

end ToolArtifactRegistry.Laws
