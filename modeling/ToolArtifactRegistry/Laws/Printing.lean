import ToolArtifactRegistry.Domain.Terms
import ToolArtifactRegistry.Laws.Checking
import ToolArtifactRegistry.Library.TurtleTriples
import ToolArtifactRegistry.Shacl

/-! A validation report as the Turtle document it is printed as. What is pasted into the document is not checked, and of the
characters that end a text one is not escaped. -/
namespace ToolArtifactRegistry.Laws.Printing

open Library.Rdf Library.Text Library.Orders Library.Turtle Domain Shacl
open Digest (Finding Severity Codecs lastOf)

/-- What a report is to say about a finding. -/
def focusTerm (focus : String) : Term := if startsWith focus "http" then .named focus else .simple focus

/-- What is said of a result, from its focus on to its field. -/
def details (finding : Finding) : List (String × Term) :=
  [(sh ++ "focusNode", focusTerm finding.focus)] ++
  (if finding.path = "" then [] else [(sh ++ "resultPath", .named finding.path)]) ++
  (if finding.constraint = "" then [] else [(sh ++ "sourceConstraintComponent", .named (sh ++ finding.constraint))]) ++
  (match finding.value with
    | some value => [(sh ++ "value", .simple value)]
    | none => []) ++
  (if finding.field = "" then [] else [(Ns.tar ++ "jsonField", .simple finding.field)])

def resultStatements (finding : Finding) : List (String × Term) :=
  [(Library.Turtle.rdf ++ "type", .named (sh ++ "ValidationResult")),
    (sh ++ "resultSeverity", .named (sh ++ severityWord finding.severity))] ++
  details finding ++ [(sh ++ "resultMessage", .simple finding.message)]

def about (label : String) (statements : List (String × Term)) : List Library.Turtle.Triple :=
  statements.map (fun statement => (.blank label, statement.1, statement.2))

/-- A result under the report, and what is said of it. -/
def resultGraph (node : String) (result : String × Finding) : List Library.Turtle.Triple :=
  about node [(sh ++ "result", .blank result.1)] ++ about result.1 (resultStatements result.2)

/-- The graph of a report: its own node, and one node for each finding. -/
def reportGraph (node : String) (nodes : List String) (report : Report) : List Library.Turtle.Triple :=
  about node [(Library.Turtle.rdf ++ "type", .named (sh ++ "ValidationReport")),
    (sh ++ "conforms", .literal (if report.conforms then "true" else "false") (Library.Turtle.xsd ++ "boolean") none)] ++
  (nodes.zip report.findings).flatMap (resultGraph node)

/-- The document is Turtle, and its graph the report's. -/
def Faithful (iris : Iris) (report : Report) : Prop :=
  ∃ triples node nodes, parse iris report.toTurtle = some triples ∧ (node :: nodes).Nodup ∧
    nodes.length = report.findings.length ∧ ∀ triple, triple ∈ triples ↔ triple ∈ reportGraph node nodes report

/-- The vocabularies of a report are made of IRIs. -/
def Words (iris : Iris) : Prop :=
  ∀ space ∈ [sh, Ns.tar, Ns.dcat, Ns.dct, Ns.schema, Ns.rdfs, Ns.prov, Ns.spdx], ∀ word : String,
    (∀ c ∈ word.toList, letter c = true) → iris.valid (space ++ word) = true

/-- What the parts of a finding are that the registry makes itself. -/
structure Formed (iris : Iris) (finding : Finding) : Prop where
  path : finding.path ≠ "" → iris.valid finding.path = true
  constraint : ∀ c ∈ finding.constraint.toList, letter c = true
  field : '\r' ∉ finding.field.toList

/-- A focus that is pasted as an IRI is one. -/
def FocusValid (iris : Iris) (finding : Finding) : Prop := startsWith finding.focus "http" = true → iris.valid finding.focus = true

/-- There is no return in the texts of a finding. -/
def Returnless (finding : Finding) : Prop :=
  (startsWith finding.focus "http" = false → '\r' ∉ finding.focus.toList) ∧
    (∀ value ∈ finding.value, '\r' ∉ value.toList) ∧ '\r' ∉ finding.message.toList

section Tokens

theorem toList_escape (text : String) : (escape text).toList = text.toList.flatMap backslashed := by
  have single (old : Char) (new text : List Char) : Library.Replace.replace [old] new text =
      text.flatMap (fun c => if c = old then new else [c]) := by
    induction text with
    | nil => rfl
    | cons c rest ih =>
      by_cases same : c = old
      · rw [same, List.flatMap_cons, if_pos rfl, ← ih]
        exact Library.Replace.replace_append_hit (by simp) rest
      · have miss : ¬[old] <+: c :: rest := by
          rintro ⟨tail, shape⟩
          exact same (List.cons.inj shape).1.symm
        rw [Library.Replace.replace_cons_miss miss, List.flatMap_cons, if_neg same, ih]
        rfl
  unfold escape Library.Replace.replaceText
  simp only [String.toList_ofList]
  change Library.Replace.replace ['\n'] ['\\', 'n'] (Library.Replace.replace ['"'] ['\\', '"']
    (Library.Replace.replace ['\\'] ['\\', '\\'] text.toList)) = _
  rw [single, single, single, List.flatMap_assoc, List.flatMap_assoc]
  congr 1
  funext c
  unfold backslashed
  by_cases escape : c = '\\'
  · rw [escape]
    rfl
  · by_cases quote : c = '"'
    · rw [quote]
      rfl
    · by_cases line : c = '\n'
      · rw [line]
        rfl
      · simp [escape, quote, line]

/-- The namespaces the header declares, in its order. -/
def declared : List (String × String) :=
  [("sh", sh), ("tar", Ns.tar), ("dcat", Ns.dcat), ("dct", Ns.dct), ("schema", Ns.schema), ("rdfs", Ns.rdfs), ("prov", Ns.prov)]

def declaration (entry : String × String) : List Token := [.tag "prefix", .name entry.1 "", .iri entry.2, .mark '.']

def headerTokens : List Token :=
  declared.flatMap declaration ++ [.mark '[', .mark ']', .word "a", .name "sh" "ValidationReport", .mark ';']

def focusTokens (focus : String) : List Token :=
  [.name "sh" "focusNode", if startsWith focus "http" then .iri focus else .text focus, .mark ';']

def pathTokens (path : String) : List Token :=
  if path = "" then [] else [.name "sh" "resultPath", .iri path, .mark ';']

def constraintTokens (constraint : String) : List Token :=
  if constraint = "" then [] else [.name "sh" "sourceConstraintComponent", .name "sh" constraint, .mark ';']

def valueTokens : Option String → List Token
  | some value => [.name "sh" "value", .text value, .mark ';']
  | none => []

def fieldTokens (field : String) : List Token :=
  if field = "" then [] else [.name "tar" "jsonField", .text field, .mark ';']

def openingTokens (severity : Severity) : List Token :=
  [.mark ';', .name "sh" "result", .mark '[', .word "a", .name "sh" "ValidationResult", .mark ';', .name "sh" "resultSeverity",
    .name "sh" (severityWord severity), .mark ';']

def detailTokens (finding : Finding) : List Token :=
  focusTokens finding.focus ++ pathTokens finding.path ++ constraintTokens finding.constraint ++ valueTokens finding.value ++
    fieldTokens finding.field

def resultTokens (finding : Finding) : List Token :=
  openingTokens finding.severity ++ detailTokens finding ++ [.name "sh" "resultMessage", .text finding.message, .mark ']']

theorem reads_header : Reads header.toList headerTokens := by
  have first : Reads "@prefix sh:     <http://www.w3.org/ns/shacl#> .\n".toList
      (declaration ("sh", sh)) := reads_of (by decide)
  have second : Reads "@prefix tar:    <https://w3id.org/tar/ns#> .\n".toList
      (declaration ("tar", Ns.tar)) := reads_of (by decide)
  have third : Reads "@prefix dcat:   <http://www.w3.org/ns/dcat#> .\n".toList
      (declaration ("dcat", Ns.dcat)) := reads_of (by decide)
  have fourth : Reads "@prefix dct:    <http://purl.org/dc/terms/> .\n".toList
      (declaration ("dct", Ns.dct)) := reads_of (by decide)
  have fifth : Reads "@prefix schema: <https://schema.org/> .\n".toList
      (declaration ("schema", Ns.schema)) := reads_of (by decide)
  have sixth : Reads "@prefix rdfs:   <http://www.w3.org/2000/01/rdf-schema#> .\n".toList
      (declaration ("rdfs", Ns.rdfs)) := reads_of (by decide)
  have seventh : Reads "@prefix prov:   <http://www.w3.org/ns/prov#> .\n\n".toList
      (declaration ("prov", Ns.prov)) := reads_of (by decide)
  have last : Reads "[] a sh:ValidationReport ;\n".toList
      [.mark '[', .mark ']', .word "a", .name "sh" "ValidationReport", .mark ';'] := reads_of (by decide)
  have all := ((((((first.append second).append third).append fourth).append fifth).append sixth).append seventh).append last
  unfold header
  simp only [String.toList_append]
  exact all

theorem reads_conforms (conforms : Bool) : Reads ("    sh:conforms " ++ (if conforms then "true" else "false") ++ " ").toList
    [.name "sh" "conforms", .word (if conforms then "true" else "false")] := by
  cases conforms <;> exact reads_of (by decide)

theorem reads_opening (severity : Severity) : Reads (";\n    sh:result [\n        a sh:ValidationResult ;\n" ++
    ("        sh:resultSeverity sh:" ++ severityWord severity ++ " ;\n")).toList (openingTokens severity) := by
  cases severity <;> exact reads_of (by decide)

/-- A text that is pasted between two pieces of a line. -/
theorem settles_pasted {before : String} {tokens : List Token} (reads : Reads before.toList tokens) (text : String) {after : String}
    {more : List Token} {gap : Char} {rest : List Char} (shape : after.toList = '"' :: gap :: rest) (blank_ : blank gap = true)
    (then_ : Reads rest more) :
    Settles (before ++ "\"" ++ escape text ++ after).toList (tokens ++ .text text :: more) ('\r' ∉ text.toList) := by
  have chars : (before ++ "\"" ++ escape text ++ after).toList =
      before.toList ++ (('"' :: text.toList.flatMap backslashed ++ ['"', gap]) ++ rest) := by
    simp only [String.toList_append, toList_escape, shape, List.append_assoc]
    rfl
  have pasted := (settles_text text.toList blank_).append then_.settles
  rw [String.ofList_toList] at pasted
  rw [chars]
  exact (reads.settles.append pasted).congr (by simp)

/-- An IRI that is pasted between two pieces of a line. -/
theorem reads_pasted {before : String} {tokens : List Token} (reads : Reads before.toList tokens) {iri : String}
    (plain : ∀ c ∈ iri.toList, iriChar c = true) {after : String} {more : List Token} {rest : List Char}
    (shape : after.toList = '>' :: rest) (then_ : Reads rest more) :
    Reads (before ++ "<" ++ iri ++ after).toList (tokens ++ .iri iri :: more) := by
  have chars : (before ++ "<" ++ iri ++ after).toList = before.toList ++ (('<' :: iri.toList ++ ['>']) ++ rest) := by
    simp only [String.toList_append, shape, List.append_assoc]
    rfl
  have pasted := (reads_iri plain).append then_
  rw [String.ofList_toList] at pasted
  rw [chars]
  exact reads.append pasted

theorem reads_semicolon : Reads [' ', ';', '\n'] [.mark ';'] := reads_of (by decide)

theorem reads_line : Reads [';', '\n'] [.mark ';'] := reads_of (by decide)

variable {iris : Iris}

theorem settles_focus {focus : String} (valid : startsWith focus "http" = true → iris.valid focus = true) :
    Settles (focusTurtle focus).toList (focusTokens focus) (startsWith focus "http" = false → '\r' ∉ focus.toList) := by
  have before : Reads "        sh:focusNode ".toList [.name "sh" "focusNode"] := reads_of (by decide)
  unfold focusTurtle focusTokens
  by_cases http : startsWith focus "http" = true
  · have line : "        sh:focusNode <" = "        sh:focusNode " ++ "<" := by decide
    rw [if_pos http, if_pos http, line]
    exact (reads_pasted before (iris.plain (valid http)) rfl reads_semicolon).settles.congr (by simp [http])
  · have line : "        sh:focusNode \"" = "        sh:focusNode " ++ "\"" := by decide
    rw [if_neg http, if_neg http, line]
    exact (settles_pasted before focus rfl rfl reads_line).congr (by simp [http])

theorem reads_path {path : String} (valid : path ≠ "" → iris.valid path = true) :
    Reads (if path = "" then "" else "        sh:resultPath <" ++ path ++ "> ;\n").toList (pathTokens path) := by
  have before : Reads "        sh:resultPath ".toList [.name "sh" "resultPath"] := reads_of (by decide)
  unfold pathTokens
  by_cases empty : path = ""
  · rw [if_pos empty, if_pos empty]
    exact reads_nil
  · have line : "        sh:resultPath <" = "        sh:resultPath " ++ "<" := by decide
    rw [if_neg empty, if_neg empty, line]
    exact reads_pasted before (iris.plain (valid empty)) rfl reads_semicolon

theorem reads_constraint {constraint : String} (letters : ∀ c ∈ constraint.toList, letter c = true) :
    Reads (if constraint = "" then "" else "        sh:sourceConstraintComponent sh:" ++ constraint ++ " ;\n").toList
      (constraintTokens constraint) := by
  have before : Reads "        sh:sourceConstraintComponent ".toList [.name "sh" "sourceConstraintComponent"] :=
    reads_of (by decide)
  unfold constraintTokens
  by_cases empty : constraint = ""
  · rw [if_pos empty, if_pos empty]
    exact reads_nil
  · rw [if_neg empty, if_neg empty]
    have named : Reads ('s' :: ['h'] ++ ':' :: constraint.toList ++ [' ']) [.name "sh" constraint] := by
      have read := @reads_name 's' ['h'] constraint.toList (by decide) letters ' ' rfl
      rw [String.ofList_toList] at read
      exact read
    have line : "        sh:sourceConstraintComponent sh:" = "        sh:sourceConstraintComponent " ++ "sh:" := by decide
    have chars : ("        sh:sourceConstraintComponent sh:" ++ constraint ++ " ;\n").toList =
        "        sh:sourceConstraintComponent ".toList ++ (('s' :: ['h'] ++ ':' :: constraint.toList ++ [' ']) ++ [';', '\n']) := by
      rw [line]
      simp only [String.toList_append, List.append_assoc]
      rfl
    rw [chars]
    exact before.append (named.append reads_line)

theorem settles_value (value : Option String) : Settles (match value with
      | some value => "        sh:value \"" ++ escape value ++ "\" ;\n"
      | none => "").toList (valueTokens value) (∀ text ∈ value, '\r' ∉ text.toList) := by
  have before : Reads "        sh:value ".toList [.name "sh" "value"] := reads_of (by decide)
  cases value with
  | none => exact reads_nil.settles.congr (by simp)
  | some value =>
    have line : "        sh:value \"" = "        sh:value " ++ "\"" := by decide
    dsimp only
    rw [line]
    exact (settles_pasted before value rfl rfl reads_line).congr (by simp)

theorem settles_field (field : String) :
    Settles (if field = "" then "" else "        tar:jsonField \"" ++ escape field ++ "\" ;\n").toList (fieldTokens field)
      ('\r' ∉ field.toList) := by
  have before : Reads "        tar:jsonField ".toList [.name "tar" "jsonField"] := reads_of (by decide)
  unfold fieldTokens
  by_cases empty : field = ""
  · rw [if_pos empty, if_pos empty]
    exact reads_nil.settles.congr (by simp [empty])
  · have line : "        tar:jsonField \"" = "        tar:jsonField " ++ "\"" := by decide
    rw [if_neg empty, if_neg empty, line]
    exact settles_pasted before field rfl rfl reads_line

theorem settles_message (message : String) :
    Settles ("        sh:resultMessage \"" ++ escape message ++ "\"\n    ] ").toList
      [.name "sh" "resultMessage", .text message, .mark ']'] ('\r' ∉ message.toList) := by
  have before : Reads "        sh:resultMessage ".toList [.name "sh" "resultMessage"] := reads_of (by decide)
  have after : Reads "    ] ".toList [.mark ']'] := reads_of (by decide)
  have line : "        sh:resultMessage \"" = "        sh:resultMessage " ++ "\"" := by decide
  rw [line]
  exact settles_pasted before message rfl rfl after

/-- A result is read as its tokens just when there is no return in its texts. -/
theorem settles_result {finding : Finding} (formed : Formed iris finding) (valid : FocusValid iris finding) :
    Settles (resultTurtle finding).toList (resultTokens finding) (Returnless finding) := by
  have whole := ((((((reads_opening finding.severity).settles.append (settles_focus valid)).append
    (reads_path formed.path).settles).append (reads_constraint formed.constraint).settles).append
      (settles_value finding.value)).append (settles_field finding.field)).append (settles_message finding.message)
  have tokens : resultTokens finding = openingTokens finding.severity ++ focusTokens finding.focus ++ pathTokens finding.path ++
      constraintTokens finding.constraint ++ valueTokens finding.value ++ fieldTokens finding.field ++
        [.name "sh" "resultMessage", .text finding.message, .mark ']'] := by
    simp only [resultTokens, detailTokens, List.append_assoc]
  unfold resultTurtle
  rw [String.toList_append, String.toList_append, String.toList_append, String.toList_append, String.toList_append,
    String.toList_append, tokens]
  apply whole.congr
  simp only [true_and, and_true, Returnless, formed.field, not_false_eq_true, and_assoc]

def conformsTokens (conforms : Bool) : List Token := [.name "sh" "conforms", .word (if conforms then "true" else "false")]

def documentTokens (report : Report) : List Token :=
  headerTokens ++ conformsTokens report.conforms ++
    report.findings.flatMap resultTokens ++ [.mark '.']

theorem settles_results {findings : List Finding} (formed : ∀ finding ∈ findings, Formed iris finding)
    (valid : ∀ finding ∈ findings, FocusValid iris finding) :
    Settles (join "" (findings.map resultTurtle)).toList (findings.flatMap resultTokens)
      (∀ finding ∈ findings, Returnless finding) := by
  induction findings with
  | nil => exact reads_nil.settles.congr (by simp)
  | cons finding rest ih =>
    have later := ih (fun other mem => formed other (List.mem_cons_of_mem _ mem))
      (fun other mem => valid other (List.mem_cons_of_mem _ mem))
    have first := settles_result (formed finding List.mem_cons_self) (valid finding List.mem_cons_self)
    have joined : join "" ((finding :: rest).map resultTurtle) = resultTurtle finding ++ join "" (rest.map resultTurtle) := by
      cases rest with
      | nil => simp [join]
      | cons other more => simp [join]
    rw [joined, String.toList_append, List.flatMap_cons]
    exact (first.append later).congr (by simp)

/-- A report is read as its tokens just when there is no return in the texts of its findings. -/
theorem settles_report {report : Report} (formed : ∀ finding ∈ report.findings, Formed iris finding)
    (valid : ∀ finding ∈ report.findings, FocusValid iris finding) :
    Settles report.toTurtle.toList (documentTokens report) (∀ finding ∈ report.findings, Returnless finding) := by
  have stop : Reads ".\n".toList [.mark '.'] := reads_of (by decide)
  have whole := ((reads_header.settles.append (reads_conforms report.conforms).settles).append
    (settles_results formed valid)).append stop.settles
  unfold Report.toTurtle documentTokens
  rw [String.toList_append, String.toList_append, String.toList_append]
  exact whole.congr (by simp)

end Tokens

section Triples

variable {iris : Iris}

open Reader

theorem words_valid (words : Words iris) {space word : String}
    (among : space ∈ [sh, Ns.tar, Ns.dcat, Ns.dct, Ns.schema, Ns.rdfs, Ns.prov, Ns.spdx])
    (letters : ∀ c ∈ word.toList, letter c = true) : iris.valid (space ++ word) = true := words space among word letters

/-- A name of the report's own vocabulary. -/
theorem denotes_sh (words : Words iris) {word : String} (letters : ∀ c ∈ word.toList, letter c = true) (base : Option String) :
    Denotes iris declared.reverse base (.name "sh" word) (sh ++ word) :=
  denotes_name rfl (words_valid words (by simp) letters)

theorem denotes_field (words : Words iris) (base : Option String) :
    Denotes iris declared.reverse base (.name "tar" "jsonField") (Ns.tar ++ "jsonField") :=
  denotes_name rfl (words_valid words (by simp) (by decide))

/-- A reader that has read the header. -/
def placed (expect : Expect) (stack : List Frame) (fresh : Nat) (triples : List Library.Turtle.Triple) : Reader where
  expect := expect
  spaces := declared.reverse
  stack := stack
  fresh := fresh
  triples := triples

/-- The report, as what is being described. -/
def top (verb : Option String) : Frame := .subject (.blank (anonymous 0)) verb .top

theorem declarations_run (entries spaces : List (String × String)) (valid : ∀ entry ∈ entries, iris.valid entry.2 = true) :
    (entries.flatMap declaration).foldlM (Reader.step iris) { spaces := spaces } =
      some { spaces := entries.reverse ++ spaces } := by
  induction entries generalizing spaces with
  | nil => rfl
  | cons entry rest ih =>
    have first : (declaration entry).foldlM (Reader.step iris) { spaces := spaces } = some { spaces := entry :: spaces } :=
      run_declare entry.1 rfl (valid entry List.mem_cons_self)
    rw [List.flatMap_cons, List.foldlM_append, first]
    simp only [Option.bind_eq_bind, Option.bind_some]
    rw [ih (entry :: spaces) (fun other mem => valid other (List.mem_cons_of_mem _ mem)), List.reverse_cons, List.append_assoc]
    rfl

/-- What is said of the report itself. -/
def ownStatements (conforms : Bool) : List (String × Term) :=
  [(Library.Turtle.rdf ++ "type", .named (sh ++ "ValidationReport")),
    (sh ++ "conforms", .literal (if conforms then "true" else "false") (Library.Turtle.xsd ++ "boolean") none)]

/-- The header, and whether the candidate conforms. -/
theorem opening_run (words : Words iris) (conforms : Bool) :
    (headerTokens ++ conformsTokens conforms).foldlM (Reader.step iris) {} =
      some (placed .after [top (some (sh ++ "conforms"))] 1 (about (anonymous 0) (ownStatements conforms)).reverse) := by
  have valid : ∀ entry ∈ declared, iris.valid entry.2 = true := by
    intro entry mem
    have among : entry.2 ∈ [sh, Ns.tar, Ns.dcat, Ns.dct, Ns.schema, Ns.rdfs, Ns.prov, Ns.spdx] := by
      revert entry
      decide
    have whole := @words_valid iris words entry.2 "" among (by decide)
    rwa [String.append_empty] at whole
  have header : (declared.flatMap declaration).foldlM (Reader.step iris) {} = some (placed .statement [] 0 []) := by
    have run := declarations_run declared [] valid
    rwa [List.append_nil] at run
  have opened : Reader.step iris (placed .statement [] 0 []) (.mark '[') =
      some (placed .verbOrBracket [.subject (.blank (anonymous 0)) none .bracket] 1 []) := rfl
  have closed : Reader.step iris (placed .verbOrBracket [.subject (.blank (anonymous 0)) none .bracket] 1 []) (.mark ']') =
      some (placed .verb [top none] 1 []) := rfl
  have typed : Reader.step iris (placed .verb [top none] 1 []) (.word "a") =
      some (placed .object [top (some (Library.Turtle.rdf ++ "type"))] 1 []) := step_type (Or.inl rfl) rfl
  have kind : Reader.step iris (placed .object [top (some (Library.Turtle.rdf ++ "type"))] 1 []) (.name "sh" "ValidationReport") =
      some (placed .after [top (some (Library.Turtle.rdf ++ "type"))] 1
        [(.blank (anonymous 0), Library.Turtle.rdf ++ "type", .named (sh ++ "ValidationReport"))]) :=
    step_object rfl rfl (denotes_sh words (by decide) _)
  have more (verb : Option String) (triples : List Library.Turtle.Triple) :
      Reader.step iris (placed .after [top verb] 1 triples) (.mark ';') = some (placed .verbOrEnd [top verb] 1 triples) :=
    step_semicolon rfl
  have verb (old : Option String) (triples : List Library.Turtle.Triple) :
      Reader.step iris (placed .verbOrEnd [top old] 1 triples) (.name "sh" "conforms") =
        some (placed .object [top (some (sh ++ "conforms"))] 1 triples) :=
    step_verb (Or.inr (Or.inl rfl)) rfl (denotes_sh words (by decide) _)
  have answer (triples : List Library.Turtle.Triple) :
      Reader.step iris (placed .object [top (some (sh ++ "conforms"))] 1 triples) (.word (if conforms then "true" else "false")) =
        some (placed .after [top (some (sh ++ "conforms"))] 1 ((.blank (anonymous 0), sh ++ "conforms",
          .literal (if conforms then "true" else "false") (Library.Turtle.xsd ++ "boolean") none) :: triples)) := by
    cases conforms <;> rfl
  rw [headerTokens, List.append_assoc, List.foldlM_append, header]
  simp only [conformsTokens, List.cons_append, List.nil_append, List.foldlM_cons, List.foldlM_nil, Option.bind_eq_bind,
    Option.bind_some, opened, closed, typed, kind, more, verb, answer]
  rfl

theorem anonymous_inj : Function.Injective anonymous := by
  intro n m same
  have letters := congrArg String.toList same
  rw [anonymous, anonymous, String.toList_append, String.toList_append] at letters
  have digits : Nat.toDigits 10 n = Nat.toDigits 10 m := by
    rw [← Nat.toList_repr, ← Nat.toList_repr]
    exact List.append_cancel_left letters
  rw [← Nat.ofDigitChars_ten_toDigits (n := n), digits, Nat.ofDigitChars_ten_toDigits]

/-- What is said of a result, from its focus on to its field. -/
theorem says_details (words : Words iris) {finding : Finding} (formed : Formed iris finding) (valid : FocusValid iris finding) :
    Says iris declared.reverse (detailTokens finding) (details finding) := by
  have focus : Says iris declared.reverse (focusTokens finding.focus) [(sh ++ "focusNode", focusTerm finding.focus)] := by
    unfold focusTokens focusTerm
    by_cases http : startsWith finding.focus "http" = true
    · rw [if_pos http, if_pos http]
      exact says_iri (denotes_sh words (by decide)) (fun _ => denotes_iri (valid http))
    · rw [if_neg http, if_neg http]
      exact says_text _ (denotes_sh words (by decide))
  have path : Says iris declared.reverse (pathTokens finding.path)
      (if finding.path = "" then [] else [(sh ++ "resultPath", .named finding.path)]) := by
    unfold pathTokens
    by_cases empty : finding.path = ""
    · rw [if_pos empty, if_pos empty]
      exact says_nil
    · rw [if_neg empty, if_neg empty]
      exact says_iri (denotes_sh words (by decide)) (fun _ => denotes_iri (formed.path empty))
  have constraint : Says iris declared.reverse (constraintTokens finding.constraint) (if finding.constraint = "" then [] else
      [(sh ++ "sourceConstraintComponent", .named (sh ++ finding.constraint))]) := by
    unfold constraintTokens
    by_cases empty : finding.constraint = ""
    · rw [if_pos empty, if_pos empty]
      exact says_nil
    · rw [if_neg empty, if_neg empty]
      exact says_iri (denotes_sh words (by decide)) (denotes_sh words formed.constraint)
  have value : Says iris declared.reverse (valueTokens finding.value) (match finding.value with
      | some value => [(sh ++ "value", .simple value)]
      | none => []) := by
    cases finding.value with
    | none => exact says_nil
    | some value => exact says_text value (denotes_sh words (by decide))
  have field : Says iris declared.reverse (fieldTokens finding.field)
      (if finding.field = "" then [] else [(Ns.tar ++ "jsonField", .simple finding.field)]) := by
    unfold fieldTokens
    by_cases empty : finding.field = ""
    · rw [if_pos empty, if_pos empty]
      exact says_nil
    · rw [if_neg empty, if_neg empty]
      exact says_text _ (denotes_field words)
  exact (((focus.append path).append constraint).append value).append field

/-- A result, as what is being described inside the report. -/
def inner (verb : Option String) (n : Nat) : Frame := .subject (.blank (anonymous n)) verb .bracket

/-- One result: its node is told of, and everything that is said of it. -/
theorem result_run (words : Words iris) {finding : Finding} (formed : Formed iris finding) (valid : FocusValid iris finding)
    (verb : String) (n : Nat) (triples : List Library.Turtle.Triple) :
    (resultTokens finding).foldlM (Reader.step iris) (placed .after [top (some verb)] n triples) =
      some (placed .after [top (some (sh ++ "result"))] (n + 1)
        ((.blank (anonymous 0), sh ++ "result", .blank (anonymous n)) ::
          ((about (anonymous n) (resultStatements finding)).reverse ++ triples))) := by
  have more (stack : List Frame) (n : Nat) (triples : List Library.Turtle.Triple) :
      Reader.step iris (placed .after stack n triples) (.mark ';') = some (placed .verbOrEnd stack n triples) := step_semicolon rfl
  have result : Reader.step iris (placed .verbOrEnd [top (some verb)] n triples) (.name "sh" "result") =
      some (placed .object [top (some (sh ++ "result"))] n triples) :=
    step_verb (Or.inr (Or.inl rfl)) rfl (denotes_sh words (by decide) _)
  have opened : Reader.step iris (placed .object [top (some (sh ++ "result"))] n triples) (.mark '[') =
      some (placed .verbOrBracket [inner none n, top (some (sh ++ "result"))] (n + 1) triples) := step_bracket rfl
  have typed : Reader.step iris (placed .verbOrBracket [inner none n, top (some (sh ++ "result"))] (n + 1) triples) (.word "a") =
      some (placed .object [inner (some (Library.Turtle.rdf ++ "type")) n, top (some (sh ++ "result"))] (n + 1) triples) :=
    step_type (Or.inr (Or.inr rfl)) rfl
  have kind : Reader.step iris
      (placed .object [inner (some (Library.Turtle.rdf ++ "type")) n, top (some (sh ++ "result"))] (n + 1) triples)
        (.name "sh" "ValidationResult") =
      some (placed .after [inner (some (Library.Turtle.rdf ++ "type")) n, top (some (sh ++ "result"))] (n + 1)
        ((.blank (anonymous n), Library.Turtle.rdf ++ "type", .named (sh ++ "ValidationResult")) :: triples)) :=
    step_object rfl rfl (denotes_sh words (by decide) _)
  have severity : Says iris declared.reverse
      [.name "sh" "resultSeverity", .name "sh" (severityWord finding.severity), .mark ';']
      [(sh ++ "resultSeverity", .named (sh ++ severityWord finding.severity))] := by
    refine says_iri (denotes_sh words (by decide)) (denotes_sh words ?_)
    cases finding.severity <;> decide
  have body := severity.append (says_details words formed valid)
  have tokens : resultTokens finding =
      [.mark ';', .name "sh" "result", .mark '[', .word "a", .name "sh" "ValidationResult", .mark ';'] ++
        (([.name "sh" "resultSeverity", .name "sh" (severityWord finding.severity), .mark ';'] ++ detailTokens finding) ++
          [.name "sh" "resultMessage", .text finding.message, .mark ']']) := by
    simp only [resultTokens, openingTokens, List.cons_append, List.nil_append]
  rw [tokens, List.foldlM_append]
  simp only [List.foldlM_cons, List.foldlM_nil, Option.bind_eq_bind, Option.bind_some, more, result, opened, typed, kind]
  obtain ⟨last, ran⟩ := body (placed .verbOrEnd [inner (some (Library.Turtle.rdf ++ "type")) n, top (some (sh ++ "result"))] (n + 1)
    ((.blank (anonymous n), Library.Turtle.rdf ++ "type", .named (sh ++ "ValidationResult")) :: triples))
    _ _ _ _ rfl rfl rfl
  have message (triples : List Library.Turtle.Triple) :
      [Token.name "sh" "resultMessage", .text finding.message, .mark ']'].foldlM (Reader.step iris)
          (placed .verbOrEnd [inner last n, top (some (sh ++ "result"))] (n + 1) triples) =
        some (placed .after [top (some (sh ++ "result"))] (n + 1) ((.blank (anonymous 0), sh ++ "result", .blank (anonymous n)) ::
          (.blank (anonymous n), sh ++ "resultMessage", .simple finding.message) :: triples)) := by
    have verb : Reader.step iris (placed .verbOrEnd [inner last n, top (some (sh ++ "result"))] (n + 1) triples)
        (.name "sh" "resultMessage") =
          some (placed .object [inner (some (sh ++ "resultMessage")) n, top (some (sh ++ "result"))] (n + 1) triples) :=
      step_verb (Or.inr (Or.inl rfl)) rfl (denotes_sh words (by decide) _)
    have text := @step_text iris
      (placed .object [inner (some (sh ++ "resultMessage")) n, top (some (sh ++ "result"))] (n + 1) triples)
      _ _ _ _ finding.message ']' rfl rfl
    rw [List.foldlM_cons, verb]
    simp only [Option.bind_eq_bind, Option.bind_some, text]
    rfl
  rw [Option.pure_def, Option.bind_some, List.foldlM_append, ran]
  refine (message _).trans ?_
  simp [placed, about, resultStatements]

/-- The results one after the other, each under a node of its own. -/
theorem results_run (words : Words iris) {findings : List Finding} (formed : ∀ finding ∈ findings, Formed iris finding)
    (valid : ∀ finding ∈ findings, FocusValid iris finding) (verb : String) (n : Nat) (triples : List Library.Turtle.Triple) :
    ∃ last read, (findings.flatMap resultTokens).foldlM (Reader.step iris) (placed .after [top (some verb)] n triples) =
        some (placed .after [top (some last)] (n + findings.length) (read ++ triples)) ∧
      ∀ triple, triple ∈ read ↔
        triple ∈ (((List.range' n findings.length).map anonymous).zip findings).flatMap (resultGraph (anonymous 0)) := by
  induction findings generalizing verb n triples with
  | nil => exact ⟨verb, [], rfl, fun _ => Iff.rfl⟩
  | cons finding rest ih =>
    have first := result_run words (formed finding List.mem_cons_self) (valid finding List.mem_cons_self) verb n triples
    obtain ⟨last, read, ran, same⟩ := ih (fun other mem => formed other (List.mem_cons_of_mem _ mem))
      (fun other mem => valid other (List.mem_cons_of_mem _ mem)) (sh ++ "result") (n + 1)
      ((.blank (anonymous 0), sh ++ "result", .blank (anonymous n)) ::
        ((about (anonymous n) (resultStatements finding)).reverse ++ triples))
    refine ⟨last, read ++ (.blank (anonymous 0), sh ++ "result", .blank (anonymous n)) ::
      (about (anonymous n) (resultStatements finding)).reverse, ?_, ?_⟩
    · rw [List.flatMap_cons, List.foldlM_append, first]
      simp only [Option.bind_eq_bind, Option.bind_some]
      rw [ran, List.length_cons, Nat.add_comm rest.length 1, ← Nat.add_assoc, List.append_assoc, List.cons_append]
    · intro triple
      rw [List.length_cons, List.range'_succ, List.map_cons, List.zip_cons_cons, List.flatMap_cons, List.mem_append,
        List.mem_append, same triple, List.mem_cons, List.mem_reverse, or_comm]
      simp only [resultGraph, about, List.map_cons, List.map_nil, List.cons_append, List.nil_append, List.mem_cons]

/-- A document that is read as the report's tokens has the report's graph. -/
theorem tokens_faithful (words : Words iris) {report : Report} (formed : ∀ finding ∈ report.findings, Formed iris finding)
    (valid : ∀ finding ∈ report.findings, FocusValid iris finding) (lexed : lex report.toTurtle = some (documentTokens report)) :
    Faithful iris report := by
  obtain ⟨last, read, ran, same⟩ := results_run words formed valid (sh ++ "conforms") 1
    (about (anonymous 0) (ownStatements report.conforms)).reverse
  have ended (fresh : Nat) (triples : List Library.Turtle.Triple) :
      Reader.step iris (placed .after [top (some last)] fresh triples) (.mark '.') = some (placed .statement [] fresh triples) := rfl
  have parsed : parse iris report.toTurtle = some (read ++ (about (anonymous 0) (ownStatements report.conforms)).reverse) := by
    rw [parse, lexed, documentTokens, Option.bind_some, List.foldlM_append, List.foldlM_append, opening_run words]
    simp only [Option.bind_eq_bind, Option.bind_some, ran, List.foldlM_cons, List.foldlM_nil, ended]
    rfl
  refine ⟨_, anonymous 0, (List.range' 1 report.findings.length).map anonymous, parsed, ?_, by simp, ?_⟩
  · rw [List.nodup_cons]
    constructor
    · intro among
      obtain ⟨n, inside, alike⟩ := List.mem_map.1 among
      have zero := anonymous_inj alike
      have low := (List.mem_range'_1.1 inside).1
      omega
    · exact (List.nodup_range').map anonymous_inj
  · intro triple
    rw [List.mem_append, same triple, List.mem_reverse, reportGraph, List.mem_append, or_comm]
    rfl

/-- A faithful document has no other IRIs in it than IRIs. -/
theorem faithful_focus {report : Report} (faithful : Faithful iris report) :
    ∀ finding ∈ report.findings, FocusValid iris finding := by
  obtain ⟨triples, node, nodes, parsed, _, length, same⟩ := faithful
  intro finding mem http
  obtain ⟨label, paired⟩ : ∃ label, (label, finding) ∈ nodes.zip report.findings := by
    obtain ⟨i, small, rfl⟩ := List.getElem_of_mem mem
    have inside : i < (nodes.zip report.findings).length := by
      rw [List.length_zip, length, Nat.min_self]
      exact small
    refine ⟨nodes[i], ?_⟩
    rw [← List.getElem_zip (h := inside)]
    exact List.getElem_mem inside
  have stated : ((.blank label, sh ++ "focusNode", .named finding.focus) : Library.Turtle.Triple) ∈ reportGraph node nodes report := by
    apply List.mem_append_right
    refine List.mem_flatMap.2 ⟨_, paired, List.mem_append_right _ ?_⟩
    refine List.mem_map.2 ⟨(sh ++ "focusNode", .named finding.focus), ?_, rfl⟩
    have focus : focusTerm finding.focus = .named finding.focus := if_pos http
    simp [resultStatements, details, focus]
  exact parse_named parsed _ ((same _).2 stated) finding.focus rfl

/-- The report is printed faithfully just when each focus that is pasted as an IRI is one, and there is no return in the texts. -/
theorem faithful_iff (words : Words iris) {report : Report} (formed : ∀ finding ∈ report.findings, Formed iris finding) :
    Faithful iris report ↔ ∀ finding ∈ report.findings, FocusValid iris finding ∧ Returnless finding := by
  constructor
  · intro faithful
    have valid := faithful_focus faithful
    have clean : ∀ finding ∈ report.findings, Returnless finding := by
      by_contra broken
      obtain ⟨triples, _, _, parsed, _⟩ := faithful
      have lexed := lex_of_breaks ((settles_report formed valid).breaks broken)
      rw [parse, lexed] at parsed
      cases parsed
    exact fun finding mem => ⟨valid finding mem, clean finding mem⟩
  · intro fine
    have valid : ∀ finding ∈ report.findings, FocusValid iris finding := fun finding mem => (fine finding mem).1
    have clean : ∀ finding ∈ report.findings, Returnless finding := fun finding mem => (fine finding mem).2
    exact tokens_faithful words formed valid (lex_of_reads ((settles_report formed valid).reads clean))

end Triples

section Findings

variable {iris : Iris}

/-- The engine reports paths by their IRIs, and components of the vocabulary of shapes. -/
structure Documented (iris : Iris) (engine : Engine) : Prop where
  path : ∀ data, ∀ result ∈ engine.validate data, ∀ path ∈ result.resultPath, ∀ name,
    PathElement.iri name ∈ path ∨ PathElement.inverse name ∈ path → iris.valid name = true
  component : ∀ data, ∀ result ∈ engine.validate data, ∀ component ∈ result.sourceConstraintComponent,
    ∃ word : String, component = sh ++ word ∧ ∀ c ∈ word.toList, letter c = true

/-- The reports of a write: of the shapes, of the vocabulary rule, and of the digest rule. -/
inductive Produced (iris : Iris) : Report → Prop where
  | shapes {engine : Engine} (documented : Documented iris engine) (order : Order (String × List String))
      (data : List Shacl.Triple) : Produced iris (validateTriples engine order data)
  | vocabulary (platform : Platform) (order : Order Terms.Row) (reference data : Dataset) (quads : List Quad) :
      Produced iris ⟨Terms.findings platform order reference data quads⟩
  | content (codecs : Codecs) (quads : List Quad) : Produced iris ⟨Digest.findings codecs quads⟩

theorem returnless_number (n : Nat) : '\r' ∉ (toString n).toList := by
  intro mem
  have digits : (toString n).toList = Nat.toDigits 10 n := Nat.toList_repr
  rw [digits] at mem
  have digit := Nat.isDigit_of_mem_toDigits (by decide) (by decide) mem
  revert digit
  decide

theorem lastOf_mem {α : Type} {pairs : List (String × α)} {key : String} {value : α} (found : lastOf pairs key = some value) :
    (key, value) ∈ pairs := by
  obtain ⟨pair, first, rfl⟩ := Option.map_eq_some_iff.1 found
  have same : pair.1 = key := by simpa using List.find?_some first
  rw [← same]
  exact List.mem_reverse.1 (List.mem_of_find?_eq_some first)

theorem fieldFor_returnless (order : Order (String × List String)) (data : List Shacl.Triple) (path focus : String) :
    '\r' ∉ (fieldFor path focus (fieldHints order data)).toList := by
  have carried : ∀ text, lastOf (fieldHints order data) focus = some text → '\r' ∉ text.toList := by
    intro text found
    obtain ⟨group, _, among⟩ := List.mem_flatMap.1 (lastOf_mem found)
    obtain ⟨i, _, same⟩ := List.mem_mapIdx.1 among
    rw [← (Prod.mk.inj same).2, String.toList_append, String.toList_append, List.mem_append, List.mem_append]
    rintro ((fixed | number) | fixed)
    · revert fixed
      decide
    · exact returnless_number i number
    · revert fixed
      decide
  have base : ∀ text, (baseFields.find? (fun entry => entry.1 == path)).map Prod.snd = some text → '\r' ∉ text.toList := by
    intro text found
    obtain ⟨entry, first, rfl⟩ := Option.map_eq_some_iff.1 found
    have all : ∀ entry ∈ baseFields, '\r' ∉ entry.2.toList := by decide
    exact all entry (List.mem_of_find?_eq_some first)
  unfold fieldFor
  dsimp only
  split
  · rename_i one other hint field
    rw [String.toList_append, String.toList_append, List.mem_append, List.mem_append]
    rintro ((inHint | dot) | inField)
    · exact carried _ hint inHint
    · revert dot
      decide
    · exact base _ field inField
  · rename_i hint _
    exact carried _ hint
  · rename_i _ field
    exact base _ field
  · exact List.not_mem_nil

theorem lastPiece_sh {word : String} (letters : ∀ c ∈ word.toList, letter c = true) : lastPiece (sh ++ word) = word := by
  have clean : ∀ c ∈ word.toList, (c == '#' || c == '/') = false := by
    intro c mem
    have hash := letter_apart (letters c mem) (d := '#') (by decide)
    have slash := letter_apart (letters c mem) (d := '/') (by decide)
    simp [hash, slash]
  have opening : sh.toList = "http://www.w3.org/ns/shacl".toList ++ ['#'] := by decide
  have chars : (sh ++ word).toList = "http://www.w3.org/ns/shacl".toList ++ '#' :: word.toList := by
    rw [String.toList_append, opening, List.append_assoc, List.singleton_append]
  unfold lastPiece split
  rw [chars, piecesOn_append_sep _ _ _ '#' (by decide), piecesOn_of_forall _ _ clean, List.map_append, List.map_singleton,
    List.getLast?_concat, String.ofList_toList]
  rfl

theorem formed_shapes {engine : Shacl.Engine} (documented : Documented iris engine) (order : Order (String × List String))
    (data : List Shacl.Triple) : ∀ finding ∈ (validateTriples engine order data).findings, Formed iris finding := by
  intro finding mem
  unfold validateTriples at mem
  split at mem
  · cases mem
  · split at mem
    · have letters : ∀ c ∈ "ShapesGraphError".toList, letter c = true := by decide
      rw [List.mem_singleton.1 mem]
      exact ⟨fun some_ => absurd rfl some_, letters, List.not_mem_nil⟩
    · dsimp only at mem
      rw [List.mem_mergeSort] at mem
      obtain ⟨result, reported, rfl⟩ := List.mem_map.1 mem
      refine ⟨?_, ?_, fieldFor_returnless order data _ _⟩
      · intro some_
        cases told : result.resultPath.bind firstPredicate with
        | none =>
          rw [Shacl.findingOf, told] at some_
          exact absurd rfl some_
        | some name =>
          obtain ⟨path, given, first⟩ := Option.bind_eq_some_iff.1 told
          have valid := documented.path data result reported path given name
          rw [Shacl.findingOf, told]
          apply valid
          unfold firstPredicate at first
          split at first
          · rename_i other head
            rw [← Option.some.inj first]
            exact Or.inl (List.mem_of_head? head)
          · rename_i other head
            rw [← Option.some.inj first]
            exact Or.inr (List.mem_of_head? head)
          · cases first
      · intro c inside
        cases given : result.sourceConstraintComponent with
        | none =>
          rw [Shacl.findingOf, given] at inside
          cases inside
        | some component =>
          obtain ⟨word, rfl, letters⟩ := documented.component data result reported component given
          rw [Shacl.findingOf, given] at inside
          have piece : lastPiece (sh ++ word) = word := lastPiece_sh letters
          simp only [Option.map_some, Option.getD_some, piece] at inside
          exact letters c inside

theorem mem_dedup {term : Terms.VocabularyTerm} {terms : List Terms.VocabularyTerm} (mem : term ∈ Terms.dedup terms) : term ∈ terms := by
  have from_ : ∀ (rest : List Terms.VocabularyTerm) (kept : Terms.VocabularyTerm),
      term ∈ Terms.dedupFrom kept rest → term ∈ kept :: rest := by
    intro rest
    induction rest with
    | nil => exact fun _ mem => mem
    | cons next rest ih =>
      intro kept mem
      rw [Terms.dedupFrom] at mem
      split at mem
      · rcases List.mem_cons.1 (ih kept mem) with same | later
        · exact same ▸ List.mem_cons_self
        · exact List.mem_cons_of_mem _ (List.mem_cons_of_mem _ later)
      · rcases List.mem_cons.1 mem with same | later
        · exact same ▸ List.mem_cons_self
        · exact List.mem_cons_of_mem _ (ih next later)
  cases terms with
  | nil => exact mem
  | cons first rest => exact from_ rest first mem

theorem slotOf_formed (words : Words iris) {predicate field : String} {slot : Vocabulary.Slot}
    (slotted : Terms.slotOf predicate = some (slot, field)) : iris.valid predicate = true ∧ '\r' ∉ field.toList := by
  unfold Terms.slotOf at slotted
  split at slotted
  · rename_i word stripped
    rw [stripPrefix_eq_some.1 stripped]
    split_ifs at slotted with conforms subject
    · cases slotted
      exact ⟨words_valid words (by simp) (by rw [conforms]; decide), by decide⟩
    · cases slotted
      exact ⟨words_valid words (by simp) (by rw [subject]; decide), by decide⟩
  · split at slotted
    · rename_i word stripped
      rw [stripPrefix_eq_some.1 stripped]
      split_ifs at slotted with produces consumes
      · cases slotted
        exact ⟨words_valid words (by simp) (by rw [produces]; decide), by decide⟩
      · cases slotted
        exact ⟨words_valid words (by simp) (by rw [consumes]; decide), by decide⟩
    · cases slotted

theorem formed_vocabulary (words : Words iris) (platform : Platform) (order : Order Terms.Row) (reference data : Dataset)
    (quads : List Quad) : ∀ finding ∈ Terms.findings platform order reference data quads, Formed iris finding := by
  intro finding mem
  obtain ⟨entry, _, built⟩ := List.mem_filterMap.1 mem
  obtain ⟨term, found, rfl⟩ := Option.map_eq_some_iff.1 built
  have among := mem_dedup (List.mem_of_getElem? found)
  rw [List.mem_mergeSort] at among
  obtain ⟨quad, _, read⟩ := List.mem_filterMap.1 among
  unfold Terms.termOf at read
  split at read
  · rename_i slot field object slotted _
    split_ifs at read
    cases read
    obtain ⟨valid, clean⟩ := slotOf_formed words slotted
    have letters : ∀ c ∈ "InConstraintComponent".toList, letter c = true := by decide
    exact ⟨fun _ => valid, letters, clean⟩
  · cases read

/-- What a finding of the digest rule is made of. -/
theorem content_entry {codecs : Codecs} {quads : List Quad} {finding : Finding} (mem : finding ∈ Digest.findings codecs quads) :
    ∃ entry ∈ Digest.checksumsIn quads, ∃ problem, Digest.check codecs entry.2.1 entry.2.2 = .error problem ∧
      finding = { severity := Digest.severityOf problem
                  focus := entry.1
                  path := Ns.spdx ++ "checksumValue"
                  constraint := "PatternConstraintComponent"
                  message := problem.message entry.2.1
                  field := (lastOf (Digest.fieldHints quads) entry.1).getD "distributions.checksum.value"
                  value := some entry.2.2 } := by
  obtain ⟨entry, listed, built⟩ := List.mem_filterMap.1 mem
  cases checked : Digest.check codecs entry.2.1 entry.2.2 with
  | ok _ =>
    rw [checked] at built
    cases built
  | error problem =>
    rw [checked] at built
    exact ⟨entry, listed, problem, checked, (Option.some.inj built).symm⟩

/-- A digest that something is wrong with is told of by its value. -/
theorem content_told {codecs : Codecs} {quads : List Quad} {entry : String × String × String} {problem : Digest.Problem}
    (listed : entry ∈ Digest.checksumsIn quads) (checked : Digest.check codecs entry.2.1 entry.2.2 = .error problem) :
    ∃ finding ∈ Digest.findings codecs quads, finding.value = some entry.2.2 := by
  let finding : Finding :=
    { severity := Digest.severityOf problem
      focus := entry.1
      path := Ns.spdx ++ "checksumValue"
      constraint := "PatternConstraintComponent"
      message := problem.message entry.2.1
      field := (lastOf (Digest.fieldHints quads) entry.1).getD "distributions.checksum.value"
      value := some entry.2.2 }
  refine ⟨finding, List.mem_filterMap.2 ⟨entry, listed, ?_⟩, rfl⟩
  rw [checked]

theorem returnless_append {left right : String} :
    '\r' ∉ (left ++ right).toList ↔ '\r' ∉ left.toList ∧ '\r' ∉ right.toList := by
  rw [String.toList_append, List.mem_append, not_or]

/-- What is wrong with a digest is said in the words of the registry, besides the name of the algorithm. -/
theorem message_returnless (problem : Digest.Problem) {name : String} (clean : '\r' ∉ name.toList) :
    '\r' ∉ (problem.message name).toList := by
  cases problem with
  | unknownAlgorithm =>
    unfold Digest.Problem.message
    simp only [returnless_append]
    exact ⟨⟨⟨⟨⟨by decide, clean⟩, by decide⟩, by decide⟩, by decide⟩, by decide⟩
  | malformedDigest n =>
    unfold Digest.Problem.message
    simp only [returnless_append]
    exact ⟨⟨⟨⟨⟨⟨by decide, clean⟩, by decide⟩, returnless_number n⟩, by decide⟩, by decide⟩,
      by decide⟩
  | notDerivable =>
    unfold Digest.Problem.message
    simp only [returnless_append]
    exact ⟨⟨⟨⟨by decide, clean⟩, by decide⟩, by decide⟩, by decide⟩

theorem formed_content (words : Words iris) (codecs : Codecs) (quads : List Quad) :
    ∀ finding ∈ Digest.findings codecs quads, Formed iris finding := by
  intro finding mem
  obtain ⟨entry, _, problem, _, rfl⟩ := content_entry mem
  refine ⟨fun _ => words_valid words (by simp) (by decide), by dsimp only; decide, ?_⟩
  dsimp only
  cases hinted : lastOf (Digest.fieldHints quads) entry.1 with
  | none =>
    rw [Option.getD_none]
    decide
  | some text =>
    obtain ⟨quad, _, made⟩ := List.mem_filterMap.1 (lastOf_mem hinted)
    obtain ⟨place, _, same⟩ := Option.map_eq_some_iff.1 made
    rw [Option.getD_some, ← (Prod.mk.inj same).2, String.toList_append, String.toList_append, List.mem_append, List.mem_append]
    rintro ((fixed | number) | fixed)
    · revert fixed
      decide
    · exact returnless_number place number
    · revert fixed
      decide

end Findings

/-- IRIs as far as their characters go. -/
def httpIris : Iris where
  valid iri := startsWith iri "http" && iri.toList.all iriChar
  resolve _ _ := none
  resolved := by
    intro _ _ _ none_
    cases none_
  plain := by
    intro iri valid
    exact List.all_eq_true.1 (Bool.and_eq_true_iff.1 valid).2
  nil := by decide

theorem iriChar_of_letter {c : Char} (is_letter : letter c = true) : iriChar c = true := by
  unfold letter within at is_letter
  simp only [List.any_cons, List.any_nil, Bool.or_false, Bool.or_eq_true, Bool.and_eq_true, decide_eq_true_eq] at is_letter
  simp only [iriChar, Bool.and_eq_true, decide_eq_true_eq, Bool.not_eq_true', List.contains_eq_mem, decide_eq_false_iff_not,
    List.mem_cons, List.not_mem_nil, or_false]
  omega

theorem httpIris_words : Words httpIris := by
  intro space among word letters
  have fixed : ∀ space ∈ [sh, Ns.tar, Ns.dcat, Ns.dct, Ns.schema, Ns.rdfs, Ns.prov, Ns.spdx],
      startsWith space "http" = true ∧ space.toList.all iriChar = true := by decide
  obtain ⟨begins, plain⟩ := fixed space among
  have pasted : startsWith (space ++ word) "http" = true := by
    rw [startsWith, List.isPrefixOf_iff_prefix] at begins ⊢
    rw [String.toList_append]
    exact begins.trans (List.prefix_append _ _)
  have all : (space ++ word).toList.all iriChar = true := by
    rw [String.toList_append, List.all_append, plain, Bool.true_and, List.all_eq_true]
    exact fun c mem => iriChar_of_letter (letters c mem)
  exact Bool.and_eq_true_iff.2 ⟨pasted, all⟩

/-- A distribution whose digest is this text. -/
def digestQuads (value : String) : List Quad :=
  Artifact.distributionQuads (Specimen.platform []) "https://reg.example/d" (Specimen.draw "n")
    { checksum := some ⟨"sha256", value⟩ }

theorem digest_entry {quads : List Quad} {value : String} (values : Digest.valuesIn quads = [("_:n", value)])
    (algorithms : Digest.algorithmsIn quads = [("_:n", "sha256")]) {entry : String × String × String} :
    entry ∈ Digest.checksumsIn quads ↔ entry = ("_:n", "sha256", value) := by
  obtain ⟨key, name, held⟩ := entry
  rw [Checking.mem_checksumsIn, values, algorithms]
  by_cases same : key = "_:n"
  · rw [same]
    simp [lastOf, eq_comm, and_comm]
  · have other : ("_:n" == key) = false := beq_false_of_ne (Ne.symm same)
    simp [lastOf, other, same]

theorem digest_fine {quads : List Quad} {value : String} (values : Digest.valuesIn quads = [("_:n", value)])
    (algorithms : Digest.algorithmsIn quads = [("_:n", "sha256")]) (clean : '\r' ∉ value.toList) (codecs : Codecs) :
    ∀ finding ∈ Digest.findings codecs quads, FocusValid httpIris finding ∧ Returnless finding := by
  intro finding mem
  obtain ⟨entry, listed, problem, _, rfl⟩ := content_entry mem
  obtain rfl := (digest_entry values algorithms).1 listed
  have plain : startsWith "_:n" "http" = false := by decide
  have focus : '\r' ∉ "_:n".toList := by decide
  have name : '\r' ∉ "sha256".toList := by decide
  refine ⟨fun http => ?_, fun _ => focus, ?_, message_returnless problem name⟩
  · cases plain.symm.trans http
  · intro text given
    rw [← Option.some.inj given]
    exact clean

end ToolArtifactRegistry.Laws.Printing
