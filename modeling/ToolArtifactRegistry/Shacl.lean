import ToolArtifactRegistry.Domain.Digest
import ToolArtifactRegistry.Domain.Terms
import ToolArtifactRegistry.Library.Replace

/-! Write validation: what the shapes, the vocabulary rule and the digest rule find in a candidate write, and the report
made of it. -/
namespace ToolArtifactRegistry.Shacl

open Library.Rdf Library.Text Library.Orders Library.Replace Domain Domain.Digest
open Domain.Terms (VocabularyTerm Verdict termsIn verdicts nodeText)

abbrev Triple := Node × String × Term

structure Report where
  findings : List Finding := []

namespace Report

def conforms (report : Report) : Bool := !report.findings.any (fun finding => finding.severity == .violation)

end Report

def escape (text : String) : String :=
  replaceText (replaceText (replaceText text "\\" "\\\\") "\"" "\\\"") "\n" "\\n"

def severityWord : Severity → String
  | .violation => "Violation"
  | .warning => "Warning"

def header : String :=
  "@prefix sh:     <http://www.w3.org/ns/shacl#> .\n" ++
  "@prefix tar:    <https://w3id.org/tar/ns#> .\n" ++
  "@prefix dcat:   <http://www.w3.org/ns/dcat#> .\n" ++
  "@prefix dct:    <http://purl.org/dc/terms/> .\n" ++
  "@prefix schema: <https://schema.org/> .\n" ++
  "@prefix rdfs:   <http://www.w3.org/2000/01/rdf-schema#> .\n" ++
  "@prefix prov:   <http://www.w3.org/ns/prov#> .\n\n" ++
  "[] a sh:ValidationReport ;\n"

def focusTurtle (focus : String) : String :=
  if startsWith focus "http" then "        sh:focusNode <" ++ focus ++ "> ;\n"
  else "        sh:focusNode \"" ++ escape focus ++ "\" ;\n"

/-- One result of a report. -/
def resultTurtle (finding : Finding) : String :=
  ";\n    sh:result [\n        a sh:ValidationResult ;\n" ++
  ("        sh:resultSeverity sh:" ++ severityWord finding.severity ++ " ;\n") ++
  focusTurtle finding.focus ++
  (if finding.path = "" then "" else "        sh:resultPath <" ++ finding.path ++ "> ;\n") ++
  (if finding.constraint = "" then "" else "        sh:sourceConstraintComponent sh:" ++ finding.constraint ++ " ;\n") ++
  (match finding.value with
    | some value => "        sh:value \"" ++ escape value ++ "\" ;\n"
    | none => "") ++
  (if finding.field = "" then "" else "        tar:jsonField \"" ++ escape finding.field ++ "\" ;\n") ++
  ("        sh:resultMessage \"" ++ escape finding.message ++ "\"\n    ] ")

/-- A `sh:ValidationReport` in Turtle. -/
def Report.toTurtle (report : Report) : String :=
  header ++ ("    sh:conforms " ++ (if report.conforms then "true" else "false") ++ " ") ++
    join "" (report.findings.map resultTurtle) ++ ".\n"

/-! The shapes. -/

inductive PathElement where
  | iri (name : String)
  | inverse (name : String)
  | other

/-- One result of the engine the shapes are checked with. -/
structure ValidationResult where
  focusNode : Term
  resultPath : Option (List PathElement)
  severity : String
  sourceConstraintComponent : Option String
  messages : List String
  value : Option Term

/-- The engine, with the shapes it was given at boot. -/
structure Engine where
  fromGraphs : List Triple → Except String Unit
  parseShapes : Except String Unit
  validate : List Triple → List ValidationResult

def sh : String := "http://www.w3.org/ns/shacl#"

def hexDigit (n : Nat) : Char := if n < 10 then Char.ofNat (48 + n) else Char.ofNat (55 + n)

/-- A character of a literal as terms are displayed. -/
def quotedChar (c : Char) : String :=
  if c = Char.ofNat 8 then "\\b"
  else if c = '\t' then "\\t"
  else if c = '\n' then "\\n"
  else if c = Char.ofNat 12 then "\\f"
  else if c = '\r' then "\\r"
  else if c = '"' then "\\\""
  else if c = '\\' then "\\\\"
  else if c.toNat < 32 ∨ c.toNat = 127 then "\\u00" ++ String.ofList [hexDigit (c.toNat / 16), hexDigit (c.toNat % 16)]
  else c.toString

/-- A term as it is displayed. -/
def termText : Term → String
  | .named iri => nodeText (.named iri)
  | .blank label => nodeText (.blank label)
  | .literal value datatype language =>
    let quoted := "\"" ++ join "" (value.toList.map quotedChar) ++ "\""
    match language with
    | some language => quoted ++ "@" ++ language
    | none => if datatype = xsdString then quoted else quoted ++ "^^<" ++ datatype ++ ">"

def firstPredicate (path : List PathElement) : Option String :=
  match path.head? with
  | some (.iri name) => some name
  | some (.inverse name) => some name
  | _ => none

/-- The shape's own wording stands last. -/
def bestMessage (messages : List String) : String := messages.getLast?.getD "constraint violated"

/-- The distributions of each parent, in the order of the candidate. -/
def byParent (data : List Triple) : List (String × List String) :=
  let links := data.filterMap (fun triple =>
    if triple.2.1 = Ns.dcat ++ "distribution" then
      match triple.2.2 with
      | .named iri => some (nodeText triple.1, iri)
      | _ => none
    else none)
  (links.map Prod.fst).eraseDups.map (fun parent => (parent, (links.filter (fun link => link.1 == parent)).map Prod.snd))

/-- The field of each distribution, one parent after the other. -/
def fieldHints (order : Order (String × List String)) (data : List Triple) : List (String × String) :=
  (order.arrange (byParent data)).flatMap (fun group =>
    group.2.mapIdx (fun i iri => (iri, "distributions[" ++ toString i ++ "]")))

/-- The input field behind each predicate. -/
def baseFields : List (String × String) :=
  [(Ns.schema ++ "name", "name"), (Ns.dct ++ "abstract", "tagline"), (Ns.schema ++ "description", "description"),
    (Ns.schema ++ "url", "homepage"), (Ns.schema ++ "codeRepository", "code_repository"),
    (Ns.schema ++ "softwareHelp", "documentation"), (Ns.schema ++ "softwareVersion", "version"),
    (Ns.dct ++ "license", "license"), (Ns.schema ++ "applicationCategory", "kind"),
    (Ns.codemeta ++ "developmentStatus", "maturity"), (Ns.dct ++ "subject", "topics"), (Ns.schema ++ "keywords", "keywords"),
    (Ns.rdfs ++ "label", "label"), (Ns.tar ++ "instanceOf", "software"), (Ns.tar ++ "runsRelease", "release"),
    (Ns.dcat ++ "endpointURL", "endpoint_url"), (Ns.dcat ++ "endpointDescription", "endpoint_description"),
    (Ns.tar ++ "jurisdiction", "jurisdiction"), (Ns.tar ++ "registrationClient", "registration_clients"),
    (Ns.tar ++ "registrationIssuer", "registration_issuer"), (Ns.tar ++ "selfRegisteredIssuer", "self_registered_issuer"),
    (Ns.tar ++ "oidcClientId", "oidc_client_id"), (Ns.tar ++ "oidcIssuer", "oidc_issuer"),
    (Ns.tar ++ "allowedScope", "allowed_scopes"), (Ns.tar ++ "produces", "capability.produces"),
    (Ns.tar ++ "consumes", "capability.consumes"), (Ns.dct ++ "title", "title"), (Ns.dct ++ "conformsTo", "conforms_to"),
    (Ns.dcat ++ "keyword", "keywords"), (Ns.prov ++ "wasDerivedFrom", "was_derived_from"),
    (Ns.dct ++ "isVersionOf", "is_version_of"), (Ns.dcat ++ "distribution", "distributions"),
    (Ns.dcat ++ "accessURL", "access_url"), (Ns.dcat ++ "downloadURL", "download_url"), (Ns.dcat ++ "byteSize", "byte_size"),
    (Ns.dcat ++ "mediaType", "media_type"), (Ns.tar ++ "accessProtocol", "access_protocol"),
    (Ns.tar ++ "authMethod", "auth_method"), (Ns.tar ++ "availability", "availability"),
    (Ns.dct ++ "accessRights", "availability"), (Ns.tar ++ "accessRequestURL", "access_request_url"),
    (Ns.prov ++ "startedAtTime", "run.started_at"), (Ns.prov ++ "endedAtTime", "run.ended_at"), (Ns.tar ++ "status", "run.status"),
    (Ns.schema ++ "actionStatus", "run.status"), (Ns.prov ++ "wasAssociatedWith", "run.instance")]

/-- A violation on a distribution is reported against the input that carried it. -/
def fieldFor (path focus : String) (hints : List (String × String)) : String :=
  let base := (baseFields.find? (fun entry => entry.1 == path)).map Prod.snd
  match lastOf hints focus, base with
  | some carried, some field => carried ++ "." ++ field
  | some carried, none => carried
  | none, some field => field
  | none, none => ""

/-- By field, then by message. -/
def findingLe (left right : Finding) : Bool :=
  if left.field = right.field then Library.Text.le left.message right.message else Library.Text.le left.field right.field

def lastPiece (iri : String) : String := ((split iri (fun c => c == '#' || c == '/')).getLast?).getD ""

def findingOf (hints : List (String × String)) (result : ValidationResult) : Finding :=
  let path := (result.resultPath.bind firstPredicate).getD ""
  let focus := termText result.focusNode
  let focusIri := trimEndMatches (trimStartMatches focus (fun c => c == '<')) (fun c => c == '>')
  { severity := if result.severity = sh ++ "Violation" then .violation else .warning
    field := fieldFor path focusIri hints
    path
    constraint := (result.sourceConstraintComponent.map lastPiece).getD ""
    message := bestMessage result.messages
    value := result.value.map (fun value =>
      match value with
      | .literal text _ _ => text
      | other => termText other)
    focus := focusIri }

/-- Shapes that do not parse refuse every write; data the engine cannot take is not judged. -/
def validateTriples (engine : Engine) (order : Order (String × List String)) (data : List Triple) : Report :=
  match engine.fromGraphs data with
  | .error _ => {}
  | .ok _ =>
    match engine.parseShapes with
    | .error e =>
      { findings :=
          [{ severity := .violation
             focus := "urn:tar:shapes"
             path := ""
             constraint := "ShapesGraphError"
             message := "the registry's SHACL shapes could not be parsed: " ++ e
             field := ""
             value := none }] }
    | .ok _ => { findings := ((engine.validate data).map (findingOf (fieldHints order data))).mergeSort findingLe }

def validateQuads (engine : Engine) (order : Order (String × List String)) (quads : List Quad) : Report :=
  validateTriples engine order (quads.map (fun quad => (quad.subject, quad.predicate, quad.object)))

end ToolArtifactRegistry.Shacl
