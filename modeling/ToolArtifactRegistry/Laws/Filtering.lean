import ToolArtifactRegistry.Api.Listing
import ToolArtifactRegistry.Laws.Specimen
import ToolArtifactRegistry.Library.Sparql

/-! A filter's value stays inside one string literal, or one IRI reference, of the query a listing is answered from,
just when what is put in angle brackets can stand there. -/
namespace ToolArtifactRegistry.Laws

open Library.Text Library.Replace Library.Spelling Library.Sparql Ids Domain Api.Listing

/-! Where the values stand in the texts. -/

def braceParts (inner : List Part) : List Part := .text "\x7b " :: inner ++ [.text " \x7d"]

def graphParts (inner : List Part) : List Part := .text "GRAPH ?g " :: braceParts inner

/-- A clause on a line of its own: a pattern up to the value, and the value. -/
def clauseParts (pattern : String) (value : Part) : List Part := .text "\n" :: graphParts [.text pattern, value]

def literalPart (value : String) : Part := .literal (escapeLiteral value) value

def givenParts (value : Option String) (parts : String → List Part) : List Part :=
  match value.filter (fun v => v != "") with
  | some v => parts v
  | none => []

/-- One test for each variable. -/
def testParts (needle : String) : List String → List Part
  | [] => []
  | [v] => [.text ("REGEX(STR(" ++ v ++ "), "), literalPart needle, .text ", \"i\")"]
  | v :: vars => [.text ("REGEX(STR(" ++ v ++ "), "), literalPart needle, .text ", \"i\")", .text " || "] ++ testParts needle vars

def textParts (q : Option String) (vars : List String) : List Part :=
  match q with
  | some q => .text "\n" :: (if trim q = "" then [] else .text "FILTER(" :: testParts (regexEscape q) vars ++ [.text ")"])
  | none => []

def registryParts (registry : Option String) : List Part :=
  match registry with
  | none => []
  | some peer =>
    if peer = "local" then [.text ("\nFILTER(?g = " ++ angle Ns.gLocal ++ ")")]
    else if peer ≠ "" then [.text "\nFILTER(?g = ", .iri (Ns.peerGraph peer), .text ")"]
    else []

def cursorParts (paging : Paging) : List Part :=
  .text "\n" :: givenParts paging.cursor (fun c => [.text "FILTER(STR(?s) < ", literalPart c, .text ")"])

def softwareParts (f : SoftwareFilter) : List Part :=
  .text softwareHead :: textParts f.q ["?name", "?tagline", "?desc"] ++
    givenParts f.license (fun v => clauseParts "?s dct:license " (.iri v)) ++
    givenParts f.publisher (fun v => clauseParts "?s dct:publisher " (.iri v)) ++
    givenParts f.topic (fun v => clauseParts "?s dct:subject " (.iri v)) ++
    givenParts f.produces (fun v => clauseParts "?s tar:hasCapability/tar:produces " (.iri v)) ++
    givenParts f.consumes (fun v => clauseParts "?s tar:hasCapability/tar:consumes " (.iri v)) ++
    givenParts f.keyword (fun k => clauseParts "?s schema:keywords " (literalPart k)) ++
    givenParts f.kind (fun k => clauseParts "?s schema:applicationCategory|tar:kind " (literalPart k)) ++
    registryParts f.registry ++ cursorParts f.paging

def instanceParts (base : String) (f : InstanceFilter) : List Part :=
  .text instanceHead :: textParts f.q ["?label"] ++
    givenParts f.software (fun sw => clauseParts "?s tar:instanceOf " (.iri (iriFor base .software sw))) ++
    givenParts f.release (fun r => clauseParts "?s tar:runsRelease " (.iri (iriFor base .release r))) ++
    givenParts f.operator (fun o => clauseParts "?s dct:publisher " (.iri o)) ++
    givenParts f.status (fun s => clauseParts "?s tar:health " (literalPart s)) ++
    registryParts f.registry ++ cursorParts f.paging

def keywordParts (platform : Platform) (base k : String) : List Part :=
  match (Keywords.lookup platform (lastSegment k)).or (Keywords.lookup platform k) with
  | some entry => clauseParts "?s dcat:theme " (.iri (Keywords.iri base entry.slug))
  | none => clauseParts "?s dcat:keyword " (literalPart k)

def contentParts (platform : Platform) (c : String) : List Part :=
  match Content.parseQuery platform c with
  | some iri => clauseParts "?s dcat:distribution/prov:specializationOf " (.iri iri)
  | none => [.text "\nFILTER(false)"]

def artifactParts (platform : Platform) (base : String) (f : ArtifactFilter) : List Part :=
  .text artifactHead :: textParts f.q ["?title", "?desc"] ++
    givenParts f.conformsTo (fun t => clauseParts "?s dct:conformsTo " (.iri t)) ++
    givenParts f.license (fun l => clauseParts "?s dct:license " (.iri l)) ++
    givenParts f.availability (fun a => clauseParts "?s dcat:distribution/tar:availability " (literalPart a)) ++
    givenParts f.keyword (keywordParts platform base) ++
    givenParts f.instance_ (fun i =>
      clauseParts "?s prov:wasGeneratedBy ?r . ?r prov:wasAssociatedWith|tar:atInstance " (.iri (iriFor base .instance_ i))) ++
    givenParts f.software (fun sw =>
      clauseParts "?s prov:wasGeneratedBy ?r . ?r prov:wasAssociatedWith|tar:atInstance ?i . ?i tar:instanceOf "
        (.iri (iriFor base .software sw))) ++
    givenParts f.run (fun r => clauseParts "?s prov:wasGeneratedBy " (.iri (iriFor base .run r))) ++
    givenParts f.content (contentParts platform) ++
    registryParts f.registry ++ cursorParts f.paging

def runParts (base : String) (f : RunFilter) : List Part :=
  .text runHead :: textParts f.q ["?label", "?key"] ++
    givenParts f.instance_ (fun i => clauseParts "?s prov:wasAssociatedWith|tar:atInstance " (.iri (iriFor base .instance_ i))) ++
    givenParts f.software (fun sw =>
      clauseParts "?s prov:wasAssociatedWith|tar:atInstance ?i . ?i tar:instanceOf " (.iri (iriFor base .software sw))) ++
    givenParts f.status (fun s => clauseParts "?s tar:status " (literalPart s)) ++ cursorParts f.paging

def capabilityParts (q : CapabilityQuery) : List Part :=
  givenParts q.produces (fun t => [.text "?cap tar:produces ", .iri t, .text " . "]) ++
    givenParts q.consumes (fun t => [.text "?cap tar:consumes ", .iri t, .text " . "])

def pageParts (whereParts : List Part) (paging : Paging) : List Part :=
  .text prefixes :: .text "\nSELECT DISTINCT ?s WHERE " :: braceParts whereParts ++
    [.text " ORDER BY DESC(STR(?s)) LIMIT ", .text (toString (paging.limitOf + 1))]

def countParts (whereParts : List Part) : List Part :=
  .text prefixes :: .text "\nSELECT (COUNT(DISTINCT ?s) AS ?n) WHERE " :: braceParts whereParts

/-- The queries a listing sends, taken apart. -/
def outlines (platform : Platform) (base : String) (request : Api.Listing.Request) : List (List Part) :=
  match request with
  | .software f => [pageParts (softwareParts f) f.paging, countParts (softwareParts f)]
  | .instances f => [pageParts (instanceParts base f) f.paging, countParts (instanceParts base f)]
  | .artifacts f => [pageParts (artifactParts platform base f) f.paging, countParts (artifactParts platform base f)]
  | .runs f => [pageParts (runParts base f) f.paging, countParts (runParts base f)]
  | .capabilities q =>
    [.text prefixes :: .text "\nSELECT DISTINCT ?s ?cap WHERE " ::
      braceParts (.text "GRAPH ?g " :: braceParts (.text "?s tar:hasCapability ?cap . " :: capabilityParts q)) ++ [.text " LIMIT 200"]]

/-- Every query is refused, or made of the fixed texts with each value as one token of its own. -/
def Enclosed (platform : Platform) (base : String) (request : Api.Listing.Request) : Prop :=
  ∀ texts, request.queries platform base = .ok texts →
    List.Forall₂ (fun text parts => write parts = text.toList ∧ tokens text.toList = parts.flatMap Part.tokens) texts
      (outlines platform base request)

/-! What is put in angle brackets. -/

def present (value : Option String) : List String := (value.filter (fun v => v != "")).toList

def registryPasted (registry : Option String) : List String :=
  ((present registry).filter (fun peer => peer != "local")).map Ns.peerGraph

/-- The concept of a keyword on the list. -/
def keywordPasted (platform : Platform) (base : String) (keyword : Option String) : List String :=
  (present keyword).flatMap (fun k =>
    (((Keywords.lookup platform (lastSegment k)).or (Keywords.lookup platform k)).map
      (fun entry => Keywords.iri base entry.slug)).toList)

/-- The texts that are put in angle brackets as the caller gave them, or behind the base. -/
def pasted (platform : Platform) (base : String) (request : Api.Listing.Request) : List String :=
  match request with
  | .software f =>
    present f.license ++ present f.publisher ++ present f.topic ++ present f.produces ++ present f.consumes ++ registryPasted f.registry
  | .instances f =>
    (present f.software).map (iriFor base .software) ++ (present f.release).map (iriFor base .release) ++ present f.operator ++
      registryPasted f.registry
  | .artifacts f =>
    present f.conformsTo ++ present f.license ++
      keywordPasted platform base f.keyword ++
      (present f.instance_).map (iriFor base .instance_) ++ (present f.software).map (iriFor base .software) ++
      (present f.run).map (iriFor base .run) ++ registryPasted f.registry
  | .runs f => (present f.instance_).map (iriFor base .instance_) ++ (present f.software).map (iriFor base .software)
  | .capabilities q => present q.produces ++ present q.consumes

/-- A digest is given in base64url, as its encoder writes it. -/
def DigestsEncoded (platform : Platform) : Prop :=
  ∀ text bytes digest, platform.decodeDigest text bytes = some digest → ∀ c ∈ digest.toList, c.isAlphanum = true ∨ c = '-' ∨ c = '_'

section Spelled

theorem hexNumber_hex4 : ∀ n < 128, hexNumber (hex4 n) = some n := by decide

/-- A value spelled for a literal is read back as it was given. -/
theorem denotes_escapeChars (value : List Char) : Denotes (value.flatMap escapeChar) value := by
  induction value with
  | nil => exact .nil
  | cons c value ih =>
    rw [List.flatMap_cons]
    by_cases slash : c = '\\'
    · rw [slash]
      exact .escape (by decide) ih
    · by_cases quote : c = '"'
      · rw [quote]
        exact .escape (by decide) ih
      · by_cases line : c = '\n'
        · rw [line]
          exact .escape (by decide) ih
        · by_cases carriage : c = '\r'
          · rw [carriage]
            exact .escape (by decide) ih
          · by_cases tab : c = '\t'
            · rw [tab]
              exact .escape (by decide) ih
            · unfold escapeChar
              rw [if_neg slash, if_neg quote, if_neg line, if_neg carriage, if_neg tab]
              have free : c ≠ '"' ∧ c ≠ '\n' ∧ c ≠ '\r' ∧ c ≠ backslash := ⟨quote, line, carriage, slash⟩
              split
              · next control =>
                have small : c.toNat < 128 := by omega
                have stands : hexNumber (hex4 c.toNat) >>= scalar = some c := by
                  rw [hexNumber_hex4 c.toNat small]
                  show scalar c.toNat = some c
                  unfold scalar
                  rw [if_pos (by omega), Char.ofNat_toNat]
                exact .point rfl stands free ih
              · exact .plain free ih

theorem flatMap_ne_empty {value : String} {spell : Char → List Char} (some_ : value ≠ "") (each : ∀ c, spell c ≠ []) :
    String.ofList (value.toList.flatMap spell) ≠ "" := by
  intro empty
  have letters : value.toList.flatMap spell = [] := by simpa using congrArg String.toList empty
  refine some_ (String.toList_inj.mp ?_)
  cases chars : value.toList with
  | nil => rfl
  | cons c rest =>
    rw [chars, List.flatMap_cons, List.append_eq_nil_iff] at letters
    exact absurd letters.1 (each c)

theorem escapeChar_ne_nil (c : Char) : escapeChar c ≠ [] := by
  unfold escapeChar
  split_ifs <;> exact List.cons_ne_nil _ _

end Spelled

section Closed

theorem closed_braces {body : String} (closes : closed body.toList = true) : closed (braces body).toList = true :=
  closed_concat (closed_concat (closed_of rfl (by decide)) closes) (closed_of rfl (by decide))

theorem closed_graph {body : String} (closes : closed body.toList = true) : closed (graph body).toList = true :=
  closed_concat (closed_of rfl (by decide)) (closed_braces closes)

theorem closed_angle {iri : String} {chars : List Char} (same : iri = String.ofList chars) (safe : ∀ c ∈ chars, irirefChar c = true) :
    closed (angle iri).toList = true := by
  have letters : (angle iri).toList = '<' :: (chars ++ ['>']) := by
    simp [angle, same]
  rw [letters]
  exact closed_iri safe

theorem closed_notTombstoned : closed notTombstoned.toList = true :=
  closed_concat (closed_of rfl (by decide)) (closed_braces (closed_concat (closed_of rfl (by decide)) (closed_braces (closed_of rfl (by decide)))))

theorem closed_prefixes : closed prefixes.toList = true :=
  closed_concat (closed_concat (closed_concat (closed_concat (closed_concat (closed_concat (closed_concat (closed_concat
    (closed_of rfl (by decide)) (closed_of rfl (by decide))) (closed_of rfl (by decide))) (closed_of rfl (by decide)))
    (closed_of rfl (by decide))) (closed_of rfl (by decide))) (closed_of rfl (by decide))) (closed_of rfl (by decide)))
    (closed_of rfl (by decide))

/-- The first pattern of a listing: a type, a few names, and optional properties. -/
theorem closed_typed {iri after : String} {chars : List Char} (same : iri = String.ofList chars) (safe : ∀ c ∈ chars, irirefChar c = true)
    (closes : closed after.toList = true) : closed ("?s a " ++ angle iri ++ after).toList = true :=
  closed_concat (closed_concat (closed_of rfl (by decide)) (closed_angle same safe)) closes

/-- Two optional properties behind what a type is followed by. -/
theorem closed_options {before first second : String} (closes : closed before.toList = true) (one : closed first.toList = true)
    (two : closed second.toList = true) : closed (before ++ braces first ++ " OPTIONAL " ++ braces second).toList = true :=
  closed_concat (closed_concat (closed_concat closes (closed_braces one)) (closed_of rfl (by decide))) (closed_braces two)

theorem closed_softwareHead : closed softwareHead.toList = true :=
  closed_concat (closed_graph (closed_options (closed_typed rfl (by decide) (closed_of rfl (by decide)))
    (closed_of rfl (by decide)) (closed_of rfl (by decide)))) closed_notTombstoned

theorem closed_instanceHead : closed instanceHead.toList = true :=
  closed_concat (closed_graph (closed_typed rfl (by decide) (closed_of rfl (by decide)))) closed_notTombstoned

theorem closed_artifactHead : closed artifactHead.toList = true :=
  closed_concat (closed_graph (closed_options (closed_typed rfl (by decide) (closed_of rfl (by decide)))
    (closed_of rfl (by decide)) (closed_of rfl (by decide)))) closed_notTombstoned

theorem closed_runHead : closed runHead.toList = true :=
  closed_graph (closed_options (closed_typed rfl (by decide) (closed_of rfl (by decide)))
    (closed_of rfl (by decide)) (closed_of rfl (by decide)))

theorem closed_test {v : String} {chars : List Char} (same : v = String.ofList chars) (closes : closed chars = true) :
    closed ("REGEX(STR(" ++ v ++ "), ").toList = true :=
  closed_concat (closed_concat (closed_of rfl (by decide)) (closed_of same closes)) (closed_of rfl (by decide))

end Closed

/-- A text taken apart into pieces that keep their tokens. -/
structure Outlines (parts : List Part) (text : String) : Prop where
  written : write parts = text.toList
  sound : ∀ part ∈ parts, part.Sound

namespace Outlines

theorem empty : Outlines [] "" := ⟨rfl, fun _ mem => (nomatch mem)⟩

theorem append {left right : List Part} {one two : String} (first : Outlines left one) (second : Outlines right two) :
    Outlines (left ++ right) (one ++ two) := by
  refine ⟨by rw [write_append, first.written, second.written, String.toList_append], fun part mem => ?_⟩
  rcases List.mem_append.mp mem with here | there
  · exact first.sound part here
  · exact second.sound part there

theorem text {written : String} (closes : closed written.toList = true) : Outlines [.text written] written :=
  ⟨by simp [write, Part.written], fun part mem => by rw [List.mem_singleton.mp mem]; exact closes⟩

theorem cons {written rest : String} {parts : List Part} (closes : closed written.toList = true) (second : Outlines parts rest) :
    Outlines (.text written :: parts) (written ++ rest) := append (text closes) second

theorem iri (content : String) : Outlines [.iri content] (angle content) :=
  ⟨by simp [write, Part.written, angle, String.toList_append], fun part mem => by rw [List.mem_singleton.mp mem]; exact trivial⟩

theorem literal {value : String} (some_ : value ≠ "") : Outlines [literalPart value] (inQuotes (escapeLiteral value)) := by
  refine ⟨by simp [write, Part.written, inQuotes, literalPart, String.toList_append], fun part mem => ?_⟩
  rw [List.mem_singleton.mp mem]
  refine ⟨flatMap_ne_empty some_ escapeChar_ne_nil, ?_⟩
  show Denotes (escapeLiteral value).toList value.toList
  rw [escapeLiteral, String.toList_ofList]
  exact denotes_escapeChars value.toList

theorem braces {inner : List Part} {body : String} (outlines : Outlines inner body) : Outlines (braceParts inner) (Api.Listing.braces body) :=
  append (cons (closed_of rfl (by decide)) outlines) (text (closed_of rfl (by decide)))

theorem graph {inner : List Part} {body : String} (outlines : Outlines inner body) : Outlines (graphParts inner) (Api.Listing.graph body) :=
  cons (closed_of rfl (by decide)) outlines.braces

theorem clause {pattern written : String} {value : Part} (closes : closed pattern.toList = true) (outlines : Outlines [value] written) :
    Outlines (clauseParts pattern value) ("\n" ++ Api.Listing.graph (pattern ++ written)) :=
  cons (closed_of rfl (by decide)) (cons closes outlines).graph

theorem given {value : Option String} {parts : String → List Part} {clause : String → String}
    (each : ∀ v, v ≠ "" → Outlines (parts v) (clause v)) : Outlines (givenParts value parts) (Api.Listing.given value clause) := by
  unfold givenParts Api.Listing.given
  cases held : value.filter (fun v => v != "") with
  | none => exact empty
  | some v =>
    have some_ := (Option.filter_eq_some_iff.mp held).2
    exact each v (by simpa using some_)

theorem tests {needle : String} {vars : List String} (some_ : needle ≠ "") (closes : ∀ v ∈ vars, closed ("REGEX(STR(" ++ v ++ "), ").toList = true) :
    Outlines (testParts needle vars)
      (join " || " (vars.map (fun v => "REGEX(STR(" ++ v ++ "), " ++ inQuotes (escapeLiteral needle) ++ ", \"i\")"))) := by
  have one : ∀ v, closed ("REGEX(STR(" ++ v ++ "), ").toList = true →
      Outlines [.text ("REGEX(STR(" ++ v ++ "), "), literalPart needle, .text ", \"i\")"]
        ("REGEX(STR(" ++ v ++ "), " ++ inQuotes (escapeLiteral needle) ++ ", \"i\")") :=
    fun v closes => append (cons closes (literal some_)) (text (closed_of rfl (by decide)))
  induction vars with
  | nil => exact empty
  | cons v vars ih =>
    have rest := ih (fun v mem => closes v (List.mem_cons_of_mem _ mem))
    have here := one v (closes v List.mem_cons_self)
    cases vars with
    | nil => exact here
    | cons w vars => exact append (append here (text (closed_of rfl (by decide)))) rest

theorem textClause {q : Option String} {vars : List String} (closes : ∀ v ∈ vars, closed ("REGEX(STR(" ++ v ++ "), ").toList = true) :
    Outlines (textParts q vars) (Api.Listing.textClause q vars) := by
  unfold textParts Api.Listing.textClause
  cases q with
  | none => exact empty
  | some q =>
    refine cons (closed_of rfl (by decide)) ?_
    unfold textFilter
    by_cases blank : trim q = ""
    · rw [if_pos blank, if_pos blank]
      exact empty
    · rw [if_neg blank, if_neg blank]
      have some_ : q ≠ "" := by
        rintro rfl
        exact blank (by decide)
      have needle : regexEscape q ≠ "" := by
        refine flatMap_ne_empty some_ (fun c => ?_)
        split <;> exact List.cons_ne_nil _ _
      exact append (cons (closed_of rfl (by decide)) (tests needle closes)) (text (closed_of rfl (by decide)))

theorem registry (registry : Option String) : Outlines (registryParts registry) (registryClause registry) := by
  unfold registryParts registryClause
  cases registry with
  | none => exact empty
  | some peer =>
    dsimp only
    split
    · exact text (closed_concat (closed_concat (closed_of rfl (by decide)) (closed_angle rfl (by decide))) (closed_of rfl (by decide)))
    · split
      · exact append (cons (closed_of rfl (by decide)) (iri (Ns.peerGraph peer))) (text (closed_of rfl (by decide)))
      · exact empty

theorem cursor (paging : Paging) : Outlines (cursorParts paging) ("\n" ++ paging.cursorFilter) := by
  refine cons (closed_of rfl (by decide)) (given (fun c some_ => ?_))
  exact append (cons (closed_of rfl (by decide)) (literal some_)) (text (closed_of rfl (by decide)))

end Outlines

section Bodies

/-- A pattern in which braces are doubled, once it is filled in. -/
theorem fillPattern_eq {pattern property : String} {chars letters : List Char} (same : pattern = String.ofList chars)
    (same' : property = String.ofList letters)
    (undoubled : replace "\x7d\x7d".toList "\x7d".toList (replace "\x7b\x7b".toList "\x7b".toList chars) =
      "GRAPH ?g \x7b ".toList ++ letters ++ "<".toList ++ "\x7bv\x7d".toList ++ "> \x7d".toList)
    (fresh : Fresh "\x7bv\x7d".toList ("GRAPH ?g \x7b ".toList ++ letters ++ "<".toList)) (v : String) :
    fillPattern pattern v = graph (property ++ angle v) := by
  apply String.toList_inj.mp
  simp only [fillPattern, replaceText, same, String.toList_ofList]
  rw [undoubled, replace_fresh (by decide) fresh, replace_of_absent (by decide)]
  have opened : "GRAPH ?g \x7b ".toList = "GRAPH ?g ".toList ++ "\x7b ".toList := by decide
  have closing : "> \x7d".toList = ">".toList ++ " \x7d".toList := by decide
  simp only [graph, braces, angle, same', String.toList_append, String.toList_ofList, opened, closing, List.append_assoc]

theorem softwareWhere_eq (f : SoftwareFilter) :
    softwareWhere f = softwareHead ++ textClause f.q ["?name", "?tagline", "?desc"] ++
      given f.license (fun v => "\n" ++ graph ("?s dct:license " ++ angle v)) ++
      given f.publisher (fun v => "\n" ++ graph ("?s dct:publisher " ++ angle v)) ++
      given f.topic (fun v => "\n" ++ graph ("?s dct:subject " ++ angle v)) ++
      given f.produces (fun v => "\n" ++ graph ("?s tar:hasCapability/tar:produces " ++ angle v)) ++
      given f.consumes (fun v => "\n" ++ graph ("?s tar:hasCapability/tar:consumes " ++ angle v)) ++
      given f.keyword (fun k => "\n" ++ graph ("?s schema:keywords " ++ inQuotes (escapeLiteral k))) ++
      given f.kind (fun k => "\n" ++ graph ("?s schema:applicationCategory|tar:kind " ++ inQuotes (escapeLiteral k))) ++
      registryClause f.registry ++ ("\n" ++ f.paging.cursorFilter) := by
  have license := fun v => @fillPattern_eq "GRAPH ?g \x7b\x7b ?s dct:license <\x7bv\x7d> \x7d\x7d"
    "?s dct:license " _ _ rfl rfl (by decide) (by decide) v
  have publisher := fun v => @fillPattern_eq "GRAPH ?g \x7b\x7b ?s dct:publisher <\x7bv\x7d> \x7d\x7d"
    "?s dct:publisher " _ _ rfl rfl (by decide) (by decide) v
  have topic := fun v => @fillPattern_eq "GRAPH ?g \x7b\x7b ?s dct:subject <\x7bv\x7d> \x7d\x7d"
    "?s dct:subject " _ _ rfl rfl (by decide) (by decide) v
  have produces := fun v => @fillPattern_eq "GRAPH ?g \x7b\x7b ?s tar:hasCapability/tar:produces <\x7bv\x7d> \x7d\x7d"
    "?s tar:hasCapability/tar:produces " _ _ rfl rfl (by decide) (by decide) v
  have consumes := fun v => @fillPattern_eq "GRAPH ?g \x7b\x7b ?s tar:hasCapability/tar:consumes <\x7bv\x7d> \x7d\x7d"
    "?s tar:hasCapability/tar:consumes " _ _ rfl rfl (by decide) (by decide) v
  unfold softwareWhere softwarePatterns
  simp only [List.map_cons, List.map_nil, join, license, publisher, topic, produces, consumes, String.append_empty, String.append_assoc]

theorem closed_tests {vars : List String} (each : ∀ v ∈ vars, ∃ chars, v = String.ofList chars ∧ closed chars = true) :
    ∀ v ∈ vars, closed ("REGEX(STR(" ++ v ++ "), ").toList = true := by
  intro v mem
  obtain ⟨chars, same, closes⟩ := each v mem
  exact closed_test same closes

theorem outlines_software (f : SoftwareFilter) : Outlines (softwareParts f) (softwareWhere f) := by
  rw [softwareWhere_eq]
  refine .append (.append (.append (.append (.append (.append (.append (.append (.append (.cons ?_ (.textClause ?_)) ?_) ?_) ?_) ?_) ?_) ?_) ?_)
    (.registry _)) (.cursor _)
  · exact closed_softwareHead
  · exact closed_tests (by simp only [List.forall_mem_cons]; exact ⟨⟨_, rfl, by decide⟩, ⟨_, rfl, by decide⟩, ⟨_, rfl, by decide⟩, nofun⟩)
  · exact .given (fun v _ => .clause (closed_of rfl (by decide)) (.iri v))
  · exact .given (fun v _ => .clause (closed_of rfl (by decide)) (.iri v))
  · exact .given (fun v _ => .clause (closed_of rfl (by decide)) (.iri v))
  · exact .given (fun v _ => .clause (closed_of rfl (by decide)) (.iri v))
  · exact .given (fun v _ => .clause (closed_of rfl (by decide)) (.iri v))
  · exact .given (fun k some_ => .clause (closed_of rfl (by decide)) (.literal some_))
  · exact .given (fun k some_ => .clause (closed_of rfl (by decide)) (.literal some_))

theorem outlines_instances (base : String) (f : InstanceFilter) : Outlines (instanceParts base f) (instanceWhere base f) := by
  unfold instanceWhere
  rw [@String.append_assoc _ "\n"]
  refine .append (.append (.append (.append (.append (.append (.cons ?_ (.textClause ?_)) ?_) ?_) ?_) ?_) (.registry _)) (.cursor _)
  · exact closed_instanceHead
  · exact closed_tests (by simp only [List.forall_mem_cons]; exact ⟨⟨_, rfl, by decide⟩, nofun⟩)
  · exact .given (fun sw _ => .clause (closed_of rfl (by decide)) (.iri (iriFor base .software sw)))
  · exact .given (fun r _ => .clause (closed_of rfl (by decide)) (.iri (iriFor base .release r)))
  · exact .given (fun o _ => .clause (closed_of rfl (by decide)) (.iri o))
  · exact .given (fun s some_ => .clause (closed_of rfl (by decide)) (.literal some_))

theorem outlines_keyword (platform : Platform) (base : String) {k : String} (some_ : k ≠ "") :
    Outlines (keywordParts platform base k) (keywordClause platform base k) := by
  unfold keywordParts keywordClause
  generalize (Keywords.lookup platform (lastSegment k)).or (Keywords.lookup platform k) = found
  cases found with
  | some entry => exact .clause (closed_of rfl (by decide)) (.iri (Keywords.iri base entry.slug))
  | none => exact .clause (closed_of rfl (by decide)) (.literal some_)

theorem outlines_content (platform : Platform) (c : String) : Outlines (contentParts platform c) (contentClause platform c) := by
  unfold contentParts contentClause
  generalize Content.parseQuery platform c = found
  cases found with
  | some iri => exact .clause (closed_of rfl (by decide)) (.iri iri)
  | none => exact .text (closed_of rfl (by decide))

theorem outlines_artifacts (platform : Platform) (base : String) (f : ArtifactFilter) :
    Outlines (artifactParts platform base f) (artifactWhere platform base f) := by
  unfold artifactWhere
  rw [@String.append_assoc _ "\n"]
  refine .append (.append (.append (.append (.append (.append (.append (.append (.append (.append (.cons ?_ (.textClause ?_)) ?_) ?_) ?_) ?_)
    ?_) ?_) ?_) ?_) (.registry _)) (.cursor _)
  · exact closed_artifactHead
  · exact closed_tests (by simp only [List.forall_mem_cons]; exact ⟨⟨_, rfl, by decide⟩, ⟨_, rfl, by decide⟩, nofun⟩)
  · exact .given (fun t _ => .clause (closed_of rfl (by decide)) (.iri t))
  · exact .given (fun l _ => .clause (closed_of rfl (by decide)) (.iri l))
  · exact .given (fun a some_ => .clause (closed_of rfl (by decide)) (.literal some_))
  · exact .given (fun k some_ => outlines_keyword platform base some_)
  · exact .given (fun i _ => .clause (closed_of rfl (by decide)) (.iri (iriFor base .instance_ i)))
  · exact .given (fun sw _ => .clause (closed_of rfl (by decide)) (.iri (iriFor base .software sw)))
  · exact .given (fun r _ => .clause (closed_of rfl (by decide)) (.iri (iriFor base .run r)))
  · exact .given (fun c _ => outlines_content platform c)

theorem outlines_runs (base : String) (f : RunFilter) : Outlines (runParts base f) (runWhere base f) := by
  unfold runWhere
  rw [@String.append_assoc _ "\n"]
  refine .append (.append (.append (.append (.cons ?_ (.textClause ?_)) ?_) ?_) ?_) (.cursor _)
  · exact closed_runHead
  · exact closed_tests (by simp only [List.forall_mem_cons]; exact ⟨⟨_, rfl, by decide⟩, ⟨_, rfl, by decide⟩, nofun⟩)
  · exact .given (fun i _ => .clause (closed_of rfl (by decide)) (.iri (iriFor base .instance_ i)))
  · exact .given (fun sw _ => .clause (closed_of rfl (by decide)) (.iri (iriFor base .software sw)))
  · exact .given (fun s some_ => .clause (closed_of rfl (by decide)) (.literal some_))

theorem outlines_capabilities (q : CapabilityQuery) : Outlines (capabilityParts q) (capabilityClauses q) := by
  refine .append (.given (fun t _ => ?_)) (.given (fun t _ => ?_))
  · exact .append (.cons (closed_of rfl (by decide)) (.iri t)) (.text (closed_of rfl (by decide)))
  · exact .append (.cons (closed_of rfl (by decide)) (.iri t)) (.text (closed_of rfl (by decide)))

theorem closed_number (n : Nat) : closed (toString n).toList = true := by
  rw [Nat.toString_eq_repr, Nat.toList_repr]
  refine closed_plain (fun c mem => ?_)
  have digit := Nat.isDigit_of_mem_toDigits (by decide) (by decide) mem
  have other : ∀ d : Char, d.isDigit = false → c ≠ d := fun d no same => by rw [same, no] at digit; cases digit
  exact ⟨other _ (by decide), other _ (by decide), other _ (by decide), other _ (by decide), other _ (by decide)⟩

theorem outlines_page {parts : List Part} {body : String} (outlines : Outlines parts body) (paging : Paging) :
    Outlines (pageParts parts paging) (pageQuery body paging) := by
  unfold pageQuery
  rw [@String.append_assoc (prefixes ++ _ ++ _)]
  exact .append (.append (.cons closed_prefixes (.text (closed_of rfl (by decide)))) outlines.braces)
    (.cons (closed_of rfl (by decide)) (.text (closed_number _)))

theorem outlines_count {parts : List Part} {body : String} (outlines : Outlines parts body) :
    Outlines (countParts parts) (countQuery body) :=
  .append (.cons closed_prefixes (.text (closed_of rfl (by decide)))) outlines.braces

/-- Every query a listing sends is taken apart by its outline. -/
theorem outlines_queries {platform : Platform} {base : String} {request : Api.Listing.Request} {texts : List String}
    (sent : request.queries platform base = .ok texts) :
    List.Forall₂ (fun text parts => Outlines parts text) texts (outlines platform base request) := by
  unfold Request.queries at sent
  unfold Laws.outlines
  cases request with
  | software f =>
    cases sent
    exact .cons (outlines_page (outlines_software f) f.paging) (.cons (outlines_count (outlines_software f)) .nil)
  | instances f =>
    cases sent
    exact .cons (outlines_page (outlines_instances base f) f.paging) (.cons (outlines_count (outlines_instances base f)) .nil)
  | artifacts f =>
    cases sent
    have body := outlines_artifacts platform base f
    exact .cons (outlines_page body f.paging) (.cons (outlines_count body) .nil)
  | runs f =>
    cases sent
    exact .cons (outlines_page (outlines_runs base f) f.paging) (.cons (outlines_count (outlines_runs base f)) .nil)
  | capabilities q =>
    unfold capabilityQuery at sent
    dsimp only at sent
    split at sent
    · cases sent
    · cases sent
      refine .cons (.append (.append (.cons closed_prefixes (.text (closed_of rfl (by decide)))) (.braces ?_)) (.text (closed_of rfl (by decide)))) .nil
      exact .cons (closed_of rfl (by decide)) (.braces (.cons (closed_of rfl (by decide)) (outlines_capabilities q)))

end Bodies

section Pasted

/-- What holds of every IRI among some pieces. -/
def EachIri (P : String → Prop) (parts : List Part) : Prop := ∀ content, Part.iri content ∈ parts → P content

variable {P : String → Prop} {platform : Platform} {base : String}

@[simp] theorem eachIri_nil : EachIri P [] ↔ True := ⟨fun _ => trivial, fun _ _ mem => (nomatch mem)⟩

@[simp] theorem eachIri_text (written : String) (parts : List Part) : EachIri P (.text written :: parts) ↔ EachIri P parts := by
  simp [EachIri]

@[simp] theorem eachIri_literal (value : String) (parts : List Part) : EachIri P (literalPart value :: parts) ↔ EachIri P parts := by
  simp [EachIri, literalPart]

@[simp] theorem eachIri_iri (content : String) (parts : List Part) : EachIri P (.iri content :: parts) ↔ P content ∧ EachIri P parts := by
  simp [EachIri]

@[simp] theorem eachIri_append (left right : List Part) : EachIri P (left ++ right) ↔ EachIri P left ∧ EachIri P right := by
  unfold EachIri
  constructor
  · exact fun all => ⟨fun c mem => all c (List.mem_append_left _ mem), fun c mem => all c (List.mem_append_right _ mem)⟩
  · exact fun both c mem => (List.mem_append.mp mem).elim (both.1 c) (both.2 c)

@[simp] theorem eachIri_braces (inner : List Part) : EachIri P (braceParts inner) ↔ EachIri P inner := by
  simp [braceParts]

@[simp] theorem eachIri_clause_iri (pattern content : String) : EachIri P (clauseParts pattern (.iri content)) ↔ P content := by
  simp [clauseParts, graphParts]

@[simp] theorem eachIri_clause_literal (pattern value : String) : EachIri P (clauseParts pattern (literalPart value)) ↔ True := by
  simp [clauseParts, graphParts]

@[simp] theorem eachIri_given (value : Option String) (parts : String → List Part) :
    EachIri P (givenParts value parts) ↔ ∀ v ∈ present value, EachIri P (parts v) := by
  unfold givenParts present
  cases value.filter (fun v => v != "") <;> simp

theorem eachIri_tests (needle : String) (vars : List String) : EachIri P (testParts needle vars) := by
  induction vars with
  | nil => exact eachIri_nil.mpr trivial
  | cons v vars ih =>
    cases vars with
    | nil => simp [testParts]
    | cons w vars => simpa [testParts] using ih

@[simp] theorem eachIri_textParts (q : Option String) (vars : List String) : EachIri P (textParts q vars) ↔ True := by
  unfold textParts
  cases q with
  | none => simp
  | some q =>
    by_cases blank : trim q = ""
    · simp [blank]
    · simp [blank, eachIri_tests]

@[simp] theorem eachIri_registry (registry : Option String) :
    EachIri P (registryParts registry) ↔ ∀ graph ∈ registryPasted registry, P graph := by
  unfold registryParts registryPasted present
  cases registry with
  | none => simp
  | some peer =>
    by_cases here : peer = "local"
    · simp [here]
    · by_cases some_ : peer = ""
      · simp [some_]
      · simp [here, some_]

@[simp] theorem eachIri_cursor (paging : Paging) : EachIri P (cursorParts paging) ↔ True := by
  simp [cursorParts]

@[simp] theorem eachIri_page (parts : List Part) (paging : Paging) : EachIri P (pageParts parts paging) ↔ EachIri P parts := by
  simp [pageParts]

@[simp] theorem eachIri_count (parts : List Part) : EachIri P (countParts parts) ↔ EachIri P parts := by
  simp [countParts]

theorem points_self {text : List Char} (free : backslash ∉ text) : points text = text := by
  have plain := points_plain free []
  rw [List.append_nil] at plain
  rw [plain]
  exact List.append_nil text

theorem irirefChar_of_base64 {c : Char} (digit : c.isAlphanum = true ∨ c = '-' ∨ c = '_') : irirefChar c = true ∧ c ≠ backslash := by
  have ascii : ∀ n < 128, (Char.ofNat n).isAlphanum = true → irirefChar (Char.ofNat n) = true ∧ Char.ofNat n ≠ backslash := by
    decide
  rcases digit with alphanumeric | rfl | rfl
  · have small : c.toNat < 128 := by
      have range : ((decide (c.val ≥ 'A'.val ∧ c.val ≤ 'Z'.val) ||
          (decide (c.val ≥ 'a'.val) && decide (c.val ≤ 'z'.val))) ||
          (decide (c.val ≥ '0'.val) && decide (c.val ≤ '9'.val))) = true := alphanumeric
      simp only [Bool.or_eq_true, Bool.and_eq_true, decide_eq_true_eq, UInt32.le_iff_toNat_le] at range
      have value : c.toNat = c.val.toNat := rfl
      rcases range with (upper | lower) | digit
      · have := upper.2
        simp at this
        omega
      · have := lower.2
        simp at this
        omega
      · have := digit.2
        simp at this
        omega
    have here := ascii c.toNat small
    rw [Char.ofNat_toNat] at here
    exact here alphanumeric
  · decide
  · decide

/-- A content identifier can stand in an IRI reference. -/
theorem safe_identify (digests : DigestsEncoded platform) {name value iri : String} (found : Content.identify platform name value = some iri) :
    Safe iri.toList := by
  unfold Content.identify at found
  obtain ⟨alg, listed, found⟩ := Option.bind_eq_some_iff.mp found
  obtain ⟨digest, decoded, found⟩ := Option.bind_eq_some_iff.mp found
  split at found
  · cases found
    have names : ∀ alg ∈ Content.algorithms, ∀ c ∈ alg.name.toList, irirefChar c = true ∧ c ≠ backslash := by decide
    have fits : ∀ c ∈ ("ni:///" ++ alg.name ++ ";" ++ digest).toList, irirefChar c = true ∧ c ≠ backslash := by
      intro c mem
      simp only [String.toList_append, List.mem_append] at mem
      rcases mem with ((mem | mem) | mem) | mem
      · exact (by decide : ∀ c ∈ "ni:///".toList, irirefChar c = true ∧ c ≠ backslash) c mem
      · exact names alg (List.mem_of_find?_eq_some listed) c mem
      · exact (by decide : ∀ c ∈ ";".toList, irirefChar c = true ∧ c ≠ backslash) c mem
      · exact irirefChar_of_base64 (digests _ _ _ decoded c mem)
    unfold Safe
    rw [points_self (fun mem => (fits _ mem).2 rfl)]
    exact fun c mem => (fits c mem).1
  · cases found

theorem safe_parseQuery (digests : DigestsEncoded platform) {value iri : String} (found : Content.parseQuery platform value = some iri) :
    Safe iri.toList := by
  unfold Content.parseQuery at found
  dsimp only at found
  split at found
  · cases found
  · split at found
    · obtain ⟨parts, _, found⟩ := Option.bind_eq_some_iff.mp found
      exact safe_identify digests found
    · obtain ⟨alg, _, found⟩ := List.exists_of_findSome?_eq_some found
      exact safe_identify digests found

theorem eachIri_keyword (keyword : Option String) : (∀ k ∈ present keyword, EachIri P (keywordParts platform base k)) ↔
    ∀ text ∈ keywordPasted platform base keyword, P text := by
  have each : ∀ k, EachIri P (keywordParts platform base k) ↔
      ∀ text ∈ (((Keywords.lookup platform (lastSegment k)).or (Keywords.lookup platform k)).map
        (fun entry => Keywords.iri base entry.slug)).toList, P text := by
    intro k
    unfold keywordParts
    generalize (Keywords.lookup platform (lastSegment k)).or (Keywords.lookup platform k) = found
    cases found <;> simp
  unfold keywordPasted
  rw [List.forall_mem_flatMap]
  exact forall₂_congr (fun k _ => each k)

theorem eachIri_content (digests : DigestsEncoded platform) (c : String) :
    EachIri (fun content => Safe content.toList) (contentParts platform c) := by
  unfold contentParts
  cases found : Content.parseQuery platform c with
  | none => simp
  | some iri => simpa using safe_parseQuery digests found

/-- Besides content identifiers the IRIs in the queries are just what is pasted. -/
theorem eachIri_outlines (digests : DigestsEncoded platform) (request : Api.Listing.Request) :
    (∀ parts ∈ Laws.outlines platform base request, EachIri (fun content => Safe content.toList) parts) ↔
      ∀ text ∈ pasted platform base request, Safe text.toList := by
  unfold Laws.outlines pasted
  cases request with
  | software f => simp [softwareParts, or_imp, forall_and]
  | instances f => simp [instanceParts, or_imp, forall_and]
  | artifacts f =>
    have content : (∀ c ∈ present f.content, EachIri (fun content => Safe content.toList) (contentParts platform c)) ↔ True :=
      ⟨fun _ => trivial, fun _ c _ => eachIri_content digests c⟩
    simp [artifactParts, eachIri_keyword, content, or_imp, forall_and]
  | runs f => simp [runParts, or_imp, forall_and]
  | capabilities q => simp [capabilityParts, or_imp, forall_and]

end Pasted

section Enclosed

variable {platform : Platform} {base : String}

theorem eachIri_of_kept {texts : List String} {outs : List (List Part)} (apart : List.Forall₂ (fun text parts => Outlines parts text) texts outs) :
    List.Forall₂ (fun text parts => write parts = text.toList ∧ tokens text.toList = parts.flatMap Part.tokens) texts outs ↔
      ∀ parts ∈ outs, EachIri (fun content => Safe content.toList) parts := by
  induction apart with
  | nil => exact ⟨fun _ _ mem => (nomatch mem), fun _ => .nil⟩
  | @cons text parts texts outs outlines _ ih =>
    have kept : tokens text.toList = parts.flatMap Part.tokens ↔ EachIri (fun content => Safe content.toList) parts := by
      rw [← outlines.written]
      exact tokens_write_iff outlines.sound
    rw [List.forall₂_cons, List.forall_mem_cons, ih, kept]
    exact and_congr_left (fun _ => ⟨And.right, fun each => ⟨outlines.written, each⟩⟩)

/-- A request for capabilities is refused only when nothing is pasted. -/
theorem pasted_of_refused {request : Api.Listing.Request} {e : AppError} (refused : request.queries platform base = .error e) :
    pasted platform base request = [] := by
  have none_ : ∀ {value : Option String} {before after : String}, before ≠ "" → given value (fun v => before ++ v ++ after) = "" →
      present value = [] := by
    intro value before after some_ blank
    unfold given at blank
    unfold present
    cases held : value.filter (fun v => v != "") with
    | none => rfl
    | some v =>
      rw [held] at blank
      have letters := congrArg String.toList blank
      simp only [String.toList_append] at letters
      have parts := List.append_eq_nil_iff.mp letters
      exact absurd (String.toList_inj.mp (List.append_eq_nil_iff.mp parts.1).1) some_
  cases request with
  | software f => cases refused
  | instances f => cases refused
  | artifacts f => cases refused
  | runs f => cases refused
  | capabilities q =>
    unfold Request.queries capabilityQuery at refused
    dsimp only at refused
    split at refused
    · next blank =>
      have letters := congrArg String.toList blank
      rw [capabilityClauses, String.toList_append] at letters
      have parts := List.append_eq_nil_iff.mp letters
      have produces : given q.produces (fun t => "?cap tar:produces " ++ angle t ++ " . ") = "" := String.toList_inj.mp parts.1
      have consumes : given q.consumes (fun t => "?cap tar:consumes " ++ angle t ++ " . ") = "" := String.toList_inj.mp parts.2
      simp only [angle, ← String.append_assoc] at produces consumes
      simp only [@String.append_assoc _ ">" " . "] at produces consumes
      show present q.produces ++ present q.consumes = []
      rw [none_ (by decide) produces, none_ (by decide) consumes]
      rfl
    · cases refused

theorem contained_iff_outlines (request : Api.Listing.Request) (digests : DigestsEncoded platform) :
    Enclosed platform base request ↔ ∀ parts ∈ Laws.outlines platform base request, EachIri (fun content => Safe content.toList) parts := by
  unfold Enclosed
  cases sent : request.queries platform base with
  | ok texts =>
    rw [← eachIri_of_kept (outlines_queries sent)]
    exact ⟨fun all => all texts rfl, fun kept _ same => Except.ok.inj same ▸ kept⟩
  | error e =>
    refine ⟨fun _ => ?_, fun _ _ same => (nomatch same)⟩
    rw [eachIri_outlines digests, pasted_of_refused sent]
    exact fun _ mem => (nomatch mem)

theorem filters_contained_iff (digests : DigestsEncoded platform) (base : String) (request : Api.Listing.Request) :
    Enclosed platform base request ↔ ∀ text ∈ pasted platform base request, Safe text.toList := by
  rw [contained_iff_outlines request digests, eachIri_outlines digests]

end Enclosed

section Specimen

open Specimen

instance (content : List Char) : Decidable (Safe content) := inferInstanceAs (Decidable (∀ c ∈ points content, irirefChar c = true))

/-- No digest is named in these requests. -/
def undigested : Platform := { platform [] with decodeDigest := fun _ _ => none }

def ordinaryFilter : ArtifactFilter where
  q := some "a \"b\" \\ c"
  conformsTo := some "https://schema.example/table"
  availability := some "\" \x7d #"
  software := some "1"
  registry := some "https://peer.example"

theorem undigested_encoded : DigestsEncoded undigested := by
  intro text bytes digest found
  have never : none = some digest := found
  cases never

theorem ordinary_contained : Enclosed undigested "https://reg.example" (.artifacts ordinaryFilter) :=
  (filters_contained_iff undigested_encoded "https://reg.example" (.artifacts ordinaryFilter)).mpr (by decide)

/-- A type that closes its brackets, and the group it stands in. -/
def closingType : CapabilityQuery where
  produces := some "urn:x> . \x7d \x7d #"

theorem closing_type_escapes :
    (Request.queries undigested "https://reg.example" (.capabilities closingType)).toOption.isSome = true ∧
      ¬Enclosed undigested "https://reg.example" (.capabilities closingType) := by
  refine ⟨by decide, fun contained => ?_⟩
  have safe := (eachIri_outlines undigested_encoded _).mp ((contained_iff_outlines _ undigested_encoded).mp contained)
  exact absurd (safe "urn:x> . \x7d \x7d #" (by decide)) (by decide)

end Specimen

end ToolArtifactRegistry.Laws
