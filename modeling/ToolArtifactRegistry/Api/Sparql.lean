import ToolArtifactRegistry.Auth.Principal
import ToolArtifactRegistry.Library.Forms

/-! The SPARQL endpoint: how a query reaches it, what it refuses, and the form a query is evaluated under. -/
namespace ToolArtifactRegistry.Api.Sparql

open Library.Text Library.Rdf Library.Serde Auth

inductive Form where
  | select
  | ask
  | construct
  | describe
  deriving DecidableEq

def Form.word : Form → String
  | .select => "SELECT"
  | .ask => "ASK"
  | .construct => "CONSTRUCT"
  | .describe => "DESCRIBE"

/-- What of an update is looked for in a query. -/
def forbidden : List String := ["INSERT", "DELETE", "DROP ", "CLEAR ", "LOAD ", "CREATE ", "COPY ", "MOVE ", "ADD "]

section

variable (platform : Platform)

def upper (text : List Char) : List Char := text.flatMap platform.uppercase

def startsChars (text : List Char) (pre : String) : Bool := pre.toList.isPrefixOf text

/-- What follows the first mark, when there is one. -/
def after (mark : Char) (text : List Char) : Option (List Char) :=
  if mark ∈ text then some ((text.dropWhile (fun c => c != mark)).drop 1) else none

/-- The form that is read past the declarations and the comments. -/
def queryFormFrom : Nat → List Char → String
  | 0, _ => "SELECT"
  | fuel + 1, text =>
    match text.dropWhile isWhiteSpace with
    | '#' :: comment => queryFormFrom fuel ((after '\n' comment).getD [])
    | rest =>
      let head := upper platform (rest.take 9)
      if startsChars head "PREFIX" || startsChars head "BASE" then
        match after '>' rest with
        | some declared => queryFormFrom fuel declared
        | none => "SELECT"
      else (["SELECT", "ASK", "CONSTRUCT", "DESCRIBE"].find? (fun form => startsChars head form)).getD "SELECT"

/-- Every turn leaves less of the query. -/
def queryForm (q : String) : String := queryFormFrom platform (q.toList.length + 1) q.toList

end

/-! What a query is answered with. -/

structure Bindings where
  vars : List String
  rows : List (List (String × Term))

/-- The store and the library that parses queries. -/
structure Engine where
  parseQuery : String → Except String Unit
  ask : String → AppResult Bool
  construct : String → AppResult (List (Node × String × Term))
  select : String → AppResult Bindings
  turtle : List (Node × String × Term) → AppResult String

inductive Body where
  | json (doc : Json)
  | text (content : String)

/-- The store is asked one question. -/
inductive Call where
  | ask (q : String)
  | construct (q : String)
  | select (q : String)
  deriving DecidableEq

def termJson : Term → Json
  | .named iri => .object [("type", .string "uri"), ("value", .string iri)]
  | .blank label => .object [("type", .string "bnode"), ("value", .string label)]
  | .literal value datatype language =>
    .object ([("type", .string "literal"), ("value", .string value)] ++
      match language with
      | some language => [("xml:lang", .string language)]
      | none => if datatype ≠ xsdString then [("datatype", .string datatype)] else [])

def rowJson (vars : List String) (row : List (String × Term)) : Json :=
  .object (vars.filterMap (fun v => (row.find? (fun entry => entry.1 == v)).map (fun entry => (v, termJson entry.2))))

def respond (engine : Engine) (wantsJson : Bool) : Call → AppResult (String × Body)
  | .ask q => do
    let answer ← engine.ask q
    return ("application/sparql-results+json", .json (.object [("head", .object []), ("boolean", .bool answer)]))
  | .construct q => do
    let triples ← engine.construct q
    let body ← engine.turtle triples
    return ("text/turtle; charset=utf-8", .text body)
  | .select q => do
    let bindings ← engine.select q
    return (if wantsJson then "application/json" else "application/sparql-results+json",
      .json (.object [("head", .object [("vars", .array (bindings.vars.map .string))]),
        ("results", .object [("bindings", .array (bindings.rows.map (rowJson bindings.vars)))])]))

/-- The question a query is evaluated by, when it is evaluated. -/
def plan (platform : Platform) (engine : Engine) (sparqlPublic : Bool) (principal : Principal) (q : String) : AppResult Call := do
  if !sparqlPublic then principal.requireAuthenticated
  if forbidden.any (fun word => containsChars word.toList (upper platform q.toList)) then
    throw (AppError.forbidden
      "this endpoint is read-only; writes go through the REST API so they are validated and audited")
  match engine.parseQuery q with
  | .error e => throw (AppError.badRequest ("SPARQL syntax error: " ++ e))
  | .ok _ =>
    let form := queryForm platform q
    if form = "ASK" then return .ask q
    else if form = "CONSTRUCT" ∨ form = "DESCRIBE" then return .construct q
    else return .select q

/-! How a query is sent. -/

inductive Request where
  | get (query : Option String)
  | post (body : String)

structure SparqlParams where
  query : Option String
  format : Option String

/-- The parameters of a GET, each of which may be given once. -/
def params (lossy : List UInt8 → String) (query : Option String) : Except String SparqlParams := do
  let pairs := Library.Forms.parse lossy (Library.Percent.bytesOf (query.getD ""))
  let text ← Library.Forms.field pairs "query"
  let format ← Library.Forms.field pairs "format"
  return ⟨text, format⟩

/-- A query as a body holds it: the body itself, or what follows `query=` in it. -/
def bodyQuery (lossy : List UInt8 → String) (body : String) : String :=
  match stripPrefix body "query=" with
  | some rest => lossy (Library.Forms.unescape (Library.Percent.bytesOf (replaceChar rest '+' " ")))
  | none => body

inductive Answer where
  | page
  | document (contentType : String) (body : Body)

structure Endpoint where
  platform : Platform
  engine : Engine
  lossy : List UInt8 → String
  sparqlPublic : Bool

namespace Endpoint

variable (endpoint : Endpoint)

/-- The question a request leads to. A GET without a query leads to none. -/
def question (principal : Principal) : Request → AppResult (Option (Call × Option String))
  | .get query =>
    match params endpoint.lossy query with
    | .error e => .error (AppError.badRequest ("Failed to deserialize query string: " ++ e))
    | .ok ⟨none, _⟩ => .ok none
    | .ok ⟨some q, format⟩ =>
      (plan endpoint.platform endpoint.engine endpoint.sparqlPublic principal q).map (fun call => some (call, format))
  | .post body =>
    (plan endpoint.platform endpoint.engine endpoint.sparqlPublic principal (bodyQuery endpoint.lossy body)).map
      (fun call => some (call, none))

/-- A browser that asks for the endpoint itself is given the page of the query editor. -/
def handle (principal : Principal) (accept : Option String) (request : Request) : AppResult Answer := do
  match ← endpoint.question principal request with
  | some (call, format) =>
    let wantsJson := format == some "json" || accept.any (fun value => contains value "json")
    let (contentType, body) ← respond endpoint.engine wantsJson call
    return .document contentType body
  | none =>
    if accept.any (fun value => contains value "text/html") then return .page
    else throw (AppError.badRequest "the `query` parameter is required")

end Endpoint

/-! How the text of a query divides before its form, and where the scan for the form follows that division. -/

/-- What may stand before the form, as the text spells it: a character of white space, a comment without the end of its line,
a declaration. -/
inductive Lead where
  | space (text : List Char)
  | comment (text : List Char)
  | declaration (text : List Char)

def Lead.text : Lead → List Char
  | .space text => text
  | .comment text => text
  | .declaration text => text

def spell (leads : List Lead) : List Char := leads.flatMap Lead.text

/-- A query as the grammar divides it: what stands before its form, the word of the form and the rest. -/
structure Reading where
  leads : List Lead
  word : List Char
  form : Form
  rest : List Char

def Reading.text (reading : Reading) : List Char := spell reading.leads ++ (reading.word ++ reading.rest)

/-- Letters that are a word, in either case. -/
def Spells (text : List Char) (word : String) : Prop := text.map asciiUpper = word.toList

/-- A declaration is written with its keyword, and the mark that ends it is in it once. -/
def Declares (text : List Char) : Prop :=
  ∃ keyword inner, text = keyword ++ (inner ++ ['>']) ∧ (Spells keyword "PREFIX" ∨ Spells keyword "BASE") ∧ '>' ∉ inner

theorem Declares.length_pos {text : List Char} (declares : Declares text) : 0 < text.length := by
  obtain ⟨keyword, inner, rfl, _⟩ := declares
  rw [List.length_append, List.length_append, List.length_singleton]
  omega

/-- What stands before the form is written out: white space and the marks of comments as themselves, no mark that ends a declaration
inside of one, and behind a comment whole leads up to a line feed. -/
inductive Straight : List Lead → Prop
  | nil : Straight []
  | space {c rest} : isWhiteSpace c = true → Straight rest → Straight (.space [c] :: rest)
  | comment {text line rest} : '\n' ∉ text → '\n' ∉ spell line → Straight rest →
      Straight (.comment ('#' :: text) :: (line ++ .space ['\n'] :: rest))
  | declaration {text rest} : Declares text → Straight rest → Straight (.declaration text :: rest)

/-- The word of the form is written out as well. -/
def Reading.Plain (reading : Reading) : Prop := Straight reading.leads ∧ Spells reading.word reading.form.word

section

/-- A letter of a keyword is a letter of ASCII. -/
theorem ascii_letter {c upper : Char} (letter : 'A' ≤ upper ∧ upper ≤ 'Z') (raised : asciiUpper c = upper) :
    c.toNat < 128 ∧ isWhiteSpace c = false ∧ c ≠ '#' ∧ c ≠ '>' := by
  have bounds : 65 ≤ upper.toNat ∧ upper.toNat ≤ 90 := letter
  have range : 65 ≤ c.toNat ∧ c.toNat ≤ 90 ∨ 97 ≤ c.toNat ∧ c.toNat ≤ 122 := by
    unfold asciiUpper at raised
    split at raised
    · next small => exact Or.inr small
    · exact Or.inl (raised ▸ bounds)
  have blank : isWhiteSpace c = false := by
    simp only [isWhiteSpace, Bool.or_eq_false_iff, Bool.and_eq_false_iff, decide_eq_false_iff_not, beq_eq_false_iff_ne]
    omega
  refine ⟨by omega, blank, ?_, ?_⟩
  · rintro rfl
    exact absurd range (by decide)
  · rintro rfl
    exact absurd range (by decide)

/-- The keywords are words of capitals. -/
def Capitals (word : String) : Prop := ∀ c ∈ word.toList, 'A' ≤ c ∧ c ≤ 'Z'

instance (word : String) : Decidable (Capitals word) := inferInstanceAs (Decidable (∀ c ∈ word.toList, _))

theorem Form.word_capitals (form : Form) : Capitals form.word := by
  cases form <;> decide

theorem Spells.letters {text : List Char} {word : String} (spells : Spells text word) (capitals : Capitals word) :
    ∀ c ∈ text, c.toNat < 128 ∧ isWhiteSpace c = false ∧ c ≠ '#' ∧ c ≠ '>' := by
  intro c mem
  have raised : asciiUpper c ∈ word.toList := spells ▸ List.mem_map_of_mem mem
  exact ascii_letter (capitals _ raised) rfl

end

section Scan

variable {platform : Platform} (ascii : ∀ c : Char, c.toNat < 128 → platform.uppercase c = [asciiUpper c])
include ascii

theorem upper_spells {text : List Char} {word : String} (spells : Spells text word) (capitals : Capitals word) :
    upper platform text = word.toList := by
  have each : ∀ c ∈ text, platform.uppercase c = [asciiUpper c] := fun c mem => ascii c (spells.letters capitals c mem).1
  rw [← spells, upper, List.flatMap_congr each, ← List.map_eq_flatMap]

/-- The head of a text that a short word opens begins with the word. -/
theorem upper_head {text : List Char} {word : String} (spells : Spells text word) (capitals : Capitals word)
    (short : word.toList.length ≤ 9) (rest : List Char) :
    ∃ more, upper platform ((text ++ rest).take 9) = word.toList ++ more := by
  have length : text.length ≤ 9 := by
    have same := congrArg List.length spells
    rw [List.length_map] at same
    omega
  refine ⟨upper platform (rest.take (9 - text.length)), ?_⟩
  rw [List.take_append, List.take_of_length_le length, ← upper_spells ascii spells capitals, upper, List.flatMap_append]
  rfl

omit ascii

theorem queryFormFrom_space {c : Char} (white : isWhiteSpace c = true) (fuel : Nat) (rest : List Char) :
    queryFormFrom platform fuel (c :: rest) = queryFormFrom platform fuel rest := by
  cases fuel with
  | zero => rfl
  | succ fuel => rw [queryFormFrom, queryFormFrom, List.dropWhile_cons_of_pos white]

theorem queryFormFrom_comment (fuel : Nat) (comment : List Char) :
    queryFormFrom platform (fuel + 1) ('#' :: comment) = queryFormFrom platform fuel ((after '\n' comment).getD []) := by
  have kept : ('#' :: comment).dropWhile isWhiteSpace = '#' :: comment := List.dropWhile_cons_of_neg (by decide)
  rw [queryFormFrom, kept]
  rfl

/-- What a turn does where neither white space nor a comment stands. -/
theorem queryFormFrom_other {c : Char} (blank : isWhiteSpace c = false) (uncommented : c ≠ '#') (fuel : Nat)
    (rest : List Char) : queryFormFrom platform (fuel + 1) (c :: rest) =
      let head := upper platform ((c :: rest).take 9)
      if startsChars head "PREFIX" || startsChars head "BASE" then
        match after '>' (c :: rest) with
        | some declared => queryFormFrom platform fuel declared
        | none => "SELECT"
      else (["SELECT", "ASK", "CONSTRUCT", "DESCRIBE"].find? (fun form => startsChars head form)).getD "SELECT" := by
  have kept : (c :: rest).dropWhile isWhiteSpace = c :: rest :=
    List.dropWhile_cons_of_neg (by rw [blank]; exact Bool.false_ne_true)
  rw [queryFormFrom, kept]
  split
  · next same =>
    cases same
    exact (uncommented rfl).elim
  · rfl

theorem after_first {mark : Char} {text : List Char} (free : mark ∉ text) (rest : List Char) :
    after mark (text ++ mark :: rest) = some rest := by
  have plain : ∀ c ∈ text, (c != mark) = true := fun c mem => bne_iff_ne.2 (fun same => free (same ▸ mem))
  rw [after, if_pos (List.mem_append_right _ List.mem_cons_self), List.dropWhile_append_of_pos plain, List.dropWhile_cons,
    bne_self_eq_false, if_neg Bool.false_ne_true, List.drop_one, List.tail_cons]

include ascii

/-- A word of capitals that opens a text opens what the scan looks at, and neither white space nor a comment stands before it. -/
theorem queryFormFrom_spelled {text : List Char} {word : String} (spells : Spells text word) (capitals : Capitals word)
    (short : word.toList.length ≤ 9) (some_ : word.toList ≠ []) (fuel : Nat) (rest : List Char) :
    ∃ more, queryFormFrom platform (fuel + 1) (text ++ rest) =
      let head := word.toList ++ more
      if startsChars head "PREFIX" || startsChars head "BASE" then
        match after '>' (text ++ rest) with
        | some declared => queryFormFrom platform fuel declared
        | none => "SELECT"
      else (["SELECT", "ASK", "CONSTRUCT", "DESCRIBE"].find? (fun form => startsChars head form)).getD "SELECT" := by
  obtain ⟨more, head⟩ := upper_head ascii spells capitals short rest
  refine ⟨more, ?_⟩
  cases text with
  | nil => exact (some_ spells.symm).elim
  | cons c text =>
    obtain ⟨_, blank, uncommented, _⟩ := spells.letters capitals c List.mem_cons_self
    rw [List.cons_append] at head ⊢
    rw [queryFormFrom_other blank uncommented, head]

theorem queryFormFrom_declaration {text : List Char} (declares : Declares text) (fuel : Nat) (rest : List Char) :
    queryFormFrom platform (fuel + 1) (text ++ rest) = queryFormFrom platform fuel rest := by
  obtain ⟨keyword, inner, rfl, named, single⟩ := declares
  have skipped (word : String) (spells : Spells keyword word) (capitals : Capitals word) (short : word.toList.length ≤ 9)
      (some_ : word.toList ≠ []) (declaring : ∀ more, (startsChars (word.toList ++ more) "PREFIX" ||
        startsChars (word.toList ++ more) "BASE") = true) :
      queryFormFrom platform (fuel + 1) (keyword ++ (inner ++ ['>']) ++ rest) = queryFormFrom platform fuel rest := by
    have free : '>' ∉ keyword ++ inner := by
      intro mem
      rcases List.mem_append.1 mem with letter | inside
      · exact (spells.letters capitals _ letter).2.2.2 rfl
      · exact single inside
    have declared : after '>' (keyword ++ (inner ++ '>' :: rest)) = some rest := by
      rw [← List.append_assoc]
      exact after_first free rest
    rw [List.append_assoc, List.append_assoc, List.singleton_append]
    obtain ⟨more, turn⟩ := queryFormFrom_spelled ascii spells capitals short some_ fuel (inner ++ '>' :: rest)
    rw [turn]
    dsimp only
    rw [if_pos (declaring more), declared]
  rcases named with prefixed | based
  · exact skipped "PREFIX" prefixed (by decide) (by decide) (by decide) (fun _ => rfl)
  · exact skipped "BASE" based (by decide) (by decide) (by decide) (fun _ => rfl)

theorem queryFormFrom_word {text : List Char} {form : Form} (spells : Spells text form.word) (fuel : Nat)
    (rest : List Char) : queryFormFrom platform (fuel + 1) (text ++ rest) = form.word := by
  obtain ⟨more, turn⟩ := queryFormFrom_spelled ascii spells form.word_capitals (by cases form <;> decide)
    (by cases form <;> decide) fuel rest
  rw [turn]
  cases form <;> rfl

/-- The scan follows what is written out, lead by lead, to the word of the form. -/
theorem queryFormFrom_straight {leads : List Lead} (straight : Straight leads) {text : List Char} {form : Form}
    (spells : Spells text form.word) (rest : List Char) :
    ∀ fuel, (spell leads).length < fuel → queryFormFrom platform fuel (spell leads ++ (text ++ rest)) = form.word := by
  induction straight with
  | nil =>
    intro fuel enough
    obtain ⟨fuel, rfl⟩ := Nat.exists_eq_succ_of_ne_zero (Nat.ne_of_gt enough)
    exact queryFormFrom_word ascii spells fuel rest
  | space white _ ih =>
    intro fuel enough
    rw [spell, List.flatMap_cons, List.length_append] at enough
    rw [spell, List.flatMap_cons, List.append_assoc]
    exact (queryFormFrom_space white fuel _).trans (ih fuel (by simp only [spell]; omega))
  | @comment comment line leads free whole _ ih =>
    intro fuel enough
    obtain ⟨fuel, rfl⟩ := Nat.exists_eq_succ_of_ne_zero (Nat.ne_of_gt (Nat.zero_lt_of_lt enough))
    have shape : spell (.comment ('#' :: comment) :: (line ++ .space ['\n'] :: leads)) =
        '#' :: ((comment ++ spell line) ++ '\n' :: spell leads) := by
      simp only [spell, Lead.text, List.flatMap_cons, List.flatMap_append, List.cons_append, List.append_assoc,
        List.nil_append]
    have ends : '\n' ∉ comment ++ spell line := by
      rw [List.mem_append]
      exact not_or.2 ⟨free, whole⟩
    rw [shape, List.length_cons, List.length_append, List.length_cons] at enough
    rw [shape, List.cons_append, List.append_assoc, List.cons_append, queryFormFrom_comment, after_first ends,
      Option.getD_some]
    exact ih fuel (by omega)
  | declaration declares _ ih =>
    intro fuel enough
    obtain ⟨fuel, rfl⟩ := Nat.exists_eq_succ_of_ne_zero (Nat.ne_of_gt (Nat.zero_lt_of_lt enough))
    have long := declares.length_pos
    rw [spell, List.flatMap_cons, List.length_append] at enough
    rw [spell, List.flatMap_cons, List.append_assoc]
    exact (queryFormFrom_declaration ascii declares fuel _).trans (ih fuel (by simp only [spell, Lead.text] at enough ⊢; omega))

omit ascii

/-- What is written out before the form, and the word of the form, do not open with a letter that opens none of the words. -/
theorem Straight.opening {leads : List Lead} (straight : Straight leads) {word : List Char} {form : Form}
    (spells : Spells word form.word) (rest : List Char) :
    ∃ c more, spell leads ++ (word ++ rest) = c :: more ∧ asciiUpper c ≠ 'Q' := by
  have opens {text : List Char} {name : String} {capital : Char} {others : List Char} (spelled : Spells text name)
      (written : name.toList = capital :: others) (other : capital ≠ 'Q') (behind : List Char) :
      ∃ c more, text ++ behind = c :: more ∧ asciiUpper c ≠ 'Q' := by
    obtain ⟨c, more, rfl, raised, _⟩ := List.map_eq_cons_iff.1 (spelled.trans written)
    exact ⟨c, more ++ behind, rfl, raised ▸ other⟩
  cases straight with
  | nil => cases form <;> exact opens spells rfl (by decide) rest
  | @space c leads white _ =>
    refine ⟨c, spell leads ++ (word ++ rest), rfl, fun raised => ?_⟩
    rw [(ascii_letter (by decide) raised).2.1] at white
    cases white
  | comment _ _ _ => exact ⟨'#', _, rfl, by decide⟩
  | @declaration text leads declares _ =>
    obtain ⟨keyword, inner, rfl, named, _⟩ := declares
    rw [spell, List.flatMap_cons, Lead.text, List.append_assoc, List.append_assoc]
    rcases named with prefixed | based
    · exact opens prefixed rfl (by decide) _
    · exact opens based rfl (by decide) _

include ascii

/-- A plain query is scanned for the form it is read under. -/
theorem queryForm_plain {reading : Reading} (plain : reading.Plain) {q : String} (divided : q.toList = reading.text) :
    queryForm platform q = reading.form.word := by
  obtain ⟨straight, spells⟩ := plain
  rw [queryForm, divided, Reading.text]
  exact queryFormFrom_straight ascii straight spells reading.rest _ (by rw [List.length_append]; omega)

end Scan

end ToolArtifactRegistry.Api.Sparql
