import ToolArtifactRegistry.Api.Sparql
import ToolArtifactRegistry.Laws.Specimen
import ToolArtifactRegistry.Library.Forms
import ToolArtifactRegistry.Library.Results

/-! A query that is sent to the SPARQL endpoint, and when the endpoint evaluates it under the form it has. -/
namespace ToolArtifactRegistry.Laws.Querying

open Library.Text Library.Forms Library.Percent Api.Sparql Auth

/-- The standard ways of sending a query: among the fields of a query string, as a body, or among the fields of a form. -/
inductive Way where
  | get (query : String) (fields : List (String × String))
  | direct
  | form (body : String) (fields : List (String × String))

/-- A query is the value of one field. -/
def Held (fields : List (String × String)) (q : String) : Prop :=
  fields.filter (fun pair => pair.1 == "query") = [("query", q)]

def Way.request (q : String) : Way → Request
  | .get query _ => .get (some query)
  | .direct => .post q
  | .form body _ => .post body

def Way.Sends (q : String) : Way → Prop
  | .get query fields => FormOf (bytesOf query) fields ∧ Held fields q
  | .direct => True
  | .form body fields => FormOf (bytesOf body) fields ∧ Held fields q

/-- In a query string the format is given once at most, and in a form the query is the only field, under its name as it is. -/
def Way.Received : Way → Prop
  | .get _ fields => (fields.filter (fun pair => pair.1 == "format")).length ≤ 1
  | .direct => True
  | .form body fields => startsWith body "query=" = true ∧ fields.length = 1

/-- Nothing in a query looks like a word of an update. -/
def Unsuspected (platform : Platform) (q : String) : Prop :=
  ∀ word ∈ forbidden, containsChars word.toList (upper platform q.toList) = false

def callOf (form q : String) : Api.Sparql.Call :=
  if form = "ASK" then .ask q else if form = "CONSTRUCT" ∨ form = "DESCRIBE" then .construct q else .select q

/-- The question for a query of a form. -/
def call : Form → String → Api.Sparql.Call
  | .ask, q => .ask q
  | .construct, q => .construct q
  | .describe, q => .construct q
  | .select, q => .select q

def text : Api.Sparql.Call → String
  | .ask q => q
  | .construct q => q
  | .select q => q

/-- A query is evaluated under a form: the scan finds the form, and the question of the form is put with the query as it is. -/
def Evaluated (endpoint : Endpoint) (principal : Principal) (request : Request) (q : String) (form : Form) : Prop :=
  queryForm endpoint.platform q = form.word ∧
    ∃ format, endpoint.question principal request = .ok (some (call form q, format))

/-- What the endpoint rests on: the grammar by which queries are read and accepted, capitals of ASCII, and bytes that are read as text
up to where they are none. -/
structure Lawful (endpoint : Endpoint) (read : String → Option Api.Sparql.Reading) : Prop where
  divides : ∀ q reading, read q = some reading → q.toList = reading.text
  accepts : ∀ q, endpoint.engine.parseQuery q = .ok () ↔ (read q).isSome = true
  ascii : ∀ c : Char, c.toNat < 128 → endpoint.platform.uppercase c = [asciiUpper c]
  lossy : ∀ content rest, endpoint.lossy (bytesOf content ++ rest) = content ++ endpoint.lossy rest
  lossy_nil : endpoint.lossy [] = ""

section Plans

variable {platform : Platform} {engine : Engine} {sparqlPublic : Bool} {principal : Principal} {q : String}

/-- A plan is made for an accepted query of an admitted caller that nothing is looked for in. -/
theorem plan_ok {question : Api.Sparql.Call} : plan platform engine sparqlPublic principal q = .ok question ↔
    (sparqlPublic = true ∨ principal.isAnonymous = false) ∧ Unsuspected platform q ∧ engine.parseQuery q = .ok () ∧
      question = callOf (queryForm platform q) q := by
  have guard : ((!sparqlPublic) = true → principal.requireAuthenticated = .ok ()) ↔
      (sparqlPublic = true ∨ principal.isAnonymous = false) := by
    unfold Principal.requireAuthenticated
    cases sparqlPublic <;> cases principal.isAnonymous <;> simp
  have suspects : Unsuspected platform q ↔
      ¬(forbidden.any (fun word => containsChars word.toList (upper platform q.toList)) = true) := by
    rw [List.any_eq_true]
    refine ⟨fun free ⟨word, mem, found⟩ => ?_, fun none_ word mem => ?_⟩
    · rw [free word mem] at found
      cases found
    · exact Bool.eq_false_iff.2 (fun found => none_ ⟨word, mem, found⟩)
  unfold plan
  simp only [Library.Results.guard_ok]
  rw [guard, suspects]
  refine and_congr_right (fun _ => and_congr ?_ ?_)
  · constructor
    · intro refusal found
      cases refusal found
    · intro free found
      exact (free found).elim
  · cases engine.parseQuery q with
    | error e =>
      constructor
      · intro refused
        cases refused
      · rintro ⟨accepted, _⟩
        cases accepted
    | ok _ =>
      unfold callOf
      dsimp only
      refine Iff.trans ?_ (and_iff_right rfl).symm
      split
      · exact Library.Results.pure_ok.trans eq_comm
      · split
        · exact Library.Results.pure_ok.trans eq_comm
        · exact Library.Results.pure_ok.trans eq_comm

theorem text_callOf (form q : String) : text (callOf form q) = q := by
  unfold callOf
  split
  · rfl
  · split <;> rfl

theorem text_call (form : Form) (q : String) : text (call form q) = q := by
  cases form <;> rfl

theorem callOf_word (form : Form) (q : String) : callOf form.word q = call form q := by
  cases form <;> rfl

end Plans

section Ways

variable {endpoint : Endpoint} {read : String → Option Api.Sparql.Reading} {principal : Principal} {q : String}
  {fields : List (String × String)}

theorem Lawful.reads (lawful : Lawful endpoint read) (content : String) : endpoint.lossy (bytesOf content) = content := by
  have whole := lawful.lossy content []
  rwa [List.append_nil, lawful.lossy_nil, String.append_empty] at whole

theorem Held.field (held : Held fields q) : Library.Forms.field fields "query" = .ok (some q) := by
  rw [Library.Forms.field, held]

/-- A name that is given once at most is no error, and any other is. -/
theorem field_once {key : String} : (fields.filter (fun pair => pair.1 == key)).length ≤ 1 ↔
    ∃ value, Library.Forms.field fields key = .ok value := by
  unfold Library.Forms.field
  generalize fields.filter (fun pair => pair.1 == key) = kept
  match kept with
  | [] => exact ⟨fun _ => ⟨none, rfl⟩, fun _ => Nat.zero_le 1⟩
  | [only] => exact ⟨fun _ => ⟨some only.2, rfl⟩, fun _ => le_rfl⟩
  | _ :: _ :: _ =>
    constructor
    · intro short
      rw [List.length_cons, List.length_cons] at short
      omega
    · rintro ⟨value, read⟩
      cases read

/-- A query of a query string is planned as it is where the format is given once at most, and no question is put elsewhere. -/
theorem question_get {query : String} (lawful : Lawful endpoint read) (spelled : FormOf (bytesOf query) fields)
    (held : Held fields q) {question : Api.Sparql.Call} :
    (∃ format, endpoint.question principal (.get (some query)) = .ok (some (question, format))) ↔
      (fields.filter (fun pair => pair.1 == "format")).length ≤ 1 ∧
        plan endpoint.platform endpoint.engine endpoint.sparqlPublic principal q = .ok question := by
  have parsed : parse endpoint.lossy (bytesOf query) = fields := parse_form lawful.reads spelled
  have pairs : params endpoint.lossy (some query) = (do
      let format ← Library.Forms.field fields "format"
      return ⟨some q, format⟩) := by
    rw [params, Option.getD_some, parsed, held.field]
    rfl
  rw [Endpoint.question, pairs, field_once]
  cases Library.Forms.field fields "format" with
  | error e =>
    constructor
    · rintro ⟨format, asked⟩
      cases asked
    · rintro ⟨⟨value, read⟩, _⟩
      cases read
  | ok format =>
    change (∃ kept, (plan endpoint.platform endpoint.engine endpoint.sparqlPublic principal q).map
      (fun question => some (question, format)) = .ok (some (question, kept))) ↔ _
    cases plan endpoint.platform endpoint.engine endpoint.sparqlPublic principal q with
    | error e =>
      constructor
      · rintro ⟨kept, asked⟩
        cases asked
      · rintro ⟨_, planned⟩
        cases planned
    | ok planned =>
      constructor
      · rintro ⟨kept, asked⟩
        cases asked
        exact ⟨⟨format, rfl⟩, rfl⟩
      · rintro ⟨_, same⟩
        cases same
        exact ⟨format, rfl⟩

theorem question_post {body : String} {question : Api.Sparql.Call} :
    (∃ format, endpoint.question principal (.post body) = .ok (some (question, format))) ↔
      plan endpoint.platform endpoint.engine endpoint.sparqlPublic principal (bodyQuery endpoint.lossy body) =
        .ok question := by
  rw [Endpoint.question]
  cases plan endpoint.platform endpoint.engine endpoint.sparqlPublic principal (bodyQuery endpoint.lossy body) with
  | error e =>
    constructor
    · rintro ⟨kept, asked⟩
      cases asked
    · intro planned
      cases planned
  | ok planned =>
    constructor
    · rintro ⟨kept, asked⟩
      cases asked
      rfl
    · intro same
      cases same
      exact ⟨none, rfl⟩

/-- A form is read as the query it holds exactly where the query is its only field, under its name as it is. -/
theorem bodyQuery_form {body : String} (lawful : Lawful endpoint read) (spelled : FormOf (bytesOf body) fields)
    (held : Held fields q) : bodyQuery endpoint.lossy body = q ↔ startsWith body "query=" = true ∧ fields.length = 1 := by
  cases stripped : stripPrefix body "query=" with
  | none =>
    have unopened : startsWith body "query=" = false := by
      rw [Bool.eq_false_iff, Ne, startsWith_iff]
      rintro ⟨rest, rfl⟩
      rw [stripPrefix_append] at stripped
      cases stripped
    have mem : ("query", q) ∈ fields := List.mem_of_mem_filter (held ▸ List.mem_singleton_self _)
    have shorter := value_shorter spelled mem
    rw [bodyQuery, stripped, unopened]
    constructor
    · rintro rfl
      exact (Nat.lt_irrefl _ shorter).elim
    · rintro ⟨opened, _⟩
      cases opened
  | some rest =>
    have whole : body = "query=" ++ rest := stripPrefix_eq_some.1 stripped
    have bytes : bytesOf body = bytesOf "query" ++ 61 :: bytesOf rest := by
      rw [whole, bytesOf_append]
      rfl
    have opened : startsWith body "query=" = true := startsWith_iff.2 ⟨rest, whole⟩
    rw [bytes] at spelled
    obtain ⟨first, others, more, rfl, named, valued, ends⟩ := form_opening (by decide) spelled
    have plain : unescape ((bytesOf "query").map spaced) = bytesOf "query" := by decide
    have name : first.1 = "query" := bytesOf_inj (named.symm.trans plain)
    have kept : first = ("query", q) ∧ others.filter (fun pair => pair.1 == "query") = [] := by
      have filtered : (first :: others).filter (fun pair => pair.1 == "query") = [("query", q)] := held
      rw [List.filter_cons_of_pos (by rw [name]; rfl)] at filtered
      exact List.cons.inj filtered
    have value : first.2 = q := by rw [kept.1]
    have decoded : bodyQuery endpoint.lossy body = q ++ endpoint.lossy more := by
      rw [bodyQuery, stripped]
      dsimp only
      rw [bytesOf_spaced, valued, lawful.lossy, value]
    rw [decoded]
    rcases ends with ⟨rfl, rfl⟩ | ⟨several, tail, rfl⟩
    · rw [lawful.lossy_nil, String.append_empty]
      exact ⟨fun _ => ⟨opened, rfl⟩, fun _ => rfl⟩
    · constructor
      · intro same
        have left : endpoint.lossy (38 :: tail) = "&" ++ endpoint.lossy tail := lawful.lossy "&" tail
        have lengths := congrArg (fun content => content.toList.length) same
        simp only [left, String.toList_append, List.length_append] at lengths
        have one : "&".toList.length = 1 := rfl
        omega
      · rintro ⟨_, single⟩
        exact (several (List.length_eq_zero_iff.1 (Nat.succ.inj single))).elim

/-- A plain query that is sent as a body is read as it is. -/
theorem bodyQuery_direct {reading : Api.Sparql.Reading} (plain : reading.Plain) (divided : q.toList = reading.text)
    (lossy : List UInt8 → String) : bodyQuery lossy q = q := by
  cases stripped : stripPrefix q "query=" with
  | none => rw [bodyQuery, stripped]
  | some rest =>
    obtain ⟨c, more, written, other⟩ := plain.1.opening plain.2 reading.rest
    have whole : q = "query=" ++ rest := stripPrefix_eq_some.1 stripped
    have opened : ('q' :: "uery=".toList) ++ rest.toList = c :: more := by
      rw [← written, ← Api.Sparql.Reading.text, ← divided, whole, String.toList_append]
      rfl
    cases opened
    exact (other (by decide)).elim

end Ways

/-- A query that a caller may ask is evaluated under its form where it is written plainly up to the word of its form, where it is
received as it was sent, and where nothing in it looks like a word of an update; it is not evaluated where it is not received so or
looks like an update. -/
theorem evaluated_as_sent (endpoint : Endpoint) (read : String → Option Api.Sparql.Reading) (lawful : Lawful endpoint read)
    (principal : Principal) (admitted : endpoint.sparqlPublic = true ∨ principal.isAnonymous = false)
    (q : String) (reading : Api.Sparql.Reading) (accepted : read q = some reading) (way : Way) (sent : way.Sends q) :
    (reading.Plain ∧ way.Received ∧ Unsuspected endpoint.platform q →
      Evaluated endpoint principal (way.request q) q reading.form) ∧
    (Evaluated endpoint principal (way.request q) q reading.form → way.Received ∧ Unsuspected endpoint.platform q) := by
  have parsed : endpoint.engine.parseQuery q = .ok () := (lawful.accepts q).2 (by rw [accepted]; rfl)
  have planned {question : Api.Sparql.Call}
      (plans : plan endpoint.platform endpoint.engine endpoint.sparqlPublic principal q = .ok question) : Unsuspected endpoint.platform q := (plan_ok.1 plans).2.1
  -- the query that a plan is made for is the query of its question
  have posted {body : String} (plans : plan endpoint.platform endpoint.engine endpoint.sparqlPublic principal
      (bodyQuery endpoint.lossy body) = .ok (call reading.form q)) : bodyQuery endpoint.lossy body = q := by
    have same := congrArg text (plan_ok.1 plans).2.2.2
    rw [text_call, text_callOf] at same
    exact same.symm
  constructor
  · rintro ⟨plain, received, free⟩
    have form := queryForm_plain lawful.ascii plain (lawful.divides q reading accepted)
    have plans : plan endpoint.platform endpoint.engine endpoint.sparqlPublic principal q = .ok (call reading.form q) :=
      plan_ok.2 ⟨admitted, free, parsed, by rw [form, callOf_word]⟩
    refine ⟨form, ?_⟩
    cases way with
    | get query fields =>
      obtain ⟨spelled, held⟩ := sent
      exact (question_get lawful spelled held).2 ⟨received, plans⟩
    | direct =>
      refine question_post.2 ?_
      rw [bodyQuery_direct plain (lawful.divides q reading accepted)]
      exact plans
    | form body fields =>
      obtain ⟨spelled, held⟩ := sent
      refine question_post.2 ?_
      rw [(bodyQuery_form lawful spelled held).2 received]
      exact plans
  · rintro ⟨_, asked⟩
    cases way with
    | get query fields =>
      obtain ⟨spelled, held⟩ := sent
      obtain ⟨once, plans⟩ := (question_get lawful spelled held).1 asked
      exact ⟨once, planned plans⟩
    | direct =>
      have plans := question_post.1 asked
      rw [posted plans] at plans
      exact ⟨trivial, planned plans⟩
    | form body fields =>
      obtain ⟨spelled, held⟩ := sent
      have plans := question_post.1 asked
      have received := (bodyQuery_form lawful spelled held).1 (posted plans)
      rw [posted plans] at plans
      exact ⟨received, planned plans⟩

section Specimens

/-- Bytes read as text character by character, past the bytes of the character before; a byte that opens none is replaced. -/
def lossyFrom : Nat → List UInt8 → List Char
  | _, [] => []
  | skipped + 1, _ :: rest => lossyFrom skipped rest
  | 0, byte :: rest =>
    match (byte :: rest).toByteArray.utf8DecodeChar? 0 with
    | some c => c :: lossyFrom (c.utf8Size - 1) rest
    | none => Char.ofNat 0xFFFD :: lossyFrom 0 rest

theorem lossyFrom_length (skipped rest : List UInt8) : lossyFrom skipped.length (skipped ++ rest) = lossyFrom 0 rest := by
  induction skipped with
  | nil => rfl
  | cons byte skipped ih => exact ih

theorem lossyFrom_char (c : Char) (rest : List UInt8) :
    lossyFrom 0 (String.utf8EncodeChar c ++ rest) = c :: lossyFrom 0 rest := by
  have decoded : (String.utf8EncodeChar c ++ rest).toByteArray.utf8DecodeChar? 0 = some c := by
    rw [List.toByteArray_append]
    exact ByteArray.utf8DecodeChar?_utf8EncodeChar_append
  have size := String.length_utf8EncodeChar c
  cases written : String.utf8EncodeChar c with
  | nil =>
    have positive := c.utf8Size_pos
    rw [written, List.length_nil] at size
    omega
  | cons byte bytes =>
    rw [written] at decoded size
    rw [List.cons_append] at decoded ⊢
    rw [lossyFrom, decoded]
    dsimp only
    rw [← size, List.length_cons, Nat.add_sub_cancel, lossyFrom_length]

def lossily (bytes : List UInt8) : String := String.ofList (lossyFrom 0 bytes)

theorem lossily_text (content : String) (rest : List UInt8) :
    lossily (bytesOf content ++ rest) = content ++ lossily rest := by
  have chars (list : List Char) : lossyFrom 0 (list.flatMap String.utf8EncodeChar ++ rest) = list ++ lossyFrom 0 rest := by
    induction list with
    | nil => rfl
    | cons c list ih => rw [List.flatMap_cons, List.append_assoc, lossyFrom_char, ih, List.cons_append]
  rw [lossily, bytesOf, chars, String.ofList_append, String.ofList_toList, lossily]

/-- A few queries and how the grammar divides them. -/
def queries : List (String × Api.Sparql.Reading) :=
  [("#>\nASK {}", ⟨[.comment "#>".toList, .space ['\n']], "ASK".toList, .ask, " {}".toList⟩),
    ("ASK {}", ⟨[], "ASK".toList, .ask, " {}".toList⟩),
    ("ASK \x7b ?s ?p \"inserted\" \x7d", ⟨[], "ASK".toList, .ask, " \x7b ?s ?p \"inserted\" \x7d".toList⟩),
    ("PREFIX a: # >\n<http://a> ASK {}",
      ⟨[.declaration "PREFIX a: # >\n<http://a>".toList, .space [' ']], "ASK".toList, .ask, " {}".toList⟩)]

def reads (q : String) : Option Api.Sparql.Reading := (queries.find? (fun entry => entry.1 == q)).map Prod.snd

def engine : Engine where
  parseQuery q := if (reads q).isSome then .ok () else .error "expected a query"
  ask _ := .ok true
  construct _ := .ok []
  select _ := .ok ⟨[], []⟩
  turtle _ := .ok ""

/-- An endpoint that anybody may ask. -/
def open_ : Endpoint := ⟨Specimen.platform [], engine, lossily, true⟩

theorem open_lawful : Lawful open_ reads where
  divides := by
    intro q reading found
    obtain ⟨entry, held, rfl⟩ := Option.map_eq_some_iff.1 found
    have all : ∀ entry ∈ queries, entry.1.toList = entry.2.text := by decide
    have named := List.find?_some held
    rw [← beq_iff_eq.1 named]
    exact all entry (List.mem_of_find?_eq_some held)
  accepts := by
    intro q
    change (if (reads q).isSome then Except.ok () else .error "expected a query") = .ok () ↔ _
    cases (reads q).isSome <;> simp
  ascii := by
    intro c small
    have all : ∀ n < 128, [(Char.ofNat n).toUpper] = [asciiUpper (Char.ofNat n)] := by decide
    have one := all c.toNat small
    rwa [Char.ofNat_toNat] at one
  lossy := lossily_text
  lossy_nil := rfl

/-- The form spells this query, under its name as it is. -/
theorem commented_form : FormOf (bytesOf "query=%23%3E%0AASK+%7B%7D") [("query", "#>\nASK {}")] :=
  ⟨List.cons_ne_nil _ _, [bytesOf "query=%23%3E%0AASK+%7B%7D"], rfl,
    .cons ⟨bytesOf "query", bytesOf "%23%3E%0AASK+%7B%7D", by decide, by decide, by decide, by decide, by decide⟩ .nil⟩

/-- The form spells this query behind another field. -/
theorem second_form : FormOf (bytesOf "format=json&query=ASK+%7B%7D") [("format", "json"), ("query", "ASK {}")] :=
  ⟨List.cons_ne_nil _ _, [bytesOf "format=json", bytesOf "query=ASK+%7B%7D"], by decide,
    .cons ⟨bytesOf "format", bytesOf "json", by decide, by decide, by decide, by decide, by decide⟩
      (.cons ⟨bytesOf "query", bytesOf "ASK+%7B%7D", by decide, by decide, by decide, by decide, by decide⟩ .nil)⟩

end Specimens

/-- A query behind a comment that ends like a declaration is evaluated from a form. -/
theorem commented_evaluated : Evaluated open_ Principal.anonymous (.post "query=%23%3E%0AASK+%7B%7D") "#>\nASK {}" .ask :=
  (evaluated_as_sent open_ reads open_lawful Principal.anonymous (Or.inl rfl) "#>\nASK {}"
    ⟨[.comment "#>".toList, .space ['\n']], "ASK".toList, .ask, " {}".toList⟩ rfl
    (.form "query=%23%3E%0AASK+%7B%7D" [("query", "#>\nASK {}")]) ⟨commented_form, rfl⟩).1
    ⟨⟨@Straight.comment _ [] _ (by decide) (by decide) .nil, rfl⟩, ⟨by decide, rfl⟩,
      (by decide : ∀ word ∈ forbidden, containsChars word.toList (upper (Specimen.platform []) "#>\nASK {}".toList) = false)⟩

/-- Not every accepted query is evaluated as it was sent: behind another field of a form it is not found, a word in a literal
is taken for an update, and a comment inside of a declaration hides the form. -/
theorem evaluated_otherwise :
    (reads "ASK {}").map Api.Sparql.Reading.form = some .ask ∧
      (Way.form "format=json&query=ASK+%7B%7D" [("format", "json"), ("query", "ASK {}")]).Sends "ASK {}" ∧
      ¬Evaluated open_ Principal.anonymous (.post "format=json&query=ASK+%7B%7D") "ASK {}" .ask ∧
    (reads "ASK \x7b ?s ?p \"inserted\" \x7d").map Api.Sparql.Reading.form = some .ask ∧
      ¬Evaluated open_ Principal.anonymous (.post "ASK \x7b ?s ?p \"inserted\" \x7d") "ASK \x7b ?s ?p \"inserted\" \x7d" .ask ∧
    (reads "PREFIX a: # >\n<http://a> ASK {}").map Api.Sparql.Reading.form = some .ask ∧
      ¬Evaluated open_ Principal.anonymous (.post "PREFIX a: # >\n<http://a> ASK {}") "PREFIX a: # >\n<http://a> ASK {}" .ask := by
  refine ⟨rfl, ⟨second_form, rfl⟩, ?_, rfl, ?_, rfl, ?_⟩
  · rintro ⟨_, asked⟩
    have plans := question_post.1 asked
    have unread : (reads (bodyQuery lossily "format=json&query=ASK+%7B%7D")).isSome = false := by decide
    have parsed := (plan_ok.1 plans).2.2.1
    rw [open_lawful.accepts] at parsed
    exact Bool.false_ne_true (unread.symm.trans parsed)
  · rintro ⟨_, asked⟩
    have free := (plan_ok.1 (question_post.1 asked)).2.1 "INSERT" List.mem_cons_self
    have found : containsChars "INSERT".toList (upper (Specimen.platform []) "ASK \x7b ?s ?p \"inserted\" \x7d".toList) = true := by
      decide
    exact absurd (found.symm.trans free) (by decide)
  · rintro ⟨form, _⟩
    exact absurd form (by decide)

end ToolArtifactRegistry.Laws.Querying
