import ToolArtifactRegistry.Ids
import ToolArtifactRegistry.Store

/-! Quad construction. What is said about one subject is a list of statements; a description
places them in a graph. -/
namespace ToolArtifactRegistry.Rdf.Build

open Library.Rdf Ids

abbrev Statement := String × Term

def finish (subject : Node) (graph : String) (statements : List Statement) : List Quad :=
  statements.map (fun statement => ⟨subject, statement.1, statement.2, graph⟩)

/-- A description in the local authoritative graph. -/
def describeLocal (iri : String) (statements : List Statement) : List Quad :=
  finish (.named iri) Ns.gLocal statements

def a (typeIri : String) : List Statement := [(Ns.rdfType, .named typeIri)]

section

variable (platform : Platform) (ns localName : String)

/-- A non-IRI value in an IRI position is kept as a literal rather than dropped. -/
def link (target : String) : List Statement :=
  if target = "" then []
  else if platform.validIri target then [(Ns.t ns localName, .named target)]
  else [(Ns.t ns localName, .simple target)]

def optLink : Option String → List Statement
  | some target => link platform ns localName target
  | none => []

def links (targets : List String) : List Statement := targets.flatMap (link platform ns localName)

def text (value : String) : List Statement :=
  if value = "" then [] else [(Ns.t ns localName, .simple value)]

def optText : Option String → List Statement
  | some value => text ns localName value
  | none => []

def texts (values : List String) : List Statement := values.flatMap (text ns localName)

def int (value : Int) : List Statement :=
  [(Ns.t ns localName, .literal (toString value) (Ns.xsd ++ "integer") none)]

def optInt : Option Int → List Statement
  | some value => int ns localName value
  | none => []

def showBool : Bool → String
  | true => "true"
  | false => "false"

def boolean (value : Bool) : List Statement :=
  [(Ns.t ns localName, .literal (showBool value) (Ns.xsd ++ "boolean") none)]

/-- Anything that is not RFC 3339 is stored as a plain literal. -/
def datetime (value : String) : List Statement :=
  if value = "" then []
  else match platform.rfc3339 value with
    | some utc => [(Ns.t ns localName, .literal utc (Ns.xsd ++ "dateTime") none)]
    | none => text ns localName value

def optDatetime : Option String → List Statement
  | some value => datetime platform ns localName value
  | none => []

end

/-- Who wrote, and when the resource changed: the caller's own date or the clock. -/
def attributionAt (platform : Platform) (draw : Draw) (actor : String) (modified : Option String) :
    List Statement :=
  link platform Ns.prov "wasAttributedTo" actor ++
    datetime platform Ns.dct "modified" (modified.getD draw.now)

def attribution (platform : Platform) (draw : Draw) (actor : String) : List Statement :=
  attributionAt platform draw actor none

theorem mem_finish {subject : Node} {graph : String} {statements : List Statement} {quad : Quad} :
    quad ∈ finish subject graph statements ↔
      quad.subject = subject ∧ quad.graph = graph ∧ (quad.predicate, quad.object) ∈ statements := by
  simp only [finish, List.mem_map]
  constructor
  · rintro ⟨statement, mem, rfl⟩
    exact ⟨rfl, rfl, mem⟩
  · rintro ⟨rfl, rfl, mem⟩
    exact ⟨_, mem, rfl⟩

theorem subject_of_mem_local {iri : String} {statements : List Statement} {quad : Quad}
    (mem : quad ∈ describeLocal iri statements) : quad.subject = .named iri := (mem_finish.1 mem).1

/-- The objects a list of statements gives one predicate. -/
def said (predicate : String) (statements : List Statement) : List Term :=
  (statements.filter (fun statement => decide (statement.1 = predicate))).map Prod.snd

@[simp] theorem said_nil (predicate : String) : said predicate [] = [] := rfl

@[simp] theorem said_append (predicate : String) (left right : List Statement) :
    said predicate (left ++ right) = said predicate left ++ said predicate right := by
  simp [said]

theorem mem_said {predicate : String} {statements : List Statement} {object : Term} :
    object ∈ said predicate statements ↔ (predicate, object) ∈ statements := by
  simp [said]

/-- Each statement builder speaks of one predicate only. -/
def Only (predicate : String) (statements : List Statement) : Prop :=
  ∀ statement ∈ statements, statement.1 = predicate

/-- Every statement is of a predicate of this vocabulary. -/
def Speaks (vocabulary : List String) (statements : List Statement) : Prop :=
  ∀ statement ∈ statements, statement.1 ∈ vocabulary

@[simp] theorem speaks_nil (vocabulary : List String) : Speaks vocabulary [] := by simp [Speaks]

@[simp] theorem speaks_append {vocabulary : List String} {left right : List Statement} :
    Speaks vocabulary (left ++ right) ↔ Speaks vocabulary left ∧ Speaks vocabulary right := by
  simp [Speaks, or_imp, forall_and]

@[simp] theorem speaks_cons {vocabulary : List String} {statement : Statement} {rest : List Statement} :
    Speaks vocabulary (statement :: rest) ↔ statement.1 ∈ vocabulary ∧ Speaks vocabulary rest := by
  simp [Speaks]

theorem speaks_flatMap {α : Type} {vocabulary : List String} {items : List α} {statements : α → List Statement}
    (each : ∀ item ∈ items, Speaks vocabulary (statements item)) : Speaks vocabulary (items.flatMap statements) := by
  intro statement mem
  obtain ⟨item, inItems, said⟩ := List.mem_flatMap.1 mem
  exact each item inItems statement said

theorem Only.speaks {vocabulary : List String} {predicate : String} {statements : List Statement}
    (only : Only predicate statements) (known : predicate ∈ vocabulary) : Speaks vocabulary statements := by
  intro statement mem
  rw [only statement mem]
  exact known

theorem Speaks.mono {small large : List String} {statements : List Statement} (speaks : Speaks small statements)
    (within : ∀ predicate ∈ small, predicate ∈ large) : Speaks large statements :=
  fun statement mem => within _ (speaks statement mem)

/-- What is said outside the vocabulary is nothing. -/
theorem Speaks.silent {vocabulary : List String} {statements : List Statement} {predicate : String} {object : Term}
    (speaks : Speaks vocabulary statements) (foreign : predicate ∉ vocabulary) :
    (predicate, object) ∉ statements := fun mem => foreign (speaks _ mem)

theorem said_other {predicate other : String} {statements : List Statement} (only : Only other statements)
    (apart : other ≠ predicate) : said predicate statements = [] := by
  simp only [said, List.map_eq_nil_iff, List.filter_eq_nil_iff, decide_eq_true_eq]
  intro statement mem same
  exact apart (only statement mem ▸ same)

section

variable (platform : Platform) (ns localName : String)

theorem only_a (typeIri : String) : Only Ns.rdfType (a typeIri) := by simp [Only, a]

theorem only_link (target : String) : Only (Ns.t ns localName) (link platform ns localName target) := by
  unfold link
  split
  · simp [Only]
  · split <;> simp [Only]

theorem only_optLink (target : Option String) :
    Only (Ns.t ns localName) (optLink platform ns localName target) := by
  cases target with
  | none => simp [Only, optLink]
  | some target => exact only_link platform ns localName target

theorem only_links (targets : List String) :
    Only (Ns.t ns localName) (links platform ns localName targets) := by
  intro statement mem
  obtain ⟨target, _, inLink⟩ := List.mem_flatMap.1 mem
  exact only_link platform ns localName target statement inLink

theorem only_text (value : String) : Only (Ns.t ns localName) (text ns localName value) := by
  unfold text
  split <;> simp [Only]

theorem only_optText (value : Option String) : Only (Ns.t ns localName) (optText ns localName value) := by
  cases value with
  | none => simp [Only, optText]
  | some value => exact only_text ns localName value

theorem only_texts (values : List String) : Only (Ns.t ns localName) (texts ns localName values) := by
  intro statement mem
  obtain ⟨value, _, inText⟩ := List.mem_flatMap.1 mem
  exact only_text ns localName value statement inText

theorem only_int (value : Int) : Only (Ns.t ns localName) (int ns localName value) := by
  simp [Only, int]

theorem only_optInt (value : Option Int) : Only (Ns.t ns localName) (optInt ns localName value) := by
  cases value with
  | none => simp [Only, optInt]
  | some value => exact only_int ns localName value

theorem only_boolean (value : Bool) : Only (Ns.t ns localName) (boolean ns localName value) := by
  simp [Only, boolean]

theorem only_datetime (value : String) :
    Only (Ns.t ns localName) (datetime platform ns localName value) := by
  unfold datetime
  split
  · simp [Only]
  · split
    · simp [Only]
    · exact only_text ns localName value

theorem only_optDatetime (value : Option String) :
    Only (Ns.t ns localName) (optDatetime platform ns localName value) := by
  cases value with
  | none => simp [Only, optDatetime]
  | some value => exact only_datetime platform ns localName value

end

section Fields

/-- Statements sorted by what they are statements of. -/
def Sorted (fields : List (String × List Statement)) : Prop := ∀ field ∈ fields, Only field.1 field.2

@[simp] theorem sorted_nil : Sorted [] := by simp [Sorted]

@[simp] theorem sorted_cons {field : String × List Statement} {rest : List (String × List Statement)} :
    Sorted (field :: rest) ↔ Only field.1 field.2 ∧ Sorted rest := by
  simp [Sorted]

theorem said_absent {fields : List (String × List Statement)} {predicate : String} (sorted : Sorted fields)
    (absent : predicate ∉ fields.map Prod.fst) : said predicate (fields.flatMap Prod.snd) = [] := by
  induction fields with
  | nil => rfl
  | cons field rest ih =>
    obtain ⟨own, later⟩ := sorted_cons.1 sorted
    simp only [List.map_cons, List.mem_cons, not_or] at absent
    rw [List.flatMap_cons, said_append, said_other own (fun same => absent.1 same.symm), ih later absent.2]
    rfl

/-- Where no two fields are of one predicate, a predicate is given its own field's objects. -/
theorem said_field {fields : List (String × List Statement)} {predicate : String} {statements : List Statement}
    (sorted : Sorted fields) (apart : (fields.map Prod.fst).Nodup) (mem : (predicate, statements) ∈ fields) :
    said predicate (fields.flatMap Prod.snd) = statements.map Prod.snd := by
  induction fields with
  | nil => simp at mem
  | cons field rest ih =>
    obtain ⟨own, later⟩ := sorted_cons.1 sorted
    obtain ⟨fresh, apartRest⟩ := List.nodup_cons.1 apart
    rw [List.flatMap_cons, said_append]
    rcases List.mem_cons.1 mem with rfl | inRest
    · rw [said_absent later fresh, List.append_nil, said, List.filter_eq_self.2]
      intro statement inStatements
      exact decide_eq_true (own statement inStatements)
    · have other : field.1 ≠ predicate := fun same => fresh (same ▸ List.mem_map_of_mem inRest)
      rw [said_other own other, ih later apartRest inRest, List.nil_append]

end Fields

section

variable (platform : Platform) {ns localName : String} {vocabulary : List String}

@[simp] theorem speaks_a (typeIri : String) (known : Ns.rdfType ∈ vocabulary) : Speaks vocabulary (a typeIri) :=
  (only_a typeIri).speaks known

@[simp] theorem speaks_link (target : String) (known : Ns.t ns localName ∈ vocabulary) :
    Speaks vocabulary (link platform ns localName target) := (only_link platform ns localName target).speaks known

@[simp] theorem speaks_optLink (target : Option String) (known : Ns.t ns localName ∈ vocabulary) :
    Speaks vocabulary (optLink platform ns localName target) := (only_optLink platform ns localName target).speaks known

@[simp] theorem speaks_links (targets : List String) (known : Ns.t ns localName ∈ vocabulary) :
    Speaks vocabulary (links platform ns localName targets) := (only_links platform ns localName targets).speaks known

@[simp] theorem speaks_text (value : String) (known : Ns.t ns localName ∈ vocabulary) :
    Speaks vocabulary (text ns localName value) := (only_text ns localName value).speaks known

@[simp] theorem speaks_optText (value : Option String) (known : Ns.t ns localName ∈ vocabulary) :
    Speaks vocabulary (optText ns localName value) := (only_optText ns localName value).speaks known

@[simp] theorem speaks_texts (values : List String) (known : Ns.t ns localName ∈ vocabulary) :
    Speaks vocabulary (texts ns localName values) := (only_texts ns localName values).speaks known

@[simp] theorem speaks_optInt (value : Option Int) (known : Ns.t ns localName ∈ vocabulary) :
    Speaks vocabulary (optInt ns localName value) := (only_optInt ns localName value).speaks known

@[simp] theorem speaks_boolean (value : Bool) (known : Ns.t ns localName ∈ vocabulary) :
    Speaks vocabulary (boolean ns localName value) := (only_boolean ns localName value).speaks known

@[simp] theorem speaks_datetime (value : String) (known : Ns.t ns localName ∈ vocabulary) :
    Speaks vocabulary (datetime platform ns localName value) := (only_datetime platform ns localName value).speaks known

@[simp] theorem speaks_optDatetime (value : Option String) (known : Ns.t ns localName ∈ vocabulary) :
    Speaks vocabulary (optDatetime platform ns localName value) :=
  (only_optDatetime platform ns localName value).speaks known

end

end ToolArtifactRegistry.Rdf.Build
