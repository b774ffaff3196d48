import ToolArtifactRegistry.Library.Queries
import ToolArtifactRegistry.Library.Relabelling

/-! Requests that change a dataset, as a sequence of operations: graphs are cleared, statements are deleted by a pattern
over what is held, and statements are inserted whose blank nodes are new. How the operations are written, and what they
do one after the other. -/
namespace ToolArtifactRegistry.Library.Updates

open Rdf Text Queries Relabelling

inductive GraphName where
  | named (iri : String)
  | blank (label : String)
  | default
  deriving DecidableEq

/-- A quad that need not be in a named graph. -/
structure Statement where
  subject : Node
  predicate : String
  object : Term
  graph : GraphName
  deriving DecidableEq

/-- A quad of a named graph. -/
def Statement.of (quad : Quad) : Statement := ⟨quad.subject, quad.predicate, quad.object, .named quad.graph⟩

theorem of_injective : Function.Injective Statement.of := by
  intro one other same
  cases one
  cases other
  cases same
  rfl

section Labels

def nodeLabels : Node → Finset String
  | .named _ => ∅
  | .blank label => {label}

def termLabels : Term → Finset String
  | .blank label => {label}
  | .named _ | .literal .. => ∅

def graphLabels : GraphName → Finset String
  | .blank label => {label}
  | .named _ | .default => ∅

def renameNode (f : String → String) : Node → Node
  | .named iri => .named iri
  | .blank label => .blank (f label)

def renameTerm (f : String → String) : Term → Term
  | .blank label => .blank (f label)
  | .named iri => .named iri
  | .literal value datatype language => .literal value datatype language

def renameGraph (f : String → String) : GraphName → GraphName
  | .blank label => .blank (f label)
  | .named iri => .named iri
  | .default => .default

def Statement.labels (statement : Statement) : Finset String :=
  nodeLabels statement.subject ∪ termLabels statement.object ∪ graphLabels statement.graph

def Statement.rename (f : String → String) (statement : Statement) : Statement :=
  ⟨renameNode f statement.subject, statement.predicate, renameTerm f statement.object, renameGraph f statement.graph⟩

variable (f g : String → String)

theorem nodeLabels_rename (node : Node) : nodeLabels (renameNode f node) = (nodeLabels node).image f := by
  cases node <;> rfl

theorem termLabels_rename (term : Term) : termLabels (renameTerm f term) = (termLabels term).image f := by
  cases term <;> rfl

theorem graphLabels_rename (name : GraphName) : graphLabels (renameGraph f name) = (graphLabels name).image f := by
  cases name <;> rfl

variable {f g} in
theorem renameNode_congr {node : Node} (same : ∀ label ∈ nodeLabels node, f label = g label) :
    renameNode f node = renameNode g node := by
  cases node with
  | named => rfl
  | blank label => exact congrArg Node.blank (same label (Finset.mem_singleton_self label))

variable {f g} in
theorem renameTerm_congr {term : Term} (same : ∀ label ∈ termLabels term, f label = g label) :
    renameTerm f term = renameTerm g term := by
  cases term with
  | named | literal => rfl
  | blank label => exact congrArg Term.blank (same label (Finset.mem_singleton_self label))

variable {f g} in
theorem renameGraph_congr {name : GraphName} (same : ∀ label ∈ graphLabels name, f label = g label) :
    renameGraph f name = renameGraph g name := by
  cases name with
  | named | default => rfl
  | blank label => exact congrArg GraphName.blank (same label (Finset.mem_singleton_self label))

instance : Labelled Statement where
  labels := Statement.labels
  rename := Statement.rename
  labels_rename f statement := by
    simp only [Statement.labels, Statement.rename, nodeLabels_rename, termLabels_rename, graphLabels_rename,
      Finset.image_union]
  rename_congr f g statement same := by
    simp only [Statement.labels, Finset.mem_union] at same
    simp only [Statement.rename, renameNode_congr (fun label mem => same label (Or.inl (Or.inl mem))),
      renameTerm_congr (fun label mem => same label (Or.inl (Or.inr mem))),
      renameGraph_congr (fun label mem => same label (Or.inr mem))]
  rename_rename f g statement := by
    obtain ⟨subject, _, object, graph⟩ := statement
    cases subject <;> cases object <;> cases graph <;> rfl
  rename_id statement := by
    obtain ⟨subject, _, object, graph⟩ := statement
    cases subject <;> cases object <;> cases graph <;> rfl

end Labels

section Operations

/-- A triple in a graph, with variables in it. -/
structure Pattern where
  name : Place
  subject : Place
  predicate : Place
  object : Place

inductive Clause where
  | graph (pattern : Pattern)
  /-- A variable is bound to a blank node, or another to one of some predicates. -/
  | blankOr (object predicate : String) (among : List String)
  | bind (value : Place) (name : String)

/-- Clauses on the lines they are written on. -/
abbrev Group := List (List Clause)

/-- Statements in the graph they are put in, the default graph where none is named. -/
abbrev Block := Option String × List Statement

inductive Operation where
  | clear (graph : String)
  /-- What a template makes of the solutions of one of some groups. -/
  | delete (template : Pattern) (branches : List Group)
  | deleteWhere (pattern : Pattern)
  | insertData (blocks : List Block)

variable (display : Term → String)

def Pattern.written (pattern : Pattern) : String :=
  "GRAPH " ++ pattern.name.written ++ " " ++
    braces (pattern.subject.written ++ " " ++ pattern.predicate.written ++ " " ++ pattern.object.written)

def Clause.written (clause : Clause) : String :=
  match clause with
  | .graph pattern => pattern.written
  | .blankOr object predicate among =>
    "FILTER(isBlank(?" ++ object ++ ") || ?" ++ predicate ++ " IN (" ++ join ", " (among.map angle) ++ "))"
  | .bind value name => "BIND(" ++ value.written ++ " AS ?" ++ name ++ ")"

def writtenLine (line : List Clause) : String := join " " (line.map Clause.written)

def writtenGroup (group : Group) : String :=
  match group with
  | [line] => "    " ++ braces (writtenLine line)
  | lines => "    \x7b\n" ++ join "" (lines.map (fun line => "      " ++ writtenLine line ++ "\n")) ++ "    \x7d"

def Statement.written (statement : Statement) : String :=
  display statement.subject.term ++ " " ++ angle statement.predicate ++ " " ++ display statement.object ++ " .\n"

def writtenBlock (block : Block) : String :=
  match block.1 with
  | some graph =>
    "  GRAPH " ++ angle graph ++ " \x7b\n" ++
      join "" (block.2.map (fun statement => "    " ++ statement.written display)) ++ "  \x7d\n"
  | none => join "" (block.2.map (fun statement => "  " ++ statement.written display))

def Operation.written (operation : Operation) : String :=
  match operation with
  | .clear graph => "CLEAR SILENT GRAPH " ++ angle graph
  | .delete template branches =>
    "DELETE " ++ braces template.written ++ "\nWHERE \x7b\n" ++ join "\n    UNION\n" (branches.map writtenGroup) ++ "\n\x7d"
  | .deleteWhere pattern => "DELETE WHERE " ++ braces pattern.written
  | .insertData blocks => "INSERT DATA \x7b\n" ++ join "" (blocks.map (writtenBlock display)) ++ "\x7d\n"

/-- One request, its operations one after the other. -/
def requestText (operations : List Operation) : String := join " ;\n" (operations.map (Operation.written display))

end Operations

section Executing

def valueOf (solution : Solution) (place : Place) : Option Term :=
  match place with
  | .var name => solution name
  | .iri text => some (.named text)
  | .literal spelled => (unquote spelled).map Term.simple
  | .yes => some (.literal "true" xsdBoolean none)

/-- Whether a pattern is this statement of a named graph under a solution. -/
def Pattern.Matches (pattern : Pattern) (solution : Solution) (statement : Statement) : Prop :=
  (∃ graph, statement.graph = .named graph ∧ valueOf solution pattern.name = some (.named graph)) ∧
    valueOf solution pattern.subject = some statement.subject.term ∧
    valueOf solution pattern.predicate = some (.named statement.predicate) ∧
    valueOf solution pattern.object = some statement.object

def Clause.Holds (data : Finset Statement) (solution : Solution) (clause : Clause) : Prop :=
  match clause with
  | .graph pattern => ∃ statement ∈ data, pattern.Matches solution statement
  | .blankOr object predicate among =>
    (∃ label, solution object = some (.blank label)) ∨ ∃ iri ∈ among, solution predicate = some (.named iri)
  | .bind value name => ∃ term, valueOf solution value = some term ∧ solution name = some term

/-- A solution of a group has every clause of it. -/
def Solves (data : Finset Statement) (solution : Solution) (group : Group) : Prop :=
  ∀ line ∈ group, ∀ clause ∈ line, clause.Holds data solution

/-- Whether the template makes the statement of a solution of one of the groups. -/
def Doomed (data : Finset Statement) (template : Pattern) (branches : List Group) (statement : Statement) : Prop :=
  ∃ group ∈ branches, ∃ solution, Solves data solution group ∧ template.Matches solution statement

def placed (name : Option String) (statement : Statement) : Statement :=
  { statement with graph := (name.map GraphName.named).getD .default }

/-- What is in the blocks, where each stands. -/
def contents (blocks : List Block) : Finset Statement :=
  (blocks.flatMap (fun block => block.2.map (placed block.1))).toFinset

/-- What one operation may leave of a dataset. The blank nodes of an insertion are new each time. -/
def Operation.Leaves (data after : Finset Statement) (operation : Operation) : Prop :=
  match operation with
  | .clear graph => ∀ statement, statement ∈ after ↔ statement ∈ data ∧ statement.graph ≠ .named graph
  | .delete template branches => ∀ statement, statement ∈ after ↔ statement ∈ data ∧ ¬Doomed data template branches statement
  | .deleteWhere pattern =>
    ∀ statement, statement ∈ after ↔ statement ∈ data ∧ ¬Doomed data pattern [[[.graph pattern]]] statement
  | .insertData blocks => ∃ f, Anew (labelsIn data) (contents blocks) f ∧ after = data ∪ withLabels f (contents blocks)

/-- The operations take effect one after the other. -/
def Executes : Finset Statement → List Operation → Finset Statement → Prop
  | data, [], after => after = data
  | data, operation :: rest, after => ∃ middle, operation.Leaves data middle ∧ Executes middle rest after

variable {data after : Finset Statement}

@[simp] theorem executes_nil : Executes data [] after ↔ after = data := Iff.rfl

theorem executes_append {first second : List Operation} :
    Executes data (first ++ second) after ↔ ∃ middle, Executes data first middle ∧ Executes middle second after := by
  induction first generalizing data with
  | nil => simp [Executes]
  | cons operation rest ih =>
    simp only [List.cons_append, Executes, ih]
    constructor
    · rintro ⟨one, leaves, middle, runs, ends⟩
      exact ⟨middle, ⟨one, leaves, runs⟩, ends⟩
    · rintro ⟨middle, ⟨one, leaves, runs⟩, ends⟩
      exact ⟨one, leaves, middle, runs, ends⟩

theorem executes_single {operation : Operation} : Executes data [operation] after ↔ operation.Leaves data after := by
  simp [Executes]

theorem mem_contents {blocks : List Block} {statement : Statement} :
    statement ∈ contents blocks ↔ ∃ block ∈ blocks, ∃ before ∈ block.2, placed block.1 before = statement := by
  simp [contents]

/-- A pattern that stands for itself dooms what it matches. -/
theorem doomed_where {pattern : Pattern} {statement : Statement} (held : statement ∈ data) :
    Doomed data pattern [[[.graph pattern]]] statement ↔ ∃ solution, pattern.Matches solution statement := by
  unfold Doomed Solves
  simp only [List.mem_singleton, forall_eq, exists_eq_left, Clause.Holds]
  exact ⟨fun ⟨solution, _, hit⟩ => ⟨solution, hit⟩, fun ⟨solution, hit⟩ => ⟨solution, ⟨statement, held, hit⟩, hit⟩⟩

end Executing

end ToolArtifactRegistry.Library.Updates
