import ToolArtifactRegistry.Domain.Fields
import ToolArtifactRegistry.Domain.Footprint

/-! The names a deployment is registered under: the credential that announced it, the issuer of that
credential and the key the deployment calls itself by. -/
namespace ToolArtifactRegistry.Domain.Deployment

open Library.Rdf Ids Model Store Rdf Build Footprint Fields

structure Names where
  registeredBy : String
  issuer : Option String
  key : Option String
  deriving DecidableEq

/-- The names a record is written with; an empty text is not written. -/
def Names.of (input : InstanceIn) : Option Names :=
  (nonEmpty input.selfRegisteredBy).map (fun by_ =>
    ⟨by_, nonEmpty input.selfRegisteredIssuer, nonEmpty input.instanceKey⟩)

/-- What the local graph says of a node under one of the registry's own terms. -/
def Told (data : Dataset) (node : Node) (localName : String) : Option String → Prop
  | some value => ⟨node, Ns.t Ns.tar localName, .simple value, Ns.gLocal⟩ ∈ data
  | none => ∀ object, ⟨node, Ns.t Ns.tar localName, object, Ns.gLocal⟩ ∉ data

/-- A live record of a deployment under these names. -/
structure Registered (data : Dataset) (names : Names) (node : Node) : Prop where
  by_ : Told data node "selfRegisteredBy" (some names.registeredBy)
  issuer : Told data node "selfRegisteredIssuer" names.issuer
  key : Told data node "instanceKey" names.key
  live : isTombstoned data node = false

section Statements

def nameStatements (input : InstanceIn) : List Statement :=
  Instance.selfRegisteredStatements input ++ optText Ns.tar "instanceKey" input.instanceKey

def nameTerms : List String :=
  [Ns.t Ns.tar "selfRegisteredBy", Ns.t Ns.tar "selfRegisteredIssuer", Ns.t Ns.tar "instanceKey"]

/-- The terms that decide whether a record is live under some names. -/
def nameVocabulary : List String := nameTerms ++ [Ns.t Ns.tar "tombstoned"]

variable {platform : Platform} {base iri actor : String} {draw : Draw} {input : InstanceIn} {software : Option String}

def nameFields (input : InstanceIn) : List (String × List Statement) :=
  [(Ns.t Ns.tar "selfRegisteredBy", optText Ns.tar "selfRegisteredBy" input.selfRegisteredBy),
    (Ns.t Ns.tar "selfRegisteredIssuer", if input.selfRegisteredBy.isSome then
      optText Ns.tar "selfRegisteredIssuer" input.selfRegisteredIssuer else []),
    (Ns.t Ns.tar "instanceKey", optText Ns.tar "instanceKey" input.instanceKey)]

theorem nameFields_sublist : (nameFields input).Sublist (instanceFields platform base draw input actor software) := by
  unfold nameFields instanceFields
  repeat first | exact List.nil_sublist _ | apply List.Sublist.cons_cons | apply List.Sublist.cons

theorem nameFields_sorted : Sorted (nameFields input) := by
  have issuer : Only (Ns.t Ns.tar "selfRegisteredIssuer") (if input.selfRegisteredBy.isSome then
      optText Ns.tar "selfRegisteredIssuer" input.selfRegisteredIssuer else []) := by
    split
    · exact only_optText _ _ _
    · simp [Only]
  unfold nameFields
  simp only [sorted_cons, sorted_nil, and_true]
  exact ⟨only_optText _ _ _, issuer, only_optText _ _ _⟩

theorem nameFields_terms : (nameFields input).map Prod.fst = nameTerms := rfl

theorem nameFields_apart : ((nameFields input).map Prod.fst).Nodup := by
  rw [nameFields_terms]
  decide

theorem nameStatements_eq : nameStatements input = (nameFields input).flatMap Prod.snd := by
  simp only [nameStatements, nameFields, Instance.selfRegisteredStatements, List.flatMap_cons, List.flatMap_nil,
    List.append_nil, List.append_assoc]

/-- Under its name terms an Instance says exactly its names. -/
theorem name_said {predicate : String} {object : Term} (known : predicate ∈ nameVocabulary) :
    (predicate, object) ∈ Instance.instanceStatements platform base draw input actor software ↔
      (predicate, object) ∈ nameStatements input := by
  rw [← mem_said, ← mem_said, nameStatements_eq]
  rcases List.mem_append.1 known with named | withdrawn
  · rw [← @nameFields_terms input] at named
    obtain ⟨⟨_, statements⟩, mem, rfl⟩ := List.mem_map.1 named
    have within := (@nameFields_sublist platform base actor draw input software).subset mem
    rw [said_field nameFields_sorted nameFields_apart mem, instance_said platform base draw input actor software within]
  · have foreign : Ns.t Ns.tar "tombstoned" ∉ instanceVocabulary := by decide
    have unnamed : Ns.t Ns.tar "tombstoned" ∉ nameTerms := by decide
    rw [List.mem_singleton.1 withdrawn, said_absent nameFields_sorted (nameFields_terms ▸ unnamed), mem_said]
    exact iff_of_false ((instance_speaks platform base draw input actor software).silent foreign) List.not_mem_nil

theorem mem_nameStatements {predicate : String} {statements : List Statement}
    (field : (predicate, statements) ∈ nameFields input) {object : Term} :
    (predicate, object) ∈ nameStatements input ↔ object ∈ statements.map Prod.snd := by
  rw [← mem_said, nameStatements_eq, said_field nameFields_sorted nameFields_apart field]

theorem mem_optText {ns localName : String} {value : Option String} {object : Term} :
    object ∈ (optText ns localName value).map Prod.snd ↔ ∃ shown, nonEmpty value = some shown ∧ object = .simple shown := by
  cases value with
  | none => simp [optText, nonEmpty]
  | some shown => by_cases empty : shown = "" <;> simp [optText, text, nonEmpty, empty, Option.filter]

/-- Among the quads of an Instance, those of its names are about the record itself. -/
theorem mem_names {quad : Quad} (known : quad.predicate ∈ nameVocabulary) :
    quad ∈ Instance.instanceQuads platform base iri draw input actor software ↔
      quad ∈ describeLocal iri (nameStatements input) := by
  constructor
  · intro mem
    rcases mem_instanceQuads platform base mem with own | supports
    · obtain ⟨subject, graph, said⟩ := mem_finish.1 own
      exact mem_finish.2 ⟨subject, graph, (name_said known).1 said⟩
    · have apart : ∀ predicate ∈ nameVocabulary, predicate ∉ supportVocabulary := by decide
      exact absurd supports.predicate (apart _ known)
  · intro mem
    obtain ⟨subject, graph, said⟩ := mem_finish.1 mem
    exact List.mem_append_right _ (mem_finish.2 ⟨subject, graph, (name_said known).2 said⟩)

end Statements

section Written

/-- A transaction that writes one record and deletes nothing of another but what that record owns. -/
structure OfRecord (iri : String) (input : InstanceIn) (tx : GraphTx) : Prop where
  graphs : tx.clearGraphs = []
  subjects : tx.deleteSubjects = [] ∨ tx.deleteSubjects = [(iri, Ns.gLocal)]
  properties : ∀ target ∈ tx.deleteProperties, target.1 = iri
  inserts : ∀ quad : Quad, quad.predicate ∈ nameVocabulary →
    (quad ∈ tx.insert ↔ quad ∈ describeLocal iri (nameStatements input))

variable {data : Dataset} {iri : String} {input : InstanceIn} {tx : GraphTx} {node : Node} {names : Names}

/-- A transaction that starts the record anew: it is minted, or what it said goes. -/
def Anew (data : Dataset) (iri : String) (tx : GraphTx) : Prop :=
  (∀ quad ∈ data, quad.subject ≠ .named iri) ∨ tx.deleteSubjects = [(iri, Ns.gLocal)]

/-- After it, the names of the record are those it was written with. -/
theorem names_written (record : OfRecord iri input tx) (anew : Anew data iri tx) {quad : Quad}
    (known : quad.predicate ∈ nameVocabulary) (subject : quad.subject = .named iri) (graph : quad.graph = Ns.gLocal) :
    quad ∈ effect data tx ↔ (quad.predicate, quad.object) ∈ nameStatements input := by
  have written : quad ∈ tx.insert ↔ (quad.predicate, quad.object) ∈ nameStatements input := by
    rw [record.inserts quad known, describeLocal, mem_finish]
    simp [subject, graph]
  rw [← written]
  refine ⟨fun mem => ?_, mem_effect_of_insert⟩
  rcases anew with fresh | replaced
  · rcases mem_effect_cases mem with before | inserted
    · exact absurd subject (fresh quad before)
    · exact inserted
  · refine gone_of_deleted record.graphs replaced graph ?_ mem
    rw [subject]
    exact Relation.ReflTransGen.refl

/-- Of another record that is still spoken of, nothing that its names depend on has changed. -/
theorem others_stand (record : OfRecord iri input tx) (other : node ≠ .named iri)
    {spoken : Quad} (still : spoken ∈ effect data tx) (about : spoken.subject = node) (graph : spoken.graph = Ns.gLocal)
    (term : spoken.predicate ∈ nameVocabulary) {quad : Quad} (subject : quad.subject = node)
    (known : quad.predicate ∈ nameVocabulary) : quad ∈ effect data tx ↔ quad ∈ data := by
  have foreign : ∀ any_ : Quad, any_.subject = node → any_.predicate ∈ nameVocabulary → any_ ∉ tx.insert := by
    intro any_ here named inserted
    exact other (here ▸ (mem_finish.1 ((record.inserts any_ named).1 inserted)).1)
  -- what the replaced record owned is gone, so a node that is spoken of was not its own
  have apart : ∀ target ∈ tx.deleteSubjects, ¬ Owns data target.2 (.named target.1) node := by
    intro target mem owned
    rcases record.subjects with none_ | replaced
    · rw [none_] at mem
      cases mem
    · rw [replaced, List.mem_singleton] at mem
      subst mem
      exact foreign spoken about term (gone_of_deleted record.graphs replaced graph (about ▸ owned) still)
  have spared : Spares data tx quad := by
    refine ⟨by rw [record.graphs]; exact List.not_mem_nil, ?_, ?_⟩
    · intro target mem owned
      exact apart target mem (subject ▸ owned.2)
    · intro target mem
      rw [isProperty, decide_eq_false_iff_not, subject]
      intro same
      exact other (same.1.trans (congrArg Node.named (record.properties target mem)))
  rw [mem_effect_of_spared spared]
  exact ⟨fun either => either.resolve_right (foreign quad subject known), Or.inl⟩

theorem known_term {localName : String} (mem : Ns.t Ns.tar localName ∈ nameTerms) : Ns.t Ns.tar localName ∈ nameVocabulary :=
  List.mem_append_left _ mem

/-- What the record tells after it is what it was written with. -/
theorem told_written (record : OfRecord iri input tx) (anew : Anew data iri tx) {localName : String}
    {value : Option String} (term : Ns.t Ns.tar localName ∈ nameTerms)
    (told : Told (effect data tx) (.named iri) localName value)
    {shown : Option String} (written : ∀ object, (Ns.t Ns.tar localName, object) ∈ nameStatements input ↔
      ∃ text, shown = some text ∧ object = .simple text) : shown = value := by
  have held : ∀ object, (⟨.named iri, Ns.t Ns.tar localName, object, Ns.gLocal⟩ : Quad) ∈ effect data tx ↔
      ∃ text, shown = some text ∧ object = .simple text := by
    intro object
    rw [names_written record anew (known_term term) rfl rfl, written]
  cases value with
  | some value =>
    obtain ⟨text, here, same⟩ := (held _).1 told
    rw [here]
    exact congrArg some (Term.literal.inj same).1.symm
  | none =>
    cases here : shown with
    | none => rfl
    | some text => exact absurd ((held (.simple text)).2 ⟨text, here, rfl⟩) (told _)

theorem registered_written (record : OfRecord iri input tx) (anew : Anew data iri tx)
    (registered : Registered (effect data tx) names (.named iri)) : Names.of input = some names := by
  have by_ : nonEmpty input.selfRegisteredBy = some names.registeredBy := by
    refine told_written record anew (by simp [nameTerms]) registered.by_ (fun object => ?_)
    rw [mem_nameStatements List.mem_cons_self, mem_optText]
  have given : input.selfRegisteredBy.isSome = true := by
    cases here : input.selfRegisteredBy with
    | none => rw [here] at by_; cases by_
    | some _ => rfl
  have issuer : nonEmpty input.selfRegisteredIssuer = names.issuer := by
    refine told_written record anew (by simp [nameTerms]) registered.issuer (fun object => ?_)
    rw [mem_nameStatements (List.mem_cons_of_mem _ List.mem_cons_self), if_pos given, mem_optText]
  have key : nonEmpty input.instanceKey = names.key := by
    refine told_written record anew (by simp [nameTerms]) registered.key (fun object => ?_)
    rw [mem_nameStatements (List.mem_cons_of_mem _ (List.mem_cons_of_mem _ List.mem_cons_self)), mem_optText]
  rw [Names.of, by_, issuer, key]
  rfl

/-- Another record live after it was live before, under the same names. -/
theorem registered_other (record : OfRecord iri input tx) (other : node ≠ .named iri)
    (registered : Registered (effect data tx) names node) : Registered data names node := by
  have stands : ∀ quad : Quad, quad.subject = node → quad.predicate ∈ nameVocabulary →
      (quad ∈ effect data tx ↔ quad ∈ data) := fun quad subject known =>
    others_stand record other registered.by_ rfl rfl (known_term (by simp [nameTerms])) subject known
  have told : ∀ localName value, Ns.t Ns.tar localName ∈ nameTerms → Told (effect data tx) node localName value →
      Told data node localName value := by
    intro localName value term told
    cases value with
    | some value => exact (stands _ rfl (known_term term)).1 told
    | none => exact fun object held => told object ((stands _ rfl (known_term term)).2 held)
  refine ⟨told _ _ (by simp [nameTerms]) registered.by_, told _ _ (by simp [nameTerms]) registered.issuer,
    told _ _ (by simp [nameTerms]) registered.key, ?_⟩
  rw [isTombstoned, Bool.eq_false_iff]
  intro withdrawn
  obtain ⟨quad, held, said⟩ := Dataset.any_eq_true.1 withdrawn
  obtain ⟨subject, predicate, object⟩ := of_decide_eq_true said
  have kept := (stands quad subject (predicate ▸ List.mem_append_right _ (List.mem_singleton.2 rfl))).2 held
  have still : isTombstoned (effect data tx) node = true := Dataset.any_eq_true.2 ⟨quad, kept, said⟩
  rw [registered.live] at still
  cases still

end Written

end ToolArtifactRegistry.Domain.Deployment
