import ToolArtifactRegistry.Domain.Terms
import ToolArtifactRegistry.Laws.Specimen

/-! The vocabulary rule passes a write just when each term it names is held as its slot needs, and asking two stores
in turn is asking their union where neither speaks of the other's concepts. -/
namespace ToolArtifactRegistry.Laws

open Library.Rdf Library.Text Library.Orders Domain Domain.Vocabulary Domain.Terms

/-! What a store says of a term. -/

/-- An IRI is a concept in a graph. -/
def DeclaredIn (data : Dataset) (iri graph : String) : Prop :=
  ⟨.named iri, Ns.rdfType, .named (Ns.t Ns.skos "Concept"), graph⟩ ∈ data

def Declared (data : Dataset) (iri : String) : Prop := ∃ graph, DeclaredIn data iri graph

/-- A class is asserted on it in some graph. -/
def CarriesClass (data : Dataset) (iri class_ : String) : Prop := ∃ graph, (⟨.named iri, Ns.rdfType, .named class_, graph⟩ : Quad) ∈ data

def PeerGraph (graph : String) : Prop := startsWith graph Ns.gPeerPrefix = true

/-- A concept with the class its slot needs, or a type that peers alone declare. -/
def FitsSlot (data : Dataset) (slot : Slot) (iri : String) : Prop :=
  Declared data iri ∧ (CarriesClass data iri slot.class_ ∨ (slot = .type ∧ ∀ graph, DeclaredIn data iri graph → PeerGraph graph))

/-- The reference store answers for its concepts, the record store for the others. -/
def Accepted (reference data : Dataset) (slot : Slot) (iri : String) : Prop :=
  FitsSlot reference slot iri ∨ (¬Declared reference iri ∧ FitsSlot data slot iri)

/-- A write names a term in a slot; a type is named by an artifact that conforms to it. -/
def NamesTerm (quads : List Quad) (slot : Slot) (iri : String) : Prop :=
  ∃ quad ∈ quads, ∃ field, slotOf quad.predicate = some (slot, field) ∧ quad.object = .named iri ∧
    (quad.predicate = conformsTo → ∃ typing ∈ quads, typing.subject = quad.subject ∧ typing.predicate = Ns.rdfType ∧
      typing.object = .named Artifact.typeDataset)

section Gathering

/-- What a tally says of the rows it was made of. -/
structure TellsRows (given : List Row) (key : String) (tally : Tally) : Prop where
  about : ∃ row ∈ given, row.t = key
  nodup : tally.classes.Nodup
  classes : ∀ class_, class_ ∈ tally.classes ↔
    class_ ∈ conceptClasses ∧ ∃ row ∈ given, row.t = key ∧ row.class_.bind named = some class_
  peers : tally.onlyPeer = true ↔ ∀ row ∈ given, row.t = key → PeerGraph row.g

/-- What is known of a key: nothing, and no row is about it, or what its rows say. -/
def KnowsKey (given : List Row) (known : String → Option Tally) (key : String) : Prop :=
  (known key = none ∧ ∀ row ∈ given, row.t ≠ key) ∨ ∃ tally, known key = some tally ∧ TellsRows given key tally

theorem add_classes (tally : Tally) (row : Row) (class_ : String) :
    class_ ∈ (tally.add row).classes ↔
      class_ ∈ tally.classes ∨ (class_ ∈ conceptClasses ∧ row.class_.bind named = some class_) := by
  unfold Tally.add
  dsimp only
  cases read : row.class_.bind named with
  | none => simp
  | some other =>
    dsimp only
    split
    · rename_i fresh
      simp only [List.mem_append, List.mem_singleton, Option.some.injEq]
      constructor
      · rintro (there | rfl)
        · exact Or.inl there
        · exact Or.inr ⟨fresh.1, rfl⟩
      · rintro (there | ⟨_, rfl⟩)
        · exact Or.inl there
        · exact Or.inr rfl
    · rename_i stale
      simp only [Option.some.injEq]
      constructor
      · exact Or.inl
      · rintro (there | ⟨concept, rfl⟩)
        · exact there
        · by_contra missing
          exact stale ⟨concept, missing⟩

theorem add_nodup {tally : Tally} (nodup : tally.classes.Nodup) (row : Row) : (tally.add row).classes.Nodup := by
  unfold Tally.add
  dsimp only
  split
  · split
    · rename_i fresh
      exact nodup.append (List.nodup_singleton _) (by simpa using fresh.2)
    · exact nodup
  · exact nodup

/-- One more row about a key. -/
theorem add_tells {given : List Row} {tally : Tally} {row : Row}
    (tells : (tally = {} ∧ ∀ other ∈ given, other.t ≠ row.t) ∨ TellsRows given row.t tally) :
    TellsRows (given ++ [row]) row.t (tally.add row) := by
  have before : tally.classes.Nodup ∧ (∀ class_, class_ ∈ tally.classes ↔
      class_ ∈ conceptClasses ∧ ∃ other ∈ given, other.t = row.t ∧ other.class_.bind named = some class_) ∧
      (tally.onlyPeer = true ↔ ∀ other ∈ given, other.t = row.t → PeerGraph other.g) := by
    rcases tells with ⟨rfl, none_⟩ | tells
    · refine ⟨List.nodup_nil, fun class_ => ?_, ?_⟩
      · constructor
        · intro mem
          cases mem
        · rintro ⟨_, other, mem, same, _⟩
          exact absurd same (none_ other mem)
      · exact ⟨fun _ other mem same => absurd same (none_ other mem), fun _ => rfl⟩
    · exact ⟨tells.nodup, tells.classes, tells.peers⟩
  obtain ⟨nodup, classes, peers⟩ := before
  refine ⟨⟨row, List.mem_append_right _ List.mem_cons_self, rfl⟩, add_nodup nodup row, fun class_ => ?_, ?_⟩
  · rw [add_classes, classes]
    simp only [List.mem_append, List.mem_singleton, or_and_right, exists_or, exists_eq_left, true_and]
    rw [← and_or_left]
  · show (tally.onlyPeer && startsWith row.g Ns.gPeerPrefix) = true ↔ _
    rw [Bool.and_eq_true, peers]
    simp only [List.mem_append, List.mem_singleton, or_imp, forall_and, forall_eq, forall_const]
    rfl

theorem TellsRows.other {given : List Row} {key : String} {tally : Tally} (tells : TellsRows given key tally) {row : Row}
    (apart : row.t ≠ key) : TellsRows (given ++ [row]) key tally := by
  have mem (other : Row) (here : other.t = key) : other ∈ given ++ [row] ↔ other ∈ given := by
    rw [List.mem_append, List.mem_singleton, or_iff_left]
    rintro rfl
    exact apart here
  refine ⟨?_, tells.nodup, fun class_ => ?_, ?_⟩
  · obtain ⟨other, there, same⟩ := tells.about
    exact ⟨other, List.mem_append_left _ there, same⟩
  · rw [tells.classes]
    apply and_congr_right
    intro _
    apply exists_congr
    intro other
    constructor
    · exact fun ⟨there, here, read⟩ => ⟨(mem other here).2 there, here, read⟩
    · exact fun ⟨there, here, read⟩ => ⟨(mem other here).1 there, here, read⟩
  · rw [tells.peers]
    exact ⟨fun all other there here => all other ((mem other here).1 there) here,
      fun all other there here => all other ((mem other here).2 there) here⟩

theorem gather_knows (given : List Row) (key : String) : KnowsKey given (given.foldl gather (fun _ => none)) key := by
  induction given using List.reverseRecOn with
  | nil => exact Or.inl ⟨rfl, fun _ mem => by cases mem⟩
  | append_singleton given row ih =>
    rw [List.foldl_append, List.foldl_cons, List.foldl_nil]
    by_cases here : key = row.t
    · subst here
      right
      refine ⟨_, if_pos rfl, add_tells ?_⟩
      rcases ih with ⟨none_, about⟩ | ⟨tally, found, tells⟩
      · rw [none_]
        exact Or.inl ⟨rfl, about⟩
      · rw [found]
        exact Or.inr tells
    · have same : gather (given.foldl gather (fun _ => none)) row key = given.foldl gather (fun _ => none) key := if_neg here
      unfold KnowsKey
      rw [same]
      rcases ih with ⟨none_, about⟩ | ⟨tally, found, tells⟩
      · left
        refine ⟨none_, fun other mem => ?_⟩
        rcases List.mem_append.1 mem with earlier | last
        · exact about other earlier
        · rw [List.mem_singleton.1 last]
          exact fun equal => here equal.symm
      · right
        exact ⟨tally, found, tells.other (fun same => here same.symm)⟩

theorem mem_declaring {data : Dataset} {iri graph : String} : graph ∈ declaring data iri ↔ DeclaredIn data iri graph := by
  unfold declaring DeclaredIn
  simp only [List.mem_map, Dataset.mem_matching, decide_eq_true_eq]
  constructor
  · rintro ⟨⟨subject, predicate, object, graph⟩, ⟨mem, rfl, rfl, rfl⟩, rfl⟩
    exact mem
  · exact fun mem => ⟨_, ⟨mem, rfl, rfl, rfl⟩, rfl⟩

theorem mem_classesOf {data : Dataset} {iri class_ : String} (ours_ : startsWith class_ Ns.tar = true) :
    .named class_ ∈ classesOf data iri ↔ CarriesClass data iri class_ := by
  unfold classesOf CarriesClass
  simp only [List.mem_filter, List.mem_map, Dataset.mem_matching, decide_eq_true_eq]
  constructor
  · rintro ⟨⟨⟨subject, predicate, object, graph⟩, ⟨mem, rfl, rfl⟩, rfl⟩, _⟩
    exact ⟨graph, mem⟩
  · rintro ⟨graph, mem⟩
    exact ⟨⟨_, ⟨mem, rfl, rfl⟩, rfl⟩, ours_⟩

theorem mem_rows {data : Dataset} {iris : List String} {row : Row} :
    row ∈ rows data iris ↔ row.t ∈ iris ∧ DeclaredIn data row.t row.g ∧
      ((classesOf data row.t = [] ∧ row.class_ = none) ∨ ∃ class_ ∈ classesOf data row.t, row.class_ = some class_) := by
  unfold rows
  rw [List.mem_eraseDups]
  simp only [List.mem_flatMap, mem_declaring]
  constructor
  · rintro ⟨t, there, g, declared, mem⟩
    split at mem
    · rename_i empty
      rw [List.mem_singleton.1 mem]
      exact ⟨there, declared, Or.inl ⟨empty, rfl⟩⟩
    · obtain ⟨class_, held, rfl⟩ := List.mem_map.1 mem
      exact ⟨there, declared, Or.inr ⟨class_, held, rfl⟩⟩
  · obtain ⟨t, g, class_⟩ := row
    rintro ⟨there, declared, ⟨empty, rfl⟩ | ⟨class_, held, rfl⟩⟩
    · exact ⟨t, there, g, declared, by simp [empty]⟩
    · refine ⟨t, there, g, declared, ?_⟩
      rw [if_neg (fun empty => by rw [empty] at held; cases held)]
      exact List.mem_map_of_mem held

/-- What the lookup says of an IRI in one store. -/
structure Describes (data : Dataset) (iri : String) (held : Vocabulary.Held) : Prop where
  sorted : held.classes.Pairwise (· ≤ ·)
  nodup : held.classes.Nodup
  classes : ∀ class_, class_ ∈ held.classes ↔ class_ ∈ conceptClasses ∧ CarriesClass data iri class_
  peers : held.fromPeer = true ↔ ∀ graph, DeclaredIn data iri graph → PeerGraph graph

theorem concept_ours {class_ : String} (concept : class_ ∈ conceptClasses) : startsWith class_ Ns.tar = true := by
  have each : ∀ class_ ∈ conceptClasses, startsWith class_ Ns.tar = true := by decide
  exact each class_ concept

/-- Each graph that declares an IRI that was asked for has a row. -/
theorem row_of_declared {data : Dataset} {iris : List String} {iri graph : String} (asked : iri ∈ iris)
    (declared : DeclaredIn data iri graph) : ∃ row ∈ rows data iris, row.t = iri ∧ row.g = graph := by
  cases held : classesOf data iri with
  | nil => exact ⟨⟨iri, graph, none⟩, mem_rows.2 ⟨asked, declared, Or.inl ⟨held, rfl⟩⟩, rfl, rfl⟩
  | cons class_ rest =>
    refine ⟨⟨iri, graph, some class_⟩, mem_rows.2 ⟨asked, declared, Or.inr ⟨class_, ?_, rfl⟩⟩, rfl, rfl⟩
    show class_ ∈ classesOf data iri
    rw [held]
    exact List.mem_cons_self

/-- The rows about an IRI tell what the store says of it. -/
theorem tells_describes {data : Dataset} {iris : List String} {order : Order Row} {key : String} {tally : Tally}
    (tells : TellsRows (order.arrange (rows data iris)) key tally) :
    (key ∈ iris ∧ Declared data key) ∧ Describes data key ⟨tally.classes.mergeSort, tally.onlyPeer⟩ := by
  obtain ⟨row, mem, here⟩ := tells.about
  obtain ⟨asked, declared, _⟩ := mem_rows.1 (Order.mem_arrange.1 mem)
  rw [here] at asked declared
  refine ⟨⟨asked, row.g, declared⟩, ?_, ?_, fun class_ => ?_, ?_⟩
  · have sorted : (tally.classes.mergeSort (fun one other => decide (one ≤ other))).Pairwise (fun one other => decide (one ≤ other) = true) := by
      apply List.pairwise_mergeSort
      · exact fun one two three first second => decide_eq_true (le_trans (of_decide_eq_true first) (of_decide_eq_true second))
      · intro one other
        simpa using le_total one other
    exact sorted.imp (fun le => of_decide_eq_true le)
  · exact (List.mergeSort_perm _ _).nodup_iff.2 tells.nodup
  · rw [List.mem_mergeSort, tells.classes]
    apply and_congr_right
    intro concept
    have ours_ := concept_ours concept
    rw [← mem_classesOf ours_]
    constructor
    · rintro ⟨other, there, same, read⟩
      obtain ⟨_, _, ⟨_, none_⟩ | ⟨value, held, some_⟩⟩ := mem_rows.1 (Order.mem_arrange.1 there)
      · rw [none_] at read
        cases read
      · rw [some_] at read
        cases value with
        | named iri =>
          cases read
          rw [← same]
          exact held
        | blank | literal => cases read
    · intro held
      have there : (⟨key, row.g, some (.named class_)⟩ : Row) ∈ rows data iris :=
        mem_rows.2 ⟨asked, declared, Or.inr ⟨_, held, rfl⟩⟩
      exact ⟨_, Order.mem_arrange.2 there, rfl, rfl⟩
  · rw [tells.peers]
    constructor
    · intro all graph declared
      obtain ⟨other, there, same, at_⟩ := row_of_declared asked declared
      rw [← at_]
      exact all other (Order.mem_arrange.2 there) same
    · intro all other there same
      obtain ⟨_, declared, _⟩ := mem_rows.1 (Order.mem_arrange.1 there)
      rw [same] at declared
      exact all _ declared

/-- A store that is asked about readable IRIs answers for its concepts among them, in whatever order it answers. -/
theorem heldIn_describes {platform : Platform} (order : Order Row) (data : Dataset) {iris : List String}
    (readable : ∀ iri ∈ iris, platform.validIri iri = true) :
    ∃ known, Terms.heldIn platform order data iris = some known ∧ ∀ key,
      (known key = none ∧ ¬(key ∈ iris ∧ Declared data key)) ∨
        ∃ held, known key = some held ∧ (key ∈ iris ∧ Declared data key) ∧ Describes data key held := by
  refine ⟨_, if_pos (List.all_eq_true.2 readable), fun key => ?_⟩
  rcases gather_knows (order.arrange (rows data iris)) key with ⟨none_, about⟩ | ⟨tally, found, tells⟩
  · left
    refine ⟨by rw [none_]; rfl, ?_⟩
    rintro ⟨asked, graph, declared⟩
    obtain ⟨row, mem, same, _⟩ := row_of_declared asked declared
    exact about row (Order.mem_arrange.2 mem) same
  · right
    exact ⟨_, by rw [found]; rfl, tells_describes tells⟩

/-- What a store says of an IRI fixes the answer. -/
theorem describes_unique {one other : Dataset} {iri : String} {first second : Vocabulary.Held} (left : Describes one iri first)
    (right : Describes other iri second) (classes : ∀ class_ ∈ conceptClasses, CarriesClass one iri class_ ↔ CarriesClass other iri class_)
    (graphs : ∀ graph, DeclaredIn one iri graph ↔ DeclaredIn other iri graph) : first = second := by
  have perm : first.classes.Perm second.classes := by
    apply (List.perm_ext_iff_of_nodup left.nodup right.nodup).2
    intro class_
    rw [left.classes, right.classes]
    exact and_congr_right (classes class_)
  have same : first.classes = second.classes :=
    perm.eq_of_pairwise (fun _ _ _ _ le ge => le_antisymm le ge) left.sorted right.sorted
  have peers : first.fromPeer = second.fromPeer := by
    rw [Bool.eq_iff_iff, left.peers, right.peers]
    simp only [graphs]
  cases first
  cases second
  cases same
  cases peers
  rfl

end Gathering

section Judging

theorem usable_slot_iff {data : Dataset} {iri : String} {held : Vocabulary.Held} (describes : Describes data iri held) (declared : Declared data iri)
    (slot : Slot) : held.usableAs slot = true ↔ FitsSlot data slot iri := by
  unfold Vocabulary.Held.usableAs FitsSlot
  have concept : slot.class_ ∈ conceptClasses := by cases slot <;> decide
  rw [Bool.or_eq_true, Bool.and_eq_true, decide_eq_true_eq, decide_eq_true_eq, describes.classes, describes.peers]
  simp [declared, concept]

variable {platform : Platform} {reference data : Dataset}

/-- What two stores together say of an IRI: the reference store of its concepts, the record store of the others. -/
def HeldBetween (reference data : Dataset) (iri : String) (answer : Option Vocabulary.Held) : Prop :=
  (answer = none ∧ ¬Declared reference iri ∧ ¬Declared data iri) ∨
    ∃ held, answer = some held ∧ ((Declared reference iri ∧ Describes reference iri held) ∨
      (¬Declared reference iri ∧ Declared data iri ∧ Describes data iri held))

theorem held_answers (order : Order Row) (reference data : Dataset) {iris : List String}
    (readable : ∀ iri ∈ iris, platform.validIri iri = true) :
    ∃ known, Terms.held platform order reference data iris = some known ∧ ∀ key,
      (key ∈ iris → HeldBetween reference data key (known key)) ∧ (key ∉ iris → known key = none) := by
  unfold Terms.held
  by_cases none_ : iris = []
  · subst none_
    exact ⟨_, if_pos rfl, fun key => ⟨fun mem => (by cases mem), fun _ => rfl⟩⟩
  · rw [if_neg none_]
    obtain ⟨out, asked, first⟩ := heldIn_describes order reference readable
    rw [asked]
    dsimp only
    have fewer : ∀ iri ∈ iris.filter (fun iri => (out iri).isNone), platform.validIri iri = true :=
      fun iri mem => readable iri (List.mem_filter.1 mem).1
    obtain ⟨more, again, second⟩ := heldIn_describes order data fewer
    by_cases all : iris.filter (fun iri => (out iri).isNone) = []
    · refine ⟨out, if_pos all, fun key => ⟨fun mem => ?_, fun absent => ?_⟩⟩
      · rcases first key with ⟨missed, _⟩ | ⟨held, found, ⟨_, declared⟩, describes⟩
        · have there : key ∈ iris.filter (fun iri => (out iri).isNone) := List.mem_filter.2 ⟨mem, by rw [missed]; rfl⟩
          rw [all] at there
          cases there
        · exact Or.inr ⟨held, found, Or.inl ⟨declared, describes⟩⟩
      · rcases first key with ⟨missed, _⟩ | ⟨_, _, ⟨mem, _⟩, _⟩
        · exact missed
        · exact absurd mem absent
    · refine ⟨fun key => (more key).or (out key), by rw [if_neg all, again]; rfl, fun key => ⟨fun mem => ?_, fun absent => ?_⟩⟩
      all_goals dsimp only
      · rcases first key with ⟨missed, unknown⟩ | ⟨held, found, ⟨_, declared⟩, describes⟩
        · have notDeclared : ¬Declared reference key := fun declared => unknown ⟨mem, declared⟩
          have left : key ∈ iris.filter (fun iri => (out iri).isNone) := List.mem_filter.2 ⟨mem, by rw [missed]; rfl⟩
          rcases second key with ⟨missedToo, unknown⟩ | ⟨held, found, ⟨_, declared⟩, describes⟩
          · left
            exact ⟨by rw [missedToo, missed]; rfl, notDeclared, fun declared => unknown ⟨left, declared⟩⟩
          · right
            exact ⟨held, by rw [found]; rfl, Or.inr ⟨notDeclared, declared, describes⟩⟩
        · rcases second key with ⟨missedToo, _⟩ | ⟨_, _, ⟨there, _⟩, _⟩
          · right
            exact ⟨held, by rw [missedToo, found]; rfl, Or.inl ⟨declared, describes⟩⟩
          · have missed := (List.mem_filter.1 there).2
            rw [found] at missed
            cases missed
      · have missed : out key = none := by
          rcases first key with ⟨missed, _⟩ | ⟨_, _, ⟨mem, _⟩, _⟩
          · exact missed
          · exact absurd mem absent
        rcases second key with ⟨missedToo, _⟩ | ⟨_, _, ⟨there, _⟩, _⟩
        · rw [missedToo, missed]
          rfl
        · exact absurd (List.mem_filter.1 there).1 absent

theorem judge_none_iff {known : String → Option Vocabulary.Held} {term : VocabularyTerm} (answers : HeldBetween reference data term.iri (known term.iri)) :
    judge known term = none ↔ Accepted reference data term.slot term.iri := by
  unfold judge Accepted
  rcases answers with ⟨none_, first, second⟩ | ⟨held, found, ⟨declared, describes⟩ | ⟨notDeclared, declared, describes⟩⟩
  · rw [none_]
    constructor
    · intro same
      cases same
    · rintro (fits | ⟨_, fits⟩)
      · exact absurd fits.1 first
      · exact absurd fits.1 second
  · rw [found]
    dsimp only
    have usable := usable_slot_iff describes declared term.slot
    by_cases fits : FitsSlot reference term.slot term.iri
    · rw [if_pos (usable.2 fits)]
      exact ⟨fun _ => Or.inl fits, fun _ => rfl⟩
    · rw [if_neg (fun yes => fits (usable.1 yes))]
      exact ⟨fun same => (by cases same), fun either => either.elim (fun yes => absurd yes fits) (fun other => absurd declared other.1)⟩
  · rw [found]
    dsimp only
    have usable := usable_slot_iff describes declared term.slot
    by_cases fits : FitsSlot data term.slot term.iri
    · rw [if_pos (usable.2 fits)]
      exact ⟨fun _ => Or.inr ⟨notDeclared, fits⟩, fun _ => rfl⟩
    · rw [if_neg (fun yes => fits (usable.1 yes))]
      exact ⟨fun same => (by cases same), fun either => either.elim (fun yes => absurd yes.1 notDeclared) (fun other => absurd other.2 fits)⟩

/-- No verdict is given just when every term is accepted. -/
theorem verdicts_nil_iff (order : Order Row) {terms : List VocabularyTerm}
    (readable : ∀ term ∈ terms, platform.validIri term.iri = true) :
    verdicts platform order reference data terms = [] ↔ ∀ term ∈ terms, Accepted reference data term.slot term.iri := by
  unfold verdicts
  by_cases none_ : terms = []
  · subst none_
    simp
  · have each : ∀ iri ∈ terms.map VocabularyTerm.iri, platform.validIri iri = true := by
      intro iri mem
      obtain ⟨term, there, rfl⟩ := List.mem_map.1 mem
      exact readable term there
    obtain ⟨known, asked, answers⟩ := held_answers order reference data each
    rw [if_neg none_, asked]
    dsimp only
    rw [List.filterMap_eq_nil_iff]
    have each : ∀ term ∈ terms, (judge known term = none ↔ Accepted reference data term.slot term.iri) :=
      fun term mem => judge_none_iff ((answers term.iri).1 (List.mem_map_of_mem mem))
    constructor
    · intro all term mem
      obtain ⟨index, at_⟩ := List.mem_iff_getElem?.1 mem
      have judged := all (term, index) (List.mk_mem_zipIdx_iff_getElem?.2 at_)
      rw [Option.map_eq_none_iff] at judged
      exact (each term mem).1 judged
    · rintro all ⟨term, index⟩ mem
      have there := List.mem_of_getElem? (List.mk_mem_zipIdx_iff_getElem?.1 mem)
      rw [(each term there).2 (all term there)]
      rfl

end Judging

section Naming

theorem nodeText_inj {one other : Node} (same : nodeText one = nodeText other) : one = other := by
  have first (iri : String) : (nodeText (.named iri)).toList.head? = some '<' := by simp [nodeText, String.toList_append]
  have second (label : String) : (nodeText (.blank label)).toList.head? = some '_' := by simp [nodeText, String.toList_append]
  have heads := congrArg (fun text => text.toList.head?) same
  cases one with
  | named iri =>
    cases other with
    | named iri' => simpa [nodeText] using same
    | blank label =>
      simp only [first, second] at heads
      exact absurd (Option.some.inj heads) (by decide)
  | blank label =>
    cases other with
    | named iri =>
      simp only [first, second] at heads
      exact absurd (Option.some.inj heads) (by decide)
    | blank label' => simpa [nodeText] using same

theorem mem_artifacts {quads : List Quad} {node : Node} : nodeText node ∈ artifacts quads ↔
    ∃ typing ∈ quads, typing.subject = node ∧ typing.predicate = Ns.rdfType ∧ typing.object = .named Artifact.typeDataset := by
  have object (term : Term) : named term = some Artifact.typeDataset ↔ term = .named Artifact.typeDataset := by
    cases term <;> simp [named, Term.node?, Node.iri?]
  unfold artifacts
  simp only [List.mem_map, List.mem_filter, decide_eq_true_eq, object]
  constructor
  · rintro ⟨typing, ⟨mem, predicate, value⟩, same⟩
    exact ⟨typing, mem, nodeText_inj same, predicate, value⟩
  · rintro ⟨typing, mem, rfl, predicate, value⟩
    exact ⟨typing, ⟨mem, predicate, value⟩, rfl⟩

theorem termOf_iff {quads : List Quad} {quad : Quad} {slot : Slot} {iri : String} :
    (∃ term, termOf quads quad = some term ∧ term.iri = iri ∧ term.slot = slot) ↔
      ∃ field, slotOf quad.predicate = some (slot, field) ∧ quad.object = .named iri ∧
        (quad.predicate = conformsTo → nodeText quad.subject ∈ artifacts quads) := by
  unfold termOf
  cases at_ : slotOf quad.predicate with
  | none => simp
  | some place =>
    obtain ⟨slot', field⟩ := place
    cases object : quad.object with
    | named other =>
      have read : named (.named other) = some other := rfl
      rw [read]
      dsimp only
      by_cases free : quad.predicate = conformsTo ∧ nodeText quad.subject ∉ artifacts quads
      · rw [if_pos free]
        simp only [reduceCtorEq, false_and, exists_false, false_iff]
        rintro ⟨_, _, _, typed⟩
        exact free.2 (typed free.1)
      · rw [if_neg free]
        have typed : quad.predicate = conformsTo → nodeText quad.subject ∈ artifacts quads := by
          intro here
          by_contra missing
          exact free ⟨here, missing⟩
        simp only [Option.some.injEq, exists_eq_left', Prod.mk.injEq, Term.named.injEq]
        constructor
        · rintro ⟨rfl, rfl⟩
          exact ⟨field, ⟨rfl, rfl⟩, rfl, typed⟩
        · rintro ⟨_, ⟨rfl, _⟩, rfl, _⟩
          exact ⟨rfl, rfl⟩
    | blank | literal =>
      have read : named quad.object = none := by rw [object]; rfl
      rw [← object, read, object]
      simp

/-- Dropping repetitions loses no term. -/
theorem mem_dedupFrom (kept : VocabularyTerm) (rest : List VocabularyTerm) (slot : Slot) (iri : String) :
    (∃ term ∈ dedupFrom kept rest, term.iri = iri ∧ term.slot = slot) ↔ ∃ term ∈ kept :: rest, term.iri = iri ∧ term.slot = slot := by
  induction rest generalizing kept with
  | nil => rfl
  | cons next rest ih =>
    unfold dedupFrom
    split
    · rename_i same
      have equal := of_decide_eq_true same
      rw [ih]
      simp only [List.mem_cons, exists_eq_or_imp, equal.1, equal.2.1]
      tauto
    · simp only [List.mem_cons, exists_eq_or_imp, ih]

/-- The terms collected are those the write names. -/
theorem names_iff {quads : List Quad} {slot : Slot} {iri : String} :
    (∃ term ∈ termsIn quads, term.iri = iri ∧ term.slot = slot) ↔ NamesTerm quads slot iri := by
  have kept (terms : List VocabularyTerm) :
      (∃ term ∈ dedup terms, term.iri = iri ∧ term.slot = slot) ↔ ∃ term ∈ terms, term.iri = iri ∧ term.slot = slot := by
    cases terms with
    | nil => rfl
    | cons first rest => exact mem_dedupFrom first rest slot iri
  unfold termsIn NamesTerm
  rw [kept]
  simp only [List.mem_mergeSort, List.mem_filterMap, ← mem_artifacts]
  constructor
  · rintro ⟨term, ⟨quad, mem, found⟩, same⟩
    exact ⟨quad, mem, termOf_iff.1 ⟨term, found, same⟩⟩
  · rintro ⟨quad, mem, named⟩
    obtain ⟨term, found, same⟩ := termOf_iff.2 named
    exact ⟨term, ⟨quad, mem, found⟩, same⟩

end Naming

/-! The rule. -/

/-- Neither store speaks of a concept of the other: no IRI is a concept in both, and none is given a class where it is none. -/
def SpeakApart (reference data : Dataset) (iri : String) : Prop :=
  ¬(Declared reference iri ∧ Declared data iri) ∧
    (Declared reference iri → ∀ class_ ∈ conceptClasses, ¬CarriesClass data iri class_) ∧
    (Declared data iri → ∀ class_ ∈ conceptClasses, ¬CarriesClass reference iri class_)

def bothStores (reference data : Dataset) : Dataset := reference.extend data.quads

theorem declared_union {reference data : Dataset} {iri graph : String} :
    DeclaredIn (bothStores reference data) iri graph ↔ DeclaredIn reference iri graph ∨ DeclaredIn data iri graph := Dataset.mem_extend

theorem carries_union {reference data : Dataset} {iri class_ : String} :
    CarriesClass (bothStores reference data) iri class_ ↔ CarriesClass reference iri class_ ∨ CarriesClass data iri class_ := by
  unfold CarriesClass bothStores
  simp only [Dataset.mem_extend, exists_or]
  rfl

theorem held_union (platform : Platform) (order : Order Row) {reference data : Dataset} {iris : List String}
    (readable : ∀ iri ∈ iris, platform.validIri iri = true) (separate : ∀ iri ∈ iris, SpeakApart reference data iri) :
    Terms.held platform order reference data iris = Terms.heldIn platform order (bothStores reference data) iris := by
  obtain ⟨known, asked, answers⟩ := held_answers order reference data readable
  obtain ⟨whole, again, both⟩ := heldIn_describes order (bothStores reference data) readable
  rw [asked, again]
  congr 1
  funext key
  by_cases mem : key ∈ iris
  · obtain ⟨apart, first, second⟩ := separate key mem
    have either : Declared (bothStores reference data) key ↔ Declared reference key ∨ Declared data key := by
      unfold Declared
      simp only [declared_union, exists_or]
    rcases (answers key).1 mem with ⟨none_, noReference, noData⟩ | ⟨held, found, ⟨declared, describes⟩ | ⟨noReference, declared, describes⟩⟩
    · rcases both key with ⟨missed, _⟩ | ⟨_, _, ⟨_, declared⟩, _⟩
      · rw [none_, missed]
      · exact absurd (either.1 declared) (not_or.2 ⟨noReference, noData⟩)
    · rcases both key with ⟨_, unknown⟩ | ⟨other, there, _, describes'⟩
      · exact absurd ⟨mem, either.2 (Or.inl declared)⟩ unknown
      · rw [found, there]
        congr 1
        apply describes_unique describes describes'
        · intro class_ concept
          rw [carries_union, or_iff_left (first declared class_ concept)]
        · intro graph
          rw [declared_union, or_iff_left (fun there => apart ⟨declared, graph, there⟩)]
    · rcases both key with ⟨_, unknown⟩ | ⟨other, there, _, describes'⟩
      · exact absurd ⟨mem, either.2 (Or.inr declared)⟩ unknown
      · rw [found, there]
        congr 1
        apply describes_unique describes describes'
        · intro class_ concept
          rw [carries_union, or_iff_right (second declared class_ concept)]
        · intro graph
          rw [declared_union, or_iff_right (fun there => noReference ⟨graph, there⟩)]
  · rw [(answers key).2 mem]
    rcases both key with ⟨missed, _⟩ | ⟨_, _, ⟨there, _⟩, _⟩
    · exact missed.symm
    · exact absurd there mem

/-- A write passes just when every term it names is held as its slot needs, in the reference store or else in the record
store, and where the stores are separate the two together answer like one. -/
theorem terms_accepted (platform : Platform) (order : Order Row) (reference data : Dataset) (quads : List Quad)
    (readable : ∀ term ∈ termsIn quads, platform.validIri term.iri = true) :
    (verdicts platform order reference data (termsIn quads) = [] ↔
      ∀ slot iri, NamesTerm quads slot iri → Accepted reference data slot iri) ∧
    ∀ iris, (∀ iri ∈ iris, platform.validIri iri = true) → (∀ iri ∈ iris, SpeakApart reference data iri) →
      Terms.held platform order reference data iris = Terms.heldIn platform order (bothStores reference data) iris := by
  refine ⟨?_, fun iris readable separate => held_union platform order readable separate⟩
  rw [verdicts_nil_iff order readable]
  constructor
  · intro all slot iri names
    obtain ⟨term, mem, rfl, rfl⟩ := names_iff.2 names
    exact all term mem
  · intro all term mem
    exact all term.slot term.iri (names_iff.1 ⟨term, mem, rfl, rfl⟩)

/-- An artifact that conforms to a type. -/
def conforming : List Quad :=
  [⟨.named "https://one.example/data", Ns.rdfType, .named Artifact.typeDataset, Ns.gLocal⟩,
    ⟨.named "https://one.example/data", conformsTo, .named "https://one.example/type", Ns.gLocal⟩]

/-- A type that is a concept of the reference store. -/
def bundled : Dataset where
  quads := [⟨.named "https://one.example/type", Ns.rdfType, .named (Ns.t Ns.skos "Concept"), "urn:tar:bundle:one"⟩]
  nodup := by decide

/-- The record store gives it a class, and does not call it a concept. -/
def classed : Dataset where
  quads := [⟨.named "https://one.example/type", Ns.rdfType, .named classArtifactType, Ns.gLocal⟩]
  nodup := by decide

theorem classed_undeclared (iri : String) : ¬Declared classed iri := by
  rintro ⟨graph, mem⟩
  have object := congrArg Quad.object (List.mem_singleton.1 mem)
  have apart : (.named (Ns.t Ns.skos "Concept") : Term) ≠ .named classArtifactType := by decide
  exact apart object

theorem bundled_unclassed (iri : String) : ¬CarriesClass bundled iri classArtifactType := by
  rintro ⟨graph, mem⟩
  have object := congrArg Quad.object (List.mem_singleton.1 mem)
  have apart : (.named classArtifactType : Term) ≠ .named (Ns.t Ns.skos "Concept") := by decide
  exact apart object

theorem conforming_readable : ∀ term ∈ termsIn conforming, (Specimen.platform []).validIri term.iri = true := by
  intro term mem
  obtain ⟨quad, there, field, _, object, _⟩ := names_iff.1 ⟨term, mem, rfl, rfl⟩
  rcases List.mem_cons.1 there with rfl | there
  · rw [← Term.named.inj object]
    decide
  · rw [List.mem_singleton.1 there] at object
    rw [← Term.named.inj object]
    decide

/-- A concept of the reference store without the class of a type is no type, whatever the record store says. -/
theorem conforming_refused : verdicts (Specimen.platform []) Order.asStored bundled classed (termsIn conforming) ≠ [] := by
  intro passed
  have names : NamesTerm conforming .type "https://one.example/type" :=
    ⟨_, List.mem_cons_of_mem _ List.mem_cons_self, "conforms_to", by decide, rfl, fun _ => ⟨_, List.mem_cons_self, rfl, rfl, rfl⟩⟩
  have accepted := (terms_accepted (Specimen.platform []) Order.asStored bundled classed conforming conforming_readable).1.1 passed _ _ names
  rcases accepted with ⟨_, carries | ⟨_, peers⟩⟩ | ⟨_, declared, _⟩
  · exact bundled_unclassed _ carries
  · have peer := peers "urn:tar:bundle:one" (List.mem_singleton.2 rfl)
    exact absurd peer (by unfold PeerGraph; decide)
  · exact classed_undeclared _ declared

/-- No IRI is a concept in both stores, and yet their union answers otherwise than the two in turn. -/
theorem class_without_concept :
    (∀ iri, ¬(Declared bundled iri ∧ Declared classed iri)) ∧
    Terms.held (Specimen.platform []) Order.asStored bundled classed ["https://one.example/type"] ≠
      Terms.heldIn (Specimen.platform []) Order.asStored (bothStores bundled classed) ["https://one.example/type"] := by
  refine ⟨fun iri both => classed_undeclared iri both.2, fun same => ?_⟩
  have readable : ∀ iri ∈ ["https://one.example/type"], (Specimen.platform []).validIri iri = true := by decide
  obtain ⟨known, asked, answers⟩ := held_answers Order.asStored bundled classed readable
  obtain ⟨whole, again, both⟩ := heldIn_describes Order.asStored (bothStores bundled classed) readable
  rw [asked, again] at same
  have equal := congrFun (Option.some.inj same) "https://one.example/type"
  have declared : Declared bundled "https://one.example/type" := ⟨"urn:tar:bundle:one", List.mem_singleton.2 rfl⟩
  have carries : CarriesClass (bothStores bundled classed) "https://one.example/type" classArtifactType :=
    carries_union.2 (Or.inr ⟨Ns.gLocal, List.mem_singleton.2 rfl⟩)
  rcases (answers _).1 List.mem_cons_self with ⟨_, none_, _⟩ | ⟨held, found, ⟨_, describes⟩ | ⟨none_, _⟩⟩
  · exact none_ declared
  · rcases both "https://one.example/type" with ⟨missed, _⟩ | ⟨other, there, _, describes'⟩
    · rw [found, missed] at equal
      cases equal
    · rw [found, there] at equal
      cases equal
      have class_ := (describes'.classes classArtifactType).2 ⟨by decide, carries⟩
      exact bundled_unclassed _ ((describes.classes classArtifactType).1 class_).2
  · exact none_ declared

end ToolArtifactRegistry.Laws
