import ToolArtifactRegistry.Api.Listing
import ToolArtifactRegistry.Domain.Footprint

/-! Which artifacts the list holds when it is asked for a keyword, and which keywords an artifact has. -/
namespace ToolArtifactRegistry.Api.Finding

open Library.Rdf Library.Text Ids Model Store Rdf Build Domain Listing

/-- What a keyword asks for: a concept of the list, or a text as it stands. -/
inductive Wanted where
  | concept (iri : String)
  | freeText (text : String)
  deriving DecidableEq

section Listed

variable (platform : Platform) (base : String)

/-- The entry the filter finds for a keyword, by its last segment first. -/
def entryFor (k : String) : Option Keywords.Keyword :=
  (Keywords.lookup platform (lastSegment k)).or (Keywords.lookup platform k)

def wanted (k : String) : Wanted :=
  match entryFor platform k with
  | some entry => .concept (Keywords.iri base entry.slug)
  | none => .freeText k

/-- The pattern it is written as. -/
def Wanted.clause : Wanted → String
  | .concept iri => "\n" ++ graph ("?s dcat:theme " ++ angle iri)
  | .freeText text => "\n" ++ graph ("?s dcat:keyword " ++ inQuotes (escapeLiteral text))

theorem keywordClause_eq (k : String) : keywordClause platform base k = (wanted platform base k).clause := by
  unfold keywordClause wanted entryFor
  cases (Keywords.lookup platform (lastSegment k)).or (Keywords.lookup platform k) <;> rfl

/-- The statement the pattern matches. -/
def Wanted.statement : Wanted → Statement
  | .concept iri => (Ns.t Ns.dcat "theme", .named iri)
  | .freeText text => (Ns.t Ns.dcat "keyword", .simple text)

def tombstone (iri graph : String) : Quad :=
  ⟨.named iri, Ns.t Ns.tar "tombstoned", .literal "true" (Ns.xsd ++ "boolean") none, graph⟩

/-- The rows of the list for one keyword: datasets about which the same graph holds the statement it asks for, and
which no graph calls tombstoned. -/
def Listed (k : String) (data : Dataset) (iri : String) : Prop :=
  ∃ graph, (⟨.named iri, Ns.rdfType, .named Artifact.typeDataset, graph⟩ : Quad) ∈ data ∧
    (⟨.named iri, (wanted platform base k).statement.1, (wanted platform base k).statement.2, graph⟩ : Quad) ∈ data ∧
    ∀ other, tombstone iri other ∉ data

end Listed

section Kept

variable (platform : Platform) (base : String)

/-- A keyword as it is kept: the label of its entry, or the text without the blanks around it. -/
def kept (raw : String) : String :=
  match Keywords.lookup platform (trim raw) with
  | some entry => entry.label
  | none => trim raw

theorem mem_addNew {values : List String} {value other : String} :
    other ∈ Keywords.addNew values value ↔ other ∈ values ∨ other = value := by
  unfold Keywords.addNew
  by_cases held : value ∈ values
  · rw [if_pos held]
    constructor
    · exact Or.inl
    · intro either
      rcases either with old | same
      · exact old
      · rw [same]
        exact held
  · rw [if_neg held, List.mem_append, List.mem_singleton]

theorem normaliseOne_blank {out : List String × List String} {raw : String} (blank : trim raw = "") :
    Keywords.normaliseOne platform base out raw = out := by
  unfold Keywords.normaliseOne
  dsimp only
  rw [if_pos blank]

theorem normaliseOne_listed {out : List String × List String} {raw : String} {entry : Keywords.Keyword}
    (some_ : trim raw ≠ "") (found : Keywords.lookup platform (trim raw) = some entry) :
    Keywords.normaliseOne platform base out raw =
      (Keywords.addNew out.1 (kept platform raw), Keywords.addNew out.2 (Keywords.iri base entry.slug)) := by
  unfold Keywords.normaliseOne kept
  dsimp only
  rw [if_neg some_, found]

theorem normaliseOne_free {out : List String × List String} {raw : String}
    (some_ : trim raw ≠ "") (missed : Keywords.lookup platform (trim raw) = none) :
    Keywords.normaliseOne platform base out raw = (Keywords.addNew out.1 (kept platform raw), out.2) := by
  unfold Keywords.normaliseOne kept
  dsimp only
  rw [if_neg some_, missed]

theorem mem_normalise_from {given : List String} {labels themes : List String} {text : String} :
    (text ∈ (given.foldl (Keywords.normaliseOne platform base) (labels, themes)).1 ↔
      text ∈ labels ∨ ∃ raw ∈ given, trim raw ≠ "" ∧ text = kept platform raw) ∧
    (text ∈ (given.foldl (Keywords.normaliseOne platform base) (labels, themes)).2 ↔
      text ∈ themes ∨ ∃ raw ∈ given, trim raw ≠ "" ∧ ∃ entry,
        Keywords.lookup platform (trim raw) = some entry ∧ text = Keywords.iri base entry.slug) := by
  induction given generalizing labels themes with
  | nil => simp
  | cons raw rest ih =>
    rw [List.foldl_cons]
    by_cases blank : trim raw = ""
    · rw [normaliseOne_blank platform base blank, ih.1, ih.2]
      simp [blank]
    · cases found : Keywords.lookup platform (trim raw) with
      | none =>
        rw [normaliseOne_free platform base blank found, ih.1, ih.2, mem_addNew]
        simp [blank, found, or_assoc]
      | some entry =>
        rw [normaliseOne_listed platform base blank found, ih.1, ih.2, mem_addNew, mem_addNew]
        simp [blank, found, or_assoc]

theorem mem_labels {given : List String} {text : String} : text ∈ (Keywords.normalise platform base given).1 ↔
    ∃ raw ∈ given, trim raw ≠ "" ∧ text = kept platform raw := by
  have spec := (@mem_normalise_from platform base given [] [] text).1
  rwa [List.mem_nil_iff, false_or] at spec

theorem mem_themes {given : List String} {text : String} : text ∈ (Keywords.normalise platform base given).2 ↔
    ∃ raw ∈ given, trim raw ≠ "" ∧ ∃ entry,
      Keywords.lookup platform (trim raw) = some entry ∧ text = Keywords.iri base entry.slug := by
  have spec := (@mem_normalise_from platform base given [] [] text).2
  rwa [List.mem_nil_iff, false_or] at spec

theorem lookup_mem {text : String} {entry : Keywords.Keyword} (found : Keywords.lookup platform text = some entry) :
    entry ∈ Keywords.keywords := by
  unfold Keywords.lookup at found
  dsimp only at found
  split at found
  · cases found
  · exact List.mem_of_find?_eq_some found

theorem label_plain : ∀ entry ∈ Keywords.keywords, entry.label ≠ "" ∧ trim entry.label = entry.label := by
  decide

theorem slug_inj {entry other : Keywords.Keyword} (left : entry ∈ Keywords.keywords) (right : other ∈ Keywords.keywords)
    (same : entry.slug = other.slug) : entry = other := by
  have apart : (Keywords.keywords.map Keywords.Keyword.slug).Nodup := by decide
  exact List.inj_on_of_nodup_map apart left right same

theorem iri_inj {slug other : String} (same : Keywords.iri base slug = Keywords.iri base other) : slug = other := by
  unfold Keywords.iri at same
  have chars := congrArg String.toList same
  simp only [String.toList_append] at chars
  exact String.toList_inj.mp (List.append_cancel_left chars)

theorem kept_ne_empty {raw : String} (some_ : trim raw ≠ "") : kept platform raw ≠ "" := by
  unfold kept
  split
  · case _ entry found => exact (label_plain entry (lookup_mem platform found)).1
  · exact some_

end Kept

section Written

variable {platform : Platform} {base iri actor : String} {draw : Draw} {input : ArtifactIn} {runIri : Option String}

/-- What a link says when there is something to link to. -/
theorem mem_link_iff {ns localName target : String} {term : Term} (some_ : target ≠ "") :
    (Ns.t ns localName, term) ∈ link platform ns localName target ↔
      term = if platform.validIri target = true then .named target else .simple target := by
  unfold link
  rw [if_neg some_]
  by_cases valid : platform.validIri target = true
  · simp [valid]
  · simp [valid]

/-- Only two parts of what is said of an artifact are about its keywords. -/
theorem mem_keywordParts {statement : Statement} (about : statement.1 ∈ [Ns.t Ns.dcat "keyword", Ns.t Ns.dcat "theme"]) :
    statement ∈ Artifact.artifactStatements platform base iri draw input actor runIri ↔
      statement ∈ texts Ns.dcat "keyword" (Keywords.normalise platform base input.keywords).1 ∨
        statement ∈ links platform Ns.dcat "theme" (Keywords.normalise platform base input.keywords).2 := by
  have silent {vocabulary : List String} {statements : List Statement} (speaks : Speaks vocabulary statements)
      (apart : ∀ predicate ∈ vocabulary, predicate ∉ [Ns.t Ns.dcat "keyword", Ns.t Ns.dcat "theme"]) :
      statement ∉ statements := fun mem => apart _ (speaks statement mem) about
  have elsewhere {other : String} {statements : List Statement} (only : Only other statements)
      (apart : other ∉ [Ns.t Ns.dcat "keyword", Ns.t Ns.dcat "theme"]) : statement ∉ statements := by
    intro mem
    rw [only statement mem] at about
    exact apart about
  have creators := silent (Footprint.agentLinks_speaks platform Ns.dct "creator"
    (Artifact.agentList platform base (draw.site 4) input.creators)) (by decide)
  have contributors := silent (Footprint.agentLinks_speaks platform Ns.dct "contributor"
    (Artifact.agentList platform base (draw.site 5) input.contributors)) (by decide)
  have system := silent (Footprint.qualifiedLink_speaks platform iri Artifact.roleProducingSystem
    (Artifact.system platform base draw input)) (by decide)
  have user := silent (Footprint.qualifiedLink_speaks platform iri Artifact.roleProducingUser
    (Artifact.user platform base draw input)) (by decide)
  have stamp := silent (Footprint.stamp_speaks platform draw actor input.modified) (by decide)
  have distributions : statement ∉ (Artifact.mintedDistributions base (draw.site 7) input.distributions).flatMap
      (fun entry => link platform Ns.dcat "distribution" entry.1) :=
    elsewhere (fun other mem => by
      obtain ⟨entry, _, said⟩ := List.mem_flatMap.mp mem
      exact only_link platform Ns.dcat "distribution" entry.1 other said) (by decide)
  unfold Artifact.artifactStatements
  simp only [List.mem_append, creators, contributors, system, user, stamp, distributions,
    elsewhere (only_a Artifact.typeDataset) (by decide), elsewhere (only_a Artifact.typeEntity) (by decide),
    elsewhere (only_optText Ns.dct "title" _) (by decide), elsewhere (only_optText Ns.dct "description" _) (by decide),
    elsewhere (only_optLink platform Ns.dct "conformsTo" _) (by decide),
    elsewhere (only_optLink platform Ns.dct "license" _) (by decide),
    elsewhere (only_datetime platform Ns.dct "issued" _) (by decide),
    elsewhere (only_links platform Ns.prov "wasDerivedFrom" _) (by decide),
    elsewhere (only_optLink platform Ns.prov "wasRevisionOf" _) (by decide),
    elsewhere (only_optText Ns.dct "identifier" _) (by decide),
    elsewhere (only_optLink platform Ns.prov "wasGeneratedBy" _) (by decide),
    elsewhere (only_link platform Ns.dct "isVersionOf" _) (by decide),
    elsewhere (only_optLink platform Ns.dct "publisher" _) (by decide),
    elsewhere (only_optLink platform Ns.codemeta "maintainer" _) (by decide),
    elsewhere (only_optText Ns.dcat "version" _) (by decide),
    elsewhere (only_optLink platform Ns.dcat "landingPage" _) (by decide),
    elsewhere (only_optLink platform Ns.foaf "page" _) (by decide),
    elsewhere (only_optLink platform Ns.dct "source" _) (by decide),
    elsewhere (only_texts Ns.dct "language" _) (by decide),
    elsewhere (only_optText Ns.dct "spatial" _) (by decide),
    elsewhere (only_optDatetime platform Ns.tar "temporalStart" _) (by decide),
    elsewhere (only_optDatetime platform Ns.tar "temporalEnd" _) (by decide), or_false, false_or]

theorem mem_texts {ns localName : String} {values : List String} {term : Term} :
    (Ns.t ns localName, term) ∈ texts ns localName values ↔ ∃ value ∈ values, value ≠ "" ∧ term = .simple value := by
  unfold texts
  rw [List.mem_flatMap]
  apply exists_congr
  intro value
  unfold text
  by_cases empty : value = ""
  · simp [empty]
  · simp [empty]

/-- The keywords a new artifact is written with. -/
theorem mem_keywordStatements {term : Term} :
    (Ns.t Ns.dcat "keyword", term) ∈ Artifact.artifactStatements platform base iri draw input actor runIri ↔
      ∃ raw ∈ input.keywords, trim raw ≠ "" ∧ term = .simple (kept platform raw) := by
  have themes : (Ns.t Ns.dcat "keyword", term) ∉ links platform Ns.dcat "theme"
      (Keywords.normalise platform base input.keywords).2 := fun mem =>
    absurd (only_links platform Ns.dcat "theme" _ _ mem) (by decide : Ns.t Ns.dcat "keyword" ≠ Ns.t Ns.dcat "theme")
  rw [mem_keywordParts List.mem_cons_self, or_iff_left themes, mem_texts]
  constructor
  · intro written
    obtain ⟨value, mem, _, same⟩ := written
    obtain ⟨raw, given, some_, label⟩ := (mem_labels platform base).mp mem
    exact ⟨raw, given, some_, by rw [same, label]⟩
  · intro written
    obtain ⟨raw, given, some_, same⟩ := written
    exact ⟨kept platform raw, (mem_labels platform base).mpr ⟨raw, given, some_, rfl⟩, kept_ne_empty platform some_, same⟩

theorem iri_ne_empty (slug : String) : Keywords.iri base slug ≠ "" := by
  intro empty
  have chars := congrArg String.toList empty
  unfold Keywords.iri at chars
  simp [String.toList_append] at chars

/-- The concepts a new artifact is written with. -/
theorem mem_themeStatements {term : Term} :
    (Ns.t Ns.dcat "theme", term) ∈ Artifact.artifactStatements platform base iri draw input actor runIri ↔
      ∃ raw ∈ input.keywords, trim raw ≠ "" ∧ ∃ entry, Keywords.lookup platform (trim raw) = some entry ∧
        term = if platform.validIri (Keywords.iri base entry.slug) = true then .named (Keywords.iri base entry.slug)
          else .simple (Keywords.iri base entry.slug) := by
  have keywords : (Ns.t Ns.dcat "theme", term) ∉ texts Ns.dcat "keyword"
      (Keywords.normalise platform base input.keywords).1 := fun mem =>
    absurd (only_texts Ns.dcat "keyword" _ _ mem) (by decide : Ns.t Ns.dcat "theme" ≠ Ns.t Ns.dcat "keyword")
  rw [mem_keywordParts (List.mem_cons_of_mem _ List.mem_cons_self), or_iff_right keywords]
  unfold links
  rw [List.mem_flatMap]
  constructor
  · intro written
    obtain ⟨theme, mem, said⟩ := written
    obtain ⟨raw, given, some_, entry, found, same⟩ := (mem_themes platform base).mp mem
    rw [same] at said
    exact ⟨raw, given, some_, entry, found, (mem_link_iff (iri_ne_empty entry.slug)).mp said⟩
  · intro written
    obtain ⟨raw, given, some_, entry, found, same⟩ := written
    exact ⟨_, (mem_themes platform base).mpr ⟨raw, given, some_, entry, found, rfl⟩,
      (mem_link_iff (iri_ne_empty entry.slug)).mpr same⟩

end Written

end ToolArtifactRegistry.Api.Finding
