import ToolArtifactRegistry.Domain.Versions
import ToolArtifactRegistry.Laws.Specimen

/-! Two notions of the latest release: the first that is listed, by date and then by IRI and withdrawn ones left
out, and the one a deployment is compared with, by date or IRI whichever there is. -/
namespace ToolArtifactRegistry.Laws

open Library.Rdf Library.Text Library.Orders Ids Model Rdf Domain
open Domain.Software (releaseRows releaseFromProps newerOrSame listReleases)
open Domain.Instance (VersionRow allVersions aboutSoftware keyAtMost keyAtMost_total keyAtMost_trans labelTexts labelIn latestOf decorateIn decorateWith)

section Listing

variable {ctx : Ctx} {software : String}

theorem newer_total (left right : Release) : newerOrSame left right = true ∨ newerOrSame right left = true := by
  unfold newerOrSame
  by_cases same : left.datePublished.getD "" = right.datePublished.getD ""
  · simp only [same, if_true]
    exact charsLe_total _ _
  · simp only [same, Ne.symm same, if_false]
    exact charsLe_total _ _

theorem newer_trans (left middle right : Release) (first : newerOrSame left middle = true)
    (second : newerOrSame middle right = true) : newerOrSame left right = true := by
  unfold newerOrSame at first second ⊢
  by_cases one : left.datePublished.getD "" = middle.datePublished.getD ""
  · by_cases two : middle.datePublished.getD "" = right.datePublished.getD ""
    · simp only [one, two, if_true] at first second ⊢
      exact charsLe_trans second first
    · simp only [one, two, if_true, if_false] at first second ⊢
      exact second
  · by_cases two : middle.datePublished.getD "" = right.datePublished.getD ""
    · simp only [← two, one, if_true, if_false] at first second ⊢
      exact first
    · simp only [one, two, if_false] at first second
      have below : le (right.datePublished.getD "") (left.datePublished.getD "") = true := charsLe_trans second first
      have apart : ¬left.datePublished.getD "" = right.datePublished.getD "" := by
        intro same
        rw [same] at first
        exact two (le_antisymm_text first second)
      simp only [apart, if_false, below]

theorem newer_antisymm {left right : Release} (first : newerOrSame left right = true) (second : newerOrSame right left = true) :
    left.iri = right.iri := by
  unfold newerOrSame at first second
  by_cases same : left.datePublished.getD "" = right.datePublished.getD ""
  · simp only [same, if_true] at first second
    exact le_antisymm_text second first
  · simp only [same, Ne.symm same, if_false] at first second
    exact absurd (le_antisymm_text second first) same

/-- A release as it is read from the store. -/
def releaseAt (ctx : Ctx) (iri : String) : Release := releaseFromProps ctx iri (propsOf ctx.data iri)

/-- A release of the software that is not withdrawn. -/
def Standing (data : Dataset) (software iri : String) : Prop :=
  .named iri ∈ releaseRows data software ∧ isTombstoned data (.named iri) = false

/-- A standing release that no other is newer than, by date and then by IRI. -/
def Newest (ctx : Ctx) (software iri : String) : Prop :=
  Standing ctx.data software iri ∧
    ∀ other, Standing ctx.data software other → newerOrSame (releaseAt ctx iri) (releaseAt ctx other) = true

theorem mem_listed {release : Release} :
    release ∈ listReleases ctx software ↔ ∃ iri, Standing ctx.data software iri ∧ release = releaseAt ctx iri := by
  unfold listReleases
  rw [List.mem_insertionSort, List.mem_map]
  simp only [List.mem_filterMap, List.mem_filter, Bool.not_eq_true']
  constructor
  · rintro ⟨iri, ⟨node, ⟨row, standing⟩, read⟩, rfl⟩
    cases node with
    | blank label => cases read
    | named other =>
      cases read
      exact ⟨iri, ⟨row, standing⟩, rfl⟩
  · rintro ⟨iri, ⟨row, standing⟩, rfl⟩
    exact ⟨iri, ⟨.named iri, ⟨row, standing⟩, rfl⟩, rfl⟩

theorem listed_sorted : (listReleases ctx software).Pairwise (fun left right => newerOrSame left right = true) := by
  have : Std.Total (fun left right : Release => newerOrSame left right = true) := ⟨newer_total⟩
  have : IsTrans Release (fun left right => newerOrSame left right = true) := ⟨newer_trans⟩
  exact List.pairwise_insertionSort _ _

/-- The first release that is listed is the newest one. -/
theorem head_listed {release : Release} :
    (listReleases ctx software).head? = some release ↔ ∃ iri, Newest ctx software iri ∧ release = releaseAt ctx iri := by
  constructor
  · intro head
    have sorted := @listed_sorted ctx software
    cases listed : listReleases ctx software with
    | nil => simp [listed] at head
    | cons first rest =>
      rw [listed, List.head?_cons, Option.some.injEq] at head
      subst head
      rw [listed, List.pairwise_cons] at sorted
      obtain ⟨iri, standing, rfl⟩ := mem_listed.1 (listed ▸ List.mem_cons_self : first ∈ listReleases ctx software)
      refine ⟨iri, ⟨standing, fun other there => ?_⟩, rfl⟩
      have held : releaseAt ctx other ∈ listReleases ctx software := mem_listed.2 ⟨other, there, rfl⟩
      rw [listed] at held
      rcases List.mem_cons.1 held with same | later
      · rw [same]
        exact (newer_total _ _).elim id id
      · exact sorted.1 _ later
  · rintro ⟨iri, ⟨standing, newest⟩, rfl⟩
    have held : releaseAt ctx iri ∈ listReleases ctx software := mem_listed.2 ⟨iri, standing, rfl⟩
    have sorted := @listed_sorted ctx software
    cases listed : listReleases ctx software with
    | nil =>
      rw [listed] at held
      cases held
    | cons first rest =>
      obtain ⟨other, there, same⟩ := mem_listed.1 (listed ▸ List.mem_cons_self : first ∈ listReleases ctx software)
      rw [listed] at held sorted
      have ahead : newerOrSame first (releaseAt ctx iri) = true := by
        rcases List.mem_cons.1 held with here | later
        · rw [← here]
          exact (newer_total _ _).elim id id
        · exact (List.pairwise_cons.1 sorted).1 _ later
      rw [same] at ahead
      have one : other = iri := newer_antisymm ahead (newest other there)
      rw [List.head?_cons, same, one]

theorem head_none : (listReleases ctx software).head? = none ↔ ∀ iri, ¬Standing ctx.data software iri := by
  rw [List.head?_eq_none_iff, List.eq_nil_iff_forall_not_mem]
  constructor
  · exact fun none_ iri standing => none_ _ (mem_listed.2 ⟨iri, standing, rfl⟩)
  · intro none_ release mem
    obtain ⟨iri, standing, _⟩ := mem_listed.1 mem
    exact none_ iri standing

end Listing

section Decorating

variable {ctx : Ctx} {software release : String} {inst : Instance}

/-- The rows the latest version of a software is gathered from. -/
def rowsFor (data : Dataset) (software : String) : List VersionRow := (allVersions data).filter (aboutSoftware software)

/-- A standing release has a row. -/
theorem standing_row {iri : String} (standing : Standing ctx.data software iri) : rowsFor ctx.data software ≠ [] := by
  obtain ⟨quad, held, rows⟩ := List.mem_flatMap.1 standing.1
  obtain ⟨version, beside_, subject⟩ := List.mem_map.1 rows
  obtain ⟨inData, pattern⟩ := Dataset.mem_matching.1 held
  obtain ⟨predicate, object⟩ := of_decide_eq_true pattern
  have stated : Props.termValue version.object ∈ Instance.beside ctx.data quad (Ns.t Ns.schema "softwareVersion") :=
    List.mem_map_of_mem (List.mem_map_of_mem beside_)
  have some_ : ∃ row ∈ Instance.rowsOf ctx.data quad, row.software = software := by
    unfold Instance.rowsOf
    rw [object, subject]
    dsimp only
    by_cases undated : (Instance.beside ctx.data quad (Ns.t Ns.schema "datePublished")).isEmpty
    · refine ⟨⟨software, iri, Props.termValue version.object, none⟩, List.mem_flatMap.2 ⟨_, stated, ?_⟩, rfl⟩
      rw [if_pos undated]
      exact List.mem_singleton.2 rfl
    · obtain ⟨date, dated⟩ := List.exists_mem_of_ne_nil _ (fun none_ => undated (by rw [none_]; rfl) :
        Instance.beside ctx.data quad (Ns.t Ns.schema "datePublished") ≠ [])
      refine ⟨⟨software, iri, Props.termValue version.object, some date⟩, List.mem_flatMap.2 ⟨_, stated, ?_⟩, rfl⟩
      rw [if_neg undated]
      exact List.mem_map.2 ⟨date, dated, rfl⟩
  obtain ⟨row, inRows, theirs⟩ := some_
  have among : row ∈ allVersions ctx.data :=
    List.mem_flatMap.2 ⟨quad, Dataset.mem_matching.2 ⟨inData, decide_eq_true predicate⟩, inRows⟩
  exact List.ne_nil_of_mem (List.mem_filter.2 ⟨among, decide_eq_true theirs⟩)

theorem label_none {labels : Order String} : labelIn labels ctx.data release = none ↔ labelTexts ctx.data release = [] := by
  rw [labelIn, List.head?_eq_none_iff]
  constructor
  · intro none_
    have perm := labels.perm (labelTexts ctx.data release)
    rw [none_] at perm
    exact perm.nil_eq.symm
  · intro none_
    rw [none_]
    exact (labels.perm []).eq_nil

theorem label_some {labels : Order String} {label : String} (found : labelIn labels ctx.data release = some label) :
    label ∈ labelTexts ctx.data release :=
  Order.mem_arrange.1 (List.mem_of_head? found)

/-- Any of the labels comes first in some order. -/
theorem label_first {label : String} (mem : label ∈ labelTexts ctx.data release) :
    labelIn (Order.leading (fun other => decide (other = label))) ctx.data release = some label := by
  change List.head? (List.filter _ _ ++ List.filter _ _) = _
  cases ahead : (labelTexts ctx.data release).filter (fun other => decide (other = label)) with
  | nil => exact absurd (decide_eq_true rfl) (List.filter_eq_nil_iff.1 ahead label mem)
  | cons first rest =>
    have same : first ∈ (labelTexts ctx.data release).filter (fun other => decide (other = label)) := ahead ▸ List.mem_cons_self
    rw [List.cons_append, List.head?_cons, of_decide_eq_true (List.mem_filter.1 same).2]

/-- A deployment that has a software and a release, as it is before it is decorated. -/
structure Decorable (inst : Instance) (software release : String) : Prop where
  software : inst.software = some software
  release : inst.release = some release
  unmarked : inst.latestVersion = none ∧ inst.outdated = false

/-- The version and the mark a deployment gets. -/
theorem decorated (deployed : Decorable inst software release) (rows : Order VersionRow) (labels : Order String) :
    ((decorateIn rows labels ctx.data inst).latestVersion, (decorateIn rows labels ctx.data inst).outdated) =
      match labelIn labels ctx.data release, greatest keyAtMost ((rows.arrange (allVersions ctx.data)).filter (aboutSoftware software)) with
      | some current, some row => (some row.version, decide (row.version ≠ current))
      | _, _ => (none, false) := by
  obtain ⟨theirs, runs, latest, mark⟩ := deployed
  unfold decorateIn decorateWith
  simp only [theirs, runs, Option.bind_some, Instance.latestOf_eq]
  cases labelIn labels ctx.data release with
  | none => simp [latest, mark]
  | some current =>
    cases best : greatest keyAtMost ((rows.arrange (allVersions ctx.data)).filter (aboutSoftware software)) with
    | none => simp [best, latest, mark]
    | some row => simp only [best, Option.map_some, VersionRow.entry]

/-- One notion of the latest release, in whatever order rows and labels are returned. -/
def OneLatest (ctx : Ctx) (inst : Instance) (software release : String) : Prop :=
  ∀ rows labels,
    (decorateIn rows labels ctx.data inst).latestVersion = (listReleases ctx software).head?.map Release.version ∧
    ((decorateIn rows labels ctx.data inst).outdated = true ↔
      ∃ first, (listReleases ctx software).head? = some first ∧ (releaseAt ctx release).version ≠ first.version)

/-- No row that none exceeds names another version than the newest release, and the labels of the release in use
agree with its version about being that one; where no release stands, nothing is compared. -/
def Agreeing (ctx : Ctx) (software release : String) : Prop :=
  (∃ first, Newest ctx software first ∧ labelTexts ctx.data release ≠ [] ∧
    (∀ label ∈ labelTexts ctx.data release,
      (label = (releaseAt ctx first).version ↔ (releaseAt ctx release).version = (releaseAt ctx first).version)) ∧
    ∀ row ∈ rowsFor ctx.data software, (∀ other ∈ rowsFor ctx.data software, keyAtMost other row = true) →
      row.version = (releaseAt ctx first).version) ∨
  (∀ iri, ¬Standing ctx.data software iri) ∧ (labelTexts ctx.data release = [] ∨ rowsFor ctx.data software = [])

theorem best_none {rows : Order VersionRow} :
    greatest keyAtMost ((rows.arrange (allVersions ctx.data)).filter (aboutSoftware software)) = none ↔
      rowsFor ctx.data software = [] := by
  rw [greatest_none, rowsFor, List.filter_eq_nil_iff, List.filter_eq_nil_iff]
  simp only [Order.mem_arrange]

/-- The row that comes out on top names one version in every order just when each that none exceeds does. -/
theorem best_version {version : String} :
    (∀ (rows : Order VersionRow) row,
      greatest keyAtMost ((rows.arrange (allVersions ctx.data)).filter (aboutSoftware software)) = some row → row.version = version) ↔
      ∀ row ∈ rowsFor ctx.data software, (∀ other ∈ rowsFor ctx.data software, keyAtMost other row = true) → row.version = version :=
  greatest_in_every_order keyAtMost_total keyAtMost_trans

/-- What the newest release is compared with, once there is a row and a label. -/
theorem marked (deployed : Decorable inst software release) {rows : Order VersionRow} {labels : Order String} {row : VersionRow}
    {label : String} (best : greatest keyAtMost ((rows.arrange (allVersions ctx.data)).filter (aboutSoftware software)) = some row)
    (labelled : labelIn labels ctx.data release = some label) :
    (decorateIn rows labels ctx.data inst).latestVersion = some row.version ∧
      ((decorateIn rows labels ctx.data inst).outdated = true ↔ label ≠ row.version) := by
  have pair := @decorated ctx _ _ _ deployed rows labels
  simp only [best, labelled, Prod.mk.injEq] at pair
  rw [pair.1, pair.2, decide_eq_true_eq, ne_comm]
  exact ⟨rfl, Iff.rfl⟩

theorem left_alone (deployed : Decorable inst software release) {rows : Order VersionRow} {labels : Order String}
    (nothing : labelTexts ctx.data release = [] ∨ rowsFor ctx.data software = []) :
    (decorateIn rows labels ctx.data inst).latestVersion = none ∧ (decorateIn rows labels ctx.data inst).outdated = false := by
  have pair := @decorated ctx _ _ _ deployed rows labels
  rcases nothing with unlabelled | empty
  · simp only [label_none.2 unlabelled, Prod.mk.injEq] at pair
    exact pair
  · cases label : labelIn labels ctx.data release <;>
      simp only [label, best_none.2 empty, Prod.mk.injEq] at pair <;> exact pair

/-- A deployment is compared with the release that is listed first, and rightly, exactly when the two notions agree. -/
theorem one_latest_iff (ctx : Ctx) (inst : Instance) (software release : String) (deployed : Decorable inst software release) :
    OneLatest ctx inst software release ↔ Agreeing ctx software release := by
  constructor
  · intro one
    by_cases nothing : labelTexts ctx.data release = [] ∨ rowsFor ctx.data software = []
    · refine Or.inr ⟨head_none.1 ?_, nothing⟩
      have same := (one .asStored .asStored).1
      rw [(left_alone deployed nothing).1] at same
      exact Option.map_eq_none_iff.1 same.symm
    · obtain ⟨labelled, some_⟩ := not_or.1 nothing
      -- the release that is listed first, from the row that comes out on top
      have first_ (rows : Order VersionRow) (row : VersionRow)
          (best : greatest keyAtMost ((rows.arrange (allVersions ctx.data)).filter (aboutSoftware software)) = some row) :
          (listReleases ctx software).head?.map Release.version = some row.version := by
        obtain ⟨label, mem⟩ := List.exists_mem_of_ne_nil _ labelled
        rw [← (one rows _).1, (marked deployed best (label_first mem)).1]
      obtain ⟨row, best⟩ := Option.ne_none_iff_exists'.1 (fun none_ => some_ (best_none.1 none_) :
        greatest keyAtMost ((Order.asStored.arrange (allVersions ctx.data)).filter (aboutSoftware software)) ≠ none)
      obtain ⟨first, head, version⟩ := Option.map_eq_some_iff.1 (first_ _ _ best)
      obtain ⟨iri, newest, rfl⟩ := head_listed.1 head
      refine Or.inl ⟨iri, newest, labelled, fun label mem => ?_, ?_⟩
      · obtain ⟨-, mark⟩ := marked deployed best (label_first mem)
        have right := (one .asStored (Order.leading (fun other => decide (other = label)))).2
        rw [mark, head] at right
        simp only [Option.some.injEq, exists_eq_left', ← version] at right
        exact not_iff_not.1 right
      · apply best_version.1
        intro rows best found
        have same := first_ rows best found
        rw [head, Option.map_some, Option.some.injEq] at same
        exact same.symm
  · rintro (⟨iri, newest, labelled, agree, unbeaten⟩ | ⟨nothing, unlabelled⟩) rows labels
    · have head : (listReleases ctx software).head? = some (releaseAt ctx iri) := head_listed.2 ⟨iri, newest, rfl⟩
      obtain ⟨label, found⟩ := Option.ne_none_iff_exists'.1 (fun none_ => labelled (label_none.1 none_) :
        labelIn labels ctx.data release ≠ none)
      obtain ⟨row, best⟩ := Option.ne_none_iff_exists'.1 (fun none_ => standing_row newest.1 (best_none.1 none_) :
        greatest keyAtMost ((rows.arrange (allVersions ctx.data)).filter (aboutSoftware software)) ≠ none)
      have version : row.version = (releaseAt ctx iri).version := best_version.2 unbeaten rows row best
      obtain ⟨latest, mark⟩ := marked deployed best found
      rw [latest, mark, head, version]
      simp only [Option.map_some, Option.some.injEq, exists_eq_left', true_and]
      exact not_congr (agree label (label_some found))
    · obtain ⟨latest, mark⟩ := @left_alone ctx _ _ _ deployed rows labels unlabelled
      rw [latest, mark, head_none.2 nothing]
      simp

end Decorating

section Specimen

open Specimen

/-- A release of the software, with a version and perhaps a date. -/
def releasedAs (iri version : String) (date : Option String) : List Quad :=
  [⟨.named iri, Ns.t Ns.dct "isVersionOf", .named "http://software", Ns.gLocal⟩,
    ⟨.named iri, Ns.t Ns.schema "softwareVersion", .simple version, Ns.gLocal⟩] ++
    (date.map (fun date => (⟨.named iri, Ns.t Ns.schema "datePublished", .simple date, Ns.gLocal⟩ : Quad))).toList

/-- A deployment that runs the first release. -/
def runsFirst : List Quad :=
  [⟨.named "http://deployment", Ns.t Ns.tar "instanceOf", .named "http://software", Ns.gLocal⟩,
    ⟨.named "http://deployment", Ns.t Ns.tar "runsRelease", .named "http://release/1", Ns.gLocal⟩]

def datedOnly : Dataset where
  quads := releasedAs "http://release/1" "1.0" (some "2026-01-01") ++ runsFirst
  nodup := by decide

/-- Another release has no date. -/
def undatedBeside : Dataset where
  quads := releasedAs "http://release/1" "1.0" (some "2026-01-01") ++ releasedAs "http://release/2" "0.9" none ++ runsFirst
  nodup := by decide

def stored (data : Dataset) : Ctx := (registry []).ctx ⟨data, {}⟩ (draw "a")

def projected (data : Dataset) : Instance :=
  Instance.instanceFromProps (stored data) "http://deployment" (propsOf data "http://deployment")

theorem dated_deployed : Decorable (projected datedOnly) "http://software" "http://release/1" :=
  ⟨by decide, by decide, by decide⟩

theorem dated_one_latest : OneLatest (stored datedOnly) (projected datedOnly) "http://software" "http://release/1" := by
  have rows : releaseRows datedOnly "http://software" = [.named "http://release/1"] := by decide
  have standing : Standing datedOnly "http://software" "http://release/1" := ⟨by rw [rows]; decide, by decide⟩
  have newest : Newest (stored datedOnly) "http://software" "http://release/1" := by
    refine ⟨standing, fun other there => ?_⟩
    have same := there.1
    change _ ∈ releaseRows datedOnly "http://software" at same
    rw [rows, List.mem_singleton, Node.named.injEq] at same
    rw [same]
    exact (newer_total _ _).elim id id
  refine (one_latest_iff (stored datedOnly) (projected datedOnly) "http://software" "http://release/1" dated_deployed).2
    (Or.inl ⟨"http://release/1", newest, ?_, ?_, ?_⟩)
  · decide
  · decide
  · decide

/-- The undated release is compared with, by its IRI, while the dated one is listed first. -/
theorem undated_compared :
    ((listReleases (stored undatedBeside) "http://software").map Release.version = ["1.0", "0.9"] ∧
      (Instance.decorate (stored undatedBeside) (projected undatedBeside)).latestVersion = some "0.9" ∧
      (Instance.decorate (stored undatedBeside) (projected undatedBeside)).outdated = true) ∧
    ¬OneLatest (stored undatedBeside) (projected undatedBeside) "http://software" "http://release/1" := by
  refine ⟨by decide, fun one => ?_⟩
  have same := (one .asStored .asStored).1
  revert same
  decide

end Specimen

end ToolArtifactRegistry.Laws
