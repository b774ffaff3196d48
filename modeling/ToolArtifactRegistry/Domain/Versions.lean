import ToolArtifactRegistry.Domain.Instance
import ToolArtifactRegistry.Library.Orders

/-! The latest version of each software, as it is gathered from rows that come in any order. -/
namespace ToolArtifactRegistry.Domain.Instance

open Library.Rdf Library.Text Library.Orders Model Rdf

/-- A row of the query: a release of a software with one of its versions, and one of its dates if it has any. -/
structure VersionRow where
  software : String
  release : String
  version : String
  date : Option String
  deriving DecidableEq

/-- Its date, or its IRI. -/
def VersionRow.key (row : VersionRow) : String := row.date.getD row.release

def VersionRow.entry (row : VersionRow) : String × String := (row.key, row.version)

/-- What stands beside a statement, in its graph and about its subject. -/
def beside (data : Dataset) (quad : Quad) (predicate : String) : List String :=
  ((data.matching (fun other => decide (other.subject = quad.subject ∧ other.graph = quad.graph ∧
    other.predicate = predicate))).map Quad.object).map Props.termValue

/-- The rows of one `dct:isVersionOf`. -/
def rowsOf (data : Dataset) (quad : Quad) : List VersionRow :=
  match quad.object, quad.subject with
  | .named software, .named release =>
    let dates := beside data quad (Ns.t Ns.schema "datePublished")
    (beside data quad (Ns.t Ns.schema "softwareVersion")).flatMap (fun version =>
      if dates.isEmpty then [⟨software, release, version, none⟩]
      else dates.map (fun date => ⟨software, release, version, some date⟩))
  | _, _ => []

def allVersions (data : Dataset) : List VersionRow :=
  (data.matching (fun quad => decide (quad.predicate = Ns.t Ns.dct "isVersionOf"))).flatMap (rowsOf data)

def aboutSoftware (software : String) (row : VersionRow) : Bool := decide (row.software = software)

/-- The key and the version kept for each software. -/
abbrev Kept := String → Option (String × String)

def keepLatest (kept : Kept) (row : VersionRow) : Kept := fun software =>
  if row.software = software then
    match kept software with
    | some best => some (if !le row.key best.1 then row.entry else best)
    | none => some row.entry
  else kept software

def latestOf (rows : List VersionRow) : Kept := rows.foldl keepLatest (fun _ => none)

def decorateWith (labels : String → Option String) (latest : Kept) (inst : Instance) : Instance :=
  let version := inst.release.bind labels
  let named := { inst with softwareName := inst.software.bind labels, releaseVersion := version }
  match inst.software, version with
  | some software, some current =>
    match latest software with
    | some (_, version) => { named with latestVersion := some version, outdated := decide (version ≠ current) }
    | none => named
  | _, _ => named

/-- A row whose key is at most another's. -/
def keyAtMost (row other : VersionRow) : Bool := le row.key other.key

theorem keyAtMost_total (one other : VersionRow) : keyAtMost one other = true ∨ keyAtMost other one = true := charsLe_total _ _

theorem keyAtMost_trans (one two three : VersionRow) (first : keyAtMost one two = true) (second : keyAtMost two three = true) :
    keyAtMost one three = true := charsLe_trans first second

theorem keepLatest_overtake (best row : VersionRow) :
    (if !le row.key best.entry.1 then row.entry else best.entry) = (overtake keyAtMost best row).entry := by
  have same : best.entry.1 = best.key := rfl
  unfold overtake keyAtMost
  rw [same]
  cases le row.key best.key <;> rfl

theorem fold_keepLatest (rows : List VersionRow) (kept : Kept) (software : String) (best : VersionRow)
    (held : kept software = some best.entry) :
    rows.foldl keepLatest kept software =
      some ((rows.filter (aboutSoftware software)).foldl (overtake keyAtMost) best).entry := by
  induction rows generalizing kept best with
  | nil => exact held
  | cons row rest ih =>
    rw [List.foldl_cons]
    by_cases theirs : row.software = software
    · have hit : aboutSoftware software row = true := decide_eq_true theirs
      rw [List.filter_cons_of_pos hit, List.foldl_cons]
      apply ih
      simp only [keepLatest, if_pos theirs, held, keepLatest_overtake]
    · have missed : ¬aboutSoftware software row = true := fun hit => theirs (of_decide_eq_true hit)
      rw [List.filter_cons_of_neg missed]
      apply ih
      simp only [keepLatest, if_neg theirs, held]

/-- What is kept for a software comes from the first of its greatest rows. -/
theorem latestOf_eq (rows : List VersionRow) (software : String) :
    latestOf rows software = (greatest keyAtMost (rows.filter (aboutSoftware software))).map VersionRow.entry := by
  have empty (rows : List VersionRow) (kept : Kept) (none_ : kept software = none) :
      rows.foldl keepLatest kept software = (greatest keyAtMost (rows.filter (aboutSoftware software))).map VersionRow.entry := by
    induction rows generalizing kept with
    | nil => exact none_
    | cons row rest ih =>
      rw [List.foldl_cons]
      by_cases theirs : row.software = software
      · have hit : aboutSoftware software row = true := decide_eq_true theirs
        rw [List.filter_cons_of_pos hit, greatest, Option.map_some]
        apply fold_keepLatest
        simp only [keepLatest, if_pos theirs, none_]
      · have missed : ¬aboutSoftware software row = true := fun hit => theirs (of_decide_eq_true hit)
        rw [List.filter_cons_of_neg missed]
        apply ih
        simp only [keepLatest, if_neg theirs, none_]
  exact empty rows _ rfl

theorem map_filter_rows {β : Type} (rows : List VersionRow) (software : String) (quad : Quad)
    (project : VersionRow → β) (all : ∀ row ∈ rows, .named row.software = quad.object) :
    (rows.filter (aboutSoftware software)).map project = if quad.object = .named software then rows.map project else [] := by
  by_cases theirs : quad.object = .named software
  · rw [if_pos theirs, List.filter_eq_self.2]
    intro row mem
    have same := (all row mem).trans theirs
    exact decide_eq_true (Term.named.inj same)
  · rw [if_neg theirs, List.filter_eq_nil_iff.2, List.map_nil]
    intro row mem hit
    exact theirs ((all row mem).symm.trans (congrArg Term.named (of_decide_eq_true hit)))

theorem rowsOf_software {data : Dataset} {quad : Quad} : ∀ row ∈ rowsOf data quad, .named row.software = quad.object := by
  intro row mem
  unfold rowsOf at mem
  split at mem
  · rename_i software release object _
    obtain ⟨version, _, here⟩ := List.mem_flatMap.1 mem
    rw [object]
    split at here
    · rw [List.mem_singleton.1 here]
    · obtain ⟨date, _, rfl⟩ := List.mem_map.1 here
      rfl
  · cases mem

/-- The rows of a software, in the order the statements are kept in. -/
theorem versionRows_eq (data : Dataset) (software : String) :
    versionRows data software = ((allVersions data).filter (aboutSoftware software)).map VersionRow.entry := by
  have choose (quads : List Quad) : (quads.flatMap (fun quad => if quad.object = .named software then
      (rowsOf data quad).map VersionRow.entry else [])) =
      (quads.filter (fun quad => decide (quad.object = .named software))).flatMap
        (fun quad => (rowsOf data quad).map VersionRow.entry) := by
    induction quads with
    | nil => rfl
    | cons quad rest ih => by_cases theirs : quad.object = .named software <;> simp [theirs, ih]
  rw [allVersions, List.filter_flatMap, List.map_flatMap]
  simp only [map_filter_rows _ software _ VersionRow.entry rowsOf_software]
  rw [choose, versionRows]
  have both : data.matching (fun quad => decide (quad.predicate = Ns.t Ns.dct "isVersionOf" ∧ quad.object = .named software)) =
      (data.matching (fun quad => decide (quad.predicate = Ns.t Ns.dct "isVersionOf"))).filter
        (fun quad => decide (quad.object = .named software)) := by
    simp only [Dataset.matching, List.filter_filter, ← Bool.decide_and, and_comm]
  rw [both]
  apply List.flatMap_congr
  intro quad mem
  have theirs : quad.object = .named software := of_decide_eq_true (List.mem_filter.1 mem).2
  unfold rowsOf
  rw [theirs]
  cases subject : quad.subject with
  | blank label => rfl
  | named release =>
    simp only [Node.iri?, beside, List.map_flatMap, List.flatMap_map, subject]
    apply List.flatMap_congr
    intro version _
    split
    · rfl
    · generalize List.map Props.termValue _ = dates
      rw [List.map_map]
      rfl

theorem greatest_entry (best : VersionRow) (rows : List VersionRow) :
    (rows.map VersionRow.entry).foldl laterVersion best.entry = (rows.foldl (overtake keyAtMost) best).entry := by
  induction rows generalizing best with
  | nil => rfl
  | cons row rest ih =>
    have same : laterVersion best.entry row.entry = (overtake keyAtMost best row).entry := keepLatest_overtake best row
    rw [List.map_cons, List.foldl_cons, List.foldl_cons, same, ih]

theorem latestVersion_eq (data : Dataset) (software : String) :
    latestVersion data software = (latestOf (allVersions data) software).map Prod.snd := by
  rw [latestVersion, versionRows_eq, latestOf_eq]
  cases (allVersions data).filter (aboutSoftware software) with
  | nil => rfl
  | cons first rest =>
    simp only [List.map_cons, greatest, Option.map_some]
    rw [greatest_entry]

/-- Decorating one deployment is decorating it with the rows in the order they are kept in. -/
theorem decorate_eq (ctx : Ctx) (inst : Instance) :
    decorate ctx inst = decorateWith ctx.labelOf (latestOf (allVersions ctx.data)) inst := by
  unfold decorate decorateWith
  cases inst.software with
  | none => rfl
  | some software =>
    simp only [Option.bind_some, latestVersion_eq]
    cases inst.release.bind ctx.labelOf with
    | none => cases latestOf (allVersions ctx.data) software <;> rfl
    | some current => cases kept : latestOf (allVersions ctx.data) software <;> simp only [kept, Option.map_none, Option.map_some]

/-- What a subject may be labelled by: a name, a title, a label or a version. -/
def labelTexts (data : Dataset) (iri : String) : List String :=
  if startsWith iri "http" then
    (([Ns.t Ns.schema "name", Ns.t Ns.dct "title", Ns.t Ns.rdfs "label", Ns.t Ns.schema "softwareVersion"].flatMap
      (Ctx.objects data iri)).map Props.termValue)
  else []

/-- The first label that is returned. -/
def labelIn (order : Order String) (data : Dataset) (iri : String) : Option String :=
  (order.arrange (labelTexts data iri)).head?

theorem labelOf_eq (ctx : Ctx) : ctx.labelOf = labelIn .asStored ctx.data := by
  funext iri
  unfold Ctx.labelOf labelIn labelTexts
  change _ = List.head? (ite _ _ _)
  split
  · rw [List.head?_map, List.head?_flatMap]
  · rfl

/-- Decorating, in any order of the rows and the labels. -/
def decorateIn (rows : Order VersionRow) (labels : Order String) (data : Dataset) (inst : Instance) : Instance :=
  decorateWith (labelIn labels data) (latestOf (rows.arrange (allVersions data))) inst

theorem decorate_asStored (ctx : Ctx) (inst : Instance) : decorate ctx inst = decorateIn .asStored .asStored ctx.data inst := by
  rw [decorate_eq, labelOf_eq]
  rfl

end ToolArtifactRegistry.Domain.Instance
