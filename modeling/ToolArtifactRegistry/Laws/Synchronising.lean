import ToolArtifactRegistry.Domain.Forge
import ToolArtifactRegistry.Laws.Specimen
import ToolArtifactRegistry.Library.Results

/-! A run over a source repository is a pipeline of stages, each of which fills fields of its own. It says which of them
it changed, leaves the rest of the record alone, and has nothing to do when it is run again. -/
namespace ToolArtifactRegistry.Laws.Synchronising

open Library.Text Model Domain Forge

/-- The fields a repository may fill. -/
inductive Field where
  | tagline
  | homepage
  | license
  | keywords
  | maturity
  | readme
  | readmeBaseUrl
  deriving DecidableEq

theorem toList_inj {one other : Option String} : one.toList = other.toList ↔ one = other := by
  cases one <;> cases other <;> simp

namespace Field

/-- As the log of a run has them. -/
def name : Field → String
  | tagline => "tagline"
  | homepage => "homepage"
  | license => "license"
  | keywords => "keywords"
  | maturity => "maturity"
  | readme => "readme"
  | readmeBaseUrl => "readme_base_url"

/-- The name a record gives to have the field managed. -/
def manager : Field → String
  | readmeBaseUrl => "readme"
  | field => field.name

def value (input : SoftwareIn) : Field → List String
  | tagline => input.tagline.toList
  | homepage => input.homepage.toList
  | license => input.license.toList
  | keywords => input.keywords
  | maturity => input.maturity.toList
  | readme => input.readme.toList
  | readmeBaseUrl => input.readmeBaseUrl.toList

end Field

/-- What no repository fills. -/
def curated (input : SoftwareIn) : SoftwareIn :=
  { input with tagline := none, homepage := none, license := none, keywords := [], maturity := none, readme := none,
               readmeBaseUrl := none }

/-- The log of a run, less the changes. -/
def notes (s : Forge.Syncing) : List ReleaseIn × List String := (s.out.releases, s.out.skipped)

/-- Each keyword stays, in one spelling or another. -/
def Keeps (before after : SoftwareIn) : Prop :=
  ∀ k ∈ before.keywords, ∃ m ∈ after.keywords, toAsciiLowercase m = toAsciiLowercase k

/-- The fields named as changed are those that are different, each named once; none is emptied. -/
structure Tells (own : List Field) (before after : Forge.Syncing) : Prop where
  told : ∃ told : List Field, told.Sublist own ∧ after.out.changed = before.out.changed ++ told.map Field.name ∧
    ∀ field, field ∈ told ↔ field.value after.input ≠ field.value before.input
  kept : curated after.input = curated before.input
  filled : ∀ field : Field, field.value before.input ≠ [] → field.value after.input ≠ []
  keeps : Keeps before.input after.input

/-- A part of a run with fields of its own. What it gives them does not depend on the rest of the record, and a record
that already has it stays as it is. -/
structure Stage (own : List Field) (stage : Forge.Syncing → Forge.Syncing) : Prop where
  tells : ∀ s, Tells own s (stage s)
  settles : ∀ before now : Forge.Syncing, (∀ field ∈ own, field.value now.input = field.value (stage before).input) →
    (stage now).input = now.input ∧ (stage now).out.changed = now.out.changed
  blind : ∀ one other : Forge.Syncing, notes one = notes other → notes (stage one) = notes (stage other)

section Pipelines

variable {own others : List Field} {stage next : Forge.Syncing → Forge.Syncing}

theorem Tells.untouched {before after : Forge.Syncing} (tells : Tells own before after) {field : Field}
    (foreign : field ∉ own) :
    field.value after.input = field.value before.input := by
  obtain ⟨told, within, _, changed⟩ := tells.told
  by_contra differs
  exact foreign (within.subset ((changed field).2 differs))

theorem Keeps.refl (input : SoftwareIn) : Keeps input input := fun k mem => ⟨k, mem, rfl⟩

theorem Keeps.trans {first second third : SoftwareIn} (early : Keeps first second) (late : Keeps second third) :
    Keeps first third := by
  intro k mem
  obtain ⟨m, held, same⟩ := early k mem
  obtain ⟨n, found, again⟩ := late m held
  exact ⟨n, found, again.trans same⟩

theorem Tells.append {before between after : Forge.Syncing} (first : Tells own before between)
    (second : Tells others between after) (apart : own.Disjoint others) : Tells (own ++ others) before after := by
  obtain ⟨told, within, logged, changed⟩ := first.told
  obtain ⟨more, withinMore, loggedMore, changedMore⟩ := second.told
  refine ⟨⟨told ++ more, within.append withinMore, ?_, fun field => ?_⟩, second.kept.trans first.kept,
    fun field full => second.filled field (first.filled field full), first.keeps.trans second.keeps⟩
  · rw [loggedMore, logged, List.append_assoc, List.map_append]
  · rw [List.mem_append]
    by_cases named : field ∈ told
    · have same := second.untouched (apart (within.subset named))
      rw [same, ← changed field]
      exact ⟨fun _ => named, Or.inl⟩
    · have same : field.value between.input = field.value before.input := by
        by_contra differs
        exact named ((changed field).2 differs)
      rw [changedMore field, same, or_iff_right named]

theorem Stage.id : Stage own id where
  tells s := ⟨⟨[], List.nil_sublist own, by simp, fun field => by simp⟩, rfl, fun _ full => full, .refl _⟩
  settles _ _ _ := ⟨rfl, rfl⟩
  blind _ _ same := same

/-- Two stages with different fields are one. -/
theorem Stage.append (first : Stage own stage) (second : Stage others next) (apart : own.Disjoint others) :
    Stage (own ++ others) (fun s => next (stage s)) where
  tells s := (first.tells s).append (second.tells (stage s)) apart
  settles before now agree := by
    have early : ∀ field ∈ own, field.value now.input = field.value (stage before).input := by
      intro field mem
      rw [agree field (List.mem_append_left _ mem)]
      exact (second.tells (stage before)).untouched (apart mem)
    obtain ⟨input, changed⟩ := first.settles before now early
    have late : ∀ field ∈ others, field.value (stage now).input = field.value (next (stage before)).input := by
      intro field mem
      rw [input]
      exact agree field (List.mem_append_right _ mem)
    obtain ⟨sameInput, sameChanged⟩ := second.settles (stage before) (stage now) late
    exact ⟨sameInput.trans input, sameChanged.trans changed⟩
  blind one other same := second.blind _ _ (first.blind one other same)

/-- The fields a record has managed. -/
def managedOf (fields : List String) (own : List Field) : List Field :=
  own.filter (fun field => decide (field.manager ∈ fields))

/-- A managed stage behind another one. -/
theorem Stage.managed {fields : List String} {name : String} (first : Stage (managedOf fields own) stage)
    (second : Stage others next) (manages : ∀ field ∈ others, field.manager = name) (apart : own.Disjoint others) :
    Stage (managedOf fields (own ++ others)) (fun s => Forge.managed fields name next (stage s)) := by
  have divided : managedOf fields (own ++ others) = managedOf fields own ++ managedOf fields others := List.filter_append ..
  rw [divided]
  refine first.append ?_ (fun field early late => apart (List.mem_of_mem_filter early) (List.mem_of_mem_filter late))
  by_cases listed : name ∈ fields
  · have all : managedOf fields others = others := by
      refine List.filter_eq_self.2 (fun field mem => ?_)
      rw [manages field mem]
      exact decide_eq_true listed
    have runs : Forge.managed fields name next = next := by
      funext s
      exact if_pos listed
    rw [all, runs]
    exact second
  · have idle : Forge.managed fields name next = fun s => s := by
      funext s
      exact if_neg listed
    rw [idle]
    exact Stage.id

end Pipelines

section Stages

variable {repo : Repo}

/-- A stage that says nothing of the record. -/
theorem Stage.silent {stage : Forge.Syncing → Forge.Syncing} (input : ∀ s, (stage s).input = s.input)
    (changed : ∀ s, (stage s).out.changed = s.out.changed)
    (blind : ∀ one other : Forge.Syncing, notes one = notes other → notes (stage one) = notes (stage other)) :
    Stage [] stage where
  tells s := by
    refine ⟨⟨[], .slnil, ?_, fun field => ?_⟩, ?_, fun field full => ?_, ?_⟩
    · rw [changed, List.map_nil, List.append_nil]
    · rw [input]
      simp
    · rw [input]
    · rw [input]
      exact full
    · rw [input]
      exact .refl _
  settles _ now _ := ⟨input now, changed now⟩
  blind := blind

theorem notes_skip {one other : Forge.Syncing} (note : String) (same : notes one = notes other) :
    notes (one.skip note) = notes (other.skip note) := by
  obtain ⟨releases, skipped⟩ := Prod.mk.injEq _ _ _ _ ▸ same
  simp only [notes, Forge.Syncing.skip, releases, skipped]

theorem stage_skip (note : String) : Stage [] (fun s => s.skip note) :=
  Stage.silent (fun _ => rfl) (fun _ => rfl) (fun _ _ same => notes_skip note same)

/-- A field is written unless the stage has nothing to say of it. -/
theorem stage_write {field : Field} {idle : SoftwareIn → Prop} [DecidablePred idle] {write : SoftwareIn → SoftwareIn}
    (differs : ∀ input, ¬ idle input → field.value (write input) ≠ field.value input)
    (full : ∀ input, ¬ idle input → field.value (write input) ≠ [])
    (done : ∀ before now, field.value now = field.value (if idle before then before else write before) → idle now)
    (others : ∀ other, other ≠ field → ∀ input, other.value (write input) = other.value input)
    (kept : ∀ input, curated (write input) = curated input) (keeps : ∀ input, Keeps input (write input)) :
    Stage [field] (fun s => if idle s.input then s else { s.change field.name with input := write s.input }) where
  tells s := by
    by_cases quiet : idle s.input
    · simp only [if_pos quiet]
      exact Stage.id.tells s
    · simp only [if_neg quiet]
      refine ⟨⟨[field], .refl _, rfl, fun other => ?_⟩, kept s.input, fun other held => ?_, keeps s.input⟩
      · rw [List.mem_singleton]
        by_cases same : other = field
        · subst same
          exact iff_of_true rfl (differs s.input quiet)
        · exact iff_of_false same (fun changed => changed (others other same s.input))
      · by_cases same : other = field
        · subst same
          exact full s.input quiet
        · rw [others other same s.input]
          exact held
  settles before now agree := by
    have quiet : idle now.input := by
      refine done before.input now.input ((agree field (List.mem_singleton_self field)).trans ?_)
      by_cases had : idle before.input
      · simp only [if_pos had]
      · simp only [if_neg had]
    simp only [if_pos quiet, and_self]
  blind one other same := by
    have unnoted (s : Forge.Syncing) :
        notes (if idle s.input then s else { s.change field.name with input := write s.input }) = notes s := by
      split <;> rfl
    rw [unnoted, unnoted]
    exact same

/-- A field that takes what the repository says of it. -/
theorem stage_set {field : Field} {current : SoftwareIn → Option String} {next : Option String}
    {write : SoftwareIn → SoftwareIn} (reads : ∀ input, field.value input = (current input).toList)
    (writes : ∀ input, current (write input) = next)
    (others : ∀ other, other ≠ field → ∀ input, other.value (write input) = other.value input)
    (kept : ∀ input, curated (write input) = curated input) (keeps : ∀ input, Keeps input (write input)) :
    Stage [field] (fun s => s.set field.name (current s.input) next write) := by
  cases next with
  | none => exact Stage.id
  | some said =>
    refine @stage_write field (fun input => trim said = "" ∨ current input = some said) _ write ?_ ?_ ?_ others kept keeps
    · intro input new same
      rw [reads, reads, writes, toList_inj] at same
      exact new (Or.inr same.symm)
    · intro input _
      rw [reads, writes]
      exact List.cons_ne_nil _ _
    · intro before now agree
      rw [reads] at agree
      by_cases blank : trim said = ""
      · exact Or.inl blank
      · refine Or.inr (toList_inj.1 (agree.trans ?_))
        by_cases had : current before = some said
        · rw [if_pos (Or.inr had), reads, had]
        · rw [if_neg (by simp [blank, had]), reads, writes]

theorem stage_tagline : Stage [.tagline] (syncTagline repo) :=
  @stage_set _ (fun input => input.tagline) _ _ (fun _ => rfl) (fun _ => rfl)
    (fun other apart _ => by cases other <;> first | rfl | exact absurd rfl apart) (fun _ => rfl) .refl

theorem stage_homepage : Stage [.homepage] (syncHomepage repo) := by
  unfold syncHomepage
  generalize repo.homepage.filter (fun h => startsWith h "http") = next
  exact @stage_set _ (fun input => input.homepage) _ _ (fun _ => rfl) (fun _ => rfl)
    (fun other apart _ => by cases other <;> first | rfl | exact absurd rfl apart) (fun _ => rfl) .refl

theorem stage_license : Stage [.license] (syncLicense repo) := by
  have written : Stage [.license] (fun s => s.set "license" s.input.license (spdxOf repo)
      (fun input => { input with license := spdxOf repo })) :=
    @stage_set _ (fun input => input.license) _ _ (fun _ => rfl) (fun _ => rfl)
      (fun other apart _ => by cases other <;> first | rfl | exact absurd rfl apart) (fun _ => rfl) .refl
  unfold syncLicense
  cases none_ : (spdxOf repo).isNone with
  | true => exact (stage_skip _).append written (by simp)
  | false => exact written

theorem stage_maturity : Stage [.maturity] (syncMaturity repo) := by
  have written : Stage [.maturity] (fun s => s.set "maturity" s.input.maturity (some "inactive")
      (fun input => { input with maturity := some "inactive" })) :=
    @stage_set _ (fun input => input.maturity) _ _ (fun _ => rfl) (fun _ => rfl)
      (fun other apart _ => by cases other <;> first | rfl | exact absurd rfl apart) (fun _ => rfl) .refl
  unfold syncMaturity
  cases repo.archived with
  | true => exact written
  | false => exact Stage.id

/-- Merging adds what no topic names, and merging again adds nothing. -/
theorem mergedKeywords_eq (topics keywords : List String) : ∃ added, mergedKeywords topics keywords = topics ++ added ∧
    mergedKeywords topics (topics ++ added) = topics ++ added ∧
    ∀ k ∈ keywords, ∃ m ∈ topics ++ added, toAsciiLowercase m = toAsciiLowercase k := by
  let meets (merged : List String) (k : String) := merged.any (fun m => toAsciiLowercase m == toAsciiLowercase k)
  let join (merged : List String) (k : String) := if meets merged k then merged else merged ++ [k]
  have grows (ks : List String) : ∀ merged, ∃ added, ks.foldl join merged = merged ++ added ∧
      added.foldl join merged = merged ++ added ∧
      ∀ k ∈ ks, ∃ m ∈ merged ++ added, toAsciiLowercase m = toAsciiLowercase k := by
    induction ks with
    | nil => exact fun merged => ⟨[], by simp, by simp, by simp⟩
    | cons k rest ih =>
      intro merged
      cases known : meets merged k with
      | true =>
        obtain ⟨added, first, second, kept⟩ := ih merged
        refine ⟨added, ?_, second, fun other mem => ?_⟩
        · rw [List.foldl_cons, show join merged k = merged from if_pos known, first]
        · rcases List.mem_cons.1 mem with rfl | later
          · obtain ⟨m, held, same⟩ := List.any_eq_true.1 known
            exact ⟨m, List.mem_append_left _ held, eq_of_beq same⟩
          · exact kept other later
      | false =>
        have joined : join merged k = merged ++ [k] := if_neg (by simp [known])
        obtain ⟨added, first, second, kept⟩ := ih (merged ++ [k])
        refine ⟨k :: added, ?_, ?_, fun other mem => ?_⟩
        · rw [List.foldl_cons, joined, first, List.append_assoc, List.singleton_append]
        · rw [List.foldl_cons, joined, second, List.append_assoc, List.singleton_append]
        · rw [List.append_assoc, List.singleton_append] at kept
          rcases List.mem_cons.1 mem with rfl | later
          · exact ⟨other, by simp, rfl⟩
          · exact kept other later
  have stays (ks merged : List String) (known : ∀ k ∈ ks, k ∈ merged) : ks.foldl join merged = merged := by
    induction ks with
    | nil => rfl
    | cons k rest ih =>
      have met : meets merged k = true :=
        List.any_eq_true.2 ⟨k, known k List.mem_cons_self, beq_self_eq_true _⟩
      rw [List.foldl_cons, show join merged k = merged from if_pos met]
      exact ih (fun other mem => known other (List.mem_cons_of_mem _ mem))
  obtain ⟨added, first, second, kept⟩ := grows keywords topics
  refine ⟨added, first, ?_, kept⟩
  calc mergedKeywords topics (topics ++ added) = added.foldl join (topics.foldl join topics) := List.foldl_append
    _ = added.foldl join topics := by rw [stays topics topics (fun _ mem => mem)]
    _ = topics ++ added := second

theorem mergedKeywords_idem (topics keywords : List String) :
    mergedKeywords topics (mergedKeywords topics keywords) = mergedKeywords topics keywords := by
  obtain ⟨added, first, second, _⟩ := mergedKeywords_eq topics keywords
  rw [first, second]

theorem stage_keywords : Stage [.keywords] (syncKeywords repo) := by
  refine @stage_write .keywords
    (fun input => repo.topics.isEmpty = true ∨ mergedKeywords repo.topics input.keywords = input.keywords) _
    (fun input => { input with keywords := mergedKeywords repo.topics input.keywords }) ?_ ?_ ?_
    (fun other apart _ => by cases other <;> first | rfl | exact absurd rfl apart) (fun _ => rfl) (fun input k mem => ?_)
  · intro input new kept
    exact new (Or.inr kept)
  · intro input new blank
    obtain ⟨added, first, _, _⟩ := mergedKeywords_eq repo.topics input.keywords
    have empty : mergedKeywords repo.topics input.keywords = [] := blank
    rw [first, List.append_eq_nil_iff] at empty
    exact new (Or.inl (List.isEmpty_iff.2 empty.1))
  · intro before now agree
    by_cases topicless : repo.topics.isEmpty = true
    · exact Or.inl topicless
    · have merged : now.keywords = mergedKeywords repo.topics before.keywords := by
        refine Eq.trans agree ?_
        by_cases had : mergedKeywords repo.topics before.keywords = before.keywords
        · rw [if_pos (Or.inr had)]
          exact had.symm
        · rw [if_neg (by simp only [topicless, had]; decide)]
          rfl
      refine Or.inr ?_
      rw [merged, mergedKeywords_idem]
  · obtain ⟨added, first, _, named⟩ := mergedKeywords_eq repo.topics input.keywords
    obtain ⟨m, held, same⟩ := named k mem
    exact ⟨m, first ▸ held, same⟩

theorem stage_readmeBody (text : String) : Stage [.readme] (syncReadmeBody text) := by
  refine @stage_write .readme (fun input => text = "" ∨ input.readme = some text) _
    (fun input => { input with readme := some text }) ?_ (fun _ _ => List.cons_ne_nil _ _) ?_
    (fun other apart _ => by cases other <;> first | rfl | exact absurd rfl apart) (fun _ => rfl) .refl
  · intro input new kept
    have held : (some text).toList = input.readme.toList := kept
    exact new (Or.inr (toList_inj.1 held).symm)
  · intro before now agree
    by_cases blank : text = ""
    · exact Or.inl blank
    · refine Or.inr (toList_inj.1 (Eq.trans agree ?_))
      by_cases had : before.readme = some text
      · rw [if_pos (Or.inr had)]
        exact congrArg Option.toList had
      · rw [if_neg (by simp [blank, had])]
        rfl

theorem stage_readmeBase {name branch : String} : Stage [.readmeBaseUrl] (syncReadmeBase name branch repo) := by
  unfold syncReadmeBase
  cases repo.isPrivate with
  | true => exact (stage_skip _).append Stage.id (List.disjoint_nil_left _)
  | false =>
    generalize "https://raw.githubusercontent.com/" ++ name ++ "/" ++ branch ++ "/" = root
    refine @stage_write .readmeBaseUrl (fun input => input.readmeBaseUrl = some root) _
      (fun input => { input with readmeBaseUrl := some root }) ?_ (fun _ _ => List.cons_ne_nil _ _) ?_
      (fun other apart _ => by cases other <;> first | rfl | exact absurd rfl apart) (fun _ => rfl) .refl
    · intro input new kept
      have held : (some root).toList = input.readmeBaseUrl.toList := kept
      exact new (toList_inj.1 held).symm
    · intro before now agree
      refine toList_inj.1 (Eq.trans agree ?_)
      by_cases had : before.readmeBaseUrl = some root
      · rw [if_pos had]
        exact congrArg Option.toList had
      · rw [if_neg had]
        rfl

theorem stage_readme {forge : GitHub} {name : String} {location : Option String} :
    Stage [.readme, .readmeBaseUrl] (syncReadme forge name repo location) := by
  have passed (note : String) : Stage [.readme, .readmeBaseUrl] (fun s => s.skip note) :=
    (stage_skip note).append Stage.id (List.disjoint_nil_left _)
  cases location with
  | none => exact passed _
  | some url =>
    unfold syncReadme
    cases downloaded : forge.download url with
    | none =>
      simp only [downloaded]
      exact passed _
    | some text =>
      simp only [downloaded]
      exact (stage_readmeBody text).append stage_readmeBase (by simp)

theorem stage_releases {found : Option (List GhRelease)} : Stage [] (syncReleases found) := by
  have each (release : GhRelease) : Stage [] (fun s => syncRelease s release) := by
    refine Stage.silent (fun s => ?_) (fun s => ?_) (fun one other same => ?_)
    · unfold syncRelease
      split
      · rfl
      · simp only []
        split
        · rfl
        · split <;> rfl
    · unfold syncRelease
      split
      · rfl
      · simp only []
        split
        · rfl
        · split <;> rfl
    · obtain ⟨releases, skipped⟩ := Prod.mk.injEq _ _ _ _ ▸ same
      unfold syncRelease
      rw [releases]
      split
      · exact same
      · simp only []
        split
        · exact same
        · split <;> simp [notes, Forge.Syncing.skip, skipped]
  have all (releases : List GhRelease) : Stage [] (fun s => releases.foldl syncRelease s) := by
    induction releases with
    | nil => exact Stage.id
    | cons release rest ih => exact (each release).append ih (List.disjoint_nil_left _)
  cases found with
  | none => exact Stage.id
  | some releases => exact all _

end Stages

section Runs

variable {platform : Platform} {forge : GitHub} {given : String} {fields : List String} {input : SoftwareIn}
  {s : Forge.Syncing}

def allFields : List Field := [.tagline, .homepage, .license, .keywords, .maturity, .readme, .readmeBaseUrl]

/-- What is done with the answers of a repository. -/
def stages (fields : List String) (forge : GitHub) (name : String) (repo : Repo) (location : Option String)
    (found : Option (List GhRelease)) (s : Forge.Syncing) : Forge.Syncing :=
  managed fields "releases" (syncReleases found) (managed fields "readme" (syncReadme forge name repo location)
    (managed fields "maturity" (syncMaturity repo) (managed fields "keywords" (syncKeywords repo)
      (managed fields "license" (syncLicense repo) (managed fields "homepage" (syncHomepage repo)
        (managed fields "tagline" (syncTagline repo) s))))))

theorem stages_stage {name : String} {repo : Repo} {location : Option String} {found : Option (List GhRelease)} :
    Stage (managedOf fields allFields) (stages fields forge name repo location found) := by
  have start : Stage (managedOf fields []) (fun s => s) := Stage.id
  have tagline := @Stage.managed _ _ _ _ fields "tagline" start (@stage_tagline repo) (by decide) (by simp)
  have homepage := @Stage.managed _ _ _ _ fields "homepage" tagline (@stage_homepage repo) (by decide) (by simp)
  have license := @Stage.managed _ _ _ _ fields "license" homepage (@stage_license repo) (by decide) (by simp)
  have keywords := @Stage.managed _ _ _ _ fields "keywords" license (@stage_keywords repo) (by decide) (by simp)
  have maturity := @Stage.managed _ _ _ _ fields "maturity" keywords (@stage_maturity repo) (by decide) (by simp)
  have readme := @Stage.managed _ _ _ _ fields "readme" maturity (@stage_readme repo forge name location) (by decide)
    (by simp)
  exact @Stage.managed _ _ _ _ fields "releases" readme (@stage_releases found) (by simp) (by simp)

/-- Ask for what is managed, then go through the stages. -/
def fetched (fields : List String) (forge : GitHub) (name : String) (repo : Repo) (input : SoftwareIn) :
    Except String Forge.Syncing :=
  (if "readme" ∈ fields then forge.readme name else .ok none) >>= fun location =>
    (if "releases" ∈ fields then forge.releases name else .ok none) >>= fun found =>
      .ok (stages fields forge name repo location found { input })

theorem syncInto_eq : syncInto platform forge given fields input = match githubRepo given with
    | none => .error (platform.quoted given ++ " is not an owner/name repository")
    | some name => forge.repo name >>= fun answered => match answered with
      | none => .error ("no repository " ++ name ++ ", or it is private and the credential cannot see it")
      | some repo => fetched fields forge name repo input := by
  unfold syncInto fetched
  cases githubRepo given with
  | none => rfl
  | some name =>
    refine congrArg (forge.repo name >>= ·) ?_
    funext answered
    cases answered with
    | none => rfl
    | some repo => by_cases readme : "readme" ∈ fields <;> by_cases releases : "releases" ∈ fields <;>
        simp only [readme, releases, if_true, if_false] <;> rfl

/-- A run is the stages over answers that do not depend on the record. -/
theorem syncInto_ok (done : syncInto platform forge given fields input = .ok s) :
    ∃ name repo location found, s = stages fields forge name repo location found { input } ∧
      ∀ other, syncInto platform forge given fields other =
        .ok (stages fields forge name repo location found { input := other }) := by
  simp only [syncInto_eq] at done ⊢
  generalize githubRepo given = named at done ⊢
  cases named with
  | none => cases done
  | some name =>
    obtain ⟨answered, asked, done⟩ := Library.Results.bind_ok.1 done
    cases answered with
    | none => cases done
    | some repo =>
      obtain ⟨location, located, done⟩ := Library.Results.bind_ok.1 done
      obtain ⟨found, listed, done⟩ := Library.Results.bind_ok.1 done
      refine ⟨name, repo, location, found, (Except.ok.inj done).symm, fun other => ?_⟩
      simp only [fetched, asked, located, listed]
      rfl

/-- A run changes managed fields only and names each field it changed, and no other; it empties none, and no keyword of
a curator is lost. -/
theorem changes_told (done : syncInto platform forge given fields input = .ok s) :
    (∃ told : List Field, told.Nodup ∧ s.out.changed = told.map Field.name ∧
      (∀ field, field ∈ told ↔ field.value s.input ≠ field.value input) ∧ ∀ field ∈ told, field.manager ∈ fields) ∧
      curated s.input = curated input ∧ (∀ field : Field, field.value input ≠ [] → field.value s.input ≠ []) ∧
      Keeps input s.input := by
  obtain ⟨name, repo, location, found, rfl, _⟩ := syncInto_ok done
  have tells := (@stages_stage forge fields name repo location found).tells { input }
  obtain ⟨told, within, logged, changed⟩ := tells.told
  have listed : (managedOf fields allFields).Nodup := List.Nodup.filter _ (by decide)
  refine ⟨⟨told, listed.sublist within, logged, changed, fun field mem => ?_⟩, tells.kept, tells.filled, tells.keeps⟩
  exact of_decide_eq_true (List.mem_filter.1 (within.subset mem)).2

/-- With the same answers a second run finds nothing to do, and lists and skips the same. -/
theorem run_again (done : syncInto platform forge given fields input = .ok s) :
    ∃ again, syncInto platform forge given fields s.input = .ok again ∧ again.input = s.input ∧ again.out.changed = [] ∧
      again.out.releases = s.out.releases ∧ again.out.skipped = s.out.skipped := by
  obtain ⟨name, repo, location, found, rfl, answers⟩ := syncInto_ok done
  have whole := @stages_stage forge fields name repo location found
  obtain ⟨same, quiet⟩ := whole.settles { input } { input := _ } (fun _ _ => rfl)
  have log := whole.blind { input := (stages fields forge name repo location found { input }).input } { input } rfl
  exact ⟨_, answers _, same, quiet, congrArg Prod.fst log, congrArg Prod.snd log⟩

end Runs

section Specimen

open Specimen

def theRepo : Repo where
  description := some "shapes"
  homepage := none
  topics := ["rdf"]
  archived := true
  isPrivate := false
  defaultBranch := none
  spdxId := none

def theForge : GitHub where
  repo _ := .ok (some theRepo)
  readme _ := .ok (some "readme")
  download _ := some "text"
  releases _ := .ok none

def byHand : SoftwareIn := { name := "tool", tagline := some "by hand", keywords := ["RDF", "graphs"] }

def someFields : List String := ["keywords", "maturity", "readme"]

theorem byHand_told : ∃ s, syncInto (platform []) theForge "o/r" someFields byHand = .ok s ∧
    (∃ told : List Field, told.Nodup ∧ s.out.changed = told.map Field.name ∧
      (∀ field, field ∈ told ↔ field.value s.input ≠ field.value byHand) ∧ ∀ field ∈ told, field.manager ∈ someFields) ∧
      curated s.input = curated byHand ∧ (∀ field : Field, field.value byHand ≠ [] → field.value s.input ≠ []) ∧
      Keeps byHand s.input := by
  obtain ⟨s, done⟩ := Library.Results.exists_ok
    (show (syncInto (platform []) theForge "o/r" someFields byHand).toOption.isSome = true by decide)
  exact ⟨s, done, changes_told done⟩

theorem byHand_again : ∃ s again, syncInto (platform []) theForge "o/r" someFields byHand = .ok s ∧
    syncInto (platform []) theForge "o/r" someFields s.input = .ok again ∧ again.input = s.input ∧ again.out.changed = [] ∧
      again.out.releases = s.out.releases ∧ again.out.skipped = s.out.skipped := by
  obtain ⟨s, done⟩ := Library.Results.exists_ok
    (show (syncInto (platform []) theForge "o/r" someFields byHand).toOption.isSome = true by decide)
  obtain ⟨again, quiet⟩ := run_again done
  exact ⟨s, again, done, quiet⟩

end Specimen

end ToolArtifactRegistry.Laws.Synchronising
