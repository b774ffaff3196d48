import Mathlib.Data.List.TakeWhile
import ToolArtifactRegistry.Api.Subscriptions
import ToolArtifactRegistry.Library.Replace
import ToolArtifactRegistry.Library.Results
import ToolArtifactRegistry.Laws.Specimen

/-! Which artifacts a subscription is told about: the rule the documents give, beside the one the matcher
follows, and what becomes of a filter on its way into the store. -/
namespace ToolArtifactRegistry.Laws

open Library.Text Library.Replace Library.Results Ids Subscriptions Api.Subscriptions

section Joined

variable {α : Type}

theorem prefix_append_iff {part left right : List α} :
    part <+: left ++ right ↔ part <+: left ∨ ∃ rest, part = left ++ rest ∧ rest <+: right := by
  induction left generalizing part with
  | nil =>
    rw [List.nil_append, List.prefix_nil]
    constructor
    · intro begins
      exact Or.inr ⟨part, rfl, begins⟩
    · intro either
      rcases either with none_ | ⟨rest, same, begins⟩
      · rw [none_]
        exact List.nil_prefix
      · rw [same]
        exact begins
  | cons head left ih =>
    cases part with
    | nil => exact ⟨fun _ => Or.inl List.nil_prefix, fun _ => List.nil_prefix⟩
    | cons first part =>
      simp only [List.cons_append, List.cons_prefix_cons, ih, List.cons.injEq, and_or_left, and_assoc,
        exists_and_left]

/-- A part of two lists joined by an element lies in one of them, or over the joint. -/
theorem infix_joined_iff {part left right : List α} {joint : α} :
    part <:+: left ++ joint :: right ↔ part <:+: left ∨ part <:+: right ∨
      ∃ last first, part = last ++ joint :: first ∧ last <:+ left ∧ first <+: right := by
  constructor
  · intro inside
    induction left with
    | nil =>
      rw [List.nil_append, List.infix_cons_iff, List.prefix_cons_iff] at inside
      rcases inside with (empty | ⟨first, same, begins⟩) | later
      · rw [empty]
        exact Or.inl List.nil_infix
      · exact Or.inr (Or.inr ⟨[], first, same, List.nil_suffix, begins⟩)
      · exact Or.inr (Or.inl later)
    | cons head left ih =>
      rw [List.cons_append, List.infix_cons_iff, ← List.cons_append, prefix_append_iff] at inside
      rcases inside with (begins | ⟨rest, same, begins⟩) | later
      · exact Or.inl begins.isInfix
      · rcases List.prefix_cons_iff.mp begins with empty | ⟨first, more, within⟩
        · rw [same, empty, List.append_nil]
          exact Or.inl (List.infix_rfl)
        · rw [same, more]
          exact Or.inr (Or.inr ⟨head :: left, first, rfl, List.suffix_rfl, within⟩)
      · rcases ih later with early | late | ⟨last, first, same, ends, begins⟩
        · exact Or.inl (List.infix_cons_iff.mpr (Or.inr early))
        · exact Or.inr (Or.inl late)
        · exact Or.inr (Or.inr ⟨last, first, same, ends.trans (List.suffix_cons head left), begins⟩)
  · intro either
    rcases either with early | late | ⟨last, first, same, ⟨before, ends⟩, ⟨after, begins⟩⟩
    · exact early.trans List.infix_append_left
    · exact (late.trans (List.suffix_cons joint right).isInfix).trans List.infix_append_right
    · rw [same, ← ends, ← begins]
      exact ⟨before, after, by simp⟩

end Joined

section Rule

/-- The lower case of a text by Unicode: a space between two texts parts them, and no character is lost. -/
structure Lowering (lower : String → String) : Prop where
  joined : ∀ left right, lower (left ++ " " ++ right) = lower left ++ " " ++ lower right
  empty : lower "" = ""
  some_ : ∀ text, text ≠ "" → lower text ≠ ""

variable (lower : String → String) (filter : Subscriptions.Filter) (owner : String) (c : Candidate)

/-- A field that is given holds the candidate's value. -/
def Allows (wanted : List String) (value : Option String) : Prop := wanted ≠ [] → ∃ v ∈ wanted, value = some v

/-- A keyword, when any is given, is one of the candidate's but for case and surrounding blanks. -/
def AllowsKeyword (wanted held : List String) : Prop :=
  wanted ≠ [] → ∃ want ∈ wanted, ∃ own ∈ held, toAsciiLowercase (trim own) = toAsciiLowercase (trim want)

/-- Everything the documents ask of a candidate but the free text. -/
structure AllowedFields : Prop where
  role : c.role ∈ filter.effectiveRoles
  own : filter.excludeOwn = true → c.instanceIri ≠ some owner
  conformsTo : Allows filter.conformsTo c.conformsTo
  software : Allows filter.software c.softwareIri
  inst : Allows filter.inst c.instanceIri
  license : Allows filter.license c.license
  availability : Allows filter.availability (some c.availability)
  keywords : AllowsKeyword filter.keywords c.keywords

/-- A text that is there has another in it, whatever the case. -/
def OccursIn (needle : String) (text : Option String) : Prop := ∃ t, text = some t ∧ contains (lower t) (lower needle) = true

/-- The free text, when it is not blank, occurs in the title or in the description. -/
def AllowsText (q title description : Option String) : Prop :=
  ∀ text, q = some text → trim text ≠ "" → OccursIn lower (trim text) title ∨ OccursIn lower (trim text) description

/-- The rule as the documents give it. -/
def Specified : Prop := AllowedFields filter owner c ∧ AllowsText lower filter.q c.title c.description

/-- The free text is found over the joint of title and description only: it ends the one, goes on after a space
and begins the other. -/
def Straddles (q title description : Option String) : Prop :=
  ∃ text last first, q = some text ∧ trim text ≠ "" ∧ (lower (trim text)).toList = last ++ ' ' :: first ∧
    last <:+ (lower (title.getD "")).toList ∧ first <+: (lower (description.getD "")).toList ∧
    ¬ OccursIn lower (trim text) title ∧ ¬ OccursIn lower (trim text) description

variable {lower filter owner c}

theorem anyOf_iff {allowed : List String} {value : Option String} : anyOf allowed value = true ↔ Allows allowed value := by
  unfold anyOf Allows
  cases allowed with
  | nil => simp
  | cons head tail =>
    cases value with
    | none => simp
    | some v =>
      simp only [List.isEmpty_cons, Bool.false_or, Option.any_some, decide_eq_true_eq, ne_eq, reduceCtorEq,
        not_false_eq_true, forall_const, Option.some.injEq, exists_eq_right']

theorem keywordsMatch_iff {wanted held : List String} :
    keywordsMatch wanted held = true ↔ AllowsKeyword wanted held := by
  unfold keywordsMatch AllowsKeyword Subscriptions.eqIgnoreAsciiCase
  cases wanted <;> simp

theorem occursIn_iff (lowering : Lowering lower) {needle : String} (some_ : needle ≠ "") {text : Option String} :
    OccursIn lower needle text ↔ (lower needle).toList <:+: (lower (text.getD "")).toList := by
  unfold OccursIn
  cases text with
  | none =>
    rw [Option.getD_none, lowering.empty, show "".toList = [] from rfl, List.infix_nil]
    constructor
    · intro there
      obtain ⟨_, nothing, _⟩ := there
      cases nothing
    · intro nothing
      exact absurd (String.toList_inj.mp nothing) (lowering.some_ needle some_)
  | some t =>
    rw [Option.getD_some, ← contains_iff]
    simp

/-- The matcher's free text: in the title, in the description, or over their joint. -/
theorem textMatches_iff (lowering : Lowering lower) {q title description : Option String} :
    textMatches lower q title description = true ↔
      AllowsText lower q title description ∨ Straddles lower q title description := by
  unfold textMatches AllowsText Straddles
  cases q with
  | none => simp
  | some text =>
    by_cases blank : trim text = ""
    · have none_ : ((some text).map trim).filter (fun needle => needle != "") = none := by
        rw [Option.map_some, blank]
        rfl
      rw [none_]
      constructor
      · intro _
        refine Or.inl (fun other same given => ?_)
        rw [← Option.some.inj same] at given
        exact absurd blank given
      · intro _
        rfl
    · have needle : ((some text).map trim).filter (fun needle => needle != "") = some (trim text) := by
        simp [blank]
      have joined : contains (lower (title.getD "" ++ " " ++ description.getD "")) (lower (trim text)) = true ↔
          OccursIn lower (trim text) title ∨ OccursIn lower (trim text) description ∨
            ∃ last first, (lower (trim text)).toList = last ++ ' ' :: first ∧
              last <:+ (lower (title.getD "")).toList ∧ first <+: (lower (description.getD "")).toList := by
        rw [contains_iff, lowering.joined, String.toList_append, String.toList_append,
          show " ".toList = [' '] from rfl, List.append_assoc, List.singleton_append, infix_joined_iff,
          occursIn_iff lowering blank, occursIn_iff lowering blank]
      rw [needle]
      dsimp only
      rw [joined]
      constructor
      · intro found
        by_cases apart : OccursIn lower (trim text) title ∨ OccursIn lower (trim text) description
        · refine Or.inl (fun other same _ => ?_)
          rw [← Option.some.inj same]
          exact apart
        · rcases found with early | late | ⟨last, first, same, ends, begins⟩
          · exact absurd (Or.inl early) apart
          · exact absurd (Or.inr late) apart
          · rw [not_or] at apart
            exact Or.inr ⟨text, last, first, rfl, blank, same, ends, begins, apart.1, apart.2⟩
      · intro either
        rcases either with apart | ⟨other, last, first, same, _, spelled, ends, begins, _, _⟩
        · exact (apart text rfl blank).imp_right Or.inl
        · rw [← Option.some.inj same] at spelled
          exact Or.inr (Or.inr ⟨last, first, spelled, ends, begins⟩)

theorem fields_iff : (filter.effectiveRoles.any (fun role => decide (role = c.role)) &&
    !(filter.excludeOwn && decide (c.instanceIri = some owner)) &&
    anyOf filter.conformsTo c.conformsTo && anyOf filter.software c.softwareIri &&
    anyOf filter.inst c.instanceIri && anyOf filter.license c.license &&
    anyOf filter.availability (some c.availability) && keywordsMatch filter.keywords c.keywords) = true ↔
      AllowedFields filter owner c := by
  simp only [Bool.and_eq_true, anyOf_iff, keywordsMatch_iff, List.any_eq_true, decide_eq_true_eq, Bool.not_eq_true',
    Bool.and_eq_false_iff, decide_eq_false_iff_not, exists_eq_right]
  constructor
  · intro all
    obtain ⟨⟨⟨⟨⟨⟨⟨role, own⟩, conformsTo⟩, software⟩, inst⟩, license⟩, availability⟩, keywords⟩ := all
    refine ⟨role, fun excluded => ?_, conformsTo, software, inst, license, availability, keywords⟩
    exact own.resolve_left (by simp [excluded])
  · intro all
    refine ⟨⟨⟨⟨⟨⟨⟨all.role, ?_⟩, all.conformsTo⟩, all.software⟩, all.inst⟩, all.license⟩, all.availability⟩, all.keywords⟩
    cases excluded : filter.excludeOwn with
    | false => exact Or.inl rfl
    | true => exact Or.inr (all.own excluded)

theorem matches_iff (lowering : Lowering lower) : matches_ lower filter owner c = true ↔
    AllowedFields filter owner c ∧
      (AllowsText lower filter.q c.title c.description ∨ Straddles lower filter.q c.title c.description) := by
  unfold matches_
  rw [Bool.and_eq_true, fields_iff, textMatches_iff lowering]

theorem straddles_not_allowed (straddles : Straddles lower filter.q c.title c.description) :
    ¬ AllowsText lower filter.q c.title c.description := by
  intro allowed
  obtain ⟨text, _, _, given, some_, _, _, _, noTitle, noDescription⟩ := straddles
  exact (allowed text given some_).elim noTitle noDescription

theorem asciiLower_joined (left right : String) :
    toAsciiLowercase (left ++ " " ++ right) = toAsciiLowercase left ++ " " ++ toAsciiLowercase right := by
  unfold toAsciiLowercase
  rw [← String.toList_inj]
  simp [String.toList_append, asciiLower]

/-- Texts of ASCII letters. -/
theorem asciiLowering : Lowering toAsciiLowercase where
  joined := asciiLower_joined
  empty := by decide
  some_ text given none_ := by
    have chars := congrArg String.toList none_
    unfold toAsciiLowercase at chars
    rw [String.toList_ofList] at chars
    exact given (String.toList_inj.mp (List.map_eq_nil_iff.mp chars))

/-- An artifact that was produced, titled "a b" and described as "c d". -/
def titled : Candidate :=
  ⟨"https://reg.example/artifact/a", some "a b", some "c d", none, none, [], "public", none, none, "produced"⟩

end Rule

section Normalised

variable {platform : Platform} {lower : String → String} {base : String} {filter stored : Subscriptions.Filter}

/-- Blank texts are those of white space only. -/
theorem trim_eq_empty {text : String} : trim text = "" ↔ ∀ c ∈ text.toList, isWhiteSpace c = true := by
  have chars : trim text = "" ↔ (text.toList.dropWhile isWhiteSpace).reverse.dropWhile isWhiteSpace = [] := by
    rw [← String.toList_inj]
    unfold trim trimEndMatches trimStartMatches
    rw [String.toList_ofList, String.toList_ofList, show "".toList = [] from rfl, List.reverse_eq_nil_iff]
  rw [chars, List.dropWhile_eq_nil_iff]
  constructor
  · intro blank
    rw [← List.dropWhile_eq_nil_iff]
    by_contra more
    have first := List.head_dropWhile_not isWhiteSpace (l := text.toList) more
    rw [blank _ (List.mem_reverse.mpr (List.head_mem more))] at first
    cases first
  · intro blank c mem
    exact blank c ((List.dropWhile_sublist _).mem (List.mem_reverse.mp mem))

theorem notBlank_iff {text : String} : notBlank text = true ↔ trim text ≠ "" := by
  unfold notBlank
  rw [bne_iff_ne]

theorem notBlank_of_begins {text : String} {c : Char} {rest : List Char} (begins : c :: rest <+: text.toList)
    (ink : isWhiteSpace c = false) : notBlank text = true := by
  rw [notBlank_iff]
  intro blank
  rw [trim_eq_empty.mp blank c (begins.subset List.mem_cons_self)] at ink
  cases ink

theorem requireIri_ok {field value : String} (fine : requireIri platform field value = .ok ()) : notBlank value = true := by
  unfold requireIri at fine
  split at fine
  · case _ begins =>
    rw [Bool.or_eq_true, Bool.or_eq_true] at begins
    unfold startsWith at begins
    simp only [List.isPrefixOf_iff_prefix] at begins
    rcases begins with (http | https) | urn
    · exact notBlank_of_begins (c := 'h') http (by decide)
    · exact notBlank_of_begins (c := 'h') https (by decide)
    · exact notBlank_of_begins (c := 'u') urn (by decide)
  · cases fine

theorem requireIris_ok {field : String} {values : List String} (fine : requireIris platform field values = .ok ()) :
    values.filter notBlank = values := by
  induction values with
  | nil => rfl
  | cons value rest ih =>
    obtain ⟨_, first, later⟩ := bind_ok.mp fine
    rw [List.filter_cons_of_pos (requireIri_ok first), ih later]

/-- What an accepted filter is stored as: the ids expanded, the blank keywords gone. -/
theorem normaliseFilter_ok : normaliseFilter platform base filter = .ok stored ↔
    requireIris platform "conforms_to" filter.conformsTo = .ok () ∧
    requireIris platform "license" filter.license = .ok () ∧
    requireKnown availabilities (fun a => AppError.badRequest
      ("unknown availability " ++ platform.quoted a ++ "; known: " ++ join ", " availabilities)) filter.availability = .ok () ∧
    requireKnown [roleProduced, roleConsumed] (fun r => AppError.badRequest
      ("unknown role " ++ platform.quoted r ++ "; known: produced, consumed")) filter.roles = .ok () ∧
    { filter with
      software := filter.software.map (iriFor base .software)
      inst := filter.inst.map (iriFor base .instance_)
      keywords := filter.keywords.filter notBlank } = stored := by
  unfold normaliseFilter
  rw [unit_ok, unit_ok, unit_ok, unit_ok, pure_ok]
  constructor
  · intro all
    obtain ⟨types, licenses, availability, roles, same⟩ := all
    rw [requireIris_ok types, requireIris_ok licenses] at same
    exact ⟨types, licenses, availability, roles, same⟩
  · intro all
    obtain ⟨types, licenses, availability, roles, same⟩ := all
    rw [requireIris_ok types, requireIris_ok licenses]
    exact ⟨types, licenses, availability, roles, same⟩

/-- A filter with its bare ids expanded. -/
def expanded (base : String) (filter : Subscriptions.Filter) : Subscriptions.Filter :=
  { filter with
    software := filter.software.map (iriFor base .software)
    inst := filter.inst.map (iriFor base .instance_) }

/-- What is constrained before is constrained after. -/
structure StillConstrains (filter stored : Subscriptions.Filter) : Prop where
  conformsTo : filter.conformsTo ≠ [] → stored.conformsTo ≠ []
  software : filter.software ≠ [] → stored.software ≠ []
  inst : filter.inst ≠ [] → stored.inst ≠ []
  keywords : filter.keywords ≠ [] → stored.keywords ≠ []
  license : filter.license ≠ [] → stored.license ≠ []
  availability : filter.availability ≠ [] → stored.availability ≠ []
  roles : filter.roles ≠ [] → stored.roles ≠ []
  q : ∀ text, filter.q = some text → trim text ≠ "" → ∃ kept, stored.q = some kept ∧ trim kept ≠ ""
  own : filter.excludeOwn = true → stored.excludeOwn = true

/-- A filter is stored no wider than it was given, its constraints stay, and storing it again changes nothing. -/
structure NeverWidened (lower : String → String) (platform : Platform) (base : String)
    (filter stored : Subscriptions.Filter) : Prop where
  narrower : ∀ owner c, matches_ lower stored owner c = true → matches_ lower (expanded base filter) owner c = true
  constrained : StillConstrains filter stored
  again : normaliseFilter platform base stored = .ok stored

theorem isHttp_append {text : String} (http : isHttp text = true) (rest : String) : isHttp (text ++ rest) = true := by
  unfold isHttp at http ⊢
  rw [Bool.or_eq_true, startsWith_iff, startsWith_iff] at http ⊢
  rcases http with ⟨more, same⟩ | ⟨more, same⟩
  · exact Or.inl ⟨more ++ rest, by rw [same, String.append_assoc]⟩
  · exact Or.inr ⟨more ++ rest, by rw [same, String.append_assoc]⟩

/-- An expanded id is a full IRI. -/
theorem iriFor_iriFor (http : isHttp (trimSlash base) = true) (kind : Kind) (id : String) :
    iriFor base kind (iriFor base kind id) = iriFor base kind id := by
  apply iriFor_of_isHttp
  by_cases full : isHttp id = true
  · rw [iriFor_of_isHttp full]
    exact full
  · unfold iriFor iriOf
    rw [if_neg full]
    simp only [String.append_assoc]
    exact isHttp_append http _

theorem normaliseFilter_again (http : isHttp (trimSlash base) = true)
    (accepted : normaliseFilter platform base filter = .ok stored) : normaliseFilter platform base stored = .ok stored := by
  rw [normaliseFilter_ok] at accepted ⊢
  obtain ⟨types, licenses, availability, roles, same⟩ := accepted
  have software : (filter.software.map (iriFor base .software)).map (iriFor base .software) =
      filter.software.map (iriFor base .software) := by
    rw [List.map_map]
    exact List.map_congr_left (fun id _ => iriFor_iriFor http .software id)
  have inst : (filter.inst.map (iriFor base .instance_)).map (iriFor base .instance_) =
      filter.inst.map (iriFor base .instance_) := by
    rw [List.map_map]
    exact List.map_congr_left (fun id _ => iriFor_iriFor http .instance_ id)
  have keywords : (filter.keywords.filter notBlank).filter notBlank = filter.keywords.filter notBlank := by
    rw [List.filter_filter]
    simp only [Bool.and_self]
  rw [← same]
  refine ⟨types, licenses, availability, roles, ?_⟩
  dsimp only
  rw [software, inst, keywords]

/-- Fewer keywords, of which some are left, let fewer candidates through. -/
theorem keywordsMatch_filter {wanted held : List String} {keep : String → Bool}
    (some_ : wanted = [] ∨ ∃ want ∈ wanted, keep want = true)
    (found : keywordsMatch (wanted.filter keep) held = true) : keywordsMatch wanted held = true := by
  rw [keywordsMatch_iff] at found ⊢
  intro given
  rcases some_ with none_ | ⟨want, mem, kept⟩
  · exact absurd none_ given
  · obtain ⟨other, left, own, has, same⟩ := found (List.ne_nil_of_mem (List.mem_filter.mpr ⟨mem, kept⟩))
    exact ⟨other, (List.mem_filter.mp left).1, own, has, same⟩

/-- An accepted filter is never widened exactly if it has no keywords, or one that is not blank. -/
theorem normaliseFilter_narrows_iff (platform : Platform) (lower : String → String) (base : String)
    (http : isHttp (trimSlash base) = true) (filter stored : Subscriptions.Filter)
    (accepted : normaliseFilter platform base filter = .ok stored) :
    NeverWidened lower platform base filter stored ↔
      filter.keywords = [] ∨ ∃ keyword ∈ filter.keywords, trim keyword ≠ "" := by
  have same := (normaliseFilter_ok.mp accepted).2.2.2.2
  have keywords : stored.keywords = filter.keywords.filter notBlank := by rw [← same]
  constructor
  · intro never
    by_cases none_ : filter.keywords = []
    · exact Or.inl none_
    · have kept := never.constrained.keywords none_
      rw [keywords] at kept
      obtain ⟨keyword, mem⟩ := List.exists_mem_of_ne_nil _ kept
      rw [List.mem_filter, notBlank_iff] at mem
      exact Or.inr ⟨keyword, mem.1, mem.2⟩
  · intro some_
    have remains : filter.keywords = [] ∨ ∃ keyword ∈ filter.keywords, notBlank keyword = true := by
      simpa only [notBlank_iff] using some_
    refine ⟨fun owner c found => ?_, ?_, normaliseFilter_again http accepted⟩
    · rw [← same] at found
      unfold matches_ at found ⊢
      simp only [Bool.and_eq_true] at found ⊢
      obtain ⟨⟨others, keyword⟩, text⟩ := found
      exact ⟨⟨others, keywordsMatch_filter remains keyword⟩, text⟩
    · rw [← same]
      exact
        { conformsTo := id
          software := fun given none_ => given (List.map_eq_nil_iff.mp none_)
          inst := fun given none_ => given (List.map_eq_nil_iff.mp none_)
          keywords := by
            intro given none_
            rcases remains with empty | ⟨keyword, mem, kept⟩
            · exact given empty
            · exact List.ne_nil_of_mem (List.mem_filter.mpr ⟨mem, kept⟩) none_
          license := id
          availability := id
          roles := id
          q := fun text given some_ => ⟨text, given, some_⟩
          own := id }

theorem stored_keywords {kept : List String} {filter : Subscriptions.Filter} (given : filter = { keywords := filter.keywords })
    (left : filter.keywords.filter notBlank = kept) :
    normaliseFilter platform base filter = .ok { keywords := kept } := by
  rw [normaliseFilter_ok, left, given]
  exact ⟨rfl, rfl, rfl, rfl, rfl⟩

theorem keyword_stays : NeverWidened toAsciiLowercase (Specimen.platform []) "https://reg.example" { keywords := ["rdf", " "] }
    { keywords := ["rdf"] } := by
  have left : ["rdf", " "].filter notBlank = ["rdf"] := by decide
  exact (normaliseFilter_narrows_iff (Specimen.platform []) toAsciiLowercase "https://reg.example" (by decide)
    { keywords := ["rdf", " "] } { keywords := ["rdf"] } (stored_keywords rfl left)).mpr
    (Or.inr ⟨"rdf", List.mem_cons_self, by decide⟩)

/-- A filter on a blank keyword matches nothing, and is stored as one that matches everything produced elsewhere. -/
theorem blank_keyword_widens :
    normaliseFilter (Specimen.platform []) "https://reg.example" { keywords := [" "] } = .ok { keywords := [] } ∧
      matches_ toAsciiLowercase { keywords := [] } "https://reg.example/instance/i" titled = true ∧
      matches_ toAsciiLowercase (expanded "https://reg.example" { keywords := [" "] }) "https://reg.example/instance/i" titled =
        false ∧
      ¬ StillConstrains { keywords := [" "] } { keywords := [] } := by
  have left : [" "].filter notBlank = [] := by decide
  exact ⟨stored_keywords rfl left, by decide, by decide,
    fun still => still.keywords (List.cons_ne_nil " " []) rfl⟩

end Normalised

end ToolArtifactRegistry.Laws
