import ToolArtifactRegistry.Laws.Specimen
import ToolArtifactRegistry.Library.Spelling
import ToolArtifactRegistry.Translating

/-! An old IRI in a request means what the new one means, where its base can be seen in the text as it was sent. -/
namespace ToolArtifactRegistry.Laws

open Library.Text Library.Replace Library.Spelling Ids Rebase

/-- What the handler of a request reads its body as. -/
inductive ReadAs where
  | form
  | json
  | sparql

def ReadAs.escapes (kind : ReadAs) : Escapes :=
  match kind with
  | .sparql => .sparql
  | .form | .json => .json

/-- Whether the content type has a body taken for what it is read as. -/
def ReadAs.recognised (kind : ReadAs) (contentType : String) : Bool :=
  match kind with
  | .form => isForm contentType
  | .json | .sparql => !isForm contentType && isText contentType

/-- Whether it has a form taken for JSON or SPARQL, or these for a form. -/
def ReadAs.mistaken (kind : ReadAs) (contentType : String) : Bool :=
  match kind with
  | .form => !isForm contentType && isText contentType
  | .json | .sparql => isForm contentType

/-- What an IRI under a base begins with. -/
def spelled (base : String) : List Char := (base ++ "/").toList

def oldSpellings (bases : Bases) : List (List Char) := bases.previousBaseIris.map spelled

def newSpelling (bases : Bases) : List Char := spelled (trimSlash bases.baseIri)

/-- Every IRI under an old base stands under the new one instead, and nothing else is changed. -/
def Says (bases : Bases) (sent got : List Char) : Prop := Translated (oldSpellings bases) (newSpelling bases) sent got

def FormSays (forms : Forms) (bases : Bases) (sent got : String) : Prop :=
  List.Forall₂ (fun one two => two.1 = one.1 ∧ Says bases one.2.toList two.2.toList) (forms.parse sent) (forms.parse got)

/-- In the text as well as in what it is read as. -/
def TextSays (e : Escapes) (bases : Bases) (sent got : String) : Prop :=
  Says bases sent.toList got.toList ∧
    ∀ reading, Spells e sent.toList reading → ∃ after, Spells e got.toList after ∧ Says bases reading after

def QuerySays (forms : Forms) (bases : Bases) : Option String → Option String → Prop
  | none, none => True
  | some sent, some got => FormSays forms bases sent got
  | _, _ => False

def BodySays (forms : Forms) (bases : Bases) (kind : ReadAs) : Payload → Payload → Prop
  | .text sent, .text got =>
    match kind with
    | .form => FormSays forms bases sent got
    | .json | .sparql => TextSays kind.escapes bases sent got
  | .other sent, .other got => sent = got
  | _, _ => False

/-- The request that reaches the handler says under the new names what was sent under the old ones. -/
structure Means (forms : Forms) (bases : Bases) (kind : ReadAs) (sent got : Request) : Prop where
  path : got.path = sent.path
  contentType : got.contentType = sent.contentType
  query : QuerySays forms bases sent.query got.query
  body : BodySays forms bases kind sent.body got.body

def Untouched (bases : Bases) (text : List Char) : Prop := ∀ old ∈ oldSpellings bases, ¬old <:+: text

instance (bases : Bases) (text : List Char) : Decidable (Untouched bases text) :=
  inferInstanceAs (Decidable (∀ old ∈ oldSpellings bases, ¬old <:+: text))

/-- No value of a form holds an old IRI. -/
def NoneHeld (forms : Forms) (bases : Bases) (form : String) : Prop :=
  ∀ pair ∈ forms.parse form, Untouched bases pair.2.toList

def mentioned (bases : Bases) (text : String) : Bool := bases.previousBaseIris.any (mentions text)

/-- The body is left alone or fits the limit. -/
def BodyFits (bases : Bases) (limit : Nat) (request : Request) : Prop :=
  bases.previousBaseIris = [] ∨ (isForm (request.contentType.getD "") = false ∧ isText (request.contentType.getD "") = false) ∨
    request.body.size ≤ limit

/-- The query names no old IRI, or a base shows in it as it was sent and the new target is no longer than a target can be. -/
def QueryHeard (forms : Forms) (bases : Bases) (request : Request) : Prop :=
  ∀ q, request.query = some q → NoneHeld forms bases q ∨
    (mentioned bases q = true ∧
      forms.accepts (request.path ++ "?" ++ rewriteForm forms q bases.previousBaseIris (trimSlash bases.baseIri)) = true)

/-- The body names no old IRI, or its content type is recognised and the base shows in it as it was sent. -/
def BodyHeard (forms : Forms) (bases : Bases) (kind : ReadAs) (request : Request) : Prop :=
  ∀ text, request.body = .text text →
    match kind with
    | .form => NoneHeld forms bases text ∨ (isForm (request.contentType.getD "") = true ∧ mentioned bases text = true)
    | .json | .sparql =>
      (Untouched bases text.toList ∧ ∀ reading, Spells kind.escapes text.toList reading → Untouched bases reading) ∨
        (kind.recognised (request.contentType.getD "") = true ∧
          ∀ reading, Spells kind.escapes text.toList reading → Raw kind.escapes (oldSpellings bases) text.toList reading)

/-- Of the bases a value names no two overlap there, and none overlaps the new one. -/
def Lone (bases : Bases) (text : List Char) : Prop := Apart (oldSpellings bases) (newSpelling bases) text

/-- No value of the request names overlapping bases. -/
structure Separate (forms : Forms) (bases : Bases) (kind : ReadAs) (request : Request) : Prop where
  query : ∀ q, request.query = some q → ∀ pair ∈ forms.parse q, Lone bases pair.2.toList
  body : ∀ text, request.body = .text text →
    match kind with
    | .form => ∀ pair ∈ forms.parse text, Lone bases pair.2.toList
    | .json | .sparql => Lone bases text.toList ∧ ∀ reading, Spells kind.escapes text.toList reading → Lone bases reading

section Bases

variable {platform : Platform} {base previous : Option String} {bases : Bases}

theorem trimSlash_append (text : String) : ∃ rest, text.toList = (trimSlash text).toList ++ rest := by
  unfold trimSlash trimEndMatches
  rw [String.toList_ofList]
  refine ⟨(text.toList.reverse.takeWhile (fun c => c == '/')).reverse, ?_⟩
  rw [← List.reverse_append, List.takeWhile_append_dropWhile, List.reverse_reverse]

theorem head_of_isHttp {text : String} (http : isHttp (trimSlash text) = true) : ∃ rest, text.toList = 'h' :: rest := by
  obtain ⟨more, same⟩ := trimSlash_append text
  rw [same]
  rcases Bool.or_eq_true_iff.mp http with starts | starts
  · obtain ⟨rest, whole⟩ := startsWith_iff.mp starts
    exact ⟨_, by rw [whole, String.toList_append]; rfl⟩
  · obtain ⟨rest, whole⟩ := startsWith_iff.mp starts
    exact ⟨_, by rw [whole, String.toList_append]; rfl⟩

theorem forM_ok {α : Type} {check : α → Except String Unit} {list : List α} (all : list.forM check = .ok ()) :
    ∀ x ∈ list, check x = .ok () := by
  induction list with
  | nil => exact fun _ mem => nomatch mem
  | cons first rest ih =>
    intro x mem
    change (check first >>= fun _ => rest.forM check) = .ok () at all
    cases checked : check first with
    | error e =>
      rw [checked] at all
      cases all
    | ok done =>
      rw [checked] at all
      rcases List.mem_cons.mp mem with same | there
      · rw [same]
        exact checked
      · exact ih all x there

theorem spelled_head {text : String} (http : isHttp (trimSlash text) = true) : ∃ rest, spelled text = 'h' :: rest := by
  obtain ⟨rest, same⟩ := head_of_isHttp http
  exact ⟨rest ++ "/".toList, by rw [spelled, String.toList_append, same]; rfl⟩

/-- The bases a registry runs with are URLs, and an IRI under one begins like a URL. -/
theorem heads_of_readBases (set : readBases platform base previous = .ok bases) :
    (∀ old ∈ oldSpellings bases, ∃ rest, old = 'h' :: rest) ∧ ∃ rest, newSpelling bases = 'h' :: rest := by
  unfold readBases at set
  cases set_ : env base with
  | none =>
    rw [set_] at set
    cases set
  | some text =>
    rw [set_] at set
    dsimp only at set
    split at set
    · cases set
    · next http =>
      have http : isHttp (trimSlash text) = true := by simpa using http
      cases checked : (((split ((env previous).getD "") (fun c => c == ',')).map (fun s => trimSlash (trim s))).filter
          (fun s => s != "")).forM (fun old => checkBases platform old (trimSlash text)) with
      | error e =>
        rw [checked] at set
        cases set
      | ok done =>
        rw [checked] at set
        cases set
        refine ⟨fun old mem => ?_, spelled_head ?_⟩
        · obtain ⟨text', there, rfl⟩ := List.mem_map.mp mem
          have passed := forM_ok checked text' there
          unfold checkBases at passed
          dsimp only at passed
          split at passed
          · cases passed
          · next http' => exact spelled_head (by simpa using http')
        · rw [trimSlash_trimSlash, trimSlash_trimSlash]
          exact http

end Bases

section Values

variable {bases : Bases}

theorem says_rewriteAll (some_ : newSpelling bases ≠ []) {text : String} (lone : Lone bases text.toList) :
    Says bases text.toList (rewriteAll bases.previousBaseIris (trimSlash bases.baseIri) text).toList := by
  rw [rewriteAll_toList]
  exact translated_replaceAll some_ lone

theorem says_self (some_ : newSpelling bases ≠ []) {text : List Char} (lone : Lone bases text) :
    Says bases text text ↔ Untouched bases text := translated_self some_ lone

variable {forms : Forms}

theorem formSays_rewriteForm (some_ : newSpelling bases ≠ []) {form : String} (lone : ∀ pair ∈ forms.parse form, Lone bases pair.2.toList) :
    FormSays forms bases form (rewriteForm forms form bases.previousBaseIris (trimSlash bases.baseIri)) := by
  unfold FormSays rewriteForm
  rw [forms.parses, List.forall₂_map_right_iff, List.forall₂_same]
  exact fun pair mem => ⟨rfl, says_rewriteAll some_ (lone pair mem)⟩

theorem formSays_self (some_ : newSpelling bases ≠ []) {form : String} (lone : ∀ pair ∈ forms.parse form, Lone bases pair.2.toList) :
    FormSays forms bases form form ↔ NoneHeld forms bases form := by
  unfold FormSays NoneHeld
  rw [List.forall₂_same]
  constructor
  · exact fun all pair mem => (says_self some_ (lone pair mem)).mp (all pair mem).2
  · exact fun all pair mem => ⟨rfl, (says_self some_ (lone pair mem)).mpr (all pair mem)⟩

/-- A text that does not show a base holds no IRI under it as it stands. -/
theorem rewriteAll_of_unmentioned {text : String} (unseen : mentioned bases text = false) :
    rewriteAll bases.previousBaseIris (trimSlash bases.baseIri) text = text := by
  apply String.toList_inj.mp
  rw [rewriteAll_toList]
  refine replaceAll_of_absent (fun old mem inside => ?_)
  obtain ⟨base, there, rfl⟩ := List.mem_map.mp mem
  exact List.any_eq_false.mp unseen base there (mentions_of_contains (contains_iff.mpr inside))

theorem textSays_rewriteAll {e : Escapes} (some_ : newSpelling bases ≠ []) (outside : ∀ old ∈ oldSpellings bases, Outside e old)
    (free : backslash ∉ newSpelling bases) {text : String} (lone : Lone bases text.toList)
    (lones : ∀ reading, Spells e text.toList reading → Lone bases reading) :
    TextSays e bases text (rewriteAll bases.previousBaseIris (trimSlash bases.baseIri) text) ↔
      ∀ reading, Spells e text.toList reading → Raw e (oldSpellings bases) text.toList reading := by
  have each : ∀ reading, Spells e text.toList reading →
      ((∃ after, Spells e (rewriteAll bases.previousBaseIris (trimSlash bases.baseIri) text).toList after ∧ Says bases reading after) ↔
        Raw e (oldSpellings bases) text.toList reading) := by
    intro reading reads
    rw [rewriteAll_toList]
    exact spells_replaceAll some_ (lones reading reads) outside free reads
  constructor
  · exact fun says_ reading reads => (each reading reads).mp (says_.2 reading reads)
  · exact fun raw => ⟨says_rewriteAll some_ lone, fun reading reads => (each reading reads).mpr (raw reading reads)⟩

theorem textSays_self {e : Escapes} (some_ : newSpelling bases ≠ []) {text : String} (lone : Lone bases text.toList)
    (lones : ∀ reading, Spells e text.toList reading → Lone bases reading) :
    TextSays e bases text text ↔
      Untouched bases text.toList ∧ ∀ reading, Spells e text.toList reading → Untouched bases reading := by
  have each : ∀ reading, Spells e text.toList reading →
      ((∃ after, Spells e text.toList after ∧ Says bases reading after) ↔ Untouched bases reading) :=
    fun reading reads => spells_self some_ (lones reading reads) reads
  constructor
  · exact fun says_ => ⟨(says_self some_ lone).mp says_.1, fun reading reads => (each reading reads).mp (says_.2 reading reads)⟩
  · exact fun free => ⟨(says_self some_ lone).mpr free.1, fun reading reads => (each reading reads).mpr (free.2 reading reads)⟩

/-- An IRI under an old base says what the renamed one does, and nothing else. -/
theorem says_iff_rewriteIri (some_ : newSpelling bases ≠ []) {old path : String} (mem : old ∈ bases.previousBaseIris)
    (lone : Lone bases (old ++ "/" ++ path).toList) (once : Untouched bases path.toList) (got : String) :
    Says bases (old ++ "/" ++ path).toList got.toList ↔
      rewriteIri (old ++ "/" ++ path) old (trimSlash bases.baseIri) = some got := by
  have renamed : rewriteIri (old ++ "/" ++ path) old (trimSlash bases.baseIri) = some (trimSlash bases.baseIri ++ "/" ++ path) :=
    rewriteIri_eq_some.mpr (Or.inr ⟨path, rfl, rfl⟩)
  have kept : ∀ text, Untouched bases text → Translated (oldSpellings bases) (newSpelling bases) text text := by
    intro text free
    induction text with
    | nil => exact .nil
    | cons c rest ih =>
      refine .keep (fun old mem starts => free old mem starts.isInfix) (ih (fun old mem inside => ?_))
      exact free old mem (List.infix_cons_iff.mpr (Or.inr inside))
  have put : Says bases (old ++ "/" ++ path).toList (trimSlash bases.baseIri ++ "/" ++ path).toList := by
    have cut : ∀ base : String, (base ++ "/" ++ path).toList = spelled base ++ path.toList := fun base => String.toList_append
    rw [cut, cut]
    exact .put (List.mem_map_of_mem mem) (kept path.toList once)
  rw [renamed]
  constructor
  · intro says_
    have one := replaceAll_translated some_ lone.2 (says_.filter absent_of_filtered)
    have two := replaceAll_translated some_ lone.2 (put.filter absent_of_filtered)
    rw [one] at two
    rw [String.toList_inj.mp two]
  · intro same
    rw [← Option.some.inj same]
    exact put

end Values

section Requests

variable {forms : Forms} {bases : Bases} {limit : Nat} {request : Request}

/-- The body that reaches the handler. -/
def receivedBody (forms : Forms) (bases : Bases) (request : Request) : Payload :=
  match request.body with
  | .other size => .other size
  | .text text =>
    if mentioned bases text then
      if isForm (request.contentType.getD "") then .text (rewriteForm forms text bases.previousBaseIris (trimSlash bases.baseIri))
      else if isText (request.contentType.getD "") then .text (rewriteAll bases.previousBaseIris (trimSlash bases.baseIri) text)
      else .text text
    else .text text

def receivedQuery (forms : Forms) (bases : Bases) (request : Request) : Option String :=
  translateQuery forms bases.previousBaseIris (trimSlash bases.baseIri) request.path request.query

theorem receive_of_fits (fits : BodyFits bases limit request) :
    ∃ got, receive forms bases limit request = .ok got ∧ got.path = request.path ∧ got.contentType = request.contentType ∧
      got.query = receivedQuery forms bases request ∧ got.body = receivedBody forms bases request := by
  unfold receive receivedQuery receivedBody mentioned
  by_cases moved : bases.previousBaseIris = []
  · rw [if_pos moved, moved]
    refine ⟨request, rfl, rfl, rfl, ?_, ?_⟩
    · cases query : request.query <;> rfl
    · cases body : request.body <;> rfl
  · rw [if_neg moved]
    unfold Rebase.translate
    dsimp only
    by_cases opaque_ : (!isForm (request.contentType.getD "") && !isText (request.contentType.getD "")) = true
    · rw [if_pos opaque_]
      refine ⟨_, rfl, rfl, rfl, rfl, ?_⟩
      rw [Bool.and_eq_true, Bool.not_eq_true', Bool.not_eq_true'] at opaque_
      cases body : request.body with
      | other size => rfl
      | text text =>
        dsimp only
        rw [opaque_.1, opaque_.2]
        simp
    · have small : ¬request.body.size > limit := by
        rcases fits with none_ | outside | small
        · exact absurd none_ moved
        · rw [outside.1, outside.2] at opaque_
          exact absurd rfl opaque_
        · omega
      rw [if_neg opaque_, if_neg small]
      cases body : request.body with
      | other size => exact ⟨_, rfl, rfl, rfl, rfl, rfl⟩
      | text text =>
        dsimp only
        by_cases seen : bases.previousBaseIris.any (mentions text) = true
        · rw [if_pos seen, if_pos seen]
          refine ⟨_, rfl, rfl, rfl, rfl, ?_⟩
          by_cases form : isForm (request.contentType.getD "") = true
          · rw [if_pos form, if_pos form]
          · have textual : isText (request.contentType.getD "") = true := by
              rw [Bool.not_eq_true] at form
              rw [form] at opaque_
              simpa using opaque_
            rw [if_neg form, if_neg form, if_pos textual]
        · rw [if_neg seen, if_neg seen]
          exact ⟨_, rfl, rfl, rfl, rfl, rfl⟩

theorem fits_of_receive {got : Request} (received : receive forms bases limit request = .ok got) : BodyFits bases limit request := by
  unfold receive at received
  by_cases moved : bases.previousBaseIris = []
  · exact Or.inl moved
  · rw [if_neg moved] at received
    unfold Rebase.translate at received
    dsimp only at received
    split at received
    · next opaque_ =>
      rw [Bool.and_eq_true, Bool.not_eq_true', Bool.not_eq_true'] at opaque_
      exact Or.inr (Or.inl opaque_)
    · split at received
      · cases received
      · next small => exact Or.inr (Or.inr (Nat.le_of_not_lt small))

theorem querySays_iff (some_ : newSpelling bases ≠ []) (lone : ∀ q, request.query = some q → ∀ pair ∈ forms.parse q, Lone bases pair.2.toList) :
    QuerySays forms bases request.query (receivedQuery forms bases request) ↔ QueryHeard forms bases request := by
  unfold receivedQuery QueryHeard translateQuery
  cases query : request.query with
  | none => exact ⟨fun _ _ same => (nomatch same), fun _ => trivial⟩
  | some q =>
    have lone := lone q query
    have only : ∀ {P : String → Prop}, (∀ q', some q = some q' → P q') ↔ P q :=
      ⟨fun all => all q rfl, fun holds q' same => Option.some.inj same ▸ holds⟩
    rw [only]
    dsimp only
    by_cases seen : bases.previousBaseIris.any (mentions q) = true
    · rw [if_pos seen]
      split
      · next accepted => exact ⟨fun _ => Or.inr ⟨seen, accepted⟩, fun _ => formSays_rewriteForm some_ lone⟩
      · next refused =>
        show FormSays forms bases q q ↔ _
        rw [formSays_self some_ lone]
        exact ⟨Or.inl, fun either => either.resolve_right (fun ⟨_, accepted⟩ => refused accepted)⟩
    · rw [if_neg seen]
      show FormSays forms bases q q ↔ _
      rw [formSays_self some_ lone]
      exact ⟨Or.inl, fun either => either.resolve_right (fun ⟨seen', _⟩ => seen seen')⟩

theorem formBodySays_iff (some_ : newSpelling bases ≠ []) (told : ReadAs.form.mistaken (request.contentType.getD "") = false)
    {text : String} (body : request.body = .text text) (lone : ∀ pair ∈ forms.parse text, Lone bases pair.2.toList) :
    BodySays forms bases .form (.text text) (receivedBody forms bases request) ↔
      NoneHeld forms bases text ∨ (isForm (request.contentType.getD "") = true ∧ mentioned bases text = true) := by
  unfold receivedBody
  rw [body]
  dsimp only
  by_cases seen : mentioned bases text = true
  · rw [if_pos seen]
    by_cases form : isForm (request.contentType.getD "") = true
    · rw [if_pos form]
      exact ⟨fun _ => Or.inr ⟨form, seen⟩, fun _ => formSays_rewriteForm some_ lone⟩
    · have other : isText (request.contentType.getD "") = false := by
        rw [Bool.not_eq_true] at form
        rw [ReadAs.mistaken, form] at told
        simpa using told
      rw [if_neg form, if_neg (by rw [other]; decide)]
      show FormSays forms bases text text ↔ _
      rw [formSays_self some_ lone]
      exact ⟨Or.inl, fun either => either.resolve_right (fun ⟨form', _⟩ => form form')⟩
  · rw [if_neg seen]
    show FormSays forms bases text text ↔ _
    rw [formSays_self some_ lone]
    exact ⟨Or.inl, fun either => either.resolve_right (fun ⟨_, seen'⟩ => seen seen')⟩

/-- A body that is no form is rewritten wherever it shows a base, or left alone. -/
theorem textBody_eq (told : isForm (request.contentType.getD "") = false) {text : String} (body : request.body = .text text) :
    receivedBody forms bases request =
      .text (if isText (request.contentType.getD "") then rewriteAll bases.previousBaseIris (trimSlash bases.baseIri) text else text) := by
  unfold receivedBody
  rw [body]
  dsimp only
  rw [told]
  cases textual : isText (request.contentType.getD "") with
  | false => simp
  | true =>
    cases seen : mentioned bases text with
    | true => simp
    | false => simp [rewriteAll_of_unmentioned seen]

theorem textBodySays_iff (kind : ReadAs) (other : kind ≠ .form) (some_ : newSpelling bases ≠ [])
    (outside : ∀ old ∈ oldSpellings bases, Outside kind.escapes old) (free : backslash ∉ newSpelling bases)
    (told : kind.mistaken (request.contentType.getD "") = false) {text : String} (body : request.body = .text text)
    (lone : Lone bases text.toList) (lones : ∀ reading, Spells kind.escapes text.toList reading → Lone bases reading) :
    BodySays forms bases kind (.text text) (receivedBody forms bases request) ↔
      (Untouched bases text.toList ∧ ∀ reading, Spells kind.escapes text.toList reading → Untouched bases reading) ∨
        (kind.recognised (request.contentType.getD "") = true ∧
          ∀ reading, Spells kind.escapes text.toList reading → Raw kind.escapes (oldSpellings bases) text.toList reading) := by
  have raw_of_untouched : ∀ reading, Untouched bases reading → Raw kind.escapes (oldSpellings bases) text.toList reading := by
    intro reading gone old mem before after same
    refine absurd ?_ (gone old mem)
    rw [same]
    exact (List.prefix_append old after).isInfix.trans (List.suffix_append before _).isInfix
  have notForm : isForm (request.contentType.getD "") = false := by
    cases kind with
    | form => exact absurd rfl other
    | json => exact told
    | sparql => exact told
  have known : kind.recognised (request.contentType.getD "") = isText (request.contentType.getD "") := by
    cases kind with
    | form => exact absurd rfl other
    | json => rw [ReadAs.recognised, notForm]; rfl
    | sparql => rw [ReadAs.recognised, notForm]; rfl
  have says_ : ∀ got, BodySays forms bases kind (.text text) (.text got) ↔ TextSays kind.escapes bases text got := by
    intro got
    cases kind with
    | form => exact absurd rfl other
    | json => exact Iff.rfl
    | sparql => exact Iff.rfl
  rw [textBody_eq notForm body, known, says_]
  cases textual : isText (request.contentType.getD "") with
  | true =>
    rw [if_pos rfl, textSays_rewriteAll some_ outside free lone lones]
    refine ⟨fun raw => Or.inr ⟨rfl, raw⟩, ?_⟩
    rintro (gone | ⟨_, raw⟩)
    · exact fun reading reads => raw_of_untouched reading (gone.2 reading reads)
    · exact raw
  | false =>
    rw [if_neg (by decide), textSays_self some_ lone lones]
    exact ⟨Or.inl, fun either => either.resolve_right (fun ⟨never, _⟩ => by cases never)⟩

/-- Neither spelling of a base holds a backslash. -/
def NoBackslash (bases : Bases) : Prop := (∀ old ∈ oldSpellings bases, backslash ∉ old) ∧ backslash ∉ newSpelling bases

instance (bases : Bases) : Decidable (NoBackslash bases) := inferInstanceAs (Decidable (_ ∧ _))

theorem outside_of_head_h {kind : ReadAs} {old : List Char} (starts : ∃ rest, old = 'h' :: rest) (plain : backslash ∉ old) :
    Outside kind.escapes old := by
  obtain ⟨rest, rfl⟩ := starts
  refine outside_of_head plain (fun spelling c read => ?_)
  cases kind with
  | form => exact json_free (by decide) (by decide) (by decide) (by decide) read
  | json => exact json_free (by decide) (by decide) (by decide) (by decide) read
  | sparql => exact sparql_free (by decide) (by decide) (by decide) (by decide) read

theorem bodySays_iff {platform : Platform} {base previous : Option String} {kind : ReadAs}
    (set : readBases platform base previous = .ok bases) (plain : kind ≠ .form → NoBackslash bases)
    (told : kind.mistaken (request.contentType.getD "") = false) (separate : Separate forms bases kind request) :
    BodySays forms bases kind request.body (receivedBody forms bases request) ↔ BodyHeard forms bases kind request := by
  obtain ⟨heads, head⟩ := heads_of_readBases set
  have some_ : newSpelling bases ≠ [] := by
    obtain ⟨rest, same⟩ := head
    rw [same]
    exact List.cons_ne_nil _ _
  cases body : request.body with
  | other size =>
    unfold receivedBody BodyHeard
    rw [body]
    exact ⟨fun _ _ same => (nomatch same), fun _ => rfl⟩
  | text text =>
    have lone := separate.body text body
    have only : ∀ {P : String → Prop}, (∀ text', Payload.text text = .text text' → P text') ↔ P text :=
      ⟨fun all => all text rfl, fun holds text' same => Payload.text.inj same ▸ holds⟩
    unfold BodyHeard
    rw [body, only]
    cases kind with
    | form => exact formBodySays_iff some_ told body lone
    | json =>
      have plain := plain nofun
      exact textBodySays_iff .json nofun some_ (fun old mem => outside_of_head_h (heads old mem) (plain.1 old mem)) plain.2 told body
        lone.1 lone.2
    | sparql =>
      have plain := plain nofun
      exact textBodySays_iff .sparql nofun some_ (fun old mem => outside_of_head_h (heads old mem) (plain.1 old mem)) plain.2 told body
        lone.1 lone.2

theorem request_means_iff {platform : Platform} {base previous : Option String} {kind : ReadAs}
    (set : readBases platform base previous = .ok bases) (plain : kind ≠ .form → NoBackslash bases)
    (told : kind.mistaken (request.contentType.getD "") = false) (separate : Separate forms bases kind request) :
    ((∃ got, receive forms bases limit request = .ok got ∧ Means forms bases kind request got) ↔
      BodyFits bases limit request ∧ QueryHeard forms bases request ∧ BodyHeard forms bases kind request) ∧
    ∀ old ∈ bases.previousBaseIris, ∀ path, Lone bases (old ++ "/" ++ path).toList → Untouched bases path.toList →
      ∀ got, Says bases (old ++ "/" ++ path).toList got.toList ↔
        rewriteIri (old ++ "/" ++ path) old (trimSlash bases.baseIri) = some got := by
  have some_ : newSpelling bases ≠ [] := by
    obtain ⟨rest, same⟩ := (heads_of_readBases set).2
    rw [same]
    exact List.cons_ne_nil _ _
  have query := querySays_iff some_ separate.query
  have body := bodySays_iff set plain told separate
  refine ⟨?_, fun old mem path lone once got => says_iff_rewriteIri some_ mem lone once got⟩
  constructor
  · rintro ⟨got, received, means⟩
    have fits := fits_of_receive received
    obtain ⟨got', received', _, _, sameQuery, sameBody⟩ := receive_of_fits fits
    rw [received] at received'
    cases received'
    exact ⟨fits, query.mp (sameQuery ▸ means.query), body.mp (sameBody ▸ means.body)⟩
  · rintro ⟨fits, queryHeard, bodyHeard⟩
    obtain ⟨got, received, samePath, sameType, sameQuery, sameBody⟩ := receive_of_fits fits
    refine ⟨got, received, samePath, sameType, ?_, ?_⟩
    · rw [sameQuery]
      exact query.mpr queryHeard
    · rw [sameBody]
      exact body.mpr bodyHeard

/-- Where no base overlaps another, no value can name two that overlap. -/
theorem lone_of_independent (independent : Independent (oldSpellings bases) (newSpelling bases)) (text : List Char) :
    Lone bases text := by
  refine ⟨fun old mem => ⟨(independent old mem).1, (independent old mem).2.2.1⟩, fun old mem => ?_⟩
  obtain ⟨some_, free, apart, others⟩ := independent old (List.mem_filter.mp mem).1
  exact ⟨some_, free, apart, fun other there => others other (List.mem_filter.mp there).1⟩

theorem separate_of_independent {kind : ReadAs} (independent : Independent (oldSpellings bases) (newSpelling bases)) :
    Separate forms bases kind request := by
  refine ⟨fun _ _ pair _ => lone_of_independent independent _, fun text _ => ?_⟩
  cases kind with
  | form => exact fun pair _ => lone_of_independent independent _
  | json => exact ⟨lone_of_independent independent _, fun reading _ => lone_of_independent independent _⟩
  | sparql => exact ⟨lone_of_independent independent _, fun reading _ => lone_of_independent independent _⟩

end Requests

namespace Specimen

/-! A form codec that leaves characters beyond ASCII as they are. -/

def hexDigit (n : Nat) : Char := if n < 10 then Char.ofNat (48 + n) else Char.ofNat (55 + n)

def unreserved (c : Char) : Bool := c.isAlphanum || c ∈ "*-._".toList || 128 ≤ c.toNat

def encodeChar (c : Char) : List Char :=
  if c = ' ' then ['+']
  else if unreserved c then [c]
  else ['%', hexDigit (c.toNat / 16), hexDigit (c.toNat % 16)]

def encodePair (pair : String × String) : List Char :=
  pair.1.toList.flatMap encodeChar ++ '=' :: pair.2.toList.flatMap encodeChar

/-- The character two digits stand for. -/
def percent (high low : Char) : Option Char := do
  let first ← hexValue high
  let second ← hexValue low
  return Char.ofNat (16 * first + second)

def decodeChars : List Char → List Char
  | '%' :: high :: low :: rest =>
    match percent high low with
    | some d => d :: decodeChars rest
    | none => '%' :: decodeChars (high :: low :: rest)
  | '+' :: rest => ' ' :: decodeChars rest
  | c :: rest => c :: decodeChars rest
  | [] => []

def decodePair (piece : List Char) : String × String :=
  (String.ofList (decodeChars (piece.takeWhile (fun c => c != '='))),
    String.ofList (decodeChars ((piece.dropWhile (fun c => c != '=')).drop 1)))

def parseForm (form : String) : List (String × String) :=
  ((piecesOn (fun c => c == '&') form.toList).filter (fun piece => !piece.isEmpty)).map decodePair

def serializeForm (pairs : List (String × String)) : String :=
  String.ofList (List.intercalate ['&'] (pairs.map encodePair))

theorem hexDigit_spec : ∀ n < 16, hexValue (hexDigit n) = some n ∧ hexDigit n ≠ '&' ∧ hexDigit n ≠ '=' := by decide

theorem plain_of_unreserved {c : Char} (kept : unreserved c = true) : c ≠ '+' ∧ c ≠ '%' ∧ c ≠ '&' ∧ c ≠ '=' := by
  refine ⟨?_, ?_, ?_, ?_⟩ <;>
  · rintro rfl
    revert kept
    decide

theorem encodeChar_clean {c d : Char} (mem : d ∈ encodeChar c) : d ≠ '&' ∧ d ≠ '=' := by
  unfold encodeChar at mem
  split at mem
  · rw [List.mem_singleton.mp mem]
    decide
  · split at mem
    · next kept =>
      rw [List.mem_singleton.mp mem]
      exact (plain_of_unreserved kept).2.2
    · next other =>
      have small : c.toNat < 128 := by
        unfold unreserved at other
        simp only [Bool.or_eq_true, decide_eq_true_eq, not_or] at other
        omega
      rcases List.mem_cons.mp mem with rfl | mem
      · decide
      · rcases List.mem_cons.mp mem with rfl | mem
        · exact (hexDigit_spec _ (by omega)).2
        · rw [List.mem_singleton.mp mem]
          exact (hexDigit_spec _ (by omega)).2

theorem decode_encodeChar (c : Char) (rest : List Char) : decodeChars (encodeChar c ++ rest) = c :: decodeChars rest := by
  unfold encodeChar
  by_cases blank : c = ' '
  · rw [if_pos blank, blank]
    exact decodeChars.eq_2 rest
  · rw [if_neg blank]
    by_cases kept : unreserved c = true
    · obtain ⟨noPlus, noPercent, _⟩ := plain_of_unreserved kept
      rw [if_pos kept, List.singleton_append]
      exact decodeChars.eq_3 c rest (fun high low more here _ => noPercent here) noPlus
    · have small : c.toNat < 128 := by
        unfold unreserved at kept
        simp only [Bool.or_eq_true, decide_eq_true_eq, not_or] at kept
        omega
      have found : percent (hexDigit (c.toNat / 16)) (hexDigit (c.toNat % 16)) = some c := by
        unfold percent
        rw [(hexDigit_spec _ (by omega)).1, (hexDigit_spec _ (by omega)).1]
        show some (Char.ofNat (16 * (c.toNat / 16) + c.toNat % 16)) = some c
        rw [Nat.div_add_mod, Char.ofNat_toNat]
      rw [if_neg kept]
      show decodeChars ('%' :: hexDigit (c.toNat / 16) :: hexDigit (c.toNat % 16) :: rest) = _
      rw [decodeChars, found]

theorem decode_encode (text : List Char) : decodeChars (text.flatMap encodeChar) = text := by
  induction text with
  | nil => rfl
  | cons c rest ih => rw [List.flatMap_cons, decode_encodeChar, ih]

theorem decode_encodePair (pair : String × String) : decodePair (encodePair pair) = pair := by
  have clean : ∀ c ∈ pair.1.toList.flatMap encodeChar, (c != '=') = true := by
    intro c mem
    obtain ⟨d, _, there⟩ := List.mem_flatMap.mp mem
    exact bne_iff_ne.mpr (encodeChar_clean there).2
  unfold decodePair encodePair
  rw [List.takeWhile_append_of_pos clean, List.dropWhile_append_of_pos clean]
  simp [decode_encode]

theorem parse_serialize (pairs : List (String × String)) : parseForm (serializeForm pairs) = pairs := by
  have clean : ∀ pair, ∀ c ∈ encodePair pair, (c == '&') = false := by
    intro pair c mem
    apply beq_false_of_ne
    rcases List.mem_append.mp mem with left | right
    · obtain ⟨d, _, there⟩ := List.mem_flatMap.mp left
      exact (encodeChar_clean there).1
    · rcases List.mem_cons.mp right with rfl | right
      · decide
      · obtain ⟨d, _, there⟩ := List.mem_flatMap.mp right
        exact (encodeChar_clean there).1
  have piece : ∀ pair, (!(encodePair pair).isEmpty) = true := fun pair => by simp [encodePair]
  have pieces : (piecesOn (fun c => c == '&') (List.intercalate ['&'] (pairs.map encodePair))).filter (fun piece => !piece.isEmpty) =
      pairs.map encodePair := by
    induction pairs with
    | nil => rfl
    | cons pair pairs ih =>
      cases pairs with
      | nil => simp [List.intercalate, piecesOn_of_forall _ _ (clean pair), piece pair]
      | cons next pairs =>
        have letters : List.intercalate ['&'] ((pair :: next :: pairs).map encodePair) =
            encodePair pair ++ '&' :: List.intercalate ['&'] ((next :: pairs).map encodePair) := by
          simp [List.intercalate]
        rw [letters, piecesOn_append_sep _ _ _ '&' (by decide), List.filter_append, ih, piecesOn_of_forall _ _ (clean pair)]
        simp [piece pair]
  unfold parseForm serializeForm
  rw [String.toList_ofList, pieces, List.map_map]
  exact (List.map_congr_left (fun pair _ => decode_encodePair pair)).trans (List.map_id pairs)

/-- Targets of up to 65534 characters are accepted. -/
def forms : Forms where
  parse := parseForm
  serialize := serializeForm
  accepts target := target.toList.length < 65535
  parses := parse_serialize

end Specimen

open Specimen

/-- A text without escapes is read as it stands. -/
theorem raw_of_plain {e : Escapes} {olds : List (List Char)} {text reading : List Char} (plain : backslash ∉ text)
    (spelled : Spells e text reading) : Raw e olds text reading := by
  rw [spelled.unique (Spells.plain plain)]
  intro old mem before after same
  have parts : (backslash ∉ before) ∧ backslash ∉ after := by
    rw [same, List.mem_append, List.mem_append, not_or, not_or] at plain
    exact ⟨plain.1, plain.2.2⟩
  exact ⟨before, after, same, Spells.plain parts.1, Spells.plain parts.2⟩

/-- A registry that moved from one host to another. -/
def renamed : Bases := ⟨"https://reg.example.org", ["https://old.example.org"]⟩

/-- An old IRI in the query and one in the body. -/
def reannounced : Request :=
  ⟨"/api/v1/artifacts", some "iri=https%3A%2F%2Fold.example.org%2Fsoftware%2F1&q=a+b", some "application/json", some 68,
    .text "[\"https://old.example.org/artifact/1\", \"https://old.example.orgx/2\"]"⟩

theorem reannounced_means :
    ((∃ got, receive forms renamed 1000 reannounced = .ok got ∧ Means forms renamed .json reannounced got) ↔
      BodyFits renamed 1000 reannounced ∧ QueryHeard forms renamed reannounced ∧ BodyHeard forms renamed .json reannounced) ∧
    (∃ got, receive forms renamed 1000 reannounced = .ok got ∧ Means forms renamed .json reannounced got) ∧
    Says renamed "https://old.example.org/software/1".toList "https://reg.example.org/software/1".toList := by
  have apart : Independent (oldSpellings renamed) (newSpelling renamed) := by decide
  have set : readBases (platform []) (some "https://reg.example.org/") (some "https://old.example.org") = .ok renamed := by rfl
  have law := @request_means_iff forms renamed 1000 reannounced _ _ _ .json set (fun _ => by decide) (by decide)
    (separate_of_independent apart)
  have heard : BodyFits renamed 1000 reannounced ∧ QueryHeard forms renamed reannounced ∧ BodyHeard forms renamed .json reannounced := by
    refine ⟨Or.inr (Or.inr (by decide)), fun q query => Or.inr ?_, fun text body => Or.inr ⟨by decide, ?_⟩⟩
    · cases query
      decide
    · cases body
      exact fun reading => raw_of_plain (by decide)
  refine ⟨law.1, law.1.mpr heard, ?_⟩
  exact (law.2 "https://old.example.org" (by decide) "software/1" (lone_of_independent apart _) (by decide) _).mpr
    (by decide)

/-- A registry that was reached through a port of its own before. -/
def ported : Bases := ⟨"https://reg.example.org", ["http://pilot.example.org:8080"]⟩

/-- An old IRI in the query, percent-encoded. -/
def lookedUp : Request :=
  ⟨"/api/v1/artifacts", some "iri=http%3A%2F%2Fpilot.example.org%3A8080%2Fsoftware%2F1", none, none, .text ""⟩

/-- With its colon encoded the port hides the base. -/
theorem port_hides_base :
    readBases (platform []) (some "https://reg.example.org") (some "http://pilot.example.org:8080") = .ok ported ∧
      forms.parse "iri=http%3A%2F%2Fpilot.example.org%3A8080%2Fsoftware%2F1" = [("iri", "http://pilot.example.org:8080/software/1")] ∧
      rewriteIri "http://pilot.example.org:8080/software/1" "http://pilot.example.org:8080" "https://reg.example.org" =
        some "https://reg.example.org/software/1" ∧
      receive forms ported 1000 lookedUp = .ok lookedUp ∧ ¬Means forms ported .json lookedUp lookedUp := by
  have pairs : forms.parse "iri=http%3A%2F%2Fpilot.example.org%3A8080%2Fsoftware%2F1" =
      [("iri", "http://pilot.example.org:8080/software/1")] := by decide
  refine ⟨by rfl, pairs, by decide, by rfl, fun means => ?_⟩
  have query : FormSays forms ported "iri=http%3A%2F%2Fpilot.example.org%3A8080%2Fsoftware%2F1"
      "iri=http%3A%2F%2Fpilot.example.org%3A8080%2Fsoftware%2F1" := means.query
  have apart : Independent (oldSpellings ported) (newSpelling ported) := by decide
  have free := (formSays_self (by decide) (fun pair _ => lone_of_independent apart _)).mp query
  have held := free ("iri", "http://pilot.example.org:8080/software/1") (by rw [pairs]; exact List.mem_cons_self)
  exact held (spelled "http://pilot.example.org:8080") (by decide) (by decide)

end ToolArtifactRegistry.Laws
