import ToolArtifactRegistry.Deref
import ToolArtifactRegistry.Laws.Pointing
import ToolArtifactRegistry.Laws.Specimen

/-! What a dereferenced IRI is answered with: the type that is announced, and where the links lead. -/
namespace ToolArtifactRegistry.Laws.Dereferencing

open Library.Rdf Library.Text Ids Model Store Rdf Domain Negotiate Deref

/-! Paths. -/

/-- What an identifier of the registry is made of. -/
def Drawn (id : String) : Prop := id ≠ "" ∧ ∀ c ∈ id.toList, c.isAlphanum = true ∨ c = '-'

def suffix : Option String → String
  | none => ""
  | some ext => "." ++ ext

def pathOf (segment id : String) (ext : Option String) : String := "/" ++ segment ++ "/" ++ (id ++ suffix ext)

section Reading

variable {id ext : String}

theorem Drawn.free (drawn : Drawn id) {c : Char} (other : c.isAlphanum = false) (dash : c ≠ '-') : c ∉ id.toList := by
  intro mem
  rcases drawn.2 c mem with letter | same
  · rw [other] at letter
    cases letter
  · exact dash same

theorem mem_of_lookup {α : Type} {table : List (String × α)} {key : String} {value : α} (found : table.lookup key = some value) :
    (key, value) ∈ table := by
  obtain ⟨before, after, rfl, _⟩ := List.lookup_eq_some_iff.1 found
  exact List.mem_append_right _ List.mem_cons_self

/-- Extensions are letters. -/
theorem letters_of_extension {repr : Repr} (known : fromExtension ext = some repr) : ∀ c ∈ ext.toList, c.isAlpha = true := by
  have table : ∀ entry ∈ extensions, ∀ c ∈ entry.1.toList, c.isAlpha = true := by decide
  exact table (ext, repr) (mem_of_lookup known)

theorem rsplitOnce_append {stem : String} (free : '.' ∉ ext.toList) : rsplitOnce (stem ++ "." ++ ext) '.' = some (stem, ext) := by
  have letters : (stem ++ "." ++ ext).toList.reverse = ext.toList.reverse ++ '.' :: stem.toList.reverse := by
    rw [String.toList_append, String.toList_append, List.reverse_append, List.reverse_append]
    rfl
  have passes : ∀ c ∈ ext.toList.reverse, (c != '.') = true := by
    intro c mem
    rw [bne_iff_ne]
    rintro rfl
    exact free (List.mem_reverse.1 mem)
  unfold rsplitOnce
  dsimp only
  rw [letters, List.dropWhile_append_of_pos passes, List.takeWhile_append_of_pos passes, List.dropWhile_cons_of_neg (by decide),
    List.takeWhile_cons_of_neg (by decide)]
  simp

theorem rsplitOnce_none (free : '.' ∉ id.toList) : rsplitOnce id '.' = none := by
  unfold rsplitOnce
  dsimp only
  rw [List.dropWhile_eq_nil_iff.2]
  intro c mem
  rw [bne_iff_ne]
  rintro rfl
  exact free (List.mem_reverse.1 mem)

theorem splitExtension_suffix (drawn : Drawn id) {ext : Option String} (known : ∀ e, ext = some e → (fromExtension e).isSome = true) :
    splitExtension (id ++ suffix ext) = (id, ext.bind fromExtension) := by
  cases ext with
  | none =>
    have free : '.' ∉ (id ++ suffix none).toList := by
      rw [suffix, String.append_empty]
      exact drawn.free (by decide) (by decide)
    rw [splitExtension, rsplitOnce_none free, suffix, String.append_empty]
    rfl
  | some e =>
    obtain ⟨repr, stands⟩ := Option.isSome_iff_exists.1 (known e rfl)
    have free : '.' ∉ e.toList := by
      intro mem
      have letter := letters_of_extension stands '.' mem
      revert letter
      decide
    rw [splitExtension, suffix, ← String.append_assoc, rsplitOnce_append free]
    simp [stands]

/-- A text without escapes is what it stands for. -/
theorem decode_plain {text : String} (free : '%' ∉ text.toList) : Library.Percent.decode text = some text := by
  have bytes : ∀ chars : List Char, '%' ∉ chars → Library.Percent.decodeBytes chars = chars.flatMap String.utf8EncodeChar := by
    intro chars
    induction chars with
    | nil => exact fun _ => rfl
    | cons c rest ih =>
      intro free
      rw [List.mem_cons, not_or] at free
      rw [Library.Percent.decodeBytes_other (Ne.symm free.1), ih free.2, List.flatMap_cons]
  rw [Library.Percent.decode, bytes _ free]
  exact Library.Percent.textOf_bytesOf text

theorem not_isHttp (drawn : Drawn id) : isHttp id = false := by
  have colon : ':' ∉ id.toList := drawn.free (by decide) (by decide)
  rw [isHttp, Bool.or_eq_false_iff]
  constructor <;>
  · rw [← Bool.not_eq_true, startsWith_iff]
    rintro ⟨rest, rfl⟩
    apply colon
    rw [String.toList_append]
    exact List.mem_append_left _ (by decide)

end Reading

section Routing

variable {ctx : Ctx} {hashing : Ctx.Hashing} {headers : Mcp.Headers} {segment id : String} {handler : Option Kind}

theorem segment_clean (routed : routes.lookup segment = some handler) : '/' ∉ segment.toList := by
  have table : ∀ entry ∈ routes, '/' ∉ entry.1.toList := by decide
  exact table (segment, handler) (mem_of_lookup routed)

theorem respond_of_route (routed : routes.lookup segment = some handler) (clean : '/' ∉ id.toList) (some_ : id ≠ "") :
    respond ctx hashing headers ("/" ++ segment ++ "/" ++ id) =
      some (handle ctx hashing headers ("/" ++ segment ++ "/" ++ id) id handler) := by
  have pieces : split ("/" ++ segment ++ "/" ++ id) (fun c => c == '/') = ["", segment, id] := by
    have start : split ("/" ++ segment) (fun c => c == '/') = ["", segment] := by
      have joined : "/" ++ segment = "" ++ "/" ++ segment := rfl
      rw [joined, split_slash, split_whole (segment_clean routed)]
      rfl
    rw [split_slash, start, split_whole clean]
    rfl
  unfold respond
  rw [pieces]
  dsimp only
  rw [if_neg some_, routed, Option.map_some]

theorem free_suffix (drawn : Drawn id) {ext : Option String} (known : ∀ e, ext = some e → (fromExtension e).isSome = true) {c : Char}
    (other : c.isAlphanum = false) (dash : c ≠ '-') (dot : c ≠ '.') : c ∉ (id ++ suffix ext).toList := by
  rw [String.toList_append, List.mem_append, not_or]
  refine ⟨drawn.free other dash, ?_⟩
  cases ext with
  | none => simp [suffix]
  | some e =>
    obtain ⟨repr, stands⟩ := Option.isSome_iff_exists.1 (known e rfl)
    rw [suffix, String.toList_append, List.mem_append, not_or]
    refine ⟨by simpa using dot, fun mem => ?_⟩
    have letter := letters_of_extension stands c mem
    rw [Char.isAlphanum, letter] at other
    cases other

theorem suffixed_ne_empty (drawn : Drawn id) (ext : Option String) : id ++ suffix ext ≠ "" := by
  intro empty
  apply drawn.1
  rw [← String.toList_inj] at empty ⊢
  rw [String.toList_append] at empty
  exact (List.append_eq_nil_iff.1 empty).1

/-- The representation an extension pins, else the one intoResponse. -/
def chosen (headers : Mcp.Headers) (ext : Option String) (default_ : Repr) : Repr :=
  (ext.bind fromExtension).getD (negotiate headers default_)

theorem respond_record {kind : Kind} (routed : routes.lookup kind.segment = some (some kind)) (drawn : Drawn id) {ext : Option String}
    (known : ∀ e, ext = some e → (fromExtension e).isSome = true) :
    respond ctx hashing headers (pathOf kind.segment id ext) =
      some (represent ctx hashing kind (iriOf ctx.base kind id) (chosen headers ext .html)) := by
  rw [pathOf, respond_of_route routed (free_suffix drawn known (by decide) (by decide) (by decide)) (suffixed_ne_empty drawn ext), handle,
    decode_plain (free_suffix drawn known (by decide) (by decide) (by decide))]
  dsimp only
  rw [deref, splitExtension_suffix drawn known]
  dsimp only
  rw [iriFor, not_isHttp drawn, if_neg Bool.false_ne_true]
  rfl

theorem respond_generic (routed : routes.lookup segment = some none) (drawn : Drawn id) {ext : Option String}
    (known : ∀ e, ext = some e → (fromExtension e).isSome = true) :
    respond ctx hashing headers (pathOf segment id ext) = some (derefGeneric ctx headers (pathOf segment id ext)) := by
  rw [pathOf, respond_of_route routed (free_suffix drawn known (by decide) (by decide) (by decide)) (suffixed_ne_empty drawn ext)]
  rfl

end Routing

/-! What a truthful answer is. -/
section Telling

variable (ctx : Ctx) (hashing : Ctx.Hashing)

/-- A media type without its parameters. -/
def essence (mediaType : String) : String := trim ((split mediaType (fun c => c == ';')).headD "")

/-- Whatever is asked for, the link is answered with the same record in the type it names. -/
def Delivers (iri : String) (link : Link) : Prop :=
  ∀ headers, ∃ answer, dereference ctx hashing headers link.target = some (.ok answer) ∧ answer.iri = iri ∧
    link.type = some (essence answer.body.repr.mediaType)

structure Truthful (response : Response) : Prop where
  type : response.contentType = response.body.repr.mediaType
  links : ∀ link ∈ response.links, link.rel = "describedby" ∨ link.rel = "alternate" → Delivers ctx hashing response.iri link

theorem Truthful.delivers {ctx : Ctx} {hashing : Ctx.Hashing} {response : Response} (truthful : Truthful ctx hashing response)
    {iri : String} (at_ : response.iri = iri) {links : List Link} (held : response.links = links) {link : Link} (mem : link ∈ links)
    (rel : link.rel = "describedby" ∨ link.rel = "alternate") : Delivers ctx hashing iri link := by
  rw [← at_]
  exact truthful.links link (held ▸ mem) rel

/-- The kinds that have a model beside their quads. -/
def Modelled (kind : Kind) : Prop := kind ∈ [Kind.software, .instance_, .artifact, .run, .release]

/-- Of a record that is there: it is not asked for as JSON when its kind has no model; and where a header of links goes with
an answer that was not loaded, the record loads as its kind. -/
def Told (kind : Kind) (iri : String) (repr : Repr) : Prop :=
  ∀ quads, describe ctx.platform ctx.data iri = .ok quads → quads ≠ [] →
    (repr = .json → Modelled kind) ∧
      (repr ≠ .json → repr ≠ .markdown → (headerValue (signpostingFor ctx kind iri)).isSome = true →
        (renderRecord ctx hashing kind iri quads).isOk = true)

/-- Of a record without a page: it is asked for as a page; or not as JSON, and no header of links can be written. -/
def ToldPlain (iri : String) (repr : Repr) : Prop :=
  ∀ quads, describe ctx.platform ctx.data iri = .ok quads → quads ≠ [] →
    repr = .html ∨ (repr ≠ .json ∧ headerValue (signposting iri) = none)

end Telling

section Generic

variable {ctx : Ctx} {hashing : Ctx.Hashing} {headers : Mcp.Headers}

theorem derefGeneric_iri {path : String} {answer : Response} (answered : derefGeneric ctx headers path = .ok answer) :
    answer.iri = ctx.base ++ path := by
  unfold derefGeneric at answered
  dsimp only at answered
  split at answered
  · cases answered
    rfl
  · split at answered
    · cases answered
    · split at answered
      · cases answered
      · cases answered
        rfl

theorem longer_ne (text tail : String) (some_ : tail ≠ "") : text ++ tail ≠ text := by
  intro same
  have lengths := congrArg (fun text => text.toList.length) same
  simp only [String.toList_append, List.length_append] at lengths
  apply some_
  rw [← String.toList_inj]
  exact List.length_eq_zero_iff.1 (by omega)

theorem derefGeneric_cases {path : String} {response : Response} (answered : derefGeneric ctx headers path = .ok response) :
    (negotiate headers .turtle = .html ∧ response = spaResponse (ctx.base ++ path) []) ∨
      ∃ quads, negotiate headers .turtle ≠ .html ∧ describe ctx.platform ctx.data (ctx.base ++ path) = .ok quads ∧ quads ≠ [] ∧
        response = intoResponse (ctx.base ++ path) (negotiate headers .turtle) (plainBody quads (negotiate headers .turtle))
          (signposting (ctx.base ++ path)) := by
  unfold derefGeneric at answered
  dsimp only at answered
  split at answered
  · next page =>
    cases answered
    exact Or.inl ⟨page, rfl⟩
  · next data =>
    cases described : describe ctx.platform ctx.data (ctx.base ++ path) with
    | error e =>
      rw [described] at answered
      cases answered
    | ok quads =>
      rw [described] at answered
      dsimp only at answered
      split at answered
      · cases answered
      · next some_ =>
        cases answered
        exact Or.inr ⟨quads, data, rfl, by simpa using some_, rfl⟩

theorem derefGeneric_some {path : String} {quads : List Quad} (data : negotiate headers .turtle ≠ .html)
    (described : describe ctx.platform ctx.data (ctx.base ++ path) = .ok quads) (some_ : quads ≠ []) :
    derefGeneric ctx headers path = .ok (intoResponse (ctx.base ++ path) (negotiate headers .turtle)
      (plainBody quads (negotiate headers .turtle)) (signposting (ctx.base ++ path))) := by
  unfold derefGeneric
  dsimp only
  rw [if_neg data, described]
  dsimp only
  rw [if_neg (by simpa using some_)]

/-- The link of a record without a page is taken for the IRI of another. -/
theorem not_delivers (trimmed : trimSlash ctx.base = ctx.base) {segment id : String} (routed : routes.lookup segment = some none)
    (drawn : Drawn id) {ext : Option String} (known : ∀ e, ext = some e → (fromExtension e).isSome = true) :
    ¬Delivers ctx hashing (ctx.base ++ pathOf segment id ext)
      ⟨ctx.base ++ pathOf segment id ext ++ ".ttl", "describedby", some "text/turtle"⟩ := by
  intro delivers
  obtain ⟨answer, found, same, _⟩ := delivers []
  have path : pathOf segment id ext ++ ".ttl" = "/" ++ segment ++ "/" ++ (id ++ suffix ext ++ ".ttl") := by
    rw [pathOf, String.append_assoc]
  have clean : '/' ∉ (id ++ suffix ext ++ ".ttl").toList := by
    rw [String.toList_append, List.mem_append, not_or]
    exact ⟨free_suffix drawn known (by decide) (by decide) (by decide), by decide⟩
  have some_ : id ++ suffix ext ++ ".ttl" ≠ "" := by
    intro empty
    have letters := congrArg String.toList empty
    rw [String.toList_append] at letters
    exact absurd (List.append_eq_nil_iff.1 letters).2 (by decide)
  rw [dereference, trimmed, String.append_assoc, stripPrefix_append, Option.bind_some, path, respond_of_route routed clean some_, handle,
    Option.some.injEq] at found
  have other := derefGeneric_iri found
  rw [same, ← path, ← String.append_assoc] at other
  exact longer_ne _ ".ttl" (by decide) other.symm

theorem plainBody_repr (quads : List Quad) {repr : Repr} (data : repr ≠ .html) :
    repr.mediaType = (plainBody quads repr).repr.mediaType ↔ repr ≠ .json := by
  cases repr with
  | html => exact absurd rfl data
  | json =>
    constructor
    · intro same
      exact absurd same (show "application/json" ≠ "text/turtle; charset=utf-8" by decide)
    · exact fun other => absurd rfl other
  | turtle => simp [plainBody, serialize, Body.repr]
  | jsonLd => simp [plainBody, serialize, Body.repr]
  | nQuads => simp [plainBody, serialize, Body.repr]
  | markdown => simp [plainBody, Body.repr]

theorem generic_iff (trimmed : trimSlash ctx.base = ctx.base) {segment id : String} (routed : routes.lookup segment = some none)
    (drawn : Drawn id) {ext : Option String} (known : ∀ e, ext = some e → (fromExtension e).isSome = true) :
    (∀ response, respond ctx hashing headers (pathOf segment id ext) = some (.ok response) → Truthful ctx hashing response) ↔
      ToldPlain ctx (ctx.base ++ pathOf segment id ext) (negotiate headers .turtle) := by
  rw [respond_generic routed drawn known]
  simp only [Option.some.injEq]
  constructor
  · intro truthful quads described some_
    by_cases data : negotiate headers .turtle = .html
    · exact Or.inl data
    · have told := truthful _ (derefGeneric_some data described some_)
      refine Or.inr ⟨(plainBody_repr quads data).1 told.type, ?_⟩
      by_contra written
      apply not_delivers trimmed routed drawn known
      apply told.links
      · show _ ∈ linked _
        rw [linked, if_pos (Option.ne_none_iff_isSome.1 written)]
        simp [signposting]
      · exact Or.inl rfl
  · intro told response answered
    rcases derefGeneric_cases answered with ⟨_, rfl⟩ | ⟨quads, data, described, some_, rfl⟩
    · exact ⟨rfl, fun link mem => absurd mem List.not_mem_nil⟩
    · obtain ⟨typed, unwritten⟩ := (told quads described some_).resolve_left data
      refine ⟨(plainBody_repr quads data).2 typed, fun link mem => ?_⟩
      have inside : link ∈ linked (signposting (ctx.base ++ pathOf segment id ext)) := mem
      rw [linked, unwritten] at inside
      exact absurd inside List.not_mem_nil

end Generic

section Records

variable {ctx : Ctx} {hashing : Ctx.Hashing} {headers : Mcp.Headers} {kind : Kind} {iri id : String} {repr : Repr} {quads : List Quad}

theorem represent_cases {response : Response} (answered : represent ctx hashing kind iri repr = .ok response) :
    (repr = .html ∧ response = spaResponse iri []) ∨
      ∃ quads, describe ctx.platform ctx.data iri = .ok quads ∧ quads ≠ [] ∧
        ((repr = .html ∧ response = spaResponse iri (linked (signpostingFor ctx kind iri))) ∨
          (repr ≠ .html ∧ ∃ body, bodyOf ctx hashing kind iri quads repr = .ok body ∧
            response = intoResponse iri repr body (signpostingFor ctx kind iri))) := by
  unfold represent at answered
  cases described : describe ctx.platform ctx.data iri with
  | error e =>
    rw [described] at answered
    cases answered
  | ok quads =>
    rw [described] at answered
    dsimp only at answered
    by_cases none_ : quads = []
    · by_cases page : repr = .html
      · rw [if_neg (by simp [page]), if_pos page, if_pos (by simp [none_])] at answered
        cases answered
        exact Or.inl ⟨page, rfl⟩
      · rw [if_pos (by simp [none_, page])] at answered
        cases answered
    · refine Or.inr ⟨quads, rfl, none_, ?_⟩
      rw [if_neg (by simp [none_])] at answered
      by_cases page : repr = .html
      · rw [if_pos page, if_neg (by simp [none_])] at answered
        cases answered
        exact Or.inl ⟨page, rfl⟩
      · rw [if_neg page] at answered
        cases written : bodyOf ctx hashing kind iri quads repr with
        | error e =>
          rw [written] at answered
          cases answered
        | ok body =>
          rw [written] at answered
          cases answered
          exact Or.inr ⟨page, body, rfl, rfl⟩

theorem represent_page (described : describe ctx.platform ctx.data iri = .ok quads) (some_ : quads ≠ []) :
    represent ctx hashing kind iri .html = .ok (spaResponse iri (linked (signpostingFor ctx kind iri))) := by
  unfold represent
  rw [described]
  dsimp only
  rw [if_neg (by simp), if_pos rfl, if_neg (by simp [some_])]

theorem represent_body (described : describe ctx.platform ctx.data iri = .ok quads) (some_ : quads ≠ []) (data : repr ≠ .html)
    {body : Body} (written : bodyOf ctx hashing kind iri quads repr = .ok body) :
    represent ctx hashing kind iri repr = .ok (intoResponse iri repr body (signpostingFor ctx kind iri)) := by
  unfold represent
  rw [described]
  dsimp only
  rw [if_neg (by simp [some_]), if_neg data, written]
  rfl

theorem links_spaResponse (links : List Link) : (spaResponse iri links).links = links := rfl

theorem links_intoResponse (body : Body) (links : List Link) : (intoResponse iri repr body links).links = linked links := rfl

/-! The links. -/

theorem signposting_eq (iri : String) : signposting iri =
    [⟨iri, "cite-as", none⟩, ⟨iri ++ ("." ++ "ttl"), "describedby", some "text/turtle"⟩,
      ⟨iri ++ ("." ++ "jsonld"), "describedby", some "application/ld+json"⟩,
      ⟨iri ++ ("." ++ "md"), "alternate", some "text/markdown"⟩] := by
  have ttl : "." ++ "ttl" = ".ttl" := by decide
  have jsonld : "." ++ "jsonld" = ".jsonld" := by decide
  have md : "." ++ "md" = ".md" := by decide
  rw [ttl, jsonld, md, signposting]

/-- The links that name another representation are the same for every kind. -/
theorem mem_signposting {link : Link} (mem : link ∈ signpostingFor ctx kind iri) (rel : link.rel = "describedby" ∨ link.rel = "alternate") :
    link ∈ signposting iri := by
  have others : ∀ links : List Link, (∀ other ∈ links, other.rel ∈ ["collection", "type", "license", "author", "item"]) → link ∉ links := by
    intro links each inside
    have named := each link inside
    rcases rel with same | same <;>
    · rw [same] at named
      revert named
      decide
  have opt (name : String) (target : Option String) : ∀ other ∈ optLink name target, other.rel = name := by
    intro other inside
    cases target with
    | none => cases inside
    | some _ => rw [List.mem_singleton.1 inside]
  have items (distributions : List Distribution) : ∀ other ∈ distributions.filterMap itemOf, other.rel = "item" := by
    intro other inside
    obtain ⟨distribution, _, found⟩ := List.mem_filterMap.1 inside
    unfold itemOf at found
    split at found
    · cases found
    · obtain ⟨url, _, rfl⟩ := Option.map_eq_some_iff.1 found
      rfl
  unfold signpostingFor at mem
  rcases List.mem_append.1 mem with first | own
  · rcases List.mem_append.1 first with base | collection
    · exact base
    · exact absurd collection (others _ (by simp))
  · refine absurd own (others _ ?_)
    intro other inside
    split at inside
    · split at inside
      · cases inside
      · simp only [List.mem_append] at inside
        rcases inside with ((type | license) | author) | item
        · rw [opt _ _ other type]; decide
        · rw [opt _ _ other license]; decide
        · rw [opt _ _ other author]; decide
        · rw [items _ other item]; decide
    · split at inside
      · cases inside
      · simp only [List.mem_append] at inside
        rcases inside with (license | author) | item
        · rw [opt _ _ other license]; decide
        · rw [opt _ _ other author]; decide
        · rw [opt _ _ other item]; decide
    · cases inside

/-- A link with an extension is answered by the handler of the record, in the representation the extension pins. -/
theorem dereference_extension (routed : routes.lookup kind.segment = some (some kind)) (drawn : Drawn id) {ext : String}
    (stands : fromExtension ext = some repr) (headers : Mcp.Headers) :
    dereference ctx hashing headers (iriOf ctx.base kind id ++ ("." ++ ext)) =
      some (represent ctx hashing kind (iriOf ctx.base kind id) repr) := by
  have path : iriOf ctx.base kind id ++ ("." ++ ext) = trimSlash ctx.base ++ pathOf kind.segment id (some ext) := by
    simp only [iriOf, pathOf, suffix, String.append_assoc]
  rw [dereference, path, stripPrefix_append, Option.bind_some,
    @respond_record ctx hashing headers id kind routed drawn (some ext) (fun e same => Option.some.inj same ▸ stands ▸ rfl), chosen, Option.bind_some, stands,
    Option.getD_some]

theorem delivers_graph (routed : routes.lookup kind.segment = some (some kind)) (drawn : Drawn id)
    (described : describe ctx.platform ctx.data (iriOf ctx.base kind id) = .ok quads) (some_ : quads ≠ []) {ext rel type : String}
    (stands : fromExtension ext = some repr) (graph : repr = .turtle ∨ repr = .jsonLd) (named : type = essence repr.mediaType) :
    Delivers ctx hashing (iriOf ctx.base kind id) ⟨iriOf ctx.base kind id ++ ("." ++ ext), rel, some type⟩ := by
  intro headers
  have written : bodyOf ctx hashing kind (iriOf ctx.base kind id) quads repr = .ok (.graph repr quads) := by
    rcases graph with rfl | rfl <;> rfl
  have data : repr ≠ .html := by
    rcases graph with rfl | rfl <;> decide
  refine ⟨_, (dereference_extension routed drawn stands headers).trans (congrArg some (represent_body described some_ data written)),
    rfl, ?_⟩
  rw [named]
  rfl

theorem delivers_prose_iff (routed : routes.lookup kind.segment = some (some kind)) (drawn : Drawn id)
    (described : describe ctx.platform ctx.data (iriOf ctx.base kind id) = .ok quads) (some_ : quads ≠ []) (rel : String) :
    Delivers ctx hashing (iriOf ctx.base kind id) ⟨iriOf ctx.base kind id ++ ("." ++ "md"), rel, some "text/markdown"⟩ ↔
      (renderRecord ctx hashing kind (iriOf ctx.base kind id) quads).isOk = true := by
  have stands : fromExtension "md" = some Repr.markdown := rfl
  constructor
  · intro delivers
    obtain ⟨answer, found, _⟩ := delivers []
    rw [dereference_extension routed drawn stands, Option.some.injEq] at found
    rcases represent_cases found with ⟨page, _⟩ | ⟨others, again, _, ⟨page, _⟩ | ⟨_, body, written, _⟩⟩
    · cases page
    · cases page
    · rw [described] at again
      cases again
      rw [bodyOf] at written
      cases rendered : renderRecord ctx hashing kind (iriOf ctx.base kind id) quads with
      | error e =>
        rw [rendered] at written
        cases written
      | ok prose => rfl
  · intro renders headers
    cases rendered : renderRecord ctx hashing kind (iriOf ctx.base kind id) quads with
    | error e =>
      rw [rendered] at renders
      cases renders
    | ok prose =>
      have written : bodyOf ctx hashing kind (iriOf ctx.base kind id) quads .markdown = .ok (.markdown prose) := by
        rw [bodyOf, rendered]
        rfl
      refine ⟨_, (dereference_extension routed drawn stands headers).trans
        (congrArg some (represent_body described some_ (by decide) written)), rfl, ?_⟩
      exact congrArg some (show "text/markdown" = essence "text/markdown; charset=utf-8" by decide)

/-! The bodies. -/

theorem loadRecord_none_iff : loadRecord ctx hashing kind iri quads = none ↔ ¬Modelled kind := by
  cases kind <;> simp [loadRecord, Modelled]

theorem bodyOf_typed {body : Body} (data : repr ≠ .html) (written : bodyOf ctx hashing kind iri quads repr = .ok body) :
    repr.mediaType = body.repr.mediaType ↔ (repr = .json → Modelled kind) := by
  cases repr with
  | json =>
    rw [bodyOf] at written
    cases loaded : loadRecord ctx hashing kind iri quads with
    | none =>
      rw [loaded] at written
      cases written
      have bare := loadRecord_none_iff.1 loaded
      have apart : Repr.json.mediaType ≠ Repr.turtle.mediaType := by decide
      exact iff_of_false apart (fun all => bare (all rfl))
    | some outcome =>
      have modelled : Modelled kind := by
        by_contra bare
        rw [loadRecord_none_iff.2 bare] at loaded
        cases loaded
      cases outcome with
      | error e =>
        rw [loaded] at written
        cases written
      | ok record =>
        rw [loaded] at written
        cases written
        exact iff_of_true rfl (fun _ => modelled)
  | markdown =>
    rw [bodyOf] at written
    cases rendered : renderRecord ctx hashing kind iri quads with
    | error e =>
      rw [rendered] at written
      cases written
    | ok prose =>
      rw [rendered] at written
      cases written
      exact iff_of_true rfl (by simp)
  | turtle =>
    cases written
    exact iff_of_true rfl (by simp)
  | jsonLd =>
    cases written
    exact iff_of_true rfl (by simp)
  | nQuads =>
    cases written
    exact iff_of_true rfl (by simp)
  | html => exact absurd rfl data

/-- What was written as JSON or Markdown was loaded, so it can be written as Markdown. -/
theorem renders_of_body {body : Body} (written : bodyOf ctx hashing kind iri quads repr = .ok body)
    (loads : repr = .json ∨ repr = .markdown) : (renderRecord ctx hashing kind iri quads).isOk = true := by
  rcases loads with rfl | rfl
  · rw [bodyOf] at written
    unfold renderRecord
    cases loaded : loadRecord ctx hashing kind iri quads with
    | none => rfl
    | some outcome =>
      cases outcome with
      | error e =>
        rw [loaded] at written
        cases written
      | ok record => rfl
  · rw [bodyOf] at written
    cases rendered : renderRecord ctx hashing kind iri quads with
    | error e =>
      rw [rendered] at written
      cases written
    | ok prose => rfl

theorem mem_linked {links : List Link} {link : Link} : link ∈ linked links ↔ (headerValue links).isSome = true ∧ link ∈ links := by
  unfold linked
  split
  · next some_ => simp [some_]
  · next none_ => simp [none_]

/-- The links of a record that is there lead where they say, once it renders. -/
theorem links_deliver (routed : routes.lookup kind.segment = some (some kind)) (drawn : Drawn id)
    (described : describe ctx.platform ctx.data (iriOf ctx.base kind id) = .ok quads) (some_ : quads ≠ [])
    (renders : (renderRecord ctx hashing kind (iriOf ctx.base kind id) quads).isOk = true) {link : Link}
    (mem : link ∈ signpostingFor ctx kind (iriOf ctx.base kind id)) (rel : link.rel = "describedby" ∨ link.rel = "alternate") :
    Delivers ctx hashing (iriOf ctx.base kind id) link := by
  have own := mem_signposting mem rel
  simp only [signposting_eq, List.mem_cons, List.not_mem_nil, or_false] at own
  rcases own with rfl | rfl | rfl | rfl
  · rcases rel with other | other
    · exact absurd other (show "cite-as" ≠ "describedby" by decide)
    · exact absurd other (show "cite-as" ≠ "alternate" by decide)
  · exact delivers_graph routed drawn described some_ (show fromExtension "ttl" = some Repr.turtle from rfl) (Or.inl rfl) (by decide)
  · exact delivers_graph routed drawn described some_ (show fromExtension "jsonld" = some Repr.jsonLd from rfl) (Or.inr rfl) (by decide)
  · exact (delivers_prose_iff routed drawn described some_ _).2 renders

theorem record_iff (routed : routes.lookup kind.segment = some (some kind)) (drawn : Drawn id) {ext : Option String}
    (known : ∀ e, ext = some e → (fromExtension e).isSome = true) :
    (∀ response, respond ctx hashing headers (pathOf kind.segment id ext) = some (.ok response) → Truthful ctx hashing response) ↔
      Told ctx hashing kind (iriOf ctx.base kind id) (chosen headers ext .html) := by
  rw [respond_record routed drawn known]
  simp only [Option.some.injEq]
  generalize chosen headers ext .html = repr
  constructor
  · intro truthful quads described some_
    constructor
    · rintro rfl
      by_contra bare
      have written : bodyOf ctx hashing kind (iriOf ctx.base kind id) quads .json = .ok (serialize quads .turtle) := by
        rw [bodyOf, loadRecord_none_iff.2 bare]
      have told := truthful _ (represent_body described some_ (by decide) written)
      exact bare ((bodyOf_typed (by decide) written).1 told.type rfl)
    · intro json markdown header
      have prose : (⟨iriOf ctx.base kind id ++ ("." ++ "md"), "alternate", some "text/markdown"⟩ : Link) ∈
          linked (signpostingFor ctx kind (iriOf ctx.base kind id)) :=
        mem_linked.2 ⟨header, List.mem_append_left _ (List.mem_append_left _ (by simp [signposting_eq]))⟩
      rw [← delivers_prose_iff routed drawn described some_ "alternate"]
      by_cases page : repr = .html
      · subst page
        exact (truthful _ (represent_page described some_)).delivers rfl (links_spaResponse _) prose (Or.inr rfl)
      · have written : bodyOf ctx hashing kind (iriOf ctx.base kind id) quads repr = .ok (serialize quads repr) := by
          cases repr with
          | json => exact absurd rfl json
          | markdown => exact absurd rfl markdown
          | html => rfl
          | turtle => rfl
          | jsonLd => rfl
          | nQuads => rfl
        exact (truthful _ (represent_body described some_ page written)).delivers rfl (links_intoResponse _ _) prose (Or.inr rfl)
  · intro told response answered
    rcases represent_cases answered with ⟨_, rfl⟩ | ⟨quads, described, some_, page | ⟨data, body, written, rfl⟩⟩
    · exact ⟨rfl, fun link mem => absurd mem List.not_mem_nil⟩
    · obtain ⟨rfl, rfl⟩ := page
      refine ⟨rfl, fun link mem rel => ?_⟩
      rw [links_spaResponse] at mem
      obtain ⟨header, inside⟩ := mem_linked.1 mem
      exact links_deliver routed drawn described some_ ((told quads described some_).2 (by decide) (by decide) header) inside rel
    · refine ⟨(bodyOf_typed data written).2 (told quads described some_).1, fun link mem rel => ?_⟩
      rw [links_intoResponse] at mem
      obtain ⟨header, inside⟩ := mem_linked.1 mem
      have renders : (renderRecord ctx hashing kind (iriOf ctx.base kind id) quads).isOk = true := by
        by_cases json : repr = .json
        · exact renders_of_body written (Or.inl json)
        · by_cases markdown : repr = .markdown
          · exact renders_of_body written (Or.inr markdown)
          · exact (told quads described some_).2 json markdown header
      exact links_deliver routed drawn described some_ renders inside rel

end Records

/-- An IRI of the registry, with an extension or without, is answered truthfully just where it is told: one rule for the kinds
with a page, another for the rest. -/
theorem answers_truthful_iff (ctx : Ctx) (hashing : Ctx.Hashing) (headers : Mcp.Headers) (trimmed : trimSlash ctx.base = ctx.base)
    {id : String} (drawn : Drawn id) {ext : Option String} (known : ∀ e, ext = some e → (fromExtension e).isSome = true) :
    (∀ kind : Kind, routes.lookup kind.segment = some (some kind) →
      ((∀ response, respond ctx hashing headers (pathOf kind.segment id ext) = some (.ok response) → Truthful ctx hashing response) ↔
        Told ctx hashing kind (iriOf ctx.base kind id) (chosen headers ext .html))) ∧
    ∀ segment, routes.lookup segment = some none →
      ((∀ response, respond ctx hashing headers (pathOf segment id ext) = some (.ok response) → Truthful ctx hashing response) ↔
        ToldPlain ctx (ctx.base ++ pathOf segment id ext) (negotiate headers .turtle)) :=
  ⟨fun _ routed => record_iff routed drawn known, fun _ routed => generic_iff trimmed routed drawn known⟩

/-! A type of the registry, asked for as JSON. -/
section Asked

open Specimen

def concept : Quad :=
  ⟨.named "https://reg.example/type/a1", Ns.rdfType, .named "http://www.w3.org/2004/02/skos/core#Concept", Ns.gLocal⟩

def typed : Ctx := (registry []).ctx ⟨⟨[concept], by decide⟩, {}⟩ (draw "a")

def listed : Ctx.Hashing := ⟨id, List.Perm.refl⟩

def asJson : Mcp.Headers := [("accept", some "application/json")]

theorem drawn_a1 : Drawn "a1" := ⟨by decide, by decide⟩

theorem concept_answers : trimSlash typed.base = typed.base ∧
    ((∀ response, respond typed listed [] (pathOf Kind.type.segment "a1" none) = some (.ok response) →
      Truthful typed listed response) ↔
      Told typed listed .type (iriOf typed.base .type "a1") (chosen [] none .html)) :=
  ⟨by decide, (answers_truthful_iff typed listed [] (by decide) drawn_a1 (by simp)).1 .type rfl⟩

/-- The body is Turtle, and JSON is what is announced. -/
theorem concept_mislabelled : ¬∀ headers response,
    respond typed listed headers (pathOf Kind.type.segment "a1" none) = some (.ok response) → Truthful typed listed response := by
  intro truthful
  have told := (@record_iff typed listed asJson .type "a1" rfl drawn_a1 none (by simp)).1 (truthful asJson)
  have described : describe typed.platform typed.data (iriOf typed.base .type "a1") = .ok [concept] := by decide
  have asked : chosen asJson none .html = Repr.json := by decide
  have modelled := (told _ described (by decide)).1 asked
  revert modelled
  simp [Modelled]

end Asked

end ToolArtifactRegistry.Laws.Dereferencing
