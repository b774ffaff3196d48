import ToolArtifactRegistry.Renaming

/-! What a request becomes on its way in, when the registry has had other bases: old IRIs in the query and in
a textual body are spelled the new way. -/
namespace ToolArtifactRegistry.Rebase

open Library.Text Library.Replace Ids

/-- The parts of a text around the first occurrence of a pattern. -/
def cutAt (pattern : List Char) : List Char → Option (List Char × List Char)
  | [] => none
  | c :: rest =>
    if pattern <+: c :: rest then some ([], (c :: rest).drop pattern.length)
    else (cutAt pattern rest).map (fun parts => (c :: parts.1, parts.2))

/-- The part of a base that is looked for: what follows the scheme, up to a slash. -/
def hostOf (old : String) : String :=
  let rest := match cutAt "://".toList old.toList with
    | none => old.toList
    | some (_, rest) =>
      match cutAt "://".toList rest with
      | none => rest
      | some (piece, _) => piece
  String.ofList (rest.takeWhile (fun c => c != '/'))

def mentions (text old : String) : Bool := contains text (hostOf old)

/-- The form codec and the check of a request target. -/
structure Forms where
  parse : String → List (String × String)
  serialize : List (String × String) → String
  accepts : String → Bool
  /-- What is serialised is parsed again. -/
  parses : ∀ pairs, parse (serialize pairs) = pairs

/-- Every old base in a text, one after the other. -/
def rewriteAll (olds : List String) (new text : String) : String := olds.foldl (fun text old => rewriteText text old new) text

def rewriteForm (forms : Forms) (form : String) (olds : List String) (new : String) : String :=
  forms.serialize ((forms.parse form).map (fun pair => (pair.1, rewriteAll olds new pair.2)))

/-- The bytes of a body, as the text they encode when they encode one. -/
inductive Payload where
  | text (content : String)
  | other (size : Nat)

def Payload.size : Payload → Nat
  | .text content => content.utf8ByteSize
  | .other size => size

structure Request where
  path : String
  query : Option String
  contentType : Option String
  contentLength : Option Nat
  body : Payload

def isForm (contentType : String) : Bool := startsWith contentType "application/x-www-form-urlencoded"

def isText (contentType : String) : Bool := contains contentType "json" || startsWith contentType "application/sparql"

def payloadTooLarge (limit : Nat) : AppError :=
  (AppError.new 413 "payload-too-large" "Payload too large").withDetail ("the body exceeds " ++ toString limit ++ " bytes")

def translateQuery (forms : Forms) (previous : List String) (new path : String) (query : Option String) : Option String :=
  match query with
  | none => none
  | some q =>
    if previous.any (mentions q) then
      let rewritten := rewriteForm forms q previous new
      if forms.accepts (path ++ "?" ++ rewritten) then some rewritten else some q
    else some q

/-- The request as the handlers see it. -/
def translate (forms : Forms) (previous : List String) (new : String) (limit : Nat) (request : Request) : AppResult Request :=
  let request := { request with query := translateQuery forms previous new request.path request.query }
  let contentType := request.contentType.getD ""
  if !isForm contentType && !isText contentType then .ok request
  else if request.body.size > limit then .error (payloadTooLarge limit)
  else
    match request.body with
    | .other _ => .ok request
    | .text text =>
      if previous.any (mentions text) then
        let text := if isForm contentType then rewriteForm forms text previous new else rewriteAll previous new text
        .ok { request with contentLength := some text.utf8ByteSize, body := .text text }
      else .ok request

/-- A request that is not sent elsewhere, as it reaches its handler. -/
def receive (forms : Forms) (bases : Bases) (limit : Nat) (request : Request) : AppResult Request :=
  if bases.previousBaseIris = [] then .ok request
  else translate forms bases.previousBaseIris (trimSlash bases.baseIri) limit request

section

theorem cutAt_eq {pattern text before after : List Char} (cut : cutAt pattern text = some (before, after)) :
    text = before ++ (pattern ++ after) := by
  induction text generalizing before with
  | nil => cases cut
  | cons c rest ih =>
    unfold cutAt at cut
    split at cut
    · next starts =>
      cases cut
      obtain ⟨tail, same⟩ := starts
      rw [← same, List.drop_left, List.nil_append]
    · obtain ⟨⟨first, second⟩, found, same⟩ := Option.map_eq_some_iff.mp cut
      cases same
      rw [ih found, List.cons_append]

/-- A base holds what is looked for in its stead. -/
theorem hostOf_within (old : String) : (hostOf old).toList <:+: old.toList := by
  unfold hostOf
  dsimp only
  rw [String.toList_ofList]
  split
  · exact (List.takeWhile_prefix _).isInfix
  · next _ rest found =>
    have inOld : rest <:+: old.toList := by
      rw [cutAt_eq found, ← List.append_assoc]
      exact (List.suffix_append _ _).isInfix
    split
    · exact (List.takeWhile_prefix _).isInfix.trans inOld
    · next piece _ again =>
      have inRest : piece <:+: rest := by
        rw [cutAt_eq again]
        exact (List.prefix_append _ _).isInfix
      exact ((List.takeWhile_prefix _).isInfix.trans inRest).trans inOld

/-- A text that holds an IRI under a base as it stands mentions the base. -/
theorem mentions_of_contains {text old : String} (holds : contains text (old ++ "/") = true) : mentions text old = true := by
  rw [contains_iff] at holds
  unfold mentions
  rw [contains_iff]
  refine ((hostOf_within old).trans ?_).trans holds
  rw [String.toList_append]
  exact (List.prefix_append _ _).isInfix

theorem rewriteAll_toList (olds : List String) (new text : String) :
    (rewriteAll olds new text).toList =
      replaceAll (olds.map (fun old => (old ++ "/").toList)) (new ++ "/").toList text.toList := by
  induction olds generalizing text with
  | nil => rfl
  | cons old olds ih =>
    show (rewriteAll olds new (rewriteText text old new)).toList = _
    rw [ih, rewriteText, replaceText, String.toList_ofList]
    rfl

end

end ToolArtifactRegistry.Rebase
