import ToolArtifactRegistry.Library.Floats
import ToolArtifactRegistry.Mcp.Transport

/-! The representation a request is answered in. -/
namespace ToolArtifactRegistry.Negotiate

open Library.Text Library.Floats

inductive Repr where
  | json
  | turtle
  | jsonLd
  | nQuads
  | html
  | markdown
  deriving DecidableEq

def Repr.mediaType : Repr → String
  | .json => "application/json"
  | .turtle => "text/turtle; charset=utf-8"
  | .jsonLd => "application/ld+json"
  | .nQuads => "application/n-quads"
  | .html => "text/html; charset=utf-8"
  | .markdown => "text/markdown; charset=utf-8"

/-- The names a client may use for a representation. -/
def names : List (String × Repr) :=
  [("text/turtle", .turtle), ("application/x-turtle", .turtle), ("text/n3", .turtle), ("application/ld+json", .jsonLd),
   ("application/n-quads", .nQuads), ("application/n-triples", .nQuads), ("application/json", .json),
   ("application/problem+json", .json), ("text/html", .html), ("application/xhtml+xml", .html),
   ("text/markdown", .markdown), ("text/x-markdown", .markdown)]

/-- The representation an entry's media type stands for. -/
def reprOf (defaultRepr : Repr) (media : String) : Option Repr :=
  match names.find? (fun entry => entry.1 == media) with
  | some entry => some entry.2
  | none => if media = "*/*" then some defaultRepr else none

/-- The media type of one entry of the header, in lower case, and its parameters. -/
def entryOf (part : String) : String × List String :=
  match split part (fun c => c == ';') with
  | [] => ("", [])
  | media :: params => (toAsciiLowercase (trim media), params)

/-- A parameter `q` takes over from the weight so far; one that does not read counts as one. -/
def weigh (q : Single) (param : String) : Single :=
  match stripPrefix (trim param) "q=" with
  | some text => (parse text).getD one
  | none => q

/-- The weight of an entry: its last `q`, and one where there is none. -/
def weightOf (params : List String) : Single := params.foldl weigh one

/-- The entries of a header that stand for a representation. -/
def recognised (defaultRepr : Repr) (accept : String) : List (Repr × List String) :=
  (split accept (fun c => c == ',')).filterMap (fun part =>
    (reprOf defaultRepr (entryOf part).1).map (fun repr => (repr, (entryOf part).2)))

def weighed (defaultRepr : Repr) (accept : String) : List (Repr × Single) :=
  (recognised defaultRepr accept).map (fun entry => (entry.1, weightOf entry.2))

/-- Pick a representation from the header, honouring its weights. -/
def negotiate (headers : Mcp.Headers) (defaultRepr : Repr) : Repr :=
  match Mcp.headerStr headers "accept" with
  | none => defaultRepr
  | some accept => (((weighed defaultRepr accept).foldl better none).map Prod.fst).getD defaultRepr

example : negotiate [("accept", some "text/html;q=0.2, text/turtle;q=0.9")] .json = .turtle := by decide
example : negotiate [("accept", some "text/html,application/xhtml+xml,application/xml;q=0.9,*/*;q=0.8")] .html = .html := by
  decide

end ToolArtifactRegistry.Negotiate
