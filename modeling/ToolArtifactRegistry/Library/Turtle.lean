import ToolArtifactRegistry.Library.Rdf
import ToolArtifactRegistry.Library.Text

/-! Turtle documents: their tokens, read character by character, and the triples of them, read token by token. -/
namespace ToolArtifactRegistry.Library.Turtle

open Library.Rdf Library.Text

inductive Token where
  | iri (text : String)
  | name (space word : String)
  | node (label : String)
  | text (value : String)
  | number (value datatype : String)
  /-- A language, or the word of a directive. -/
  | tag (word : String)
  | word (word : String)
  | mark (mark : Char)
  | carets
  deriving DecidableEq

/-! Characters and words. -/

def blank (c : Char) : Bool := c == ' ' || c == '\t' || c == '\n' || c == '\r'

def within (ranges : List (Nat × Nat)) (c : Char) : Bool := ranges.any (fun range => range.1 ≤ c.toNat && c.toNat ≤ range.2)

/-- `PN_CHARS_BASE`. -/
def letter (c : Char) : Bool :=
  within [(65, 90), (97, 122), (0xC0, 0xD6), (0xD8, 0xF6), (0xF8, 0x2FF), (0x370, 0x37D), (0x37F, 0x1FFF), (0x200C, 0x200D),
    (0x2070, 0x218F), (0x2C00, 0x2FEF), (0x3001, 0xD7FF), (0xF900, 0xFDCF), (0xFDF0, 0xFFFD), (0x10000, 0xEFFFF)] c

def digit (c : Char) : Bool := within [(48, 57)] c

/-- `PN_CHARS`. -/
def nameChar (c : Char) : Bool :=
  letter c || digit c || c == '_' || c == '-' || within [(0xB7, 0xB7), (0x300, 0x36F), (0x203F, 0x2040)] c

/-- What an `IRIREF` may hold besides escapes. -/
def iriChar (c : Char) : Bool :=
  decide (0x20 < c.toNat) && !(([0x22, 0x3C, 0x3E, 0x5C, 0x5E, 0x60, 0x7B, 0x7C, 0x7D] : List Nat).contains c.toNat)

def apostrophe : Char := Char.ofNat 39

def hexValue (c : Char) : Option Nat :=
  if within [(48, 57)] c then some (c.toNat - 48)
  else if within [(65, 70)] c then some (c.toNat - 55)
  else if within [(97, 102)] c then some (c.toNat - 87)
  else none

/-- A character of a run, and whether it was escaped. -/
abbrev Spelt := Char × Bool

def isDot (c : Spelt) : Bool := c == ('.', false)

def isColon (c : Spelt) : Bool := c == (':', false)

def chars (run : List Spelt) : List Char := run.map Prod.fst

/-- Every percent sign of a local name begins two hexadecimal digits. -/
def percents : List Spelt → Bool
  | [] => true
  | ('%', false) :: (h, _) :: (l, _) :: rest => (hexValue h).isSome && (hexValue l).isSome && percents rest
  | ('%', false) :: _ => false
  | _ :: rest => percents rest

def spaceName (run : List Spelt) : Bool :=
  match run with
  | [] => true
  | first :: _ => letter first.1 && run.all (fun c => !c.2 && (nameChar c.1 || c.1 == '.')) && !(run.getLast?.any isDot)

def localName (run : List Spelt) : Bool :=
  match run with
  | [] => true
  | first :: _ =>
    (first.2 || letter first.1 || digit first.1 || first.1 == '_' || first.1 == ':' || first.1 == '%') &&
      run.all (fun c => c.2 || nameChar c.1 || c.1 == '.' || c.1 == ':' || c.1 == '%') && percents run

def labelName (run : List Spelt) : Bool :=
  match run with
  | [] => false
  | first :: _ => (letter first.1 || digit first.1 || first.1 == '_') && run.all (fun c => !c.2 && (nameChar c.1 || c.1 == '.'))

def xsd : String := "http://www.w3.org/2001/XMLSchema#"

def unsigned (text : List Char) : List Char :=
  match text with
  | '+' :: rest | '-' :: rest => rest
  | _ => text

/-- The three numeric forms. -/
def numberOf (text : List Char) : Option Token :=
  let value := String.ofList text
  let body := unsigned text
  let mantissa := body.takeWhile (fun c => c != 'e' && c != 'E')
  let whole := mantissa.takeWhile digit
  let fraction := (mantissa.dropWhile digit).drop 1
  let digits := decide (0 < whole.length + fraction.length) && fraction.all digit &&
    ((mantissa.dropWhile digit).head?.all (fun c => c == '.'))
  if mantissa.length < body.length then
    let power := unsigned (body.drop (mantissa.length + 1))
    if digits && power.all digit && !power.isEmpty then some (.number value (xsd ++ "double")) else none
  else if mantissa.length = whole.length then if digits then some (.number value (xsd ++ "integer")) else none
  else if digits && !fraction.isEmpty then some (.number value (xsd ++ "decimal")) else none

/-- What a run of characters is: a number, a label, a prefixed name, or a word. -/
def classify (run : List Spelt) : Option Token :=
  match run with
  | ('_', false) :: (':', false) :: label => if labelName label then some (.node (String.ofList (chars label))) else none
  | first :: _ =>
    if digit first.1 || first.1 == '+' || first.1 == '-' || first.1 == '.' then
      if run.all (fun c => !c.2) then numberOf (chars run) else none
    else
      let space := run.takeWhile (fun c => !isColon c)
      match run.dropWhile (fun c => !isColon c) with
      | [] => if run.all (fun c => !c.2) then some (.word (String.ofList (chars run))) else none
      | _ :: word =>
        if spaceName space && localName word then some (.name (String.ofList (chars space)) (String.ofList (chars word)))
        else none
  | [] => none

/-! Tokens. -/

inductive Quoting where
  | iri
  | short (quote : Char)
  /-- A long text, with the quotes that were just read of its end. -/
  | long (quote : Char) (quotes : Nat)
  deriving DecidableEq

/-- Where in a token the lexer stands. What was read of the token is kept backwards. -/
inductive Mode where
  | gap
  | comment
  | body (quoting : Quoting) (read : List Char)
  | escape (quoting : Quoting) (read : List Char)
  | hex (quoting : Quoting) (read : List Char) (left value : Nat)
  | opened (quote : Char)
  | doubled (quote : Char)
  | run (read : List Spelt)
  | runEscape (read : List Spelt)
  | tag (read : List Char)
  | dot
  | caret
  deriving DecidableEq

/-- The lexer, with the tokens it has read, the last one first. -/
structure Lexer where
  mode : Mode
  tokens : List Token
  deriving DecidableEq

namespace Lexer

def emit (tokens : List Token) (token : Token) : Lexer := ⟨.gap, token :: tokens⟩

def between (tokens : List Token) (c : Char) : Option Lexer :=
  if blank c then some ⟨.gap, tokens⟩
  else if c = '#' then some ⟨.comment, tokens⟩
  else if c = '<' then some ⟨.body .iri [], tokens⟩
  else if c = '"' ∨ c = apostrophe then some ⟨.opened c, tokens⟩
  else if c = '@' then some ⟨.tag [], tokens⟩
  else if c = '^' then some ⟨.caret, tokens⟩
  else if c = '.' then some ⟨.dot, tokens⟩
  else if c ∈ [';', ',', '[', ']', '(', ')'] then some (emit tokens (.mark c))
  else if nameChar c || c == ':' || c == '+' then some ⟨.run [(c, false)], tokens⟩
  else none

/-- The end of a run: the dots at its end are no part of it. -/
def endRun (tokens : List Token) (read : List Spelt) : Option (List Token) :=
  (classify (read.dropWhile isDot).reverse).map (fun token =>
    List.replicate (read.takeWhile isDot).length (.mark '.') ++ token :: tokens)

def endTag (tokens : List Token) (read : List Char) : Option (List Token) :=
  if read.isEmpty then none else some (.tag (String.ofList read.reverse) :: tokens)

/-- What an escape stands for in a text. -/
def echar (c : Char) : Option Char :=
  ([('t', '\t'), ('b', Char.ofNat 8), ('n', '\n'), ('r', '\r'), ('f', Char.ofNat 12), ('"', '"'), (apostrophe, apostrophe), ('\\', '\\')].find?
    (fun pair => pair.1 == c)).map Prod.snd

def localEscapes : List Char := "_~.-!$&'()*+,;=/?#@%".toList

def closed (quoting : Quoting) (read : List Char) : Token :=
  match quoting with
  | .iri => .iri (String.ofList read.reverse)
  | _ => .text (String.ofList read.reverse)

/-- Quotes of a long text that were no end of it. -/
def settled : Quoting → List Char → Quoting × List Char
  | .long quote quotes, read => (.long quote 0, List.replicate quotes quote ++ read)
  | quoting, read => (quoting, read)

def stepBody (tokens : List Token) (quoting : Quoting) (read : List Char) (c : Char) : Option Lexer :=
  if c = '\\' then some ⟨.escape (settled quoting read).1 (settled quoting read).2, tokens⟩
  else
    match quoting with
    | .iri =>
      if c = '>' then some (emit tokens (closed .iri read))
      else if iriChar c then some ⟨.body .iri (c :: read), tokens⟩
      else none
    | .short quote =>
      if c = quote then some (emit tokens (closed quoting read))
      else if c = '\n' ∨ c = '\r' then none
      else some ⟨.body quoting (c :: read), tokens⟩
    | .long quote quotes =>
      if c = quote then
        if quotes = 2 then some (emit tokens (closed quoting read)) else some ⟨.body (.long quote (quotes + 1)) read, tokens⟩
      else some ⟨.body (.long quote 0) (c :: (settled quoting read).2), tokens⟩

def stepEscape (tokens : List Token) (quoting : Quoting) (read : List Char) (c : Char) : Option Lexer :=
  if c = 'u' then some ⟨.hex quoting read 4 0, tokens⟩
  else if c = 'U' then some ⟨.hex quoting read 8 0, tokens⟩
  else if quoting = .iri then none
  else (echar c).map (fun d => ⟨.body quoting (d :: read), tokens⟩)

def stepHex (tokens : List Token) (quoting : Quoting) (read : List Char) (left value : Nat) (c : Char) : Option Lexer :=
  (hexValue c).bind (fun h =>
    if 1 < left then some ⟨.hex quoting read (left - 1) (value * 16 + h), tokens⟩
    else if (value * 16 + h).isValidChar then some ⟨.body quoting (Char.ofNat (value * 16 + h) :: read), tokens⟩
    else none)

/-- One character of a document. -/
def step (lexer : Lexer) (c : Char) : Option Lexer :=
  let tokens := lexer.tokens
  match lexer.mode with
  | .gap => between tokens c
  | .comment => some ⟨if c = '\n' ∨ c = '\r' then .gap else .comment, tokens⟩
  | .body quoting read => stepBody tokens quoting read c
  | .escape quoting read => stepEscape tokens quoting read c
  | .hex quoting read left value => stepHex tokens quoting read left value c
  | .opened quote => if c = quote then some ⟨.doubled quote, tokens⟩ else stepBody tokens (.short quote) [] c
  | .doubled quote => if c = quote then some ⟨.body (.long quote 0) [], tokens⟩ else between (.text "" :: tokens) c
  | .run read =>
    if nameChar c || c == '.' || c == ':' || c == '%' || (c == '+' && (read.head?.any (fun e => e.1 == 'e' || e.1 == 'E'))) then
      some ⟨.run ((c, false) :: read), tokens⟩
    else if c = '\\' then some ⟨.runEscape read, tokens⟩
    else (endRun tokens read).bind (fun tokens => between tokens c)
  | .runEscape read => if c ∈ localEscapes then some ⟨.run ((c, true) :: read), tokens⟩ else none
  | .tag read =>
    if letter c && decide (c.toNat < 128) || ((digit c || c == '-') && !read.isEmpty) then some ⟨.tag (c :: read), tokens⟩
    else (endTag tokens read).bind (fun tokens => between tokens c)
  | .dot => if digit c then some ⟨.run [(c, false), ('.', false)], tokens⟩ else between (.mark '.' :: tokens) c
  | .caret => if c = '^' then some (emit tokens .carets) else none

def finish (lexer : Lexer) : Option (List Token) :=
  match lexer.mode with
  | .gap | .comment => some lexer.tokens.reverse
  | .run read => (endRun lexer.tokens read).map List.reverse
  | .tag read => (endTag lexer.tokens read).map List.reverse
  | .doubled _ => some (Token.text "" :: lexer.tokens).reverse
  | .dot => some (Token.mark '.' :: lexer.tokens).reverse
  | _ => none

end Lexer

def lex (text : String) : Option (List Token) := (text.toList.foldlM Lexer.step ⟨.gap, []⟩).bind Lexer.finish

/-! Triples. -/

abbrev Triple := Node × String × Term

def rdf : String := "http://www.w3.org/1999/02/22-rdf-syntax-ns#"

/-- Which texts are absolute IRIs, and what a reference is against a base. -/
structure Iris where
  valid : String → Bool
  resolve : String → String → Option String
  resolved : ∀ {base reference iri}, resolve base reference = some iri → valid iri = true
  plain : ∀ {iri}, valid iri = true → ∀ c ∈ iri.toList, iriChar c = true
  nil : valid (rdf ++ "nil") = true

inductive Closing where
  | top
  | bracket
  deriving DecidableEq

/-- What is being described: a subject with the verb that was read last, or the items of a collection, the last one first. -/
inductive Frame where
  | subject (node : Node) (verb : Option String) (closing : Closing)
  | items (read : List Term)
  deriving DecidableEq

/-- What is expected next. -/
inductive Expect where
  | statement
  | name (sparql : Bool)
  | space (sparql : Bool) (name : String)
  | base (sparql : Bool)
  | stop
  | verb
  | verbOrStop
  | verbOrEnd
  | verbOrBracket
  | object
  | item
  | after
  | suffix (value : String)
  | datatype (value : String)
  deriving DecidableEq

structure Reader where
  expect : Expect := .statement
  spaces : List (String × String) := []
  base : Option String := none
  stack : List Frame := []
  /-- How many nodes were named that the document has no name for. -/
  fresh : Nat := 0
  triples : List Triple := []

def anonymous (n : Nat) : String := "n" ++ toString n

def labelled (label : String) : String := "_" ++ label

namespace Reader

section

variable (iris : Iris)

def resolve (reader : Reader) (reference : String) : Option String :=
  if iris.valid reference then some reference else reader.base.bind (fun base => iris.resolve base reference)

def expand (reader : Reader) (space word : String) : Option String :=
  ((reader.spaces.find? (fun entry => entry.1 == space)).map (fun entry => entry.2 ++ word)).filter iris.valid

def iriOf (reader : Reader) : Token → Option String
  | .iri reference => reader.resolve iris reference
  | .name space word => reader.expand iris space word
  | _ => none

/-- A term where it stands: the subject of a statement, an object, or an item. -/
def deliver (reader : Reader) (term : Term) : Option Reader :=
  match reader.stack with
  | [] => term.node?.map (fun node => { reader with stack := [.subject node none .top], expect := .verb })
  | .subject _ none _ :: _ => none
  | .subject node (some verb) _ :: _ =>
    some { reader with triples := (node, verb, term) :: reader.triples, expect := .after }
  | .items read :: rest => some { reader with stack := .items (term :: read) :: rest, expect := .item }

/-- A term, or what begins one. -/
def value (reader : Reader) (token : Token) : Option Reader :=
  match token with
  | .iri _ | .name _ _ => (reader.iriOf iris token).bind (fun iri => reader.deliver (.named iri))
  | .node label => reader.deliver (.blank (labelled label))
  | .text text => some { reader with expect := .suffix text }
  | .number text datatype => reader.deliver (.literal text datatype none)
  | .word word =>
    if word = "true" ∨ word = "false" then reader.deliver (.literal word (xsd ++ "boolean") none) else none
  | .mark '[' =>
    some { reader with
      stack := .subject (.blank (anonymous reader.fresh)) none .bracket :: reader.stack
      fresh := reader.fresh + 1
      expect := .verbOrBracket }
  | .mark '(' => some { reader with stack := .items [] :: reader.stack, expect := .item }
  | _ => none

/-- The nodes of a collection, from its last item on. -/
def collect : List Term → Term → Nat → List Triple → Term × Nat × List Triple
  | [], tail, fresh, triples => (tail, fresh, triples)
  | item :: read, tail, fresh, triples =>
    collect read (.blank (anonymous fresh)) (fresh + 1)
      ((.blank (anonymous fresh), rdf ++ "first", item) :: (.blank (anonymous fresh), rdf ++ "rest", tail) :: triples)

def endItems (reader : Reader) : Option Reader :=
  match reader.stack with
  | .items read :: rest =>
    let made := collect read (.named (rdf ++ "nil")) reader.fresh reader.triples
    deliver { reader with stack := rest, fresh := made.2.1, triples := made.2.2 } made.1
  | _ => none

/-- The end of a statement. -/
def endStatement (reader : Reader) : Option Reader :=
  match reader.stack with
  | [.subject _ _ .top] => some { reader with stack := [], expect := .statement }
  | _ => none

/-- The end of a node without a name. As a subject it may stand alone when something is said of it. -/
def endBracket (reader : Reader) (empty : Bool) : Option Reader :=
  match reader.stack with
  | [.subject node _ .bracket] =>
    some { reader with stack := [.subject node none .top], expect := if empty then .verb else .verbOrStop }
  | .subject node _ .bracket :: rest => deliver { reader with stack := rest } node.term
  | _ => none

def setVerb (reader : Reader) (token : Token) : Option Reader :=
  let verb := if token = .word "a" then some (rdf ++ "type") else reader.iriOf iris token
  match verb, reader.stack with
  | some verb, .subject node _ closing :: rest =>
    some { reader with stack := .subject node (some verb) closing :: rest, expect := .object }
  | _, _ => none

def directive (reader : Reader) (token : Token) : Option Reader :=
  match token with
  | .tag "prefix" => some { reader with expect := .name false }
  | .tag "base" => some { reader with expect := .base false }
  | .word word =>
    if toAsciiLowercase word = "prefix" then some { reader with expect := .name true }
    else if toAsciiLowercase word = "base" then some { reader with expect := .base true }
    else reader.value iris token
  | _ => reader.value iris token

def afterDirective (sparql : Bool) : Expect := if sparql then .statement else .stop

/-- A text that no language and no datatype follows is a plain one. -/
def settle (reader : Reader) (token : Token) : Option Reader :=
  match reader.expect, token with
  | .suffix _, .tag _ => some reader
  | .suffix _, .carets => some reader
  | .suffix text, _ => reader.deliver (.simple text)
  | _, _ => some reader

def advance (reader : Reader) (token : Token) : Option Reader :=
  match reader.expect with
  | .statement => reader.directive iris token
  | .name sparql =>
    match token with
    | .name space "" => some { reader with expect := .space sparql space }
    | _ => none
  | .space sparql name =>
    match token with
    | .iri reference =>
      (reader.resolve iris reference).map (fun iri =>
        { reader with spaces := (name, iri) :: reader.spaces, expect := afterDirective sparql })
    | _ => none
  | .base sparql =>
    match token with
    | .iri reference =>
      (reader.resolve iris reference).map (fun iri => { reader with base := some iri, expect := afterDirective sparql })
    | _ => none
  | .stop => if token = .mark '.' then some { reader with expect := .statement } else none
  | .verb => reader.setVerb iris token
  | .verbOrStop => if token = .mark '.' then reader.endStatement else reader.setVerb iris token
  | .verbOrEnd =>
    if token = .mark ';' then some reader
    else if token = .mark '.' then reader.endStatement
    else if token = .mark ']' then reader.endBracket false
    else reader.setVerb iris token
  | .verbOrBracket => if token = .mark ']' then reader.endBracket true else reader.setVerb iris token
  | .object => reader.value iris token
  | .item => if token = .mark ')' then reader.endItems else reader.value iris token
  | .after =>
    if token = .mark ',' then some { reader with expect := .object }
    else if token = .mark ';' then some { reader with expect := .verbOrEnd }
    else if token = .mark '.' then reader.endStatement
    else if token = .mark ']' then reader.endBracket false
    else none
  | .suffix text =>
    match token with
    | .tag language => reader.deliver (.literal text (rdf ++ "langString") (some language))
    | .carets => some { reader with expect := .datatype text }
    | _ => none
  | .datatype text => (reader.iriOf iris token).bind (fun datatype => reader.deliver (.literal text datatype none))

/-- One token of a document. -/
def step (reader : Reader) (token : Token) : Option Reader := (reader.settle token).bind (fun reader => reader.advance iris token)

end

end Reader

/-- The triples of a document that is Turtle. -/
def parse (iris : Iris) (document : String) : Option (List Triple) :=
  (lex document).bind (fun tokens => (tokens.foldlM (Reader.step iris) {}).bind (fun reader =>
    if reader.expect = .statement then some reader.triples else none))

end ToolArtifactRegistry.Library.Turtle
