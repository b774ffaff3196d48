import ToolArtifactRegistry.Library.TurtleTokens

/-! The IRIs among the objects of a document: every one of them is an IRI. -/
namespace ToolArtifactRegistry.Library.Turtle

open Library.Rdf

variable {iris : Iris}

def TermSound (iris : Iris) (term : Term) : Prop := ∀ iri, term = .named iri → iris.valid iri = true

def Frame.Sound (iris : Iris) : Frame → Prop
  | .subject node _ _ => TermSound iris node.term
  | .items read => ∀ term ∈ read, TermSound iris term

namespace Reader

/-- What was read and what is being described are named by IRIs. -/
structure Sound (iris : Iris) (reader : Reader) : Prop where
  triples : ∀ triple ∈ reader.triples, TermSound iris triple.2.2
  stack : ∀ frame ∈ reader.stack, frame.Sound iris

theorem resolve_valid {reader : Reader} {reference iri : String} (resolved : reader.resolve iris reference = some iri) :
    iris.valid iri = true := by
  unfold resolve at resolved
  split at resolved
  · rename_i valid
    rw [← Option.some.inj resolved]
    exact valid
  · obtain ⟨base, _, against⟩ := Option.bind_eq_some_iff.1 resolved
    exact iris.resolved against

theorem iriOf_valid {reader : Reader} {token : Token} {iri : String} (read : reader.iriOf iris token = some iri) :
    iris.valid iri = true := by
  unfold iriOf at read
  split at read
  · exact resolve_valid read
  · exact (Option.filter_eq_some_iff.1 read).2
  · cases read

theorem blank_sound (label : String) : TermSound iris (.blank label) := by
  intro iri same
  cases same

theorem literal_sound (value datatype : String) (language : Option String) : TermSound iris (.literal value datatype language) := by
  intro iri same
  cases same

theorem named_sound {iri : String} (valid : iris.valid iri = true) : TermSound iris (.named iri) := by
  intro other same
  rw [← Term.named.inj same]
  exact valid

theorem Sound.deliver {reader next : Reader} (sound : reader.Sound iris) {term : Term} (fine : TermSound iris term)
    (stepped : reader.deliver term = some next) : next.Sound iris := by
  unfold Reader.deliver at stepped
  split at stepped
  · obtain ⟨node, isNode, rfl⟩ := Option.map_eq_some_iff.1 stepped
    refine ⟨sound.triples, ?_⟩
    intro frame mem
    rw [List.mem_singleton.1 mem]
    have same : node.term = term := by
      cases term <;> cases isNode <;> rfl
    show TermSound iris node.term
    rw [same]
    exact fine
  · cases stepped
  · cases stepped
    refine ⟨?_, sound.stack⟩
    intro triple mem
    rcases List.mem_cons.1 mem with rfl | earlier
    · exact fine
    · exact sound.triples triple earlier
  · rename_i read rest shape
    cases stepped
    refine ⟨sound.triples, ?_⟩
    have frames := sound.stack
    rw [shape] at frames
    intro frame mem
    rcases List.mem_cons.1 mem with rfl | later
    · intro item among
      rcases List.mem_cons.1 among with rfl | earlier
      · exact fine
      · exact frames _ List.mem_cons_self item earlier
    · exact frames frame (List.mem_cons_of_mem _ later)

theorem Sound.value {reader next : Reader} (sound : reader.Sound iris) {token : Token}
    (stepped : reader.value iris token = some next) : next.Sound iris := by
  unfold Reader.value at stepped
  split at stepped
  · obtain ⟨iri, read, delivered⟩ := Option.bind_eq_some_iff.1 stepped
    exact sound.deliver (named_sound (iriOf_valid read)) delivered
  · obtain ⟨iri, read, delivered⟩ := Option.bind_eq_some_iff.1 stepped
    exact sound.deliver (named_sound (iriOf_valid read)) delivered
  · exact sound.deliver (blank_sound _) stepped
  · cases stepped
    exact ⟨sound.triples, sound.stack⟩
  · exact sound.deliver (literal_sound _ _ _) stepped
  · split at stepped
    · exact sound.deliver (literal_sound _ _ _) stepped
    · cases stepped
  · cases stepped
    refine ⟨sound.triples, ?_⟩
    intro frame mem
    rcases List.mem_cons.1 mem with rfl | earlier
    · exact blank_sound _
    · exact sound.stack frame earlier
  · cases stepped
    refine ⟨sound.triples, ?_⟩
    intro frame mem
    rcases List.mem_cons.1 mem with rfl | earlier
    · intro item none_
      cases none_
    · exact sound.stack frame earlier
  · cases stepped

theorem collect_sound {read : List Term} (items : ∀ term ∈ read, TermSound iris term) {tail : Term} (fine : TermSound iris tail)
    (fresh : Nat) {triples : List Triple} (earlier : ∀ triple ∈ triples, TermSound iris triple.2.2) :
    TermSound iris (collect read tail fresh triples).1 ∧
      ∀ triple ∈ (collect read tail fresh triples).2.2, TermSound iris triple.2.2 := by
  induction read generalizing tail fresh triples with
  | nil => exact ⟨fine, earlier⟩
  | cons item rest ih =>
    apply ih (fun term mem => items term (List.mem_cons_of_mem _ mem)) (blank_sound _)
    intro triple mem
    rcases List.mem_cons.1 mem with rfl | more
    · exact items item List.mem_cons_self
    · rcases List.mem_cons.1 more with rfl | before
      · exact fine
      · exact earlier triple before

theorem Sound.endItems {reader next : Reader} (sound : reader.Sound iris) (stepped : reader.endItems = some next) :
    next.Sound iris := by
  unfold Reader.endItems at stepped
  split at stepped
  · rename_i read rest shape
    have frames := sound.stack
    rw [shape] at frames
    have nil_ : TermSound iris (.named (rdf ++ "nil")) := named_sound iris.nil
    obtain ⟨head, all⟩ := collect_sound (frames _ List.mem_cons_self) nil_ reader.fresh sound.triples
    exact Sound.deliver ⟨all, fun frame mem => frames frame (List.mem_cons_of_mem _ mem)⟩ head stepped
  · cases stepped

theorem Sound.endStatement {reader next : Reader} (sound : reader.Sound iris) (stepped : reader.endStatement = some next) :
    next.Sound iris := by
  unfold Reader.endStatement at stepped
  split at stepped
  · cases stepped
    exact ⟨sound.triples, fun _ none_ => absurd none_ List.not_mem_nil⟩
  · cases stepped

theorem Sound.endBracket {reader next : Reader} (sound : reader.Sound iris) {empty : Bool}
    (stepped : reader.endBracket empty = some next) : next.Sound iris := by
  have frames := sound.stack
  unfold Reader.endBracket at stepped
  split at stepped
  · rename_i node verb shape
    rw [shape] at frames
    cases stepped
    refine ⟨sound.triples, ?_⟩
    intro frame mem
    rw [List.mem_singleton.1 mem]
    exact frames (.subject node verb .bracket) List.mem_cons_self
  · rename_i node verb rest _ shape
    rw [shape] at frames
    have outer : Reader.Sound iris { reader with stack := rest } :=
      ⟨sound.triples, fun frame mem => frames frame (List.mem_cons_of_mem _ mem)⟩
    exact outer.deliver (frames (.subject node verb .bracket) List.mem_cons_self) stepped
  · cases stepped

theorem Sound.setVerb {reader next : Reader} (sound : reader.Sound iris) {token : Token}
    (stepped : reader.setVerb iris token = some next) : next.Sound iris := by
  have frames := sound.stack
  unfold Reader.setVerb at stepped
  dsimp only at stepped
  generalize (if token = .word "a" then some (rdf ++ "type") else reader.iriOf iris token) = verb at stepped
  split at stepped
  · rename_i verb node old closing rest shape
    rw [shape] at frames
    cases stepped
    refine ⟨sound.triples, ?_⟩
    intro frame mem
    rcases List.mem_cons.1 mem with rfl | later
    · exact frames (.subject node old closing) List.mem_cons_self
    · exact frames frame (List.mem_cons_of_mem _ later)
  · cases stepped

theorem Sound.directive {reader next : Reader} (sound : reader.Sound iris) {token : Token}
    (stepped : reader.directive iris token = some next) : next.Sound iris := by
  unfold Reader.directive at stepped
  split at stepped
  · cases stepped
    exact ⟨sound.triples, sound.stack⟩
  · cases stepped
    exact ⟨sound.triples, sound.stack⟩
  · split_ifs at stepped
    · cases stepped
      exact ⟨sound.triples, sound.stack⟩
    · cases stepped
      exact ⟨sound.triples, sound.stack⟩
    · exact sound.value stepped
  · exact sound.value stepped

theorem Sound.settle {reader next : Reader} (sound : reader.Sound iris) {token : Token}
    (stepped : reader.settle token = some next) : next.Sound iris := by
  unfold Reader.settle at stepped
  split at stepped
  · cases stepped
    exact sound
  · cases stepped
    exact sound
  · exact sound.deliver (literal_sound _ _ _) stepped
  · cases stepped
    exact sound

/-- What is expected next says nothing of what was read. -/
theorem Sound.expecting {reader : Reader} (sound : reader.Sound iris) (expect : Expect) :
    ({ reader with expect := expect } : Reader).Sound iris := ⟨sound.triples, sound.stack⟩

theorem Sound.advance {reader next : Reader} (sound : reader.Sound iris) {token : Token}
    (stepped : reader.advance iris token = some next) : next.Sound iris := by
  unfold Reader.advance at stepped
  split at stepped
  · exact sound.directive stepped
  · split at stepped
    · cases stepped
      exact sound.expecting _
    · cases stepped
  · split at stepped
    · obtain ⟨iri, _, rfl⟩ := Option.map_eq_some_iff.1 stepped
      exact ⟨sound.triples, sound.stack⟩
    · cases stepped
  · split at stepped
    · obtain ⟨iri, _, rfl⟩ := Option.map_eq_some_iff.1 stepped
      exact ⟨sound.triples, sound.stack⟩
    · cases stepped
  · split_ifs at stepped
    cases stepped
    exact sound.expecting _
  · exact sound.setVerb stepped
  · split_ifs at stepped
    · exact sound.endStatement stepped
    · exact sound.setVerb stepped
  · split_ifs at stepped
    · cases stepped
      exact sound
    · exact sound.endStatement stepped
    · exact sound.endBracket stepped
    · exact sound.setVerb stepped
  · split_ifs at stepped
    · exact sound.endBracket stepped
    · exact sound.setVerb stepped
  · exact sound.value stepped
  · split_ifs at stepped
    · exact sound.endItems stepped
    · exact sound.value stepped
  · split_ifs at stepped
    · cases stepped
      exact sound.expecting _
    · cases stepped
      exact sound.expecting _
    · exact sound.endStatement stepped
    · exact sound.endBracket stepped
  · split at stepped
    · exact sound.deliver (literal_sound _ _ _) stepped
    · cases stepped
      exact sound.expecting _
    · cases stepped
  · obtain ⟨datatype, _, delivered⟩ := Option.bind_eq_some_iff.1 stepped
    exact sound.deliver (literal_sound _ _ _) delivered

theorem Sound.step {reader next : Reader} (sound : reader.Sound iris) {token : Token}
    (stepped : reader.step iris token = some next) : next.Sound iris := by
  obtain ⟨settled, first, second⟩ := Option.bind_eq_some_iff.1 stepped
  exact (sound.settle first).advance second

theorem Sound.run {tokens : List Token} {reader next : Reader} (sound : reader.Sound iris)
    (ran : tokens.foldlM (Reader.step iris) reader = some next) : next.Sound iris := by
  induction tokens generalizing reader with
  | nil =>
    cases ran
    exact sound
  | cons token rest ih =>
    rw [List.foldlM_cons] at ran
    obtain ⟨middle, first, later⟩ := Option.bind_eq_some_iff.1 ran
    exact ih (sound.step first) later

end Reader

/-- Every IRI that is the object of a triple is an IRI, whatever the document was made of. -/
theorem parse_named {document : String} {triples : List Triple} (parsed : parse iris document = some triples) :
    ∀ triple ∈ triples, TermSound iris triple.2.2 := by
  unfold parse at parsed
  obtain ⟨tokens, _, read⟩ := Option.bind_eq_some_iff.1 parsed
  obtain ⟨reader, ran, last⟩ := Option.bind_eq_some_iff.1 read
  split_ifs at last
  cases last
  have start : Reader.Sound iris {} :=
    ⟨fun _ none_ => absurd none_ List.not_mem_nil, fun _ none_ => absurd none_ List.not_mem_nil⟩
  exact (start.run ran).triples

/-! Statements read one after the other. -/
namespace Reader

variable {reader : Reader}

/-- The declaration of a namespace. -/
theorem run_declare (name : String) {space : String} (expects : reader.expect = .statement) (valid : iris.valid space = true) :
    [Token.tag "prefix", .name name "", .iri space, .mark '.'].foldlM (Reader.step iris) reader =
      some { reader with spaces := (name, space) :: reader.spaces } := by
  obtain ⟨expect, spaces, base, stack, fresh, triples⟩ := reader
  obtain rfl : expect = .statement := expects
  simp [List.foldlM_cons, Reader.step, settle, advance, directive, resolve, valid, afterDirective]

/-- The token of an IRI reads as it. -/
def Denotes (iris : Iris) (spaces : List (String × String)) (base : Option String) (token : Token) (iri : String) : Prop :=
  (∀ reader : Reader, reader.spaces = spaces → reader.base = base → reader.iriOf iris token = some iri) ∧
    token ≠ .word "a" ∧ (∀ mark, token ≠ .mark mark)

theorem denotes_iri {spaces : List (String × String)} {base : Option String} {iri : String} (valid : iris.valid iri = true) :
    Denotes iris spaces base (.iri iri) iri := by
  refine ⟨fun reader _ _ => ?_, by simp, by simp⟩
  rw [iriOf, resolve, if_pos valid]

theorem denotes_name {spaces : List (String × String)} {base : Option String} {name space word : String}
    (declared : (spaces.find? (fun entry => entry.1 == name)).map Prod.snd = some space) (valid : iris.valid (space ++ word) = true) :
    Denotes iris spaces base (.name name word) (space ++ word) := by
  refine ⟨fun reader same _ => ?_, by simp, by simp⟩
  obtain ⟨entry, found, rfl⟩ := Option.map_eq_some_iff.1 declared
  rw [iriOf, expand, same, found, Option.map_some, Option.filter_some, if_pos valid]

/-- Where a verb may stand in a description. -/
def AtVerb (reader : Reader) : Prop := reader.expect = .verb ∨ reader.expect = .verbOrEnd ∨ reader.expect = .verbOrBracket

theorem step_verb {node : Node} {old : Option String} {closing : Closing} {rest : List Frame} {token : Token} {verb : String}
    (at_ : reader.AtVerb) (stack : reader.stack = .subject node old closing :: rest)
    (denotes : Denotes iris reader.spaces reader.base token verb) :
    Reader.step iris reader token = some { reader with stack := .subject node (some verb) closing :: rest, expect := .object } := by
  obtain ⟨reads, letter, marks⟩ := denotes
  have set : reader.setVerb iris token =
      some { reader with stack := .subject node (some verb) closing :: rest, expect := .object } := by
    simp [setVerb, letter, reads reader rfl rfl, stack]
  have kept : reader.settle token = some reader := by
    unfold settle
    rcases at_ with expect | expect | expect <;> simp [expect]
  rw [Reader.step, kept]
  simp only [Option.bind_some]
  unfold advance
  rcases at_ with expect | expect | expect
  · simp [expect, set]
  · simp [expect, set, marks]
  · simp [expect, set, marks]

/-- The type of what is being described. -/
theorem step_type {node : Node} {old : Option String} {closing : Closing} {rest : List Frame} (at_ : reader.AtVerb)
    (stack : reader.stack = .subject node old closing :: rest) : Reader.step iris reader (.word "a") =
      some { reader with stack := .subject node (some (rdf ++ "type")) closing :: rest, expect := .object } := by
  have set : reader.setVerb iris (.word "a") =
      some { reader with stack := .subject node (some (rdf ++ "type")) closing :: rest, expect := .object } := by
    simp [setVerb, stack]
  have kept : reader.settle (.word "a") = some reader := by
    unfold settle
    rcases at_ with expect | expect | expect <;> simp [expect]
  rw [Reader.step, kept]
  simp only [Option.bind_some]
  unfold advance
  rcases at_ with expect | expect | expect <;> simp [expect, set]

/-- An IRI as an object. -/
theorem step_object {node : Node} {verb : String} {closing : Closing} {rest : List Frame} {token : Token} {iri : String}
    (expects : reader.expect = .object) (stack : reader.stack = .subject node (some verb) closing :: rest)
    (denotes : Denotes iris reader.spaces reader.base token iri) :
    Reader.step iris reader token = some { reader with triples := (node, verb, .named iri) :: reader.triples, expect := .after } := by
  obtain ⟨reads, _, _⟩ := denotes
  have read := reads reader rfl rfl
  have kept : reader.settle token = some reader := by
    unfold settle
    simp [expects]
  rw [Reader.step, kept]
  simp only [Option.bind_some, advance, expects]
  unfold value
  split
  · simp [read, deliver, stack]
  · simp [read, deliver, stack]
  all_goals simp [iriOf] at read

/-- A text as an object, seen at the token after it. -/
theorem step_text {node : Node} {verb : String} {closing : Closing} {rest : List Frame} {text : String} {mark : Char}
    (expects : reader.expect = .object) (stack : reader.stack = .subject node (some verb) closing :: rest) :
    [Token.text text, .mark mark].foldlM (Reader.step iris) reader =
      ({ reader with triples := (node, verb, .simple text) :: reader.triples, expect := .after } : Reader).advance iris (.mark mark) := by
  obtain ⟨expect, spaces, base, frames, fresh, triples⟩ := reader
  obtain rfl : expect = .object := expects
  obtain rfl : frames = _ := stack
  simp [List.foldlM_cons, Reader.step, settle, advance, value, deliver]

/-- After an object more may be said. -/
theorem step_semicolon (expects : reader.expect = .after) :
    Reader.step iris reader (.mark ';') = some { reader with expect := .verbOrEnd } := by
  obtain ⟨expect, spaces, base, frames, fresh, triples⟩ := reader
  obtain rfl : expect = .after := expects
  simp [Reader.step, settle, advance]

/-- Tokens that say something of what is being described, up to a semicolon. -/
def Says (iris : Iris) (spaces : List (String × String)) (tokens : List Token) (said : List (String × Term)) : Prop :=
  ∀ (reader : Reader) (node : Node) (old : Option String) (closing : Closing) (rest : List Frame),
    reader.expect = .verbOrEnd → reader.spaces = spaces → reader.stack = .subject node old closing :: rest →
      ∃ verb, tokens.foldlM (Reader.step iris) reader = some { reader with
        stack := .subject node verb closing :: rest
        triples := (said.map (fun statement => (node, statement.1, statement.2))).reverse ++ reader.triples }

theorem says_nil {spaces : List (String × String)} : Says iris spaces [] [] := by
  intro reader node old closing rest _ _ stack
  refine ⟨old, ?_⟩
  obtain ⟨expect, spaces, base, frames, fresh, triples⟩ := reader
  obtain rfl : frames = _ := stack
  rfl

theorem Says.append {spaces : List (String × String)} {left right : List Token} {one two : List (String × Term)}
    (first : Says iris spaces left one) (second : Says iris spaces right two) :
    Says iris spaces (left ++ right) (one ++ two) := by
  intro reader node old closing rest expects same stack
  obtain ⟨verb, ran⟩ := first reader node old closing rest expects same stack
  rw [List.foldlM_append, ran]
  obtain ⟨last, again⟩ := second { reader with
    stack := .subject node verb closing :: rest
    triples := (one.map (fun statement => (node, statement.1, statement.2))).reverse ++ reader.triples }
    node verb closing rest expects same rfl
  refine ⟨last, ?_⟩
  simp only [Option.bind_eq_bind, Option.bind_some, again, List.map_append, List.reverse_append, List.append_assoc]

theorem says_iri {spaces : List (String × String)} {verb object : Token} {predicate iri : String}
    (named : ∀ base, Denotes iris spaces base verb predicate) (denotes : ∀ base, Denotes iris spaces base object iri) :
    Says iris spaces [verb, object, .mark ';'] [(predicate, .named iri)] := by
  intro reader node old closing rest expects same stack
  refine ⟨some predicate, ?_⟩
  subst same
  rw [List.foldlM_cons, step_verb (Or.inr (Or.inl expects)) stack (named reader.base)]
  simp only [Option.bind_eq_bind, Option.bind_some]
  have placed : Reader.step iris { reader with stack := .subject node (some predicate) closing :: rest, expect := .object } object =
      some { reader with
        stack := .subject node (some predicate) closing :: rest
        triples := (node, predicate, .named iri) :: reader.triples
        expect := .after } :=
    step_object rfl rfl (denotes reader.base)
  rw [List.foldlM_cons, placed]
  simp only [Option.bind_eq_bind, Option.bind_some]
  rw [List.foldlM_cons, step_semicolon rfl]
  simp only [Option.bind_eq_bind, Option.bind_some, List.foldlM_nil, List.map_cons, List.map_nil, List.reverse_singleton,
    List.singleton_append, expects]
  rfl

theorem says_text {spaces : List (String × String)} {verb : Token} {predicate : String} (text : String)
    (named : ∀ base, Denotes iris spaces base verb predicate) :
    Says iris spaces [verb, .text text, .mark ';'] [(predicate, .simple text)] := by
  intro reader node old closing rest expects same stack
  refine ⟨some predicate, ?_⟩
  subst same
  rw [List.foldlM_cons, step_verb (Or.inr (Or.inl expects)) stack (named reader.base)]
  simp only [Option.bind_eq_bind, Option.bind_some]
  rw [step_text rfl rfl]
  simp [advance, expects]

/-- A node without a name as an object, about which something is said. -/
theorem step_bracket (expects : reader.expect = .object) : Reader.step iris reader (.mark '[') =
    some { reader with
      stack := .subject (.blank (anonymous reader.fresh)) none .bracket :: reader.stack
      fresh := reader.fresh + 1
      expect := .verbOrBracket } := by
  obtain ⟨expect, spaces, base, frames, fresh, triples⟩ := reader
  obtain rfl : expect = .object := expects
  simp [Reader.step, settle, advance, value]

end Reader

end ToolArtifactRegistry.Library.Turtle
