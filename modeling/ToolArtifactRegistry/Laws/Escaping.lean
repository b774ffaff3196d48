import ToolArtifactRegistry.Laws.Filtering
import ToolArtifactRegistry.Library.Patterns

/-! A text that is escaped for a literal is read back as itself, and one that is escaped for a pattern first is found
where it stands. -/
namespace ToolArtifactRegistry.Laws.Escaping

open Library.Text Library.Spelling Library.Sparql Library.Patterns Api.Listing

/-- A text between double quotes. -/
def quoted (text : String) : List Char := '"' :: (text.toList ++ ['"'])

/-- A spelled value between quotes is one string, whatever stands behind it but a quote. -/
theorem tokens_quoted {spelled value : List Char} (denotes : Denotes spelled value) :
    tokens ('"' :: (spelled ++ ['"'])) = [.string value] := by
  obtain ⟨resolved, resolves, reads, head, _⟩ := denotes.reads
  have single : ¬['"', '"'] <+: resolved ++ ['"'] := by
    cases resolved with
    | nil => decide
    | cons d resolved => exact fun starts => head (by rw [← (List.cons_prefix_cons.mp starts).1]; rfl)
  have here : token '"' (resolved ++ ['"']) = (.string value, (resolved ++ ['"']).length) := by
    unfold token
    rw [if_neg (by decide), if_pos (Or.inl rfl), if_neg single, reads, List.length_append]
    rfl
  have end_ : lexFrom (resolved ++ ['"']).length (resolved ++ ['"']) = [] := by
    have skipped := lexFrom_skip (resolved ++ ['"']) []
    rw [List.append_nil] at skipped
    exact skipped
  unfold tokens
  rw [points_cons (by decide), resolves, points_cons (by decide)]
  show lexFrom 0 ('"' :: (resolved ++ ['"'])) = _
  rw [lexFrom, here, end_]

theorem tokens_escaped (text : String) : tokens (quoted (escapeLiteral text)) = [.string text.toList] := by
  unfold quoted escapeLiteral
  rw [String.toList_ofList]
  exact tokens_quoted (denotes_escapeChars text.toList)

theorem toList_regexEscape (text : String) : (regexEscape text).toList = escape text.toList := by
  have same : "\\.+*?()|[]\x7b\x7d^$".toList = metas := by decide
  rw [regexEscape, String.toList_ofList, same]
  rfl

/-- The strings among tokens. -/
def strings : List Token → List (List Char) := List.filterMap (fun token => match token with
  | .string content => some content
  | _ => none)

/-- The name of a variable can stand in a test. -/
def Plain (v : String) : Prop :=
  closed ("REGEX(STR(" ++ v ++ "), ").toList = true ∧ strings (lex ("REGEX(STR(" ++ v ++ "), ").toList) = []

theorem strings_append (left right : List Token) : strings (left ++ right) = strings left ++ strings right :=
  List.filterMap_append

theorem strings_tests (needle : String) {vars : List String} (plain : ∀ v ∈ vars, Plain v) :
    strings ((testParts needle vars).flatMap Part.tokens) = vars.flatMap (fun _ => [needle.toList, ['i']]) := by
  have flag : strings (lex ", \"i\")".toList) = [['i']] := by decide
  have between : strings (lex " || ".toList) = [] := by decide
  have one (v : String) (held : Plain v) :
      strings (lex ("REGEX(STR(" ++ v ++ "), ").toList ++ ([Token.string needle.toList] ++ lex ", \"i\")".toList)) =
        [needle.toList, ['i']] := by
    rw [strings_append, strings_append, held.2, flag]
    rfl
  induction vars with
  | nil => rfl
  | cons v vars ih =>
    have here := one v (plain v List.mem_cons_self)
    have rest := ih (fun w mem => plain w (List.mem_cons_of_mem v mem))
    cases vars with
    | nil =>
      simp only [testParts, List.flatMap_cons, List.flatMap_nil, List.append_nil, Part.tokens, literalPart]
      exact here
    | cons w vars =>
      rw [testParts, List.flatMap_append, strings_append, rest]
      · show _ = [needle.toList, ['i']] ++ (w :: vars).flatMap (fun _ => [needle.toList, ['i']])
        congr 1
        simp only [List.flatMap_cons, List.flatMap_nil, List.append_nil, Part.tokens, literalPart]
        rw [← List.append_assoc, ← List.append_assoc, strings_append, between, List.append_nil, List.append_assoc]
        exact here
      · intro none_
        cases none_

theorem no_iri (needle : String) (vars : List String) (content : String) : Part.iri content ∉ testParts needle vars := by
  induction vars with
  | nil => exact List.not_mem_nil
  | cons v vars ih =>
    cases vars with
    | nil => simp [testParts, literalPart]
    | cons w vars =>
      rw [testParts, List.mem_append, not_or]
      · exact ⟨by simp [literalPart], ih⟩
      · intro none_
        cases none_

theorem regexEscape_ne {q : String} (given : trim q ≠ "") : regexEscape q ≠ "" := by
  have some_ : q ≠ "" := by
    rintro rfl
    exact given (by decide)
  exact flatMap_ne_empty some_ (fun c => by split <;> exact List.cons_ne_nil _ _)

/-- The strings of a text filter are the pattern and the flag, once for each variable. -/
theorem strings_filter {q : String} (given : trim q ≠ "") {vars : List String} (plain : ∀ v ∈ vars, Plain v) :
    strings (tokens (textFilter q vars).toList) = vars.flatMap (fun _ => [(regexEscape q).toList, ['i']]) := by
  have whole : Outlines (.text "FILTER(" :: testParts (regexEscape q) vars ++ [.text ")"]) (textFilter q vars) := by
    unfold textFilter
    rw [if_neg given]
    exact .append (.cons (closed_of rfl (by decide)) (.tests (regexEscape_ne given) (fun v mem => (plain v mem).1)))
      (.text (closed_of rfl (by decide)))
  have opening : strings (lex "FILTER(".toList) = [] := by decide
  have ending : strings (lex ")".toList) = [] := by decide
  rw [← whole.written, (tokens_write_iff whole.sound).2]
  · rw [List.cons_append, List.flatMap_cons, List.flatMap_append, strings_append, strings_append, strings_tests _ plain]
    simp only [List.flatMap_cons, List.flatMap_nil, List.append_nil, Part.tokens]
    rw [opening, ending, List.nil_append, List.append_nil]
  · intro content mem
    simp [no_iri] at mem

/-- A literal gives its text back, and a pattern is found where its text stands. -/
theorem escaped_exactly {q : String} (given : trim q ≠ "") {vars : List String} (plain : ∀ v ∈ vars, Plain v) :
    (∀ text : String, tokens (quoted (escapeLiteral text)) = [.string text.toList]) ∧
    (∀ text : String, ∃ pattern regex, tokens (quoted (escapeLiteral (regexEscape text))) = [.string pattern] ∧
      parse pattern = some regex ∧ ∀ among, regex.Found among ↔ text.toList <:+: among) ∧
    strings (tokens (textFilter q vars).toList) = vars.flatMap (fun _ => [(regexEscape q).toList, ['i']]) := by
  refine ⟨tokens_escaped, ?_, strings_filter given plain⟩
  intro text
  have read : parse (regexEscape text).toList = some (sequence (text.toList.map Regex.char)) := by
    rw [toList_regexEscape]
    exact parse_escape text.toList
  exact ⟨_, _, tokens_escaped (regexEscape text), read, found_literal text.toList⟩

theorem name_plain : Plain "?name" := ⟨by decide, by decide⟩

theorem dot_escaped : strings (tokens (textFilter "a.b" ["?name"]).toList) = [['a', '\\', '.', 'b'], ['i']] := by
  have escaped := (@escaped_exactly "a.b" (by decide) ["?name"] (by
    intro v mem
    rw [List.mem_singleton.1 mem]
    exact name_plain)).2.2
  rw [escaped]
  decide

end ToolArtifactRegistry.Laws.Escaping
