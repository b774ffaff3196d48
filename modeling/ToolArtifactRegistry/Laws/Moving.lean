import ToolArtifactRegistry.Laws.Specimen
import ToolArtifactRegistry.Laws.Settling
import ToolArtifactRegistry.Reading

/-! After a rebase every lookup answers under the new names what it answered under the old ones, for a store
that the listed columns cover; the statistics of repositories are not among them. -/
namespace ToolArtifactRegistry.Laws

open Library.Rdf Library.Text Library.Replace Ids Store Rebase

/-- The old base, put before a path, stands in a text only where it is renamed. -/
def Plain (old new text : String) : Prop :=
  '|' ∉ text.toList ∧ ¬Taken new text ∧ rewriteText text old new = moved old new text

/-- Each `"old/` of a JSON text begins one of its strings. -/
def OpensOnly (old text : String) : Prop :=
  ∀ before after, text.toList = before ++ ((Holds.json.spelling old).toList ++ after) →
    before.foldl Place.next .outside = .outside

/-- Nothing in the store goes by the new base yet, and what names the old one does so where a rebase looks. -/
structure Movable (old new : String) (held : Holdings) : Prop where
  vocabulary : ∀ quad ∈ held.data, rewriteIri quad.predicate old new = none
  subjects : ∀ quad ∈ held.data, ¬Taken new (subjectKey quad.subject)
  objects : ∀ quad ∈ held.data, ∀ node, quad.object.node? = some node → ¬Taken new (subjectKey node)
  elsewhere : ∀ quad ∈ held.data, quad.graph ≠ Ns.gLocal → mapQuad (moved old new) quad = quad
  iris : ∀ entry ∈ opsColumns, entry.2.2 = .iri → ∀ row ∈ held.db.rows entry.1, ∀ iri, row entry.2.1 = some iri →
    iri ≠ old ∧ ¬Taken new iri
  authors : ∀ table, ∀ row ∈ held.db.rows table, ∀ who, row "created_by" = some who → moved old new who = who
  strings : ∀ entry ∈ opsColumns, entry.2.2 = .json → ∀ row ∈ held.db.rows entry.1, ∀ text, row entry.2.1 = some text →
    OpensOnly old text
  claims : ∀ row ∈ held.db.rows "advertise_idem", ∃ run artifact role,
    row "idem_key" = some (Ops.idemKey run artifact role) ∧ Plain old new run ∧ Plain old new artifact ∧
      '|' ∉ role.toList ∧ rewriteText role old new = role
  stats : ∀ row ∈ held.db.rows "repository_stats", ∀ iri, row "software_iri" = some iri →
    moved old new iri = iri ∧ ¬Taken new iri
  bars : '|' ∉ old.toList ∧ '|' ∉ new.toList
  base : new ≠ ""

section Names

variable {old new : String}

theorem taken_of_rewriteIri {iri renamed : String} (found : rewriteIri iri old new = some renamed) : Taken new renamed := by
  rcases rewriteIri_eq_some.mp found with ⟨_, same⟩ | ⟨rest, _, same⟩
  · exact Or.inl same
  · exact Or.inr ⟨rest, same⟩

/-- Outside the new base no two IRIs are moved to one. -/
theorem moved_inj {left right : String} (freeLeft : ¬Taken new left) (freeRight : ¬Taken new right)
    (same : moved old new left = moved old new right) : left = right := by
  unfold moved at same
  cases foundLeft : rewriteIri left old new with
  | none =>
    rw [foundLeft, Option.getD_none] at same
    cases foundRight : rewriteIri right old new with
    | none => rwa [foundRight, Option.getD_none] at same
    | some other =>
      rw [foundRight, Option.getD_some] at same
      exact absurd (same ▸ taken_of_rewriteIri foundRight) freeLeft
  | some renamed =>
    rw [foundLeft, Option.getD_some] at same
    cases foundRight : rewriteIri right old new with
    | none =>
      rw [foundRight, Option.getD_none] at same
      exact absurd (same ▸ taken_of_rewriteIri foundLeft) freeRight
    | some other =>
      rw [foundRight, Option.getD_some] at same
      subst same
      have longer : ∀ rest, new ≠ new ++ "/" ++ rest := by
        intro rest whole
        have lengths := congrArg String.length whole
        simp only [String.length_append] at lengths
        have slash : ("/" : String).length = 1 := rfl
        omega
      rcases rewriteIri_eq_some.mp foundLeft with ⟨rfl, bare⟩ | ⟨rest, rfl, under⟩
      · rcases rewriteIri_eq_some.mp foundRight with ⟨rfl, _⟩ | ⟨other, _, alsoUnder⟩
        · rfl
        · exact absurd (bare.symm.trans alsoUnder) (longer other)
      · rcases rewriteIri_eq_some.mp foundRight with ⟨_, bare⟩ | ⟨other, rfl, alsoUnder⟩
        · exact absurd (bare.symm.trans under) (longer rest)
        · have tails : (new ++ "/" ++ rest).toList = (new ++ "/" ++ other).toList := by rw [← under, alsoUnder]
          simp only [String.toList_append] at tails
          rw [String.toList_inj.mp (List.append_cancel_left tails)]

theorem moved_iri {iri : String} (bare : iri ≠ old) : (Holds.iri.renamed old new iri).getD iri = moved old new iri := by
  unfold Holds.renamed moved
  dsimp only
  cases found : rewriteIri iri old new with
  | none =>
    cases under : stripPrefix iri (Holds.iri.spelling old) with
    | none => rfl
    | some rest =>
      rw [stripPrefix_eq_some] at under
      have renamed := rewriteIri_eq_some.mpr (Or.inr ⟨rest, under, rfl⟩ : (iri = old ∧ new ++ "/" ++ rest = new) ∨
        ∃ other, iri = old ++ "/" ++ other ∧ new ++ "/" ++ rest = new ++ "/" ++ other)
      rw [found] at renamed
      cases renamed
  | some renamed =>
    rcases rewriteIri_eq_some.mp found with ⟨same, _⟩ | ⟨rest, rfl, rfl⟩
    · exact absurd same bare
    · show ((stripPrefix (old ++ "/" ++ rest) (old ++ "/")).map _).getD _ = _
      rw [stripPrefix_append]
      rfl

end Names

section Strings

/-- Where the pattern only begins strings, renaming strings is replacing it. -/
theorem renameFrom_eq {pattern with_ : List Char} {text : List Char} {place : Place} {skip : Nat}
    (opens : ∀ before after, skip ≤ before.length → text = before ++ (pattern ++ after) →
      before.foldl Place.next place = .outside) :
    renameFrom pattern with_ place skip text = replaceFrom pattern with_ skip text := by
  induction text generalizing place skip with
  | nil => cases skip <;> rfl
  | cons c rest ih =>
    have later : ∀ less, less ≤ skip → skip ≤ less + 1 → renameFrom pattern with_ (place.next c) less rest =
        replaceFrom pattern with_ less rest := by
      intro less _ most
      refine ih (fun before after long same => ?_)
      exact opens (c :: before) after (by rw [List.length_cons]; omega) (by rw [same]; rfl)
    cases skip with
    | succ skip => exact later skip (by omega) (by omega)
    | zero =>
      unfold renameFrom replaceFrom
      by_cases hit : pattern <+: c :: rest
      · obtain ⟨after, same⟩ := hit
        have outside : place = .outside := opens [] after (by simp) same.symm
        rw [if_pos ⟨outside, ⟨after, same⟩⟩, if_pos ⟨after, same⟩]
        congr 1
        refine ih (fun before tail long cut => ?_)
        exact opens (c :: before) tail (by simp) (by rw [cut]; rfl)
      · rw [if_neg (fun both => hit both.2), if_neg hit, later 0 (by omega) (by omega)]

theorem renameStrings_eq {old new text : String} (opens : OpensOnly old text) :
    renameStrings old new text = replaceText text (Holds.json.spelling old) (Holds.json.spelling new) := by
  unfold renameStrings replaceText replace
  rw [renameFrom_eq]
  exact fun before after _ same => opens before after same

end Strings

section Rows

variable {old new : String} {held : Holdings}

theorem opsColumns_kinds : ∀ entry ∈ opsColumns,
    entry.1 ∈ ["api_tokens", "subscriptions", "subscription_deliveries"] →
      (entry.2.2 = .iri ∧ (entry.1, entry.2.1) ∈ iriColumns) ∨
        (entry.2.2 = .json ∧ (entry.1, entry.2.1) ∉ iriColumns ∧ (entry.1, entry.2.1) ∈ jsonColumns) := by
  decide

theorem iriColumns_listed : ∀ column ∈ iriColumns, column.2 = "created_by" ∨ (column.1, column.2, Holds.iri) ∈ opsColumns := by
  decide

theorem jsonColumns_listed : ∀ column ∈ jsonColumns, (column.1, column.2, Holds.json) ∈ opsColumns := by decide

/-- The columns that are looked up or ordered by, and that a rebase does not list. -/
def plainColumns : List (String × String) :=
  [("run_keys", "external_key"), ("artifact_keys", "external_key"), ("api_tokens", "prefix"), ("api_tokens", "created_at"),
    ("subscriptions", "id"), ("subscriptions", "created_at"), ("subscription_deliveries", "subscription_id"),
    ("subscription_deliveries", "seq")]

theorem plainColumns_unlisted : ∀ column ∈ plainColumns, column ∉ opsColumns.map named := by decide

theorem unlisted_of_plain {table column : String} (plain : (table, column) ∈ plainColumns) :
    (table, column) ∉ opsColumns.map named := plainColumns_unlisted _ plain

/-- A record the registry hands out is found with its names moved. -/
theorem renameRow_moved (movable : Movable old new held) {table : String}
    (handed : table ∈ ["api_tokens", "subscriptions", "subscription_deliveries"]) {row : Row}
    (mem : row ∈ held.db.rows table) : renameRow opsColumns old new table row = movedRow old new table row := by
  funext column
  unfold renameRow movedRow
  refine Option.map_congr (fun value cell => ?_)
  unfold renameCell
  cases found : opsColumns.find? (fun entry => decide (entry.1 = table ∧ entry.2.1 = column)) with
  | some entry =>
    have listed := List.mem_of_find?_eq_some found
    have same : entry.1 = table ∧ entry.2.1 = column := by simpa using List.find?_some found
    obtain ⟨rfl, rfl⟩ := same
    rcases opsColumns_kinds entry listed handed with ⟨kind, names⟩ | ⟨kind, other, json⟩
    · rw [if_pos names]
      dsimp only
      rw [kind]
      exact moved_iri (movable.iris entry listed kind row mem value cell).1
    · rw [if_neg other, if_pos json, renameStrings_eq (movable.strings entry listed kind row mem value cell)]
      dsimp only
      rw [kind]
      exact text_renamed (by decide) value
  | none =>
    have missed : ∀ holds, (table, column, holds) ∉ opsColumns := by
      intro holds listed
      have away := List.find?_eq_none.mp found (table, column, holds) listed
      simp at away
    by_cases names : (table, column) ∈ iriColumns
    · rw [if_pos names]
      rcases iriColumns_listed (table, column) names with author | listed
      · subst author
        exact (movable.authors table row mem value cell).symm
      · exact absurd listed (missed .iri)
    · rw [if_neg names, if_neg (fun json => missed .json (jsonColumns_listed (table, column) json))]

/-- A table a rebase does not list stands. -/
theorem renameRow_unlisted {table : String} (unlisted : ∀ entry ∈ opsColumns, entry.1 ≠ table) (row : Row) :
    renameRow opsColumns old new table row = row := by
  funext column
  unfold renameRow
  have kept : ∀ value, renameCell opsColumns old new table column value = value := by
    intro value
    refine renameCell_absent (fun mem => ?_) old new value
    obtain ⟨entry, listed, same⟩ := List.mem_map.mp mem
    exact unlisted entry listed (congrArg Prod.fst same)
  cases row column with
  | none => rfl
  | some value => rw [Option.map_some, kept]

/-- A column a rebase does not list keeps its values. -/
theorem renameRow_apply_unlisted {table column : String} (unlisted : (table, column) ∉ opsColumns.map named) (row : Row) :
    renameRow opsColumns old new table row column = row column := by
  unfold renameRow
  cases row column with
  | none => rfl
  | some value => rw [Option.map_some, renameCell_absent unlisted]

theorem renameRow_apply_iri {table column : String} (listed : (table, column, Holds.iri) ∈ opsColumns) {row : Row} {iri : String}
    (cell : row column = some iri) (bare : iri ≠ old) :
    renameRow opsColumns old new table row column = some (moved old new iri) := by
  unfold renameRow renameCell
  rw [cell, opsColumns_find _ listed, Option.map_some]
  exact congrArg some (moved_iri bare)

/-- Outside the new base a renamed column answers to a moved name as it did to the name. -/
theorem renameRow_names (movable : Movable old new held) {table column : String}
    (listed : (table, column, Holds.iri) ∈ opsColumns) {row : Row} (mem : row ∈ held.db.rows table) {iri : String}
    (free : ¬Taken new iri) :
    (renameRow opsColumns old new table row column == some (moved old new iri)) = (row column == some iri) := by
  cases cell : row column with
  | none =>
    unfold renameRow
    rw [cell]
    rfl
  | some value =>
    obtain ⟨bare, unused⟩ := movable.iris _ listed rfl row mem value cell
    rw [renameRow_apply_iri listed cell bare, Bool.eq_iff_iff, beq_iff_eq, beq_iff_eq, Option.some.injEq, Option.some.injEq]
    exact ⟨fun same => moved_inj unused free same, fun same => by rw [same]⟩

end Rows

section Graph

variable {platform : Platform} {old new : String}

/-- What is no address of the web is not moved. -/
theorem moved_other (http : isHttp old = true) {text : String} (other : startsWith text "http" = false) :
    moved old new text = text := by
  unfold moved
  have none_ : rewriteIri text old new = none := by
    rw [Option.eq_none_iff_forall_ne_some]
    intro renamed found
    have begins : ∃ rest, text = old ++ rest := by
      rcases rewriteIri_eq_some.mp found with ⟨same, _⟩ | ⟨rest, same, _⟩
      · exact ⟨"", by rw [same, String.append_empty]⟩
      · exact ⟨"/" ++ rest, by rw [same, String.append_assoc]⟩
    obtain ⟨rest, same⟩ := begins
    have scheme : ∃ tail, old = "http" ++ tail := by
      unfold isHttp at http
      rw [Bool.or_eq_true, startsWith_iff, startsWith_iff] at http
      rcases http with ⟨tail, cut⟩ | ⟨tail, cut⟩
      · exact ⟨"://" ++ tail, by rw [cut, ← String.append_assoc]; rfl⟩
      · exact ⟨"s://" ++ tail, by rw [cut, ← String.append_assoc]; rfl⟩
    obtain ⟨tail, cut⟩ := scheme
    rw [startsWith_iff.mpr ⟨tail ++ rest, by rw [same, cut, String.append_assoc]⟩] at other
    cases other
  rw [none_, Option.getD_none]

theorem moved_blank (http : isHttp old = true) (label : String) : moved old new ("_:" ++ label) = "_:" ++ label := by
  refine moved_other http ?_
  unfold startsWith
  rw [String.toList_append]
  rfl

theorem mapQuad_unchanged {quad : Quad} (still : (rewriteQuad old new quad).2 = false) : mapQuad (moved old new) quad = quad := by
  have each : ∀ iri ∈ namesOf quad, moved old new iri = iri := by
    intro iri mem
    have none_ := List.any_eq_false.mp still iri mem
    rw [Bool.not_eq_true, Option.isSome_eq_false_iff, Option.isNone_iff_eq_none] at none_
    unfold moved
    rw [none_, Option.getD_none]
  obtain ⟨subject, predicate, object, graph⟩ := quad
  have predicates : moved old new predicate = predicate := each predicate (by simp [namesOf])
  have subjects : mapNode (moved old new) subject = subject := by
    cases subject with
    | named iri => exact congrArg Node.named (each iri (by simp [namesOf, Node.iri?]))
    | blank label => rfl
  have objects : mapTerm (moved old new) object = object := by
    cases object with
    | named iri => exact congrArg Term.named (each iri (by simp [namesOf, Term.node?, Node.iri?]))
    | blank label => rfl
    | literal value datatype language => rfl
  unfold mapQuad
  dsimp only
  rw [predicates, subjects, objects]

/-- The graph after a rebase is the graph before it, with its names moved. -/
theorem mem_rebased {before after : Dataset} {statements : Nat}
    (elsewhere : ∀ quad ∈ before, quad.graph ≠ Ns.gLocal → mapQuad (moved old new) quad = quad)
    (done : rebaseGraph platform old new false before = .ok (statements, after)) (quad : Quad) :
    quad ∈ after ↔ ∃ source ∈ before, quad = mapQuad (moved old new) source := by
  have inLocal : ∀ source : Quad, source.graph = Ns.gLocal →
      (rewriteQuad old new source).1 = mapQuad (moved old new) source := by
    intro source here
    unfold rewriteQuad mapQuad
    rw [here]
  unfold rebaseGraph at done
  dsimp only at done
  split at done
  · split at done
    · split at done
      · next written =>
        cases done
        rw [apply_ok written]
        show quad ∈ (clearGraph before Ns.gLocal).extend _ ↔ _
        rw [Dataset.mem_extend, mem_clearGraph, List.map_map, List.mem_map]
        constructor
        · rintro (⟨held, away⟩ | ⟨source, inside, rfl⟩)
          · exact ⟨quad, held, (elsewhere quad held away).symm⟩
          · obtain ⟨held, here⟩ := Dataset.mem_matching.mp inside
            exact ⟨source, held, inLocal source (of_decide_eq_true here)⟩
        · rintro ⟨source, held, rfl⟩
          by_cases here : source.graph = Ns.gLocal
          · exact Or.inr ⟨source, Dataset.mem_matching.mpr ⟨held, decide_eq_true here⟩, inLocal source here⟩
          · rw [elsewhere source held here]
            exact Or.inl ⟨held, here⟩
      · cases done
    · next untouched =>
      cases done
      have still : ∀ source ∈ before, mapQuad (moved old new) source = source := by
        intro source held
        by_cases here : source.graph = Ns.gLocal
        · refine mapQuad_unchanged ?_
          have none_ : ((before.matching (inGraph Ns.gLocal)).map (rewriteQuad old new)).countP Prod.snd = 0 := by
            simpa using untouched
          rw [List.countP_map, List.countP_eq_zero] at none_
          exact Bool.eq_false_iff.mpr (none_ source (Dataset.mem_matching.mpr ⟨held, decide_eq_true here⟩))
        · exact elsewhere source held here
      constructor
      · exact fun held => ⟨quad, held, (still quad held).symm⟩
      · rintro ⟨source, held, rfl⟩
        rw [still source held]
        exact held
  · cases done

theorem carries_rebased {held : Holdings} {after : Dataset} {statements : Nat} (http : isHttp old = true)
    (movable : Movable old new held) (done : rebaseGraph platform old new false held.data = .ok (statements, after)) :
    Carries (moved old new) (fun iri => ¬Taken new iri) held.data after where
  quads := mem_rebased movable.elsewhere done
  predicates quad mem := by
    unfold moved
    rw [movable.vocabulary quad mem, Option.getD_none]
  subjects := movable.subjects
  objects := movable.objects
  blanks := moved_blank http
  apart _ _ := moved_inj

end Graph

section Keys

variable {old new : String}

/-- A text up to its first bar, and what follows it. -/
theorem bar_inj {left right rest more : String} (freeLeft : '|' ∉ left.toList) (freeRight : '|' ∉ right.toList)
    (same : left ++ "|" ++ rest = right ++ "|" ++ more) : left = right ∧ rest = more := by
  have lists := congrArg String.toList same
  simp only [String.toList_append, List.append_assoc] at lists
  have cut : ∀ (text : List Char) (tail : List Char), '|' ∉ text →
      (text ++ ("|".toList ++ tail)).takeWhile (fun c => c != '|') = text := by
    intro text tail free
    rw [List.takeWhile_append_of_pos (fun c mem => ?_)]
    · show text ++ ('|' :: tail).takeWhile (fun c => c != '|') = text
      rw [List.takeWhile_cons_of_neg (by decide), List.append_nil]
    · exact bne_iff_ne.mpr (fun bar => free (bar ▸ mem))
  have heads := congrArg (List.takeWhile (fun c => c != '|')) lists
  rw [cut _ _ freeLeft, cut _ _ freeRight] at heads
  rw [heads, List.append_cancel_left_eq, List.append_cancel_left_eq] at lists
  exact ⟨String.toList_inj.mp heads, String.toList_inj.mp lists⟩

theorem moved_free {text : String} (bars : '|' ∉ new.toList) (free : '|' ∉ text.toList) : '|' ∉ (moved old new text).toList := by
  unfold moved
  cases found : rewriteIri text old new with
  | none => exact free
  | some renamed =>
    rcases rewriteIri_eq_some.mp found with ⟨_, rfl⟩ | ⟨rest, rfl, rfl⟩
    · exact bars
    · rw [Option.getD_some]
      simp only [String.toList_append, List.mem_append, not_or] at free ⊢
      exact ⟨⟨bars, free.1.2⟩, free.2⟩

/-- No occurrence of the old base touches the bar between two parts of a key. -/
theorem clear_bar (bars : '|' ∉ old.toList) : Library.Replace.Clear (old ++ "/").toList "|".toList := by
  have absent : '|' ∉ (old ++ "/").toList := by
    rw [String.toList_append, List.mem_append, not_or]
    exact ⟨bars, by decide⟩
  have apart : ∀ n, (old ++ "/").toList.drop n ≠ [] → ¬Agree ((old ++ "/").toList.drop n) "|".toList := by
    intro n some_ agree
    refine absent (List.mem_of_mem_drop (i := n) ?_)
    rcases agree with begins | begins
    · rcases List.prefix_cons_iff.mp begins with empty | ⟨tail, same, _⟩
      · exact absurd empty some_
      · rw [same]
        exact List.mem_cons_self
    · exact begins.subset List.mem_cons_self
  constructor
  · rintro ⟨n, short, agree⟩
    have first : n = 0 := by
      have length : "|".toList.length = 1 := rfl
      omega
    subst first
    refine apart 0 ?_ (agree.symm)
    rw [List.drop_zero, String.toList_append]
    simp
  · rintro ⟨n, short, _, agree⟩
    exact apart n (fun empty => by rw [List.drop_eq_nil_iff] at empty; omega) agree

theorem rewriteText_bar (bars : '|' ∉ old.toList) (left right : String) :
    rewriteText (left ++ "|" ++ right) old new = rewriteText left old new ++ "|" ++ rewriteText right old new := by
  have some_ : (old ++ "/").toList ≠ [] := by simp
  have around := @replace_around _ _ _ (new ++ "/").toList some_ _ (clear_bar bars) left.toList right.toList
  refine String.toList_inj.mp ?_
  unfold rewriteText replaceText
  simp only [String.toList_append, String.toList_ofList, List.append_assoc] at around ⊢
  exact around

theorem rewriteText_idemKey (bars : '|' ∉ old.toList) (run artifact role : String) :
    rewriteText (Ops.idemKey run artifact role) old new =
      rewriteText run old new ++ "|" ++ rewriteText artifact old new ++ "|" ++ rewriteText role old new := by
  unfold Ops.idemKey
  rw [rewriteText_bar bars, rewriteText_bar bars]

theorem idemKey_inj {run artifact role run' artifact' role' : String} (freeRun : '|' ∉ run.toList)
    (freeArtifact : '|' ∉ artifact.toList) (freeRun' : '|' ∉ run'.toList) (freeArtifact' : '|' ∉ artifact'.toList)
    (same : Ops.idemKey run artifact role = Ops.idemKey run' artifact' role') :
    run = run' ∧ artifact = artifact' ∧ role = role' := by
  unfold Ops.idemKey at same
  have shape : ∀ a b c : String, a ++ "|" ++ b ++ "|" ++ c = a ++ "|" ++ (b ++ "|" ++ c) := by
    intro a b c
    simp only [String.append_assoc]
  rw [shape, shape] at same
  obtain ⟨runs, tails⟩ := bar_inj freeRun freeRun' same
  obtain ⟨artifacts, roles⟩ := bar_inj freeArtifact freeArtifact' tails
  exact ⟨runs, artifacts, roles⟩

end Keys

section Lookups

variable {old new : String} {held : Holdings} {after : Database}

/-- Each row of the database after a rebase is a renamed row. -/
def Renamed (old new : String) (before after : Database) : Prop :=
  ∀ table, after.rows table = (before.rows table).map (renameRow opsColumns old new table)

theorem renamed_of_done {rows : List (String × Nat)} {before : Database}
    (done : rebaseColumns old new false opsColumns before = some (rows, after)) : Renamed old new before after :=
  rebaseColumns_rows opsColumns_nodup done

theorem text_renameRow {table column : String} (listed : (table, column, Holds.iri) ∈ opsColumns) (http : isHttp old = true)
    (movable : Movable old new held) {row : Row} (mem : row ∈ held.db.rows table) :
    (renameRow opsColumns old new table row).text column = moved old new (row.text column) := by
  unfold Row.text
  cases cell : row column with
  | none =>
    have none_ : renameRow opsColumns old new table row column = none := by
      unfold renameRow
      rw [cell, Option.map_none]
    rw [none_, Option.getD_none]
    exact (moved_other http (by decide)).symm
  | some iri =>
    rw [renameRow_apply_iri listed cell (movable.iris _ listed rfl row mem iri cell).1]
    rfl

theorem text_renameRow_unlisted {table column : String} (unlisted : (table, column) ∉ opsColumns.map named) (row : Row) :
    (renameRow opsColumns old new table row).text column = row.text column := by
  unfold Row.text
  rw [renameRow_apply_unlisted unlisted]

theorem text_free {table column : String} (listed : (table, column, Holds.iri) ∈ opsColumns)
    (movable : Movable old new held) {row : Row} (mem : row ∈ held.db.rows table) : ¬Taken new (row.text column) := by
  unfold Row.text
  cases cell : row column with
  | none =>
    rintro (empty | ⟨rest, longer⟩)
    · exact movable.base empty.symm
    · have lengths := congrArg String.length longer
      simp only [Option.getD_none, String.length_append] at lengths
      have slash : ("/" : String).length = 1 := rfl
      have none_ : ("" : String).length = 0 := rfl
      omega
  | some iri => exact (movable.iris _ listed rfl row mem iri cell).2

variable (http : isHttp old = true) (movable : Movable old new held) (renamed : Renamed old new held.db after)

include http movable renamed in
theorem run_moved (key : String) {inst : String} (free : ¬Taken new inst) :
    after.ops.runForKey key (moved old new inst) = (held.db.ops.runForKey key inst).map (moved old new) := by
  have rows : after.ops.runKeys = held.db.ops.runKeys.map
      (fun entry => ((entry.1.1, moved old new entry.1.2), moved old new entry.2)) := by
    unfold Database.ops
    dsimp only
    rw [renamed, List.map_map, List.map_map]
    refine List.map_congr_left (fun row mem => ?_)
    simp only [Function.comp_apply]
    rw [text_renameRow_unlisted (unlisted_of_plain (by decide)), text_renameRow (by decide) http movable mem,
      text_renameRow (by decide) http movable mem]
  unfold Ops.runForKey Ops.lookup
  rw [rows, List.find?_map, Option.map_map, Option.map_map]
  congr 1
  refine List.find?_congr (fun entry mem => ?_)
  obtain ⟨row, inTable, rfl⟩ := List.mem_map.mp mem
  have unused := text_free (by decide : ("run_keys", "instance_iri", Holds.iri) ∈ opsColumns) movable inTable
  rw [Function.comp_apply, decide_eq_decide, Prod.mk.injEq, Prod.mk.injEq]
  exact and_congr_right (fun _ => ⟨moved_inj unused free, fun same => by rw [same]⟩)

include http movable renamed in
theorem artifact_moved (key : String) :
    after.ops.artifactForKey key = (held.db.ops.artifactForKey key).map (moved old new) := by
  have rows : after.ops.artifactKeys = held.db.ops.artifactKeys.map (fun entry => (entry.1, moved old new entry.2)) := by
    unfold Database.ops
    dsimp only
    rw [renamed, List.map_map, List.map_map]
    refine List.map_congr_left (fun row mem => ?_)
    simp only [Function.comp_apply]
    rw [text_renameRow_unlisted (unlisted_of_plain (by decide)), text_renameRow (by decide) http movable mem]
  unfold Ops.artifactForKey Ops.lookup
  rw [rows, List.find?_map, Option.map_map, Option.map_map]
  rfl

theorem recognised_iff {db : Database} {run artifact role : String} :
    db.recognised run artifact role = true ↔
      ∃ row ∈ db.rows "advertise_idem", row.text "idem_key" = Ops.idemKey run artifact role := by
  unfold Database.recognised Ops.claimAdvertisement
  dsimp only
  by_cases known : Ops.idemKey run artifact role ∈ db.ops.advertised
  · rw [if_pos known]
    exact iff_of_true rfl (List.mem_map.mp known)
  · rw [if_neg known]
    exact iff_of_false Bool.false_ne_true (fun found => known (List.mem_map.mpr found))

/-- The key of a recorded advertisement is the key of its moved parts. -/
theorem key_moved (movable : Movable old new held) {row : Row} (mem : row ∈ held.db.rows "advertise_idem") :
    ∃ run artifact role, row.text "idem_key" = Ops.idemKey run artifact role ∧
      ¬Taken new run ∧ ¬Taken new artifact ∧ '|' ∉ run.toList ∧ '|' ∉ artifact.toList ∧
      (renameRow opsColumns old new "advertise_idem" row).text "idem_key" =
        Ops.idemKey (moved old new run) (moved old new artifact) role := by
  obtain ⟨run, artifact, role, cell, plainRun, plainArtifact, _, plainRole⟩ := movable.claims row mem
  refine ⟨run, artifact, role, by unfold Row.text; rw [cell]; rfl, plainRun.2.1, plainArtifact.2.1, plainRun.1,
    plainArtifact.1, ?_⟩
  have put : (renameRow opsColumns old new "advertise_idem" row).text "idem_key" =
      rewriteText (Ops.idemKey run artifact role) old new := by
    unfold Row.text renameRow renameCell
    rw [cell, opsColumns_find ("advertise_idem", "idem_key", .joined) (by decide), Option.map_some, Option.getD_some]
    exact text_renamed (by decide) _
  rw [put, rewriteText_idemKey movable.bars.1, plainRun.2.2, plainArtifact.2.2, plainRole]
  rfl

include movable renamed in
theorem recognised_moved {run artifact role : String} (freeRun : ¬Taken new run) (freeArtifact : ¬Taken new artifact)
    (barRun : '|' ∉ run.toList) (barArtifact : '|' ∉ artifact.toList) :
    after.recognised (moved old new run) (moved old new artifact) role = held.db.recognised run artifact role := by
  rw [Bool.eq_iff_iff, recognised_iff, recognised_iff, renamed]
  constructor
  · intro found
    obtain ⟨_, inAfter, same⟩ := found
    obtain ⟨row, mem, rfl⟩ := List.mem_map.mp inAfter
    obtain ⟨run', artifact', role', key, freeRun', freeArtifact', barRun', barArtifact', put⟩ := key_moved movable mem
    rw [put] at same
    obtain ⟨runs, artifacts, roles⟩ := idemKey_inj (moved_free movable.bars.2 barRun')
      (moved_free movable.bars.2 barArtifact') (moved_free movable.bars.2 barRun) (moved_free movable.bars.2 barArtifact) same
    refine ⟨row, mem, ?_⟩
    rw [key, moved_inj freeRun' freeRun runs, moved_inj freeArtifact' freeArtifact artifacts, roles]
  · intro found
    obtain ⟨row, mem, same⟩ := found
    obtain ⟨run', artifact', role', key, _, _, barRun', barArtifact', put⟩ := key_moved movable mem
    rw [key] at same
    obtain ⟨rfl, rfl, rfl⟩ := idemKey_inj barRun' barArtifact' barRun barArtifact same
    exact ⟨_, List.mem_map_of_mem mem, put⟩

/-- A selection that renaming does not disturb, in an order it does not disturb. -/
theorem select_moved (movable : Movable old new held) (renamed : Renamed old new held.db after) {table : String}
    (handed : table ∈ ["api_tokens", "subscriptions", "subscription_deliveries"]) {now before : Row → Bool}
    (agree : ∀ row ∈ held.db.rows table, now (renameRow opsColumns old new table row) = before row)
    (order : Row → Row → Prop) [DecidableRel order]
    (keeps : ∀ left right, order left right ↔
      order (renameRow opsColumns old new table left) (renameRow opsColumns old new table right)) :
    ((after.rows table).filter now).insertionSort order =
      (((held.db.rows table).filter before).insertionSort order).map (movedRow old new table) := by
  have kept : (after.rows table).filter now = ((held.db.rows table).filter before).map (renameRow opsColumns old new table) := by
    rw [renamed, List.filter_map]
    congr 1
    exact List.filter_congr (fun row mem => agree row mem)
  rw [kept, ← List.map_insertionSort order order _ _ (fun left _ right _ => keeps left right)]
  refine List.map_congr_left (fun row mem => renameRow_moved movable handed ?_)
  exact List.mem_of_mem_filter ((List.mem_insertionSort order).mp mem)

theorem find_moved (movable : Movable old new held) (renamed : Renamed old new held.db after) {table column : String}
    (handed : table ∈ ["api_tokens", "subscriptions", "subscription_deliveries"])
    (unlisted : (table, column) ∉ opsColumns.map named) (value : String) :
    (after.rows table).find? (fun row => row column == some value) =
      ((held.db.rows table).find? (fun row => row column == some value)).map (movedRow old new table) := by
  have same : (after.rows table).find? (fun row => row column == some value) =
      ((held.db.rows table).find? (fun row => row column == some value)).map (renameRow opsColumns old new table) := by
    rw [renamed, List.find?_map]
    congr 1
    refine List.find?_congr (fun row _ => ?_)
    rw [Function.comp_apply, renameRow_apply_unlisted unlisted]
  rw [same]
  exact Option.map_congr (fun row found => renameRow_moved movable handed (List.mem_of_find?_eq_some found))

theorem newestFirst_moved {table : String} (unlisted : (table, "created_at") ∉ opsColumns.map named) (left right : Row) :
    Rebase.newestFirst left right ↔
      Rebase.newestFirst (renameRow opsColumns old new table left) (renameRow opsColumns old new table right) := by
  unfold Rebase.newestFirst
  rw [text_renameRow_unlisted unlisted, text_renameRow_unlisted unlisted]

theorem seqOf_renameRow (row : Row) : seqOf (renameRow opsColumns old new "subscription_deliveries" row) = seqOf row := by
  unfold seqOf
  rw [renameRow_apply_unlisted (unlisted_of_plain (by decide))]

/-- The statistics stand as they were, so a moved name finds what the name found only if it did before. -/
theorem stats_stand (renamed : Renamed old new held.db after) (software : String) :
    after.repositoryStats software = held.db.repositoryStats software := by
  have unlisted : ∀ entry ∈ opsColumns, entry.1 ≠ "repository_stats" := by decide
  unfold Database.repositoryStats
  rw [renamed, List.map_congr_left (fun row _ => renameRow_unlisted unlisted row), List.map_id']

theorem stats_moved (movable : Movable old new held) {software : String} (free : ¬Taken new software) :
    held.db.repositoryStats (moved old new software) = held.db.repositoryStats software := by
  unfold Database.repositoryStats
  congr 1
  refine List.find?_congr (fun row mem => ?_)
  cases cell : row "software_iri" with
  | none => rfl
  | some iri =>
    obtain ⟨still, unused⟩ := movable.stats row mem iri cell
    rw [Bool.eq_iff_iff, beq_iff_eq, beq_iff_eq, Option.some.injEq, Option.some.injEq]
    constructor
    · exact fun same => moved_inj unused free (still.trans same)
    · exact fun same => by rw [← same, still]

theorem tokens_moved (movable : Movable old new held) (renamed : Renamed old new held.db after) {subject : String}
    (free : ¬Taken new subject) :
    after.listTokens (moved old new subject) = (held.db.listTokens subject).map (movedRow old new "api_tokens") := by
  refine select_moved movable renamed (by decide) (fun row mem => ?_) Rebase.newestFirst (newestFirst_moved (unlisted_of_plain (by decide)))
  rw [renameRow_names movable (by decide) mem free, renameRow_names movable (by decide) mem free]

theorem subscriptions_moved (movable : Movable old new held) (renamed : Renamed old new held.db after) {inst : String}
    (free : ¬Taken new inst) :
    after.subscriptionsOf (moved old new inst) = (held.db.subscriptionsOf inst).map (movedRow old new "subscriptions") := by
  refine select_moved movable renamed (by decide) (fun row mem => ?_) Rebase.newestFirst (newestFirst_moved (unlisted_of_plain (by decide)))
  rw [renameRow_names movable (by decide) mem free]

theorem deliveries_moved (movable : Movable old new held) (renamed : Renamed old new held.db after) (id : String)
    (cursor : Int) (limit : Nat) :
    after.deliveriesSince id cursor limit =
      (held.db.deliveriesSince id cursor limit).map (movedRow old new "subscription_deliveries") := by
  have whole : ((after.rows "subscription_deliveries").filter
      (fun row => row "subscription_id" == some id && decide (cursor < seqOf row))).insertionSort seqLe =
        (((held.db.rows "subscription_deliveries").filter
          (fun row => row "subscription_id" == some id && decide (cursor < seqOf row))).insertionSort seqLe).map
            (movedRow old new "subscription_deliveries") := by
    refine select_moved movable renamed (by decide) (fun row _ => ?_) seqLe (fun left right => ?_)
    · rw [renameRow_apply_unlisted (unlisted_of_plain (by decide)), seqOf_renameRow]
    · unfold seqLe
      rw [seqOf_renameRow, seqOf_renameRow]
  unfold Database.deliveriesSince
  rw [whole, List.map_take]

end Lookups

section

variable {platform : Platform} {base old : String}

theorem isHttp_of_accepted (accepted : checkBases platform old base = .ok ()) : isHttp (trimSlash old) = true := by
  unfold checkBases at accepted
  dsimp only at accepted
  split at accepted
  · cases accepted
  · next http => simpa using http

/-- What a run that ends well leaves. -/
theorem run_ok (accepted : checkBases platform old base = .ok ()) {held : Holdings} {report : Report}
    (ended : (run platform base old false held).1 = .ok report) :
    (∃ statements, rebaseGraph platform (trimSlash old) (trimSlash base) false held.data =
        .ok (statements, (run platform base old false held).2.data)) ∧
      Renamed (trimSlash old) (trimSlash base) held.db (run platform base old false held).2.db := by
  cases graph : rebaseGraph platform (trimSlash old) (trimSlash base) false held.data with
  | error e =>
    rw [run_of_failed accepted graph] at ended
    cases ended
  | ok written =>
    obtain ⟨statements, data⟩ := written
    rw [run_of_graph accepted graph] at ended ⊢
    cases columns : rebaseColumns (trimSlash old) (trimSlash base) false opsColumns held.db with
    | none =>
      rw [columns] at ended
      cases ended
    | some result =>
      obtain ⟨rows, db⟩ := result
      exact ⟨⟨statements, rfl⟩, renamed_of_done columns⟩

end

section Specimen

open Specimen

/-- A store of one advertisement. -/
def advertisedOnce : Holdings :=
  ⟨Dataset.empty, ⟨fun table => if table = "advertise_idem" then
    [fun column =>
      if column = "idem_key" then some "https://old.example/run/1|https://old.example/artifact/1|produced"
      else if column = "run_iri" then some "https://old.example/run/1"
      else if column = "artifact_iri" then some "https://old.example/artifact/1"
      else if column = "role" then some "produced"
      else none]
    else []⟩⟩

instance (new iri : String) : Decidable (Taken new iri) :=
  decidable_of_iff (iri = new ∨ startsWith iri (new ++ "/") = true) (by rw [startsWith_iff]; rfl)

theorem advertisedOnce_movable : Movable "https://old.example" "https://new.example" advertisedOnce where
  vocabulary := nofun
  subjects := nofun
  objects := nofun
  elsewhere := nofun
  iris := by
    have cells : ∀ entry ∈ opsColumns, entry.2.2 = .iri → ∀ row ∈ advertisedOnce.db.rows entry.1,
        ∀ iri ∈ (row entry.2.1).toList, iri ≠ "https://old.example" ∧ ¬Taken "https://new.example" iri := by decide
    exact fun entry mem kind row inTable iri cell => cells entry mem kind row inTable iri (by rw [cell]; exact List.mem_singleton_self iri)
  authors := by
    intro table row mem who said
    unfold advertisedOnce at mem
    dsimp only at mem
    split at mem
    · rw [List.mem_singleton.mp mem] at said
      simp at said
    · cases mem
  strings := by
    have none_ : ∀ entry ∈ opsColumns, entry.2.2 = .json → (advertisedOnce.db.rows entry.1).length = 0 := by decide
    intro entry mem kind row inTable
    rw [List.length_eq_zero_iff.mp (none_ entry mem kind)] at inTable
    cases inTable
  claims := by
    intro row mem
    refine ⟨"https://old.example/run/1", "https://old.example/artifact/1", "produced", ?_, ?_, ?_, ?_, ?_⟩
    · rw [List.mem_singleton.mp mem]
      decide
    · exact ⟨by decide, by decide, by decide⟩
    · exact ⟨by decide, by decide, by decide⟩
    · decide
    · decide
  stats := nofun
  bars := by decide
  base := by decide

/-- Software under the old base whose repository was polled. -/
def polled : Holdings :=
  ⟨Dataset.empty, ⟨fun table => if table = "repository_stats" then
    [fun column =>
      if column = "software_iri" then some "https://old.example/software/1"
      else if column = "repo" then some "owner/tool"
      else if column = "stars" then some "12"
      else if column = "checked_at" then some "2026-01-01T00:00:00Z"
      else none]
    else []⟩⟩

end Specimen

end ToolArtifactRegistry.Laws
