import ToolArtifactRegistry.Laws.Specimen
import ToolArtifactRegistry.Renaming

/-! A rebase may be interrupted and repeated, exactly when putting the new base in never spells the old one
again and never spoils an IRI. -/
namespace ToolArtifactRegistry.Laws

open Library.Rdf Library.Text Library.Replace Ids Store Rebase

/-- An IRI the parser takes is still one after it is renamed. -/
def KeepsValid (platform : Platform) (old new : String) : Prop :=
  ∀ iri renamed, platform.validIri iri = true → rewriteIri iri old new = some renamed →
    platform.validIri renamed = true

/-- The text a column's values are searched for does not come back once it is replaced. -/
def Settles (holds : Holds) (old new : String) : Prop :=
  ¬Reborn (holds.spelling old).toList (holds.spelling new).toList

instance (holds : Holds) (old new : String) : Decidable (Settles holds old new) :=
  inferInstanceAs (Decidable (¬_))

/-- Repeating a run that ended between its two transactions leads where the run would have led. -/
def Resumable (platform : Platform) (base old : String) (held : Holdings) : Prop :=
  (run platform base old false (interrupted platform base old held)).2 = (run platform base old false held).2

/-- Repeating a run that ended well reports nothing and changes nothing. -/
def Finished (platform : Platform) (base old : String) (held : Holdings) : Prop :=
  ∀ report, (run platform base old false held).1 = .ok report →
    run platform base old false (run platform base old false held).2 =
      (.ok {}, (run platform base old false held).2)

section Graph

variable {platform : Platform} {old new : String}

theorem namesOf_rewriteQuad (quad : Quad) :
    namesOf (rewriteQuad old new quad).1 = (namesOf quad).map (moved old new) := by
  obtain ⟨subject, predicate, object, graph⟩ := quad
  cases subject <;> cases object <;> rfl

theorem moved_settled (unnested : Unnested old new) (iri : String) : rewriteIri (moved old new iri) old new = none := by
  unfold moved
  cases found : rewriteIri iri old new with
  | none => exact found
  | some renamed => exact rewriteIri_settled unnested found

theorem moved_valid (keeps : KeepsValid platform old new) {iri : String} (valid : platform.validIri iri = true) :
    platform.validIri (moved old new iri) = true := by
  unfold moved
  cases found : rewriteIri iri old new with
  | none => exact valid
  | some renamed => exact keeps iri renamed valid found

theorem rewriteQuad_settled (unnested : Unnested old new) (quad : Quad) :
    (rewriteQuad old new (rewriteQuad old new quad).1).2 = false := by
  show (namesOf (rewriteQuad old new quad).1).any _ = false
  rw [namesOf_rewriteQuad, List.any_map, List.any_eq_false]
  intro iri _
  rw [Function.comp_apply, moved_settled unnested]
  decide

theorem rewriteQuad_readable (keeps : KeepsValid platform old new) {quad : Quad}
    (reads : readable platform quad = true) : readable platform (rewriteQuad old new quad).1 = true := by
  unfold readable at reads ⊢
  rw [Bool.and_eq_true] at reads ⊢
  refine ⟨?_, ?_⟩
  · rw [namesOf_rewriteQuad, List.all_map, List.all_eq_true]
    exact fun iri mem => moved_valid keeps (List.all_eq_true.mp reads.1 iri mem)
  · obtain ⟨subject, predicate, object, graph⟩ := quad
    cases object with
    | named iri => rfl
    | blank label => rfl
    | literal value datatype language => exact reads.2

/-- The local graph a transaction leaves that clears it first is what the transaction brings. -/
theorem mem_local_rewritten {data : Dataset} {quads : List Quad} {quad : Quad}
    (mem : quad ∈ (effect data { insert := quads, clearGraphs := [Ns.gLocal] }).matching (inGraph Ns.gLocal)) :
    quad ∈ quads := by
  obtain ⟨there, inLocal⟩ := Dataset.mem_matching.mp mem
  have either : quad ∈ (clearGraph data Ns.gLocal).extend quads := there
  rcases Dataset.mem_extend.mp either with kept | brought
  · exact absurd (of_decide_eq_true inLocal) (mem_clearGraph.mp kept).2
  · exact brought

/-- The graph of a finished rebase is read, found without an old IRI, and left. -/
theorem rebaseGraph_again (unnested : Unnested old new) (keeps : KeepsValid platform old new) {data after : Dataset}
    {statements : Nat} (done : rebaseGraph platform old new false data = .ok (statements, after)) :
    rebaseGraph platform old new false after = .ok (0, after) := by
  unfold rebaseGraph at done
  dsimp only at done
  split at done
  · next reads =>
    split at done
    · split at done
      · next written =>
        cases done
        have wrote := apply_ok written
        have each : ∀ quad ∈ after.matching (inGraph Ns.gLocal), ∃ source ∈ data.matching (inGraph Ns.gLocal),
            quad = (rewriteQuad old new source).1 := by
          intro quad mem
          rw [wrote] at mem
          have brought := mem_local_rewritten mem
          rw [List.map_map] at brought
          obtain ⟨source, inside, same⟩ := List.mem_map.mp brought
          exact ⟨source, inside, same.symm⟩
        have again : (after.matching (inGraph Ns.gLocal)).all (readable platform) = true := by
          refine List.all_eq_true.mpr (fun quad mem => ?_)
          obtain ⟨source, inside, same⟩ := each quad mem
          rw [same]
          exact rewriteQuad_readable keeps (List.all_eq_true.mp reads source inside)
        have still : ((after.matching (inGraph Ns.gLocal)).map (rewriteQuad old new)).countP Prod.snd = 0 := by
          rw [List.countP_map, List.countP_eq_zero]
          intro quad mem
          obtain ⟨source, _, same⟩ := each quad mem
          rw [same, Function.comp_apply, rewriteQuad_settled unnested]
          decide
        unfold rebaseGraph
        dsimp only
        rw [if_pos again, still]
        rfl
      · cases done
    · next untouched =>
      cases done
      have still : ((data.matching (inGraph Ns.gLocal)).map (rewriteQuad old new)).countP Prod.snd = 0 := by
        simpa using untouched
      unfold rebaseGraph
      dsimp only
      rw [if_pos reads, still]
      rfl
  · cases done

end Graph

section Cells

variable {old new : String}

theorem text_settled {holds : Holds} (gone : Settles holds old new) (value : String) :
    contains ((if contains value (holds.spelling old) then
      some (replaceText value (holds.spelling old) (holds.spelling new)) else none).getD value) (holds.spelling old) =
        false := by
  by_cases hit : contains value (holds.spelling old) = true
  · rw [if_pos hit, Option.getD_some]
    exact contains_replaceText (spelling_ne_nil holds old) gone value
  · rw [if_neg hit, Option.getD_none]
    exact Bool.eq_false_iff.mpr hit

theorem renamed_settled (unnested : Unnested old new) {holds : Holds} (settles : holds ≠ .iri → Settles holds old new)
    (value : String) : holds.renamed old new ((holds.renamed old new value).getD value) = none := by
  cases holds with
  | iri =>
    unfold Holds.renamed
    dsimp only
    cases found : stripPrefix value (Holds.iri.spelling old) with
    | none => rw [Option.map_none, Option.getD_none, found, Option.map_none]
    | some rest =>
      rw [Option.map_some, Option.getD_some]
      cases again : stripPrefix (Holds.iri.spelling new ++ rest) (Holds.iri.spelling old) with
      | none => rfl
      | some other =>
        rw [stripPrefix_eq_some] at again
        exact absurd again (unnested.disjoint rest other)
  | json =>
    have gone := text_settled (settles (by decide)) value
    unfold Holds.renamed
    dsimp only
    rw [gone]
    exact if_neg (by decide)
  | joined =>
    have gone := text_settled (settles (by decide)) value
    unfold Holds.renamed
    dsimp only
    rw [gone]
    exact if_neg (by decide)

theorem opsColumns_find : ∀ entry ∈ opsColumns,
    opsColumns.find? (fun other => decide (other.1 = entry.1 ∧ other.2.1 = entry.2.1)) = some entry := by
  decide

/-- No listed column of a finished rebase has a hit. -/
theorem counts_settled (unnested : Unnested old new) (json : Settles .json old new)
    (joined : Settles .joined old new) {db after : Database} {rows : List (String × Nat)}
    (done : rebaseColumns old new false opsColumns db = some (rows, after)) :
    rebaseColumns old new false opsColumns after = some ([], after) := by
  refine rebaseColumns_nothing.mpr ⟨rfl, fun entry mem => ?_⟩
  unfold Database.count
  rw [rebaseColumns_rows opsColumns_nodup done, List.countP_map, List.countP_eq_zero]
  intro row _
  have settles : entry.2.2 ≠ .iri → Settles entry.2.2 old new := by
    intro text
    cases kind : entry.2.2 with
    | iri => exact absurd kind text
    | json => exact json
    | joined => exact joined
  rw [Function.comp_apply]
  unfold renameRow renameCell
  rw [opsColumns_find entry mem]
  cases held : row entry.2.1 with
  | none => simp
  | some value =>
    rw [Option.map_some, Option.bind_some]
    dsimp only
    rw [renamed_settled unnested settles]
    decide

end Cells

section Small

variable {old new : String}

theorem updateRows_single (groups : List (List String)) (column : String) (change : String → Option String)
    {rows : List Row} (few : rows.length ≤ 1) : ∃ after, updateRows groups column change [] rows = some after := by
  cases rows with
  | nil => exact ⟨[], rfl⟩
  | cons row rest =>
    have none_ : rest = [] := by
      rw [List.length_cons] at few
      exact List.length_eq_zero_iff.mp (by omega)
    subst none_
    unfold updateRows
    split
    · exact ⟨_, rfl⟩
    · exact ⟨_, rfl⟩

/-- Tables of one row hold no clash. -/
theorem rebaseColumns_single (columns : List (String × String × Holds)) {db : Database}
    (few : ∀ table, (db.rows table).length ≤ 1) :
    ∃ result, rebaseColumns old new false columns db = some result := by
  induction columns generalizing db with
  | nil => exact ⟨_, rfl⟩
  | cons entry columns ih =>
    obtain ⟨table, column, holds⟩ := entry
    unfold rebaseColumns
    dsimp only
    split
    · exact ih few
    · obtain ⟨rows, updated⟩ := updateRows_single ((uniques table).filter (fun columns => decide (column ∈ columns))) column
        (holds.renamed old new) (few table)
      have placed_ : db.update table column (holds.renamed old new) =
          some ⟨fun other => if other = table then rows else db.rows other⟩ := by
        unfold Database.update
        rw [updated, Option.map_some]
      have short : ∀ other, (if other = table then rows else db.rows other).length ≤ 1 := by
        intro other
        by_cases here : other = table
        · rw [if_pos here, updateRows_eq updated, List.nil_append, List.length_map]
          exact few table
        · rw [if_neg here]
          exact few other
      obtain ⟨⟨more, last⟩, rest⟩ := @ih ⟨fun other => if other = table then rows else db.rows other⟩ short
      rw [if_neg (by decide), placed_]
      simp only [bind, Option.bind_some, rest]
      exact ⟨_, rfl⟩

/-- A database of one value. -/
def holding (table column value : String) : Database :=
  ⟨fun other => if other = table then [fun name => if name = column then some value else none] else []⟩

theorem holding_few (table column value other : String) : ((holding table column value).rows other).length ≤ 1 := by
  unfold holding
  dsimp only
  split <;> simp

end Small

section

variable {platform : Platform} {base old : String}

theorem checkBases_trim : checkBases platform (trimSlash old) (trimSlash base) = checkBases platform old base := by
  unfold checkBases
  simp only [trimSlash_trimSlash]

/-- A run whose graph is written goes on with the database. -/
theorem run_of_graph (accepted : checkBases platform old base = .ok ()) {held : Holdings} {data : Dataset}
    {statements : Nat}
    (graph : rebaseGraph platform (trimSlash old) (trimSlash base) false held.data = .ok (statements, data)) :
    run platform base old false held =
      match rebaseColumns (trimSlash old) (trimSlash base) false opsColumns held.db with
      | none => (.error "UNIQUE constraint failed", ⟨data, held.db⟩)
      | some (rows, db) => (.ok ⟨statements, rows⟩, ⟨data, db⟩) := by
  unfold run
  dsimp only
  rw [checkBases_trim, accepted]
  dsimp only
  cases rebaseColumns (trimSlash old) (trimSlash base) false opsColumns held.db with
  | none => simp only [graph]
  | some result => simp only [graph]

/-- A run that cannot read or write the graph leaves everything as it was. -/
theorem run_of_failed (accepted : checkBases platform old base = .ok ()) {held : Holdings} {e : String}
    (graph : rebaseGraph platform (trimSlash old) (trimSlash base) false held.data = .error e) :
    run platform base old false held = (.error e, held) := by
  unfold run
  dsimp only
  rw [checkBases_trim, accepted]
  dsimp only
  rw [graph]

theorem resumable_of_keeps (accepted : checkBases platform old base = .ok ())
    (keeps : KeepsValid platform (trimSlash old) (trimSlash base)) (held : Holdings) :
    Resumable platform base old held := by
  unfold Resumable interrupted
  cases graph : rebaseGraph platform (trimSlash old) (trimSlash base) false held.data with
  | error e => rfl
  | ok written =>
    obtain ⟨statements, data⟩ := written
    have again := rebaseGraph_again (unnested_of_accepted accepted) keeps graph
    rw [run_of_graph accepted graph, @run_of_graph _ _ _ accepted ⟨data, held.db⟩ _ _ again]
    dsimp only
    split <;> rfl

theorem finished_of_settles (accepted : checkBases platform old base = .ok ())
    (keeps : KeepsValid platform (trimSlash old) (trimSlash base))
    (json : Settles .json (trimSlash old) (trimSlash base)) (joined : Settles .joined (trimSlash old) (trimSlash base))
    (held : Holdings) : Finished platform base old held := by
  intro report ended
  have unnested := unnested_of_accepted accepted
  cases graph : rebaseGraph platform (trimSlash old) (trimSlash base) false held.data with
  | error e =>
    rw [run_of_failed accepted graph] at ended
    cases ended
  | ok written =>
    obtain ⟨statements, data⟩ := written
    have again := rebaseGraph_again unnested keeps graph
    rw [run_of_graph accepted graph] at ended ⊢
    cases columns : rebaseColumns (trimSlash old) (trimSlash base) false opsColumns held.db with
    | none =>
      rw [columns] at ended
      cases ended
    | some result =>
      obtain ⟨rows, db⟩ := result
      have nothing := counts_settled unnested json joined columns
      dsimp only
      rw [@run_of_graph _ _ _ accepted ⟨data, db⟩ _ _ again, nothing]

/-- A value in which the old spelling comes back keeps a repeated run busy. -/
theorem settles_of_finished {table column : String} {holds : Holds} (text : holds ≠ .iri)
    (listed : (table, column, holds) ∈ opsColumns) (accepted : checkBases platform old base = .ok ())
    (finished : ∀ held, Finished platform base old held) : Settles holds (trimSlash old) (trimSlash base) := by
  intro reborn
  obtain ⟨chars, back⟩ := infix_of_reborn (spelling_ne_nil holds (trimSlash old)) reborn
  obtain ⟨⟨rows, after⟩, done⟩ := @rebaseColumns_single (trimSlash old) (trimSlash base) opsColumns _
    (holding_few table column (String.ofList chars))
  have graph : rebaseGraph platform (trimSlash old) (trimSlash base) false Dataset.empty = .ok (0, Dataset.empty) := rfl
  have once := @run_of_graph _ _ _ accepted ⟨Dataset.empty, holding table column (String.ofList chars)⟩ _ _ graph
  rw [done] at once
  dsimp only at once
  have twice := finished ⟨Dataset.empty, holding table column (String.ofList chars)⟩ ⟨0, rows⟩ (by rw [once])
  rw [once, @run_of_graph _ _ _ accepted ⟨Dataset.empty, after⟩ _ _ graph] at twice
  dsimp only at twice
  split at twice
  · cases twice
  · next more last again =>
    cases twice
    have none_ := (rebaseColumns_nothing.mp again).2 _ listed
    have row : renameRow opsColumns (trimSlash old) (trimSlash base) table
        (fun name => if name = column then some (String.ofList chars) else none) ∈ after.rows table := by
      rw [rebaseColumns_rows opsColumns_nodup done]
      exact List.mem_map_of_mem (by simp [holding])
    have cell : renameRow opsColumns (trimSlash old) (trimSlash base) table
        (fun name => if name = column then some (String.ofList chars) else none) column =
          some (replaceText (String.ofList chars) (holds.spelling (trimSlash old)) (holds.spelling (trimSlash base))) := by
      unfold renameRow renameCell
      rw [opsColumns_find _ listed, ← text_renamed text]
      simp
    have missed := text_absent text (count_zero none_ row cell)
    rw [← Bool.not_eq_true, contains_iff, replaceText, String.toList_ofList, String.toList_ofList] at missed
    exact missed back

/-- An IRI that renaming spoils is read back by no later run. -/
theorem keeps_of_finished (valid : platform.validIri Ns.gLocal = true) (accepted : checkBases platform old base = .ok ())
    (finished : ∀ held, Finished platform base old held) : KeepsValid platform (trimSlash old) (trimSlash base) := by
  intro iri renamed good found
  let quad : Quad := ⟨.named iri, iri, .blank "b", Ns.gLocal⟩
  let data : Dataset := ⟨[quad], List.nodup_singleton quad⟩
  let tx : GraphTx := { insert := [(rewriteQuad (trimSlash old) (trimSlash base) quad).1], clearGraphs := [Ns.gLocal] }
  have reads : readable platform quad = true := by simp [readable, namesOf, quad, Node.iri?, Term.node?, good]
  have dump : data.matching (inGraph Ns.gLocal) = [quad] := by simp [data, quad, Dataset.matching, inGraph]
  have changed : (rewriteQuad (trimSlash old) (trimSlash base) quad).2 = true := by
    simp [rewriteQuad, namesOf, quad, Node.iri?, found]
  have written : apply platform data tx = .ok (effect data tx) := by
    simp [Store.apply, tx, GraphTx.references, valid]
  have graph : rebaseGraph platform (trimSlash old) (trimSlash base) false data = .ok (1, effect data tx) := by
    unfold rebaseGraph
    have one : ([quad].map (rewriteQuad (trimSlash old) (trimSlash base))).countP Prod.snd = 1 := by simp [changed]
    rw [dump]
    dsimp only
    rw [one, if_pos (by simp [reads]), if_pos (by decide)]
    simp only [tx, List.map_cons, List.map_nil] at written ⊢
    rw [written]
  have columns : rebaseColumns (trimSlash old) (trimSlash base) false opsColumns ⟨fun _ => []⟩ = some ([], ⟨fun _ => []⟩) :=
    rebaseColumns_nothing.mpr ⟨rfl, fun _ _ => rfl⟩
  have once := @run_of_graph _ _ _ accepted ⟨data, ⟨fun _ => []⟩⟩ _ _ graph
  rw [columns] at once
  have twice := finished ⟨data, ⟨fun _ => []⟩⟩ ⟨1, []⟩ (by rw [once])
  rw [once] at twice
  by_contra spoiled
  have held : (rewriteQuad (trimSlash old) (trimSlash base) quad).1 ∈ (effect data tx).matching (inGraph Ns.gLocal) := by
    refine Dataset.mem_matching.mpr ⟨?_, decide_eq_true rfl⟩
    exact Dataset.mem_extend.mpr (Or.inr List.mem_cons_self)
  have unread : rebaseGraph platform (trimSlash old) (trimSlash base) false (effect data tx) = .error "reading the local graph" := by
    unfold rebaseGraph
    refine if_neg (fun all => spoiled ?_)
    have here := List.all_eq_true.mp all _ held
    unfold readable at here
    rw [Bool.and_eq_true, namesOf_rewriteQuad] at here
    have named_ := List.all_eq_true.mp here.1 (moved (trimSlash old) (trimSlash base) iri)
      (List.mem_map_of_mem (by simp [namesOf, quad]))
    unfold moved at named_
    rwa [found, Option.getD_some] at named_
  have stopped := @run_of_failed _ _ _ accepted ⟨effect data tx, ⟨fun _ => []⟩⟩ _ unread
  rw [stopped] at twice
  cases twice

theorem rebase_settles_iff (valid : platform.validIri Ns.gLocal = true)
    (accepted : checkBases platform old base = .ok ()) :
    (∀ held, Resumable platform base old held ∧ Finished platform base old held) ↔
      KeepsValid platform (trimSlash old) (trimSlash base) ∧ Settles .json (trimSlash old) (trimSlash base) ∧
        Settles .joined (trimSlash old) (trimSlash base) := by
  constructor
  · intro all
    have finished := fun held => (all held).2
    exact ⟨keeps_of_finished valid accepted finished,
      @settles_of_finished _ _ _ "subscriptions" "filter" .json (by decide) (by decide) accepted finished,
      @settles_of_finished _ _ _ "advertise_idem" "idem_key" .joined (by decide) (by decide) accepted finished⟩
  · rintro ⟨keeps, json, joined⟩ held
    exact ⟨resumable_of_keeps accepted keeps held, finished_of_settles accepted keeps json joined held⟩

end

section Specimen

open Specimen

theorem specimen_keeps_valid : KeepsValid (platform []) "https://old.example" "https://new.example" := by
  intro iri renamed _ found
  have starts : startsWith renamed "http" = true := by
    rcases rewriteIri_eq_some.mp found with ⟨_, rfl⟩ | ⟨rest, _, rfl⟩
    · decide
    · exact startsWith_iff.mpr ⟨"s://new.example" ++ "/" ++ rest, by rw [← String.append_assoc, ← String.append_assoc]; rfl⟩
  show (startsWith renamed "http" || startsWith renamed "urn:") = true
  rw [starts, Bool.true_or]

/-- One advertisement that was claimed under the old base, as it is usually written. -/
def usualClaim : Holdings :=
  ⟨Dataset.empty, holding "advertise_idem" "idem_key" "https://old.example/run/1|https://old.example/artifact/1|produced"⟩

theorem ordinary_rebase_settles : Resumable (platform []) "https://new.example" "https://old.example/" usualClaim ∧
    Finished (platform []) "https://new.example" "https://old.example/" usualClaim := by
  have trimmed : trimSlash "https://old.example/" = "https://old.example" ∧
      trimSlash "https://new.example" = "https://new.example" := by decide
  refine (rebase_settles_iff (by decide) (by decide)).mpr ?_ usualClaim
  rw [trimmed.1, trimmed.2]
  exact ⟨specimen_keeps_valid, by decide, by decide⟩

/-- One advertisement that was claimed under the old base. -/
def oneClaim : Holdings :=
  ⟨Dataset.empty, holding "advertise_idem" "idem_key" "http://x.org/run/1|http://x.org/artifact/1|produced"⟩

/-- A new base that holds the old one further in is accepted, and every run renames its keys once more. -/
theorem inner_base_renamed_again :
    checkBases (platform []) "http://x.org" "https://y.org/http://x.org" = .ok () ∧
      ¬Finished (platform []) "https://y.org/http://x.org" "http://x.org" oneClaim := by
  refine ⟨by decide, fun finished => ?_⟩
  have once : (run (platform []) "https://y.org/http://x.org" "http://x.org" false oneClaim).1.toOption =
      some ⟨0, [("advertise_idem.idem_key", 1)]⟩ := by decide
  have twice : (run (platform []) "https://y.org/http://x.org" "http://x.org" false
      (run (platform []) "https://y.org/http://x.org" "http://x.org" false oneClaim).2).1.toOption =
        some ⟨0, [("advertise_idem.idem_key", 1)]⟩ := by decide
  cases ended : (run (platform []) "https://y.org/http://x.org" "http://x.org" false oneClaim).1 with
  | error e =>
    rw [ended] at once
    cases once
  | ok report =>
    rw [finished report ended] at twice
    exact absurd twice (by decide)

end Specimen

end ToolArtifactRegistry.Laws
