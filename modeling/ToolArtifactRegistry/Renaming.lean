import Mathlib.Data.List.DropRight
import ToolArtifactRegistry.Describing
import ToolArtifactRegistry.Library.Replace
import ToolArtifactRegistry.Ops
import ToolArtifactRegistry.Rebase

/-! The command that moves the registry's own records to a new base: the local graph is rewritten quad by
quad, then every listed column of the operational database value by value. -/
namespace ToolArtifactRegistry.Rebase

open Library.Rdf Library.Text Library.Replace Ids Store

/-- Every `old/` in a text becomes `new/`. -/
def rewriteText (text old new : String) : String := replaceText text (old ++ "/") (new ++ "/")

/-- How a column holds IRIs. -/
inductive Holds where
  | iri
  /-- Renamed wherever a string starts with the old base. -/
  | json
  /-- IRIs joined with other text. -/
  | joined
  deriving DecidableEq

def opsColumns : List (String × String × Holds) :=
  [("api_tokens", "instance_iri", .iri),
    ("api_tokens", "software_iri", .iri),
    ("subscriptions", "instance_iri", .iri),
    ("subscriptions", "filter", .json),
    ("subscription_deliveries", "artifact_iri", .iri),
    ("subscription_deliveries", "run_iri", .iri),
    ("subscription_deliveries", "payload", .json),
    ("run_keys", "instance_iri", .iri),
    ("run_keys", "run_iri", .iri),
    ("artifact_keys", "artifact_iri", .iri),
    ("advertise_idem", "idem_key", .joined),
    ("advertise_idem", "run_iri", .iri),
    ("advertise_idem", "artifact_iri", .iri),
    ("audit_log", "target", .iri)]

/-- The text a base is looked for by, and replaced by. -/
def Holds.spelling (holds : Holds) (base : String) : String :=
  match holds with
  | .json => "\"" ++ base ++ "/"
  | .iri | .joined => base ++ "/"

/-- The value an update puts in place of one it finds. -/
def Holds.renamed (holds : Holds) (old new value : String) : Option String :=
  match holds with
  | .iri => (stripPrefix value (holds.spelling old)).map (fun rest => holds.spelling new ++ rest)
  | .json | .joined =>
    if contains value (holds.spelling old) then some (replaceText value (holds.spelling old) (holds.spelling new)) else none

/-- A row by its columns; a column without a value is NULL. -/
abbrev Row := String → Option String

/-- The operational database, table by table, each in the order of its rows. -/
structure Database where
  rows : String → List Row

/-- The columns whose values together occur once in a table. -/
def uniques (table : String) : List (List String) :=
  match table with
  | "api_tokens" => [["id"], ["prefix"]]
  | "subscriptions" => [["id"]]
  | "subscription_deliveries" => [["seq"], ["id"], ["subscription_id", "artifact_iri", "role"]]
  | "run_keys" => [["external_key", "instance_iri"]]
  | "artifact_keys" => [["external_key"]]
  | "advertise_idem" => [["idem_key"]]
  | "audit_log" => [["id"]]
  | "repository_stats" => [["software_iri"]]
  | _ => []

/-- Two rows a table cannot hold together; NULL equals nothing. -/
def clashes (groups : List (List String)) (left right : Row) : Bool :=
  groups.any (fun columns => columns.all (fun column => (left column).isSome && left column == right column))

def Row.set (row : Row) (column value : String) : Row := fun other => if other = column then some value else row other

/-- `UPDATE` of one column, row after row; a row that clashes with another ends it. -/
def updateRows (groups : List (List String)) (column : String) (change : String → Option String) :
    List Row → List Row → Option (List Row)
  | done, [] => some done
  | done, row :: rest =>
    match (row column).bind change with
    | none => updateRows groups column change (done ++ [row]) rest
    | some value =>
      if (done ++ rest).any (clashes groups (row.set column value)) then none
      else updateRows groups column change (done ++ [row.set column value]) rest

def Database.count (db : Database) (table column : String) (change : String → Option String) : Nat :=
  (db.rows table).countP (fun row => ((row column).bind change).isSome)

def Database.update (db : Database) (table column : String) (change : String → Option String) : Option Database :=
  (updateRows ((uniques table).filter (fun columns => decide (column ∈ columns))) column change [] (db.rows table)).map
    (fun rows => ⟨fun other => if other = table then rows else db.rows other⟩)

/-- What a rebase changed, or would change. -/
structure Report where
  statements : Nat := 0
  rows : List (String × Nat) := []
  deriving DecidableEq

/-- The columns in turn, in one transaction; a column without hits is passed over. -/
def rebaseColumns (old new : String) (dryRun : Bool) :
    List (String × String × Holds) → Database → Option (List (String × Nat) × Database)
  | [], db => some ([], db)
  | (table, column, holds) :: columns, db => do
    let n := db.count table column (holds.renamed old new)
    if n = 0 then rebaseColumns old new dryRun columns db
    else
      let db ← if dryRun then some db else db.update table column (holds.renamed old new)
      let (rows, db) ← rebaseColumns old new dryRun columns db
      return ((table ++ "." ++ column, n) :: rows, db)

/-- An IRI after the move. -/
def moved (old new iri : String) : String := (rewriteIri iri old new).getD iri

/-- The named nodes of a quad outside its graph. -/
def namesOf (quad : Quad) : List String :=
  quad.subject.iri?.toList ++ [quad.predicate] ++ (quad.object.node?.bind Node.iri?).toList

def rewriteQuad (old new : String) (quad : Quad) : Quad × Bool :=
  (⟨mapNode (moved old new) quad.subject, moved old new quad.predicate, mapTerm (moved old new) quad.object, Ns.gLocal⟩,
    (namesOf quad).any (fun iri => (rewriteIri iri old new).isSome))

/-- Whether the dump of a quad reads back: the parser checks every IRI in it. -/
def readable (platform : Platform) (quad : Quad) : Bool :=
  (namesOf quad).all platform.validIri &&
    match quad.object with
    | .literal _ datatype _ => platform.validIri datatype
    | _ => true

/-- The local graph read whole, rewritten in memory and written back in one transaction. -/
def rebaseGraph (platform : Platform) (old new : String) (dryRun : Bool) (data : Dataset) :
    Except String (Nat × Dataset) :=
  let dump := data.matching (inGraph Ns.gLocal)
  if dump.all (readable platform) then
    let rewritten := dump.map (rewriteQuad old new)
    let statements := rewritten.countP Prod.snd
    if statements > 0 && !dryRun then
      match apply platform data { insert := rewritten.map Prod.fst, clearGraphs := [Ns.gLocal] } with
      | .ok data => .ok (statements, data)
      | .error _ => .error "writing the rebased local graph"
    else .ok (statements, data)
  else .error "reading the local graph"

/-- The graph and the database of one registry. -/
structure Holdings where
  data : Dataset
  db : Database

/-- The graph first, then the database; a failure leaves its half as it was. -/
def run (platform : Platform) (base old : String) (dryRun : Bool) (held : Holdings) : Except String Report × Holdings :=
  let new := trimSlash base
  let old := trimSlash old
  match checkBases platform old new with
  | .error e => (.error e, held)
  | .ok () =>
    match rebaseGraph platform old new dryRun held.data with
    | .error e => (.error e, held)
    | .ok (statements, data) =>
      match rebaseColumns old new dryRun opsColumns held.db with
      | none => (.error "UNIQUE constraint failed", ⟨data, held.db⟩)
      | some (rows, db) => (.ok ⟨statements, rows⟩, ⟨data, db⟩)

/-- What a run leaves that ends between the graph's transaction and the database's. -/
def interrupted (platform : Platform) (base old : String) (held : Holdings) : Holdings :=
  match rebaseGraph platform (trimSlash old) (trimSlash base) false held.data with
  | .error _ => held
  | .ok (_, data) => ⟨data, held.db⟩

section Bases

theorem trimSlash_trimSlash (text : String) : trimSlash (trimSlash text) = trimSlash text := by
  unfold trimSlash trimEndMatches
  rw [String.toList_ofList, List.reverse_reverse, List.dropWhile_idempotent]

/-- What an accepted pair of bases is known to be. -/
structure Unnested (old new : String) : Prop where
  apart : old ≠ new
  notUnder : ∀ rest, new ≠ old ++ "/" ++ rest
  notOver : ∀ rest, old ≠ new ++ "/" ++ rest

theorem isUnder_append (base rest : String) : isUnder (base ++ "/" ++ rest) base = true := by
  unfold isUnder
  rw [String.append_assoc, stripPrefix_append, Option.any_some]
  exact startsWith_iff.mpr ⟨rest, rfl⟩

theorem unnested_of_accepted {platform : Platform} {old new : String} (accepted : checkBases platform old new = .ok ()) :
    Unnested (trimSlash old) (trimSlash new) := by
  unfold checkBases at accepted
  dsimp only at accepted
  split at accepted
  · cases accepted
  · split at accepted
    · cases accepted
    · next apart =>
      split at accepted
      · cases accepted
      · next free =>
        rw [Bool.not_eq_true, Bool.or_eq_false_iff] at free
        refine ⟨apart, fun rest same => ?_, fun rest same => ?_⟩
        · rw [same, isUnder_append] at free
          exact absurd free.1 (by decide)
        · rw [same, isUnder_append] at free
          exact absurd free.2 (by decide)

/-- A base that goes on as another ends with a slash where the other does, or extends it past one. -/
theorem under_of_longer {base longer left right : String} (same : base ++ "/" ++ left = longer ++ "/" ++ right)
    {more : List Char} (goes : longer.toList = base.toList ++ more) : more = [] ∨ ∃ rest, longer = base ++ "/" ++ rest := by
  have lists := congrArg String.toList same
  simp only [String.toList_append, List.append_assoc] at lists
  rw [goes, List.append_assoc, List.append_cancel_left_eq] at lists
  cases more with
  | nil => exact Or.inl rfl
  | cons c rest =>
    refine Or.inr ⟨String.ofList rest, String.toList_inj.mp ?_⟩
    have slash : '/' = c := by simpa using congrArg List.head? lists
    simp [goes, ← slash]

/-- No IRI lies under both bases. -/
theorem Unnested.disjoint {old new : String} (unnested : Unnested old new) (left right : String) :
    new ++ "/" ++ left ≠ old ++ "/" ++ right := by
  intro same
  have lists := congrArg String.toList same
  simp only [String.toList_append, List.append_assoc] at lists
  rcases List.append_eq_append_iff.mp lists with ⟨more, goes, _⟩ | ⟨more, goes, _⟩
  · rcases under_of_longer same goes with none_ | ⟨rest, beyond⟩
    · rw [none_, List.append_nil] at goes
      exact unnested.apart (String.toList_inj.mp goes)
    · exact unnested.notOver rest beyond
  · rcases under_of_longer same.symm goes with none_ | ⟨rest, under⟩
    · rw [none_, List.append_nil] at goes
      exact unnested.apart (String.toList_inj.mp goes.symm)
    · exact unnested.notUnder rest under

theorem rewriteIri_eq_some {iri old new renamed : String} :
    rewriteIri iri old new = some renamed ↔
      (iri = old ∧ renamed = new) ∨ ∃ rest, iri = old ++ "/" ++ rest ∧ renamed = new ++ "/" ++ rest := by
  unfold rewriteIri
  constructor
  · intro found
    split at found
    · cases found
    · next whole =>
      rw [stripPrefix_eq_some, String.append_empty] at whole
      exact Or.inl ⟨whole, (Option.some.inj found).symm⟩
    · next rest _ under =>
      rw [stripPrefix_eq_some] at under
      obtain ⟨tail, cut, same⟩ := Option.map_eq_some_iff.mp found
      rw [stripPrefix_eq_some] at cut
      exact Or.inr ⟨tail, by rw [under, cut, String.append_assoc], same.symm⟩
  · rintro (⟨rfl, rfl⟩ | ⟨rest, rfl, rfl⟩)
    · have whole : stripPrefix iri iri = some "" := stripPrefix_eq_some.mpr String.append_empty.symm
      rw [whole]
      split
      · next none_ => cases none_
      · rfl
      · next more some_ => exact absurd (Option.some.inj some_).symm more
    · have under : stripPrefix (old ++ "/" ++ rest) old = some ("/" ++ rest) := by
        rw [String.append_assoc, stripPrefix_append]
      rw [under]
      split
      · next none_ => cases none_
      · next none_ =>
        have lists := congrArg String.toList (Option.some.inj none_)
        simp at lists
      · next some_ =>
        cases some_
        rw [stripPrefix_append, Option.map_some]

/-- A renamed IRI is not renamed again. -/
theorem rewriteIri_settled {iri old new renamed : String} (unnested : Unnested old new)
    (found : rewriteIri iri old new = some renamed) : rewriteIri renamed old new = none := by
  rw [Option.eq_none_iff_forall_ne_some]
  intro again twice
  rcases rewriteIri_eq_some.mp found with ⟨_, rfl⟩ | ⟨rest, _, rfl⟩
  · rcases rewriteIri_eq_some.mp twice with ⟨same, _⟩ | ⟨rest, under, _⟩
    · exact unnested.apart same.symm
    · exact unnested.notUnder rest under
  · rcases rewriteIri_eq_some.mp twice with ⟨beyond, _⟩ | ⟨other, both, _⟩
    · exact unnested.notOver rest beyond.symm
    · exact unnested.disjoint rest other both

end Bases

section Columns

/-- A row with one column renamed. -/
def placed (column : String) (change : String → Option String) (row : Row) : Row :=
  match (row column).bind change with
  | none => row
  | some value => row.set column value

/-- The value a list of columns leaves in a column. -/
def renameCell (columns : List (String × String × Holds)) (old new table column value : String) : String :=
  match columns.find? (fun entry => decide (entry.1 = table ∧ entry.2.1 = column)) with
  | some entry => (entry.2.2.renamed old new value).getD value
  | none => value

def renameRow (columns : List (String × String × Holds)) (old new table : String) (row : Row) : Row :=
  fun column => (row column).map (renameCell columns old new table column)

def named (entry : String × String × Holds) : String × String := (entry.1, entry.2.1)

theorem opsColumns_nodup : (opsColumns.map named).Nodup := by decide

theorem updateRows_eq {groups : List (List String)} {column : String} {change : String → Option String}
    {done rest rows : List Row} (updated : updateRows groups column change done rest = some rows) :
    rows = done ++ rest.map (placed column change) := by
  induction rest generalizing done with
  | nil =>
    cases updated
    rw [List.map_nil, List.append_nil]
  | cons row rest ih =>
    unfold updateRows at updated
    rw [List.map_cons, placed]
    split at updated
    · rw [ih updated, List.append_assoc, List.singleton_append]
    · split at updated
      · cases updated
      · rw [ih updated, List.append_assoc, List.singleton_append]

theorem update_eq {db after : Database} {table column : String} {change : String → Option String}
    (updated : db.update table column change = some after) (other : String) :
    after.rows other = if other = table then (db.rows table).map (placed column change) else db.rows other := by
  unfold Database.update at updated
  obtain ⟨rows, done, rfl⟩ := Option.map_eq_some_iff.mp updated
  rw [updateRows_eq done, List.nil_append]

theorem placed_apply (column : String) (change : String → Option String) (row : Row) (other : String) :
    placed column change row other =
      if other = column then (row other).map (fun value => (change value).getD value) else row other := by
  unfold placed Row.set
  by_cases here : other = column
  · rw [if_pos here, here]
    cases held : row column with
    | none => simp [held]
    | some value => cases renamed : change value <;> simp [held, renamed]
  · rw [if_neg here]
    cases renamed : (row column).bind change <;> simp [here]

theorem renameCell_absent {columns : List (String × String × Holds)} {table column : String}
    (absent : (table, column) ∉ columns.map named) (old new value : String) :
    renameCell columns old new table column value = value := by
  unfold renameCell
  have missed : columns.find? (fun entry => decide (entry.1 = table ∧ entry.2.1 = column)) = none := by
    refine List.find?_eq_none.mpr (fun entry mem hit => absent ?_)
    have same : entry.1 = table ∧ entry.2.1 = column := by simpa using hit
    rw [← same.1, ← same.2]
    exact List.mem_map_of_mem mem
  rw [missed]

theorem renameCell_cons (entry : String × String × Holds) (columns : List (String × String × Holds))
    (old new table column value : String) :
    renameCell (entry :: columns) old new table column value =
      if entry.1 = table ∧ entry.2.1 = column then (entry.2.2.renamed old new value).getD value
      else renameCell columns old new table column value := by
  unfold renameCell
  rw [List.find?_cons]
  by_cases hit : entry.1 = table ∧ entry.2.1 = column
  · rw [if_pos hit, decide_eq_true hit]
  · rw [if_neg hit, decide_eq_false hit]

/-- Without a hit a column stands. -/
theorem count_zero {db : Database} {table column : String} {change : String → Option String}
    (none_ : db.count table column change = 0) {row : Row} (mem : row ∈ db.rows table) {value : String}
    (held : row column = some value) : change value = none := by
  have missed := List.countP_eq_zero.mp none_ row mem
  rw [held, Option.bind_some, Bool.not_eq_true, Option.isSome_eq_false_iff, Option.isNone_iff_eq_none] at missed
  exact missed

/-- What the columns of a list come to: each row has its listed columns renamed. -/
theorem rebaseColumns_rows {old new : String} {columns : List (String × String × Holds)} {db after : Database}
    {rows : List (String × Nat)} (apart : (columns.map named).Nodup)
    (done : rebaseColumns old new false columns db = some (rows, after)) (table : String) :
    after.rows table = (db.rows table).map (renameRow columns old new table) := by
  induction columns generalizing db rows with
  | nil =>
    cases done
    have same : renameRow [] old new table = id := by
      funext row column
      show (row column).map (fun value => value) = row column
      rw [Option.map_id']
    rw [same, List.map_id]
  | cons entry columns ih =>
    obtain ⟨at_, column, holds⟩ := entry
    rw [List.map_cons, List.nodup_cons] at apart
    unfold rebaseColumns at done
    dsimp only at done
    split at done
    · next none_ =>
      rw [ih apart.2 done]
      refine List.map_congr_left (fun row mem => funext (fun other => ?_))
      unfold renameRow
      cases held : row other with
      | none => rfl
      | some value =>
        rw [Option.map_some, Option.map_some, renameCell_cons]
        by_cases hit : at_ = table ∧ column = other
        · obtain ⟨rfl, rfl⟩ := hit
          rw [if_pos ⟨rfl, rfl⟩, count_zero none_ mem held, renameCell_absent apart.1]
          rfl
        · rw [if_neg hit]
    · rw [if_neg (by decide)] at done
      simp only [bind, Option.bind_eq_some_iff] at done
      obtain ⟨middle, updated, ⟨more, last⟩, rest, same⟩ := done
      cases same
      rw [ih apart.2 rest, update_eq updated]
      by_cases here : table = at_
      · subst here
        rw [if_pos rfl, List.map_map]
        refine List.map_congr_left (fun row _ => funext (fun other => ?_))
        show (placed column (holds.renamed old new) row other).map _ = _
        rw [placed_apply]
        unfold renameRow
        by_cases hit : other = column
        · subst hit
          rw [if_pos rfl, Option.map_map]
          refine Option.map_congr (fun value _ => ?_)
          rw [Function.comp_apply, renameCell_absent apart.1, renameCell_cons, if_pos ⟨rfl, rfl⟩]
        · rw [if_neg hit]
          refine Option.map_congr (fun value _ => ?_)
          rw [renameCell_cons, if_neg (fun both => hit both.2.symm)]
      · rw [if_neg here]
        refine List.map_congr_left (fun row _ => funext (fun other => Option.map_congr (fun value _ => ?_)))
        rw [renameCell_cons, if_neg (fun both => here both.1.symm)]

/-- Nothing is reported exactly when no column has a hit, and then nothing is done. -/
theorem rebaseColumns_nothing {old new : String} {columns : List (String × String × Holds)} {db after : Database} :
    rebaseColumns old new false columns db = some ([], after) ↔
      after = db ∧ ∀ entry ∈ columns, db.count entry.1 entry.2.1 (entry.2.2.renamed old new) = 0 := by
  induction columns with
  | nil => simp [rebaseColumns, eq_comm]
  | cons entry columns ih =>
    obtain ⟨at_, column, holds⟩ := entry
    unfold rebaseColumns
    dsimp only
    split
    · next none_ =>
      rw [ih]
      simp [none_]
    · next some_ =>
      constructor
      · intro done
        rw [if_neg (by decide)] at done
        simp only [bind, Option.bind_eq_some_iff] at done
        obtain ⟨_, _, _, _, same⟩ := done
        cases same
      · exact fun nothing => absurd (nothing.2 _ List.mem_cons_self) some_

end Columns

section Text

variable {old new : String} {holds : Holds}

theorem spelling_ne_nil (holds : Holds) (base : String) : (holds.spelling base).toList ≠ [] := by
  cases holds <;> simp [Holds.spelling]

theorem text_renamed (text : holds ≠ .iri) (value : String) :
    (holds.renamed old new value).getD value = replaceText value (holds.spelling old) (holds.spelling new) := by
  have kept : ∀ kind : Holds, (if contains value (kind.spelling old) then
      some (replaceText value (kind.spelling old) (kind.spelling new)) else none).getD value =
        replaceText value (kind.spelling old) (kind.spelling new) := by
    intro kind
    by_cases hit : contains value (kind.spelling old) = true
    · rw [if_pos hit, Option.getD_some]
    · rw [contains_iff] at hit
      rw [if_neg (by rwa [contains_iff]), Option.getD_none, replaceText, replace_of_absent hit, String.ofList_toList]
  cases holds with
  | iri => exact absurd rfl text
  | json => exact kept .json
  | joined => exact kept .joined

theorem text_absent (text : holds ≠ .iri) {value : String} (none_ : holds.renamed old new value = none) :
    contains value (holds.spelling old) = false := by
  rw [← Bool.not_eq_true]
  intro hit
  cases holds with
  | iri => exact absurd rfl text
  | json => simp [Holds.renamed, hit] at none_
  | joined => simp [Holds.renamed, hit] at none_

end Text

end ToolArtifactRegistry.Rebase
