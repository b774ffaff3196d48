import ToolArtifactRegistry.Store

/-! Renaming the IRIs of a store renames every description in it, as long as no two nodes get one name. -/
namespace ToolArtifactRegistry.Store

open Library.Rdf Library.Worklist

section

variable (f : String → String)

def mapNode : Node → Node
  | .named iri => .named (f iri)
  | .blank label => .blank label

def mapTerm : Term → Term
  | .named iri => .named (f iri)
  | .blank label => .blank label
  | .literal value datatype language => .literal value datatype language

def mapQuad (quad : Quad) : Quad := ⟨mapNode f quad.subject, f quad.predicate, mapTerm f quad.object, quad.graph⟩

/-- One store is another with its IRIs renamed; the vocabulary is left alone, and so is what keeps nodes apart. -/
structure Carries (known : String → Prop) (before after : Dataset) : Prop where
  quads : ∀ quad, quad ∈ after ↔ ∃ source ∈ before, quad = mapQuad f source
  predicates : ∀ quad ∈ before, f quad.predicate = quad.predicate
  subjects : ∀ quad ∈ before, known (subjectKey quad.subject)
  objects : ∀ quad ∈ before, ∀ node, quad.object.node? = some node → known (subjectKey node)
  blanks : ∀ label, f ("_:" ++ label) = "_:" ++ label
  apart : ∀ left right, known left → known right → f left = f right → left = right

end

section

variable {f : String → String} {known : String → Prop} {before after : Dataset}

theorem subjectKey_mapNode (carries : Carries f known before after) (node : Node) :
    subjectKey (mapNode f node) = f (subjectKey node) := by
  cases node with
  | named iri => rfl
  | blank label => exact (carries.blanks label).symm

theorem mapNode_inj (carries : Carries f known before after) {left right : Node} (knownLeft : known (subjectKey left))
    (knownRight : known (subjectKey right)) (same : mapNode f left = mapNode f right) : left = right := by
  cases left with
  | named iri =>
    cases right with
    | named other => rw [carries.apart iri other knownLeft knownRight (Node.named.inj same)]
    | blank label => cases same
  | blank label =>
    cases right with
    | named other => cases same
    | blank other => exact same

theorem follow_mapQuad (carries : Carries f known before after) {quad : Quad} (mem : quad ∈ before) :
    follow (mapQuad f quad) = (follow quad).map (mapNode f) := by
  have kept := carries.predicates quad mem
  obtain ⟨subject, predicate, object, graph⟩ := quad
  unfold follow mapQuad
  dsimp only at kept ⊢
  rw [kept]
  cases object with
  | named iri =>
    show (if isOwnedSubresource predicate then some (Node.named (f iri)) else none) = _
    dsimp only
    split <;> rfl
  | blank label => rfl
  | literal value datatype language => rfl

theorem node_of_follow {quad : Quad} {node : Node} (goes : follow quad = some node) : quad.object.node? = some node := by
  unfold follow at goes
  unfold Term.node?
  cases object : quad.object with
  | named iri =>
    rw [object] at goes
    dsimp only at goes ⊢
    split at goes
    · exact goes
    · cases goes
  | blank label =>
    rw [object] at goes
    exact goes
  | literal value datatype language =>
    rw [object] at goes
    cases goes

theorem mem_edges_carried (carries : Carries f known before after) (source target : Node) :
    (source, target) ∈ edges after.quads ↔
      ∃ x y, (x, y) ∈ edges before.quads ∧ source = mapNode f x ∧ target = mapNode f y := by
  constructor
  · intro edge
    obtain ⟨quad, mem, begins, goes⟩ := mem_edges.mp edge
    obtain ⟨first, held, same⟩ := (carries.quads quad).mp mem
    rw [same, follow_mapQuad carries held] at goes
    obtain ⟨node, goesBefore, renamed⟩ := Option.map_eq_some_iff.mp goes
    refine ⟨first.subject, node, mem_edges.mpr ⟨first, held, rfl, goesBefore⟩, ?_, renamed.symm⟩
    rw [← begins, same]
    rfl
  · rintro ⟨x, y, edge, rfl, rfl⟩
    obtain ⟨quad, mem, begins, goes⟩ := mem_edges.mp edge
    refine mem_edges.mpr ⟨mapQuad f quad, (carries.quads _).mpr ⟨quad, mem, rfl⟩, ?_, ?_⟩
    · rw [← begins]
      rfl
    · rw [follow_mapQuad carries mem, goes, Option.map_some]

theorem mem_level_carried (carries : Carries f known before after) {subject : String} (begins : known subject)
    (depth : Nat) (quad : Quad) :
    quad ∈ level after (f subject) depth ↔ ∃ source ∈ level before subject depth, quad = mapQuad f source := by
  have rings := fun node => @mem_ring_image _ _ (edges before.quads) (edges after.quads) (mapNode f)
    (fun node => known (subjectKey node)) (mem_edges_carried carries)
    (by
      intro x y edge
      obtain ⟨quad, mem, rfl, goes⟩ := mem_edges.mp edge
      exact ⟨carries.subjects quad mem, carries.objects quad mem y (node_of_follow goes)⟩)
    (fun _ _ => mapNode_inj carries) (.named subject) begins depth node
  rw [mem_level]
  constructor
  · rintro ⟨held, inRing⟩
    obtain ⟨source, mem, rfl⟩ := (carries.quads quad).mp held
    obtain ⟨node, there, knownNode, same⟩ := (rings _).mp inRing
    refine ⟨source, mem_level.mpr ⟨mem, ?_⟩, rfl⟩
    rw [mapNode_inj carries (carries.subjects source mem) knownNode same]
    exact there
  · rintro ⟨source, inLevel, rfl⟩
    obtain ⟨mem, inRing⟩ := mem_level.mp inLevel
    exact ⟨(carries.quads _).mpr ⟨source, mem, rfl⟩, (rings _).mpr ⟨source.subject, inRing, carries.subjects source mem, rfl⟩⟩

theorem truncated_carried (carries : Carries f known before after) {subject : String} (begins : known subject)
    (depth : Nat) : truncated after (f subject) depth = truncated before subject depth := by
  have levels := fun d quad => mem_level_carried carries begins d quad
  have shallower : ∀ source ∈ before, subjectKey (mapNode f source.subject) ∈
      (List.range depth).flatMap (fun d => (level after (f subject) d).map (fun q => subjectKey q.subject)) ↔
        subjectKey source.subject ∈
          (List.range depth).flatMap (fun d => (level before subject d).map (fun q => subjectKey q.subject)) := by
    intro source mem
    simp only [List.mem_flatMap, List.mem_map]
    constructor
    · rintro ⟨d, inRange, quad, inLevel, same⟩
      obtain ⟨other, there, rfl⟩ := (levels d quad).mp inLevel
      refine ⟨d, inRange, other, there, ?_⟩
      have keys : f (subjectKey other.subject) = f (subjectKey source.subject) := by
        rw [← subjectKey_mapNode carries, ← subjectKey_mapNode carries]
        exact same
      exact carries.apart _ _ (carries.subjects other (mem_level.mp there).1) (carries.subjects source mem) keys
    · rintro ⟨d, inRange, other, there, same⟩
      refine ⟨d, inRange, mapQuad f other, (levels d _).mpr ⟨other, there, rfl⟩, ?_⟩
      show subjectKey (mapNode f other.subject) = subjectKey (mapNode f source.subject)
      rw [subjectKey_mapNode carries, subjectKey_mapNode carries, same]
  rw [Bool.eq_iff_iff]
  unfold truncated
  simp only [List.any_eq_true, decide_eq_true_eq]
  constructor
  · rintro ⟨quad, inLevel, deep⟩
    obtain ⟨source, there, rfl⟩ := (levels depth quad).mp inLevel
    exact ⟨source, there, fun seen => deep ((shallower source (mem_level.mp there).1).mpr seen)⟩
  · rintro ⟨source, there, deep⟩
    exact ⟨mapQuad f source, (levels depth _).mpr ⟨source, there, rfl⟩,
      fun seen => deep ((shallower source (mem_level.mp there).1).mp seen)⟩

theorem mem_escalate_carried (carries : Carries f known before after) {subject : String} (begins : known subject)
    (depth : Nat) (deeper : List Nat) (quad : Quad) :
    quad ∈ escalate after (f subject) depth deeper ↔
      ∃ source ∈ escalate before subject depth deeper, quad = mapQuad f source := by
  have described : ∀ depth, quad ∈ describeTo after (f subject) depth ↔
      ∃ source ∈ describeTo before subject depth, quad = mapQuad f source := by
    intro depth
    simp only [mem_describeTo, mem_level_carried carries begins]
    constructor
    · rintro ⟨d, bound, source, inLevel, same⟩
      exact ⟨source, ⟨d, bound, inLevel⟩, same⟩
    · rintro ⟨source, ⟨d, bound, inLevel⟩, same⟩
      exact ⟨d, bound, source, inLevel, same⟩
  induction deeper generalizing depth with
  | nil => exact described depth
  | cons next rest ih =>
    simp only [escalate, truncated_carried carries begins]
    split
    · exact ih next
    · exact described depth

/-- The description of a renamed subject is the renamed description. -/
theorem mem_describe_carried (carries : Carries f known before after) {subject : String} (begins : known subject)
    (quad : Quad) :
    quad ∈ describeQuads after (f subject) ↔ ∃ source ∈ describeQuads before subject, quad = mapQuad f source :=
  mem_escalate_carried carries begins defaultDepth [8, 16, 32] quad

end

end ToolArtifactRegistry.Store
