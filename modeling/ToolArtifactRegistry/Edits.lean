import ToolArtifactRegistry.Domain.Footprint

/-! What a write may do to the local graph: the subjects whose closure it deletes, the properties
it resets, and the nodes it says something about. -/
namespace ToolArtifactRegistry

open Library.Rdf Store Rdf Build Domain

/-- Nodes something is said about, and the predicates it is said in. -/
structure Block where
  nodes : List Node
  vocabulary : List String

def Spoken (blocks : List Block) (quad : Quad) : Prop :=
  quad.graph = Ns.gLocal ∧ ∃ block ∈ blocks, quad.subject ∈ block.nodes ∧ quad.predicate ∈ block.vocabulary

theorem Spoken.mono {small large : List Block} {quad : Quad} (spoken : Spoken small quad)
    (within : ∀ block ∈ small, block ∈ large) : Spoken large quad := by
  obtain ⟨graph, block, mem, subject, predicate⟩ := spoken
  exact ⟨graph, block, within _ mem, subject, predicate⟩

/-- The blocks of a record: its own node, and what it is written with. -/
def recordBlocks (iri : String) (vocabulary : List String) (nodes : List Node) : List Block :=
  [⟨[.named iri], vocabulary⟩, ⟨nodes, Footprint.supportVocabulary⟩]

theorem spoken_of_written {iri : String} {statements : List Statement} {vocabulary : List String} {nodes : List Node}
    {quad : Quad} (written : Footprint.Written iri statements nodes quad) (speaks : Speaks vocabulary statements) :
    Spoken (recordBlocks iri vocabulary nodes) quad := by
  rcases written with own | supports
  · obtain ⟨subject, graph, said⟩ := mem_finish.1 own
    exact ⟨graph, _, List.mem_cons_self, by simp [subject], speaks _ said⟩
  · exact ⟨supports.graph, _, List.mem_cons_of_mem _ List.mem_cons_self, supports.subject, supports.predicate⟩

theorem spoken_of_local {iri : String} {statements : List Statement} {vocabulary : List String} {quad : Quad}
    (mem : quad ∈ describeLocal iri statements) (speaks : Speaks vocabulary statements) :
    Spoken [⟨[.named iri], vocabulary⟩] quad := by
  obtain ⟨subject, graph, said⟩ := mem_finish.1 mem
  exact ⟨graph, _, List.mem_cons_self, by simp [subject], speaks _ said⟩

structure Print where
  replaced : List String := []
  /-- Subjects and the predicates dropped of them. -/
  reset : List (String × String) := []
  blocks : List Block := []

namespace Print

def append (first second : Print) : Print where
  replaced := first.replaced ++ second.replaced
  reset := first.reset ++ second.reset
  blocks := first.blocks ++ second.blocks

/-- The nodes a write says something about. -/
def nodes (print : Print) : List Node := print.blocks.flatMap Block.nodes

/-- A quad of a subject the write replaces, or of a property it resets. -/
def Drops (print : Print) (data : Dataset) (quad : Quad) : Prop :=
  (∃ subject ∈ print.replaced, Owns data Ns.gLocal (.named subject) quad.subject) ∨
    ∃ target ∈ print.reset, quad.subject = .named target.1 ∧ quad.predicate = target.2

end Print

theorem Spoken.mem_nodes {print : Print} {quad : Quad} (spoken : Spoken print.blocks quad) : quad.subject ∈ print.nodes := by
  obtain ⟨_, block, mem, subject, _⟩ := spoken
  exact List.mem_flatMap.2 ⟨block, mem, subject⟩

/-- One dataset is another with only this done to its local graph. -/
structure Edits (before after : Dataset) (print : Print) : Prop where
  kept : ∀ quad ∈ before, quad.graph = Ns.gLocal → ¬print.Drops before quad → quad ∈ after
  new : ∀ quad ∈ after, quad.graph = Ns.gLocal → quad ∈ before ∨ Spoken print.blocks quad

namespace Edits

theorem refl (data : Dataset) (print : Print) : Edits data data print :=
  ⟨fun _ held _ _ => held, fun _ held _ => Or.inl held⟩

theorem mono {before after : Dataset} {small large : Print} (edits : Edits before after small)
    (replaced : ∀ subject ∈ small.replaced, subject ∈ large.replaced)
    (reset : ∀ target ∈ small.reset, target ∈ large.reset)
    (blocks : ∀ block ∈ small.blocks, block ∈ large.blocks) : Edits before after large := by
  refine ⟨fun quad held graph spared => edits.kept quad held graph ?_, fun quad held graph => ?_⟩
  · rintro (⟨subject, mem, owns⟩ | ⟨target, mem, same⟩)
    · exact spared (Or.inl ⟨subject, replaced _ mem, owns⟩)
    · exact spared (Or.inr ⟨target, reset _ mem, same⟩)
  · exact (edits.new quad held graph).imp_right (fun spoken => spoken.mono blocks)

/-- A second write that replaces no subject adds its own print. -/
theorem trans {first second third : Dataset} {earlier later : Print} (before : Edits first second earlier)
    (after : Edits second third later) (adds : later.replaced = []) : Edits first third (earlier.append later) := by
  refine ⟨fun quad held graph spared => ?_, fun quad held graph => ?_⟩
  · apply after.kept quad _ graph
    · rintro (⟨subject, mem, _⟩ | ⟨target, mem, same⟩)
      · simp [adds] at mem
      · exact spared (Or.inr ⟨target, List.mem_append_right _ mem, same⟩)
    · apply before.kept quad held graph
      rintro (⟨subject, mem, owns⟩ | ⟨target, mem, same⟩)
      · exact spared (Or.inl ⟨subject, List.mem_append_left _ mem, owns⟩)
      · exact spared (Or.inr ⟨target, List.mem_append_left _ mem, same⟩)
  · rcases after.new quad held graph with middle | spoken
    · exact (before.new quad middle graph).imp_right (fun spoken => spoken.mono (fun _ => List.mem_append_left _))
    · exact Or.inr (spoken.mono (fun _ => List.mem_append_right _))

/-- The effect of a transaction whose deletions and insertions in the local graph are these. -/
theorem of_effect {data : Dataset} {tx : GraphTx} {print : Print} (graphs : Ns.gLocal ∉ tx.clearGraphs)
    (subjects : ∀ target ∈ tx.deleteSubjects, target.2 = Ns.gLocal → target.1 ∈ print.replaced)
    (properties : ∀ target ∈ tx.deleteProperties, target.2.2 = Ns.gLocal → (target.1, target.2.1) ∈ print.reset)
    (inserted : ∀ quad ∈ tx.insert, quad.graph = Ns.gLocal → Spoken print.blocks quad) :
    Edits data (effect data tx) print := by
  refine ⟨fun quad held graph spared => ?_, fun quad held graph => ?_⟩
  · refine (mem_effect_of_spared ⟨graph ▸ graphs, ?_, ?_⟩).2 (Or.inl held)
    · rintro target mem ⟨same, owns⟩
      have here : target.2 = Ns.gLocal := same ▸ graph
      exact spared (Or.inl ⟨target.1, subjects target mem here, here ▸ owns⟩)
    · intro target mem
      rw [isProperty, decide_eq_false_iff_not]
      rintro ⟨subject, predicate, same⟩
      exact spared (Or.inr ⟨_, properties target mem (same ▸ graph), subject, predicate⟩)
  · exact (mem_effect_cases held).imp_right (fun mem => inserted quad mem graph)

/-- A transaction that only inserts. -/
theorem of_extend {data : Dataset} {quads : List Quad} {print : Print}
    (inserted : ∀ quad ∈ quads, Spoken print.blocks quad) : Edits data (effect data (({} : GraphTx).extend quads)) print := by
  apply of_effect
  · simp [GraphTx.extend]
  · simp [GraphTx.extend]
  · simp [GraphTx.extend]
  · intro quad mem _
    exact inserted quad (by simpa [GraphTx.extend] using mem)

/-- A transaction that replaces one subject and inserts. -/
theorem of_replace {data : Dataset} {subject : String} {quads : List Quad} {print : Print}
    (replaced : subject ∈ print.replaced) (inserted : ∀ quad ∈ quads, Spoken print.blocks quad) :
    Edits data (effect data ((({} : GraphTx).replaceSubject subject Ns.gLocal).extend quads)) print := by
  apply of_effect
  · simp [GraphTx.extend, GraphTx.replaceSubject]
  · intro target mem _
    simp only [GraphTx.extend, GraphTx.replaceSubject, List.nil_append, List.mem_singleton] at mem
    rw [mem]
    exact replaced
  · simp [GraphTx.extend, GraphTx.replaceSubject]
  · intro quad mem _
    exact inserted quad (by simpa [GraphTx.extend, GraphTx.replaceSubject] using mem)

end Edits

end ToolArtifactRegistry
