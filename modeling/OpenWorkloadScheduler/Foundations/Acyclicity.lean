import Mathlib.Logic.Relation

/-!
# Acyclic relations

A relation is acyclic if nothing leads back to itself.  A smaller relation stays
acyclic, and one with a new vertex is acyclic if and only if the new edges close no
cycle.
-/

namespace OpenWorkloadScheduler.Foundations

open Relation

universe u

variable {Vertex : Type u}

/-- Nothing leads back to itself. -/
def Acyclic (relation : Vertex → Vertex → Prop) : Prop :=
  ∀ vertex, ¬ TransGen relation vertex vertex

theorem Acyclic.mono {relation larger : Vertex → Vertex → Prop} (acyclic : Acyclic larger)
    (included : ∀ first last, relation first last → larger first last) : Acyclic relation :=
  fun vertex cycle => acyclic vertex (TransGen.mono included vertex vertex cycle)

theorem acyclic_of_empty {relation : Vertex → Vertex → Prop}
    (empty : ∀ first last, ¬ relation first last) : Acyclic relation := by
  intro vertex cycle
  obtain ⟨last, _, edge⟩ := TransGen.tail'_iff.mp cycle
  exact empty last vertex edge

/-! ## A new vertex -/

/-- The relation with edges from the sources to a vertex, and from it to the targets. -/
def withVertex (relation : Vertex → Vertex → Prop) (vertex : Vertex)
    (sources targets : Vertex → Prop) (first last : Vertex) : Prop :=
  relation first last ∨ last = vertex ∧ sources first ∨ first = vertex ∧ targets last

section Adding

variable {relation : Vertex → Vertex → Prop} {vertex : Vertex} {sources targets : Vertex → Prop}

/-- The edges of a new vertex close a cycle: it is an end of one of them itself, or one of
its targets leads to one of its sources. -/
def ClosesCycle (relation : Vertex → Vertex → Prop) (vertex : Vertex)
    (sources targets : Vertex → Prop) : Prop :=
  sources vertex ∨ targets vertex ∨
    ∃ target, targets target ∧ ∃ source, sources source ∧ ReflTransGen relation target source

/-- An element leads to one of the sources. -/
private def Below (relation : Vertex → Vertex → Prop) (sources : Vertex → Prop)
    (element : Vertex) : Prop :=
  ∃ source, sources source ∧ ReflTransGen relation element source

/-- One of the targets leads to an element. -/
private def Above (relation : Vertex → Vertex → Prop) (targets : Vertex → Prop)
    (element : Vertex) : Prop :=
  ∃ target, targets target ∧ ReflTransGen relation target element

private theorem Below.head {first last : Vertex} (below : Below relation sources last)
    (path : ReflTransGen relation first last) : Below relation sources first := by
  obtain ⟨source, member, rest⟩ := below
  exact ⟨source, member, path.trans rest⟩

private theorem Above.tail {first last : Vertex} (above : Above relation targets first)
    (edge : relation first last) : Above relation targets last := by
  obtain ⟨target, member, path⟩ := above
  exact ⟨target, member, path.tail edge⟩

private theorem closesCycle_of_both {element : Vertex}
    (above : Above relation targets element) (below : Below relation sources element) :
    ClosesCycle relation vertex sources targets := by
  obtain ⟨target, targetMember, first⟩ := above
  obtain ⟨source, sourceMember, rest⟩ := below
  exact Or.inr (Or.inr ⟨target, targetMember, source, sourceMember, first.trans rest⟩)

private theorem source_of_below (fresh : ∀ other, ¬ relation vertex other)
    (below : Below relation sources vertex) : sources vertex := by
  obtain ⟨source, member, path⟩ := below
  rcases path.cases_head with rfl | ⟨between, edge, _⟩
  · exact member
  · exact absurd edge (fresh between)

private theorem target_of_above (fresh : ∀ other, ¬ relation other vertex)
    (above : Above relation targets vertex) : targets vertex := by
  obtain ⟨target, member, path⟩ := above
  rcases path.cases_tail with rfl | ⟨between, _, edge⟩
  · exact member
  · exact absurd edge (fresh between)

/-- A path along the new edges stays among the old ones, or it goes through the new vertex
once. -/
private theorem path_withVertex (into : ∀ other, ¬ relation other vertex)
    (outOf : ∀ other, ¬ relation vertex other)
    (noCycle : ¬ ClosesCycle relation vertex sources targets) {first last : Vertex}
    (path : TransGen (withVertex relation vertex sources targets) first last) :
    TransGen relation first last ∨ Below relation sources first ∧ Above relation targets last ∨
      Below relation sources first ∧ last = vertex ∨
        first = vertex ∧ Above relation targets last := by
  have below : ∀ {element}, sources element → Below relation sources element :=
    fun member => ⟨_, member, .refl⟩
  have above : ∀ {element}, targets element → Above relation targets element :=
    fun member => ⟨_, member, .refl⟩
  have notAbove : ¬ Above relation targets vertex :=
    fun ends => noCycle (Or.inr (Or.inl (target_of_above into ends)))
  have notReached : ∀ {element}, ¬ TransGen relation element vertex := by
    intro element path
    obtain ⟨between, _, edge⟩ := TransGen.tail'_iff.mp path
    exact into between edge
  induction path with
  | single edge =>
      rcases edge with old | ⟨rfl, source⟩ | ⟨rfl, target⟩
      · exact Or.inl (.single old)
      · exact Or.inr (Or.inr (Or.inl ⟨below source, rfl⟩))
      · exact Or.inr (Or.inr (Or.inr ⟨rfl, above target⟩))
  | @tail between last _ edge inductionHypothesis =>
      -- a path that has left the vertex does not come back to it
      rcases inductionHypothesis with old | ⟨starts, ends⟩ | ⟨starts, rfl⟩ | ⟨rfl, ends⟩
      · rcases edge with edge | ⟨rfl, source⟩ | ⟨rfl, _⟩
        · exact Or.inl (old.tail edge)
        · exact Or.inr (Or.inr (Or.inl ⟨(below source).head old.to_reflTransGen, rfl⟩))
        · exact absurd old notReached
      · rcases edge with edge | ⟨rfl, source⟩ | ⟨rfl, _⟩
        · exact Or.inr (Or.inl ⟨starts, ends.tail edge⟩)
        · exact absurd (closesCycle_of_both ends (below source)) noCycle
        · exact absurd ends notAbove
      · rcases edge with edge | ⟨rfl, source⟩ | ⟨_, target⟩
        · exact absurd edge (outOf last)
        · exact absurd (Or.inl source) noCycle
        · exact Or.inr (Or.inl ⟨starts, above target⟩)
      · rcases edge with edge | ⟨rfl, source⟩ | ⟨rfl, _⟩
        · exact Or.inr (Or.inr (Or.inr ⟨rfl, ends.tail edge⟩))
        · exact absurd (closesCycle_of_both ends (below source)) noCycle
        · exact absurd ends notAbove

/-- With a new vertex, a relation is acyclic if and only if it was and the new edges close
no cycle. -/
theorem acyclic_withVertex_iff (into : ∀ other, ¬ relation other vertex)
    (outOf : ∀ other, ¬ relation vertex other) :
    Acyclic (withVertex relation vertex sources targets) ↔
      Acyclic relation ∧ ¬ ClosesCycle relation vertex sources targets := by
  constructor
  · intro acyclic
    refine ⟨acyclic.mono fun first last old => Or.inl old, ?_⟩
    rintro (source | target | ⟨target, targetMember, source, sourceMember, path⟩)
    · exact acyclic vertex (.single (Or.inr (Or.inl ⟨rfl, source⟩)))
    · exact acyclic vertex (.single (Or.inr (Or.inr ⟨rfl, target⟩)))
    · have leaves : withVertex relation vertex sources targets vertex target :=
        Or.inr (Or.inr ⟨rfl, targetMember⟩)
      have enters : withVertex relation vertex sources targets source vertex :=
        Or.inr (Or.inl ⟨rfl, sourceMember⟩)
      have between : ReflTransGen (withVertex relation vertex sources targets) target source :=
        ReflTransGen.mono (fun _ _ old => Or.inl old) _ _ path
      exact acyclic vertex ((TransGen.head' leaves between).tail enters)
  · rintro ⟨acyclic, noCycle⟩ element cycle
    rcases path_withVertex into outOf noCycle cycle with
      old | ⟨starts, ends⟩ | ⟨starts, rfl⟩ | ⟨rfl, ends⟩
    · exact acyclic element old
    · exact noCycle (closesCycle_of_both ends starts)
    · exact noCycle (Or.inl (source_of_below outOf starts))
    · exact noCycle (Or.inr (Or.inl (target_of_above into ends)))

end Adding

end OpenWorkloadScheduler.Foundations
