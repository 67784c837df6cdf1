import OpenWorkloadScheduler.Domain.Frames
import OpenWorkloadScheduler.Domain.PlanningRetry
import OpenWorkloadScheduler.Store.Additions

/-!
# What a switch adds

`switch_planning` works on the schema of the next planning.  Where this schema is
there already nothing is changed, and where it is not, waiting jobs come into it and
into no other schema.
-/

namespace OpenWorkloadScheduler

open Rpc Store Foundations

/-- Every schema is still there with its rows, and where there was none the jobs wait. -/
structure Store.Server.Extends (before after : Server) : Prop where
  stays : before.KeepsSchemas after
  same : ∀ planning, before.Present planning → after.tables planning = before.tables planning
  adds : before.OnlyAdds after

theorem Store.Server.extends_of_same {before after : Server} (same : after = before) :
    before.Extends after := by
  rw [same]
  exact ⟨refl before, fun _ _ => rfl, refl before⟩

namespace Domain

variable (domain : Domain)

/-! ## One relation at a time -/

/-- The jobs that are there stay as they are, and new ones wait. -/
def OnlyAdds (before after : World) : Prop :=
  before.server.OnlyAdds after.server

instance : IsPreorder World OnlyAdds where
  refl world := refl world.server
  trans _ _ _ first second := (IsTrans.trans _ _ _ first second : Server.OnlyAdds _ _)

theorem respects_onlyAdds :
    Respects OnlyAdds fun _ statement => statement.onlyAdds = true where
  reading _ _ readOnly := by
    rw [OnlyAdds, readOnly.server]
    exact refl _
  mutex world _ := refl world.server
  executing add world := Mysql.onlyAdds_standaloneExecute add _ world

/-- The schemas stay. -/
def KeepsPlannings (before after : World) : Prop :=
  before.server.KeepsSchemas after.server

instance : IsPreorder World KeepsPlannings where
  refl world := refl world.server
  trans _ _ _ first second := (IsTrans.trans _ _ _ first second : Server.KeepsSchemas _ _)

theorem respects_keepsPlannings : Respects KeepsPlannings fun _ _ => True where
  reading _ _ readOnly := by
    rw [KeepsPlannings, readOnly.server]
    exact refl _
  mutex world _ := refl world.server
  executing _ world := Mysql.keepsSchemas_standaloneExecute _ _ world

/-! ## The next planning -/

theorem jobStatements_onlyAdd (job : TJob) :
    ∀ statement ∈ jobStatements job ++ constraintStatements job,
      statement.onlyAdds = true := by
  intro statement member
  rcases List.mem_append.mp member with member | member
  · rw [jobStatements, List.mem_append, List.mem_cons, List.mem_map, List.mem_map] at member
    rcases member with (rfl | ⟨prv, _, rfl⟩) | ⟨nxt, _, rfl⟩ <;> rfl
  · obtain ⟨constraint, _, rfl⟩ := List.mem_map.mp member
    rfl

theorem skeletonStatements_structural :
    ∀ statement ∈ skeletonStatements, statement.onRows = false ∧ statement.onlyAdds = true := by
  decide

theorem structural_of_mem {name : String} {statement : Statement}
    (member : statement ∈ .createSchema name :: .use name :: skeletonStatements) :
    statement.onRows = false ∧ statement.onlyAdds = true := by
  rcases List.mem_cons.mp member with rfl | member
  · exact ⟨rfl, rfl⟩
  · rcases List.mem_cons.mp member with rfl | member
    · exact ⟨rfl, rfl⟩
    · exact skeletonStatements_structural statement member

theorem onlyAdds_preparePlanning (startTime : Int) :
    Within OnlyAdds (preparePlanning domain startTime) := by
  refine respects_onlyAdds.within_preparePlanning domain
    (fun statement member => (structural_of_mem member).2) fun node => ?_
  exact respects_onlyAdds.within_addNode domain rfl (fun _ _ => rfl)
    fun job _ => jobStatements_onlyAdd job

theorem keepsPlannings_preparePlanning (startTime : Int) :
    Within KeepsPlannings (preparePlanning domain startTime) := by
  refine respects_keepsPlannings.within_preparePlanning domain (fun _ _ => trivial) fun node => ?_
  exact respects_keepsPlannings.within_addNode domain trivial (fun _ _ => trivial)
    fun _ _ _ _ => trivial

theorem extends_preparePlanning (startTime : Int) (world : World) :
    world.server.Extends (finalState (preparePlanning domain startTime world)).server := by
  by_cases present : (world.server.schema? (planningName domain startTime)).isSome
  · obtain ⟨accepted, after, readOnly, returned⟩ := preparePlanning_of_present domain present
    rw [returned]
    exact Server.extends_of_same readOnly.server
  · refine ⟨keepsPlannings_preparePlanning domain startTime world, ?_,
      onlyAdds_preparePlanning domain startTime world⟩
    intro planning there
    refine (keepsBeside_preparePlanning domain startTime world).tables ?_
    rintro rfl
    exact present there

/-- However `switch_planning` is left, only the start time may be another one than what
`set_next_planning` has left. -/
theorem finalState_switchPlanning (world : World) :
    ∃ planningStartTime, finalState (switchPlanning domain world) =
      { finalState (preparePlanning domain (nextPlanningStartTime domain world.clock) world) with
        planningStartTime } := by
  have started : setNextPlanning domain .result world =
      preparePlanning domain (nextPlanningStartTime domain world.clock) world := rfl
  rw [switchPlanning, bind_of_ok (rfl : getNextPlanningStartTime domain world = .ok _ world)]
  cases ran : preparePlanning domain (nextPlanningStartTime domain world.clock) world with
  | error raised after =>
      rw [ran] at started
      rw [bind_of_error started]
      exact ⟨_, rfl⟩
  | ok accepted after =>
      rw [ran] at started
      rw [bind_of_ok started]
      cases accepted <;> exact ⟨_, rfl⟩

/-- However `switch_planning` is left, it has changed no schema that was there. -/
theorem extends_switchPlanning (world : World) :
    world.server.Extends (finalState (switchPlanning domain world)).server := by
  obtain ⟨_, same⟩ := finalState_switchPlanning domain world
  rw [same]
  exact extends_preparePlanning domain (nextPlanningStartTime domain world.clock) world

end Domain

end OpenWorkloadScheduler
