import OpenWorkloadScheduler.Domain.JobRoundTrip
import OpenWorkloadScheduler.Store.Scripts

/-!
# What a call of `add_node` leaves

`add_node` writes a node, each of its resources and each of its jobs in a
transaction of its own.  The first of them that fails leaves what the earlier ones
have committed, so the call is all or nothing only where a single transaction can
write anything.
-/

namespace OpenWorkloadScheduler.Domain

open Rpc Store Foundations

variable (domain : Domain)

/-! ## The parts of a node -/

/-- What `add_node` adds to the schema after the node itself. -/
inductive Part where
  | resource (entry : TResource)
  | job (entry : TJob)

def partsOf (node : TNode) : List Part :=
  node.resources.map .resource ++ node.jobs.map .job

def resourceRow (nodeName : String) (resource : TResource) : ResourceRow :=
  ⟨resource.name, nodeName, resource.currentValue, resource.initialValue⟩

namespace Part

def add (name nodeName : String) : Part → Action Bool
  | resource entry => addResource name entry nodeName
  | job entry => addJob domain name entry

def statements (nodeName : String) : Part → List Statement
  | resource entry =>
      [.insertResource entry.name nodeName entry.currentValue entry.initialValue]
  | job entry => jobStatements entry ++ constraintStatements entry

/-- The rows with those of the part. -/
def insert (nodeName : String) (tables : Tables) : Part → Tables
  | resource entry =>
      { tables with resource := tables.resource ++ [resourceRow nodeName entry] }
  | job entry => withJob tables entry

/-- No constraint of a job is above the duration. -/
def Within : Part → Prop
  | resource _ => True
  | job entry => WithinDuration domain entry

/-- The keys let the part in. -/
def Fits (nodeName : String) (tables : Tables) : Part → Prop
  | resource entry =>
      (∀ row ∈ tables.resource,
        ¬ (row.resourceName = entry.name ∧ row.resourceNodeName = nodeName)) ∧
          tables.hasNode nodeName
  | job entry => Insertable tables entry

/-- A job finds its node, in the schema that it names. -/
def Finds (server : Server) : Part → Prop
  | resource _ => True
  | job entry => FindsNode entry { server }

/-- The rows of the part are there. -/
def HeldIn (nodeName : String) (tables : Tables) : Part → Prop
  | resource entry => resourceRow nodeName entry ∈ tables.resource
  | job entry => rowOfJob entry ∈ tables.job ∧ linksOfJob entry ⊆ tables.jobsLink ∧
      constraintsOfJob entry ⊆ tables.timeConstraint

end Part

theorem addNode_eq_parts (name : String) (node : TNode) :
    addNode domain name node =
      andThen (addWeightedNode name node.name node.weight)
        (allTrue (Part.add domain name node.name) (partsOf node)) := by
  rw [addNode, partsOf, allTrue_append, allTrue_map, allTrue_map]
  rfl

/-! ## Scripts -/

theorem scripted_lock : Scripted lock := by
  intro before value after ran
  obtain ⟨free, rfl⟩ := lock_eq_ok_iff.mp ran
  refine ⟨rfl, 0, fun rest => ?_⟩
  have freeThere : MutexFree (World.script.give rest before) := free
  exact lock_of_free freeThere

theorem scripted_unlock : Scripted unlock := by
  rintro before _ after ⟨⟩
  exact ⟨rfl, 0, fun rest => rfl⟩

theorem scripted_lift {Alpha : Type} (result : Except Raised Alpha) : Scripted (lift result) := by
  cases result with
  | error raised => exact consumes_throw raised
  | ok value => exact consumes_pure value

theorem scripted_executeAndUnlock (statements : List Statement) (database : Option String) :
    Scripted (executeAndUnlock statements database) :=
  consumes_bind (Mysql.scripted_standaloneExecute statements database) fun executed =>
    consumes_bind scripted_unlock fun _ => consumes_pure executed

theorem scripted_lockedExecute (statements : List Statement) (database : Option String) :
    Scripted (lockedExecute statements database) :=
  consumes_bind scripted_lock fun _ => scripted_executeAndUnlock statements database

theorem scripted_checkNode (job : TJob) : Scripted (checkNode job) := by
  refine consumes_bind (Mysql.scripted_queryOneRow _ _) fun row => ?_
  cases row with
  | none => exact consumes_throw _
  | some row =>
      exact consumes_bind (scripted_lift _) fun _ =>
        consumes_ite (consumes_throw _) (consumes_pure ())

theorem scripted_addJob (name : String) (job : TJob) : Scripted (addJob domain name job) := by
  refine consumes_bind scripted_lock fun _ => ?_
  refine consumes_bind (scripted_checkNode job) fun _ => ?_
  exact consumes_bind (scripted_lift _) fun _ => scripted_executeAndUnlock _ _

theorem answer_of_lockedExecute {statements : List Statement} {database : Option String}
    {world after : World} (ran : lockedExecute statements database world = .ok true after) :
    world.answer = .done := by
  obtain ⟨_, locked, lockRan, executed⟩ := bind_eq_ok_iff.mp ran
  obtain ⟨_, rfl⟩ := lock_eq_ok_iff.mp lockRan
  obtain ⟨value, between, transaction, _⟩ := bind_eq_ok_iff.mp executed
  by_cases begins : Mysql.Begins database { world with updatesMutex := true }
  · exact begins.connected
  · obtain ⟨message, left, _, raised⟩ :=
      Mysql.standaloneExecute_of_not_begins begins
    rw [raised] at transaction
    cases transaction

/-! ## One part -/

namespace Part

section Adding

variable {name nodeName : String} {tables changed : Tables}

theorem rowsAfter_statements_iff {part : Part} :
    rowsAfter (part.statements nodeName) tables = .ok changed ↔
      part.Fits nodeName tables ∧ changed = part.insert nodeName tables := by
  cases part with
  | job entry => exact rowsAfter_addJob_eq_ok_iff
  | resource entry =>
      have inserted : rowsAfter (statements nodeName (.resource entry)) tables =
          tables.insertResource (resourceRow nodeName entry) :=
        bind_pure (tables.insertResource (resourceRow nodeName entry))
      rw [inserted, Tables.insertResource, Fits, insert]
      split
      · rename_i duplicate
        obtain ⟨row, member, same⟩ := duplicate
        refine iff_of_false (by simp) ?_
        rintro ⟨⟨new, _⟩, _⟩
        exact new row member same
      · rename_i new
        have fresh : ∀ row ∈ tables.resource,
            ¬ (row.resourceName = entry.name ∧ row.resourceNodeName = nodeName) :=
          fun row member same => new ⟨row, member, same⟩
        split
        · rename_i orphan
          refine iff_of_false (by simp) ?_
          rintro ⟨⟨_, there⟩, _⟩
          exact orphan there
        · rename_i there
          rw [Except.ok.injEq, eq_comm]
          exact ⟨fun same => ⟨⟨fresh, not_not.mp there⟩, same⟩, And.right⟩

/-- A part whose rows are there does not fit in again. -/
theorem not_fits_of_held {part : Part} (held : part.HeldIn nodeName tables) :
    ¬ part.Fits nodeName tables := by
  cases part with
  | resource entry => exact fun fits => fits.1 _ held ⟨rfl, rfl⟩
  | job entry => exact fun insertable => insertable.name (List.mem_map_of_mem held.1)

theorem insert_ne {part : Part} : part.insert nodeName tables ≠ tables := by
  intro same
  cases part with
  | resource entry =>
      have rows := congrArg Tables.resource same
      simp [insert] at rows
  | job entry =>
      have rows := congrArg Tables.job same
      simp [insert, withJob] at rows

/-- A call that adds a part has inserted its rows, or nothing. -/
theorem add_cases (part : Part) (world : World) :
    (∃ after, part.add domain name nodeName world = .ok true after ∧ part.Within domain ∧
        part.Finds world.server ∧
        ChangesTables name (rowsAfter (part.statements nodeName)) world.server after.server) ∨
      (∀ after, part.add domain name nodeName world ≠ .ok true after) ∧
        (finalState (part.add domain name nodeName world)).server = world.server := by
  cases part with
  | resource entry =>
      have onRows : ∀ statement ∈ statements nodeName (.resource entry),
          statement.onRows = true := by
        intro statement member
        cases List.mem_singleton.mp member
        rfl
      rcases lockedExecute_cases name world onRows with ⟨after, ran, changes⟩ | refused
      · exact Or.inl ⟨after, ran, trivial, trivial, changes⟩
      · exact Or.inr refused
  | job entry =>
      rcases addJob_cases domain name entry world with ⟨after, ran, within, changes⟩ | refused
      · have finds := finds_of_addJob domain ran
        exact Or.inl ⟨after, ran, within, ⟨rfl, rfl, finds.found⟩, changes⟩
      · exact Or.inr refused

theorem add_of_quiet {part : Part} {world : World} {schema : Schema} (quiet : Mysql.Quiet world)
    (free : MutexFree world) (found : world.server.schema? name = some schema)
    (complete : schema.Complete) (within : part.Within domain)
    (fits : part.Fits nodeName schema.tables) (finds : part.Finds world.server) :
    ∃ after, part.add domain name nodeName world = .ok true after ∧
      Mysql.Quiet after ∧ MutexFree after := by
  have ran := rowsAfter_statements_iff.mpr ⟨fits, rfl⟩
  cases part with
  | resource entry =>
      refine lockedExecute_of_rowsAfter quiet free found (fun statement member => ?_) ran
      cases List.mem_singleton.mp member
      exact changesRows_of_effect complete rfl (by decide)
  | job entry =>
      have answers := Mysql.answer_of_quiet quiet
      have findsHere : FindsNode entry world :=
        ⟨answers, by rwa [Mysql.answered_of_quiet quiet], finds.found⟩
      rw [add, addJob_of_finds domain quiet free findsHere within]
      exact lockedExecute_of_rowsAfter quiet free found (changesRows_addJob complete entry) ran

/-- A part is not added when its first call of MySQL is refused. -/
theorem add_of_refused {part : Part} {world after : World} (refused : world.answer = .refused) :
    part.add domain name nodeName world ≠ .ok true after := by
  intro ran
  have begun : world.answer = .done := by
    cases part with
    | resource entry => exact answer_of_lockedExecute ran
    | job entry => exact (finds_of_addJob domain ran).connected
  rw [refused] at begun
  cases begun

theorem scripted_add (part : Part) : Scripted (part.add domain name nodeName) := by
  cases part with
  | resource entry => exact scripted_lockedExecute _ _
  | job entry => exact scripted_addJob domain name entry

theorem schema_of_add {part : Part} {schema : Schema} {before after : World}
    (found : before.server.schema? name = some schema)
    (ran : part.add domain name nodeName before = .ok true after) :
    part.Within domain ∧ part.Finds before.server ∧ part.Fits nodeName schema.tables ∧
      after.server.schema? name =
        some { schema with tables := part.insert nodeName schema.tables } := by
  obtain ⟨within, finds, changes⟩ := holds_of_ok_true (add_cases domain part before) ran
  obtain ⟨tables, changed, stored⟩ := changes.of_schema? found
  obtain ⟨fits, rfl⟩ := rowsAfter_statements_iff.mp changed
  exact ⟨within, finds, fits, stored⟩

end Adding

end Part

/-! ## The rows of a node -/

/-- No row is lost. -/
structure Grows (before after : Tables) : Prop where
  node : before.node ⊆ after.node
  resource : before.resource ⊆ after.resource
  job : before.job ⊆ after.job
  jobsLink : before.jobsLink ⊆ after.jobsLink
  timeConstraint : before.timeConstraint ⊆ after.timeConstraint

theorem Grows.same (tables : Tables) : Grows tables tables :=
  ⟨fun _ => id, fun _ => id, fun _ => id, fun _ => id, fun _ => id⟩

theorem Grows.trans {first second third : Tables} (grows : Grows first second)
    (more : Grows second third) : Grows first third where
  node := List.Subset.trans grows.node more.node
  resource := List.Subset.trans grows.resource more.resource
  job := List.Subset.trans grows.job more.job
  jobsLink := List.Subset.trans grows.jobsLink more.jobsLink
  timeConstraint := List.Subset.trans grows.timeConstraint more.timeConstraint

namespace Part

variable {nodeName : String} {tables : Tables}

theorem grows_insert (part : Part) : Grows tables (part.insert nodeName tables) := by
  have same := Grows.same tables
  cases part with
  | resource entry => exact { same with resource := List.subset_append_left _ _ }
  | job entry =>
      exact { same with
        job := List.subset_append_left _ _
        jobsLink := List.subset_append_left _ _
        timeConstraint := List.subset_append_left _ _ }

theorem held_insert (part : Part) : part.HeldIn nodeName (part.insert nodeName tables) := by
  cases part with
  | resource entry => exact List.mem_append_right _ (List.mem_singleton.mpr rfl)
  | job entry =>
      exact ⟨List.mem_append_right _ (List.mem_singleton.mpr rfl),
        List.subset_append_right _ _, List.subset_append_right _ _⟩

theorem HeldIn.mono {part : Part} {after : Tables} (held : part.HeldIn nodeName tables)
    (grows : Grows tables after) : part.HeldIn nodeName after := by
  cases part with
  | resource entry => exact grows.resource held
  | job entry =>
      exact ⟨grows.job held.1, List.Subset.trans held.2.1 grows.jobsLink,
        List.Subset.trans held.2.2 grows.timeConstraint⟩

end Part

/-- The node is there, with all its parts. -/
structure HoldsNode (tables : Tables) (node : TNode) : Prop where
  there : tables.hasNode node.name
  parts : ∀ part ∈ partsOf node, part.HeldIn node.name tables

section Whole

variable {name nodeName : String} {schema : Schema} {before after : World}

/-- A loop that has added all parts has lost no row. -/
theorem held_of_allTrue {parts : List Part} (found : before.server.schema? name = some schema)
    (ran : allTrue (Part.add domain name nodeName) parts before = .ok true after) :
    ∃ tables, after.server.schema? name = some { schema with tables } ∧
      Grows schema.tables tables ∧ ∀ part ∈ parts, part.HeldIn nodeName tables := by
  induction parts generalizing before schema with
  | nil =>
      cases ran
      exact ⟨schema.tables, found, .same _, fun _ none => absurd none List.not_mem_nil⟩
  | cons part parts inductionHypothesis =>
      obtain ⟨between, added, rest⟩ := andThen_eq_true_iff.mp ran
      obtain ⟨_, _, _, stored⟩ := Part.schema_of_add domain found added
      obtain ⟨tables, storedAll, grows, held⟩ := inductionHypothesis stored rest
      refine ⟨tables, storedAll, part.grows_insert.trans grows, ?_⟩
      rintro other (_ | ⟨_, member⟩)
      · exact part.held_insert.mono grows
      · exact held other member

/-- A call that adds the node itself has inserted its row, or nothing. -/
theorem addWeightedNode_cases (name nodeName : String) (weight : Integer) (world : World) :
    (∃ after, addWeightedNode name nodeName weight world = .ok true after ∧
        ChangesTables name (rowsAfter [.insertIgnoreWeightedNode nodeName weight])
          world.server after.server) ∨
      (∀ after, addWeightedNode name nodeName weight world ≠ .ok true after) ∧
        (finalState (addWeightedNode name nodeName weight world)).server = world.server := by
  refine lockedExecute_cases name world fun statement member => ?_
  cases List.mem_singleton.mp member
  rfl

theorem schema_of_addWeightedNode {weight : Integer}
    (found : before.server.schema? name = some schema)
    (ran : addWeightedNode name nodeName weight before = .ok true after) :
    after.server.schema? name =
        some { schema with tables := schema.tables.insertIgnoreNode ⟨nodeName, weight⟩ } ∧
      before.server.AgreesBeside name after.server := by
  have changes := holds_of_ok_true (addWeightedNode_cases name nodeName weight before) ran
  obtain ⟨tables, changed, stored⟩ := changes.of_schema? found
  cases changed
  exact ⟨stored, changes.beside⟩

/-- The node that is there is not inserted again. -/
theorem keeps_of_addWeightedNode {weight : Integer}
    (found : before.server.schema? name = some schema) (there : schema.tables.hasNode nodeName)
    (ran : addWeightedNode name nodeName weight before = .ok true after) (other : String) :
    after.server.schema? other = before.server.schema? other := by
  obtain ⟨stored, beside⟩ := schema_of_addWeightedNode found ran
  have same : schema.tables.insertIgnoreNode ⟨nodeName, weight⟩ = schema.tables := if_pos there
  by_cases here : other = name
  · rw [here, stored, same, found]
  · exact beside other here

theorem addWeightedNode_of_found {world : World} (quiet : Mysql.Quiet world)
    (free : MutexFree world) (found : world.server.schema? name = some schema)
    (complete : schema.Complete) (nodeName : String) (weight : Integer) :
    ∃ after, addWeightedNode name nodeName weight world = .ok true after ∧
      Mysql.Quiet after ∧ MutexFree after := by
  refine lockedExecute_of_rowsAfter quiet free found (fun statement member => ?_) rfl
  cases List.mem_singleton.mp member
  exact changesRows_of_effect complete rfl (by decide)

theorem hasNode_insertIgnoreNode (tables : Tables) (row : NodeRow) :
    (tables.insertIgnoreNode row).hasNode row.nodeName := by
  unfold Tables.insertIgnoreNode
  split
  · assumption
  · simp [Tables.hasNode]

/-- A call that returns `true` has stored the node with all its parts. -/
theorem holdsNode_of_addNode {node : TNode} (found : before.server.schema? name = some schema)
    (ran : addNode domain name node before = .ok true after) :
    ∃ tables, after.server.schema? name = some { schema with tables } ∧ HoldsNode tables node := by
  rw [addNode_eq_parts] at ran
  obtain ⟨between, added, rest⟩ := andThen_eq_true_iff.mp ran
  obtain ⟨stored, _⟩ := schema_of_addWeightedNode found added
  obtain ⟨tables, storedAll, grows, held⟩ := held_of_allTrue domain stored rest
  refine ⟨tables, storedAll, ?_, held⟩
  obtain ⟨row, member, named⟩ :=
    List.mem_map.mp (hasNode_insertIgnoreNode schema.tables ⟨node.name, node.weight⟩)
  exact List.mem_map.mpr ⟨row, grows.node member, named⟩

end Whole

/-! ## All or nothing -/

/-- A call that returns `true` has stored the node with all its parts, and one that returns
`false` or raises has left the schema as it was. -/
structure AllOrNothing (name : String) (node : TNode) (world : World) : Prop where
  whole : ∀ after, addNode domain name node world = .ok true after →
    HoldsNode (after.server.tables name) node
  nothing : (∀ after, addNode domain name node world ≠ .ok true after) →
    (finalState (addNode domain name node world)).server.schema? name =
      world.server.schema? name

/-- At most one of the transactions can write anything: the node has no parts, or it is there
already and has a single part or a first part that cannot be added. -/
def WrittenAtOnce (node : TNode) (server : Server) (tables : Tables) : Prop :=
  match partsOf node with
  | [] => True
  | part :: parts =>
      tables.hasNode node.name ∧
        (parts = [] ∨
          ¬ (part.Within domain ∧ part.Finds server ∧ part.Fits node.name tables))

section Interrupting

variable {name : String} {node : TNode} {schema : Schema} {world : World}

theorem insertIgnoreNode_ne {tables : Tables} (row : NodeRow)
    (absent : ¬ tables.hasNode row.nodeName) : tables.insertIgnoreNode row ≠ tables := by
  rw [Tables.insertIgnoreNode, if_neg absent]
  intro same
  have rows := congrArg Tables.node same
  simp at rows

theorem Part.Finds.congr {part : Part} {before after : Server} (finds : part.Finds after)
    (same : ∀ name, after.schema? name = before.schema? name) : part.Finds before := by
  cases part with
  | resource entry => trivial
  | job entry =>
      obtain ⟨schema, found, rest⟩ := finds.found
      exact ⟨rfl, rfl, schema, (same entry.domain).symm.trans found, rest⟩

/-- Where one transaction writes at most, a failure leaves the schema as it was. -/
theorem schema_of_failure (found : world.server.schema? name = some schema)
    (once : WrittenAtOnce domain node world.server schema.tables)
    (fails : ∀ after, addNode domain name node world ≠ .ok true after) :
    (finalState (addNode domain name node world)).server.schema? name =
      world.server.schema? name := by
  rw [addNode_eq_parts] at fails ⊢
  rcases addWeightedNode_cases name node.name node.weight world with
    ⟨between, added, _⟩ | ⟨refused, unchanged⟩
  · simp only [andThen_of_true added] at fails ⊢
    rw [WrittenAtOnce] at once
    cases parts : partsOf node with
    | nil =>
        rw [parts] at fails
        exact absurd rfl (fails between)
    | cons part parts' =>
        rw [parts] at fails once
        obtain ⟨there, only⟩ := once
        have kept := keeps_of_addWeightedNode found there added
        have stored := (kept name).trans found
        rcases Part.add_cases domain part between with
          ⟨later, ran, within, finds, _⟩ | ⟨refused, unchanged⟩
        · obtain ⟨_, _, fits, _⟩ := Part.schema_of_add domain stored ran
          have last := only.resolve_right (not_not.mpr ⟨within, finds.congr kept, fits⟩)
          subst last
          refine absurd ?_ (fails later)
          rw [allTrue, allTrue, andThen_pure_true]
          exact ran
        · rw [allTrue, andThen_of_not_true refused, unchanged]
          exact kept name
  · rw [andThen_of_not_true refused, unchanged]

/-- Behind what has gone through, a refused part leaves what is there. -/
theorem exists_interruption {first : Action Bool} {part : Part} {parts : List Part}
    {nodeName : String} {after : World} (scripted : Scripted first)
    (ran : first world.calmed = .ok true after) :
    ∃ answers, (∀ later, andThen first (allTrue (Part.add domain name nodeName) (part :: parts))
        { world with answers } ≠ .ok true later) ∧
      (finalState (andThen first (allTrue (Part.add domain name nodeName) (part :: parts))
        { world with answers })).server = after.server := by
  obtain ⟨answers, interrupted⟩ := Consumes.interrupted scripted ran .refused
  have stopped : ∀ later,
      part.add domain name nodeName (World.script.give [.refused] after) ≠ .ok true later :=
    fun later => Part.add_of_refused domain rfl
  refine ⟨answers, ?_, ?_⟩
  · intro later goes
    obtain ⟨between, firstRan, rest⟩ := andThen_eq_true_iff.mp goes
    change first (World.script.give answers world) = .ok true between at firstRan
    rw [interrupted] at firstRan
    cases firstRan
    obtain ⟨_, added, _⟩ := andThen_eq_true_iff.mp rest
    exact stopped _ added
  · change (finalState (andThen first _ (World.script.give answers world))).server = _
    rw [andThen_of_true interrupted, allTrue, andThen_of_not_true stopped]
    rcases Part.add_cases domain part (World.script.give [.refused] after) with
      ⟨later, added, _⟩ | ⟨_, same⟩
    · exact absurd added (stopped later)
    · exact same

theorem writtenAtOnce_of_allOrNothing (free : MutexFree world)
    (found : world.server.schema? name = some schema) (complete : schema.Complete)
    (always : ∀ answers, AllOrNothing domain name node { world with answers }) :
    WrittenAtOnce domain node world.server schema.tables := by
  have freeThere : MutexFree world.calmed := free
  have foundThere : world.calmed.server.schema? name = some schema := found
  obtain ⟨between, added, quiet, freeBetween⟩ :=
    addWeightedNode_of_found world.quiet_calmed freeThere foundThere complete node.name
      node.weight
  obtain ⟨stored, beside⟩ := schema_of_addWeightedNode foundThere added
  have scriptedNode : Scripted (addWeightedNode name node.name node.weight) :=
    scripted_lockedExecute _ _
  have undone : ∀ {first : Action Bool} {part : Part} {parts : List Part} {after : World},
      addNode domain name node =
        andThen first (allTrue (Part.add domain name node.name) (part :: parts)) →
      Scripted first → first world.calmed = .ok true after →
        after.server.schema? name = some schema := by
    intro first part parts after whole scripted ran
    obtain ⟨answers, fails, left⟩ := exists_interruption domain scripted ran
    rw [← whole] at fails left
    rw [← left, (always answers).nothing fails]
    exact found
  rw [WrittenAtOnce]
  cases parts : partsOf node with
  | nil => trivial
  | cons part parts' =>
      have whole := addNode_eq_parts domain name node
      rw [parts] at whole
      have there : schema.tables.hasNode node.name := by
        by_contra absent
        have same := stored.symm.trans (undone whole scriptedNode added)
        injection same with same
        exact insertIgnoreNode_ne ⟨node.name, node.weight⟩ absent (congrArg Schema.tables same)
      refine ⟨there, ?_⟩
      by_contra neither
      rw [not_or, not_not] at neither
      obtain ⟨more, within, finds, fits⟩ := neither
      obtain ⟨next, others, rfl⟩ := List.exists_cons_of_ne_nil more
      have kept := keeps_of_addWeightedNode foundThere there added
      have stored := (kept name).trans foundThere
      obtain ⟨later, partAdded, _⟩ := Part.add_of_quiet domain quiet freeBetween stored complete
        within fits (finds.congr fun other => (kept other).symm)
      obtain ⟨_, _, _, partStored⟩ := Part.schema_of_add domain stored partAdded
      rw [allTrue, ← andThen_assoc] at whole
      have both := (andThen_of_true added).trans partAdded
      have unchanged := partStored.symm.trans
        (undone whole (consumes_andThen scriptedNode (Part.scripted_add domain part)) both)
      injection unchanged with unchanged
      exact Part.insert_ne (congrArg Schema.tables unchanged)

/-- The schema is complete, and the server reads the texts of the node as they are meant, has
room for them in its columns, and tells the names from those in the schema and in the schemas
in which the jobs look for their nodes. -/
structure TakesNode (server : Server) (schema : Schema) (node : TNode) : Prop where
  legible : schema.Legible node.names
  located : ∀ job ∈ node.jobs, Plain (job.nodeName :: (server.tables job.domain).names)
  commands : ∀ job ∈ node.jobs, isClean job.cmdLine.toList = true
  fits : node.Fits

/-- Whatever MySQL answers, `add_node` on a schema that takes the node stores the whole node or
leaves the schema as it was, if and only if at most one of its transactions can write
anything. -/
theorem addNode_allOrNothing_iff (free : MutexFree world)
    (found : world.server.schema? name = some schema)
    (takes : TakesNode world.server schema node) :
    (∀ answers, AllOrNothing domain name node { world with answers }) ↔
      WrittenAtOnce domain node world.server schema.tables := by
  refine ⟨writtenAtOnce_of_allOrNothing domain free found takes.legible.complete,
    fun once answers => ?_⟩
  have foundThere : { world with answers }.server.schema? name = some schema := found
  constructor
  · intro after ran
    obtain ⟨tables, stored, holds⟩ := holdsNode_of_addNode domain foundThere ran
    rw [Server.tables_of_schema? stored]
    exact holds
  · exact schema_of_failure domain foundThere once

end Interrupting

/-- The node that is there, with one resource. -/
def onePart : TNode where
  name := "localhost"
  weight := 10
  resources := [⟨"memory", 4, 4⟩]

theorem onePart_allOrNothing :
    (∀ answers, AllOrNothing dailyDomain "test_domain" onePart
        { stagedWorld stagedTables with answers }) ↔
      WrittenAtOnce dailyDomain onePart (stagedWorld stagedTables).server stagedTables := by
  have free : MutexFree (stagedWorld stagedTables) := rfl
  have takes : TakesNode (stagedWorld stagedTables).server { oneNode with tables := stagedTables }
      onePart :=
    { legible := ⟨complete_staged stagedTables, by decide +kernel⟩
      located := fun _ none => absurd none List.not_mem_nil
      commands := fun _ none => absurd none List.not_mem_nil
      fits := ⟨by decide, fun _ => by decide, by decide, fun _ none =>
        absurd none List.not_mem_nil⟩ }
  exact addNode_allOrNothing_iff dailyDomain free found_stagedWorld takes

/-- A new node with a job that may only start after the day is over. -/
def lateNode : TNode where
  name := "second"
  weight := 1
  jobs := [{ archiveJob 90000 with nodeName := "second" }]

/-- The job is refused, and the node stays. -/
theorem lateNode_stays :
    ¬ ∀ (domain : Domain) (name : String) (node : TNode) (world : World),
      AllOrNothing domain name node world := by
  intro always
  have fails : ∀ after, addNode dailyDomain "test_domain" lateNode (stagedWorld stagedTables) ≠
      .ok true after := by
    intro after ran
    rw [addNode_eq_parts] at ran
    obtain ⟨between, _, rest⟩ := andThen_eq_true_iff.mp ran
    obtain ⟨later, added, _⟩ := andThen_eq_true_iff.mp rest
    have within := (changes_of_addJob dailyDomain added).1
    exact absurd (within _ (List.mem_singleton.mpr rfl)) (by decide)
  have kept := (always dailyDomain "test_domain" lateNode (stagedWorld stagedTables)).nothing fails
  have stays : ((finalState (addNode dailyDomain "test_domain" lateNode
      (stagedWorld stagedTables))).server.tables "test_domain").hasNode "second" := by
    decide +kernel
  rw [Server.tables, kept] at stays
  revert stays
  decide +kernel

end OpenWorkloadScheduler.Domain
