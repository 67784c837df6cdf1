import OpenWorkloadScheduler.Domain.NodeAddition

/-!
# Resources that are stored and read

`add_resource` stores a resource of a node with its name and its two values.
`get_resources`, by which `get_node` reads them, takes the name from the column of the
node, casts no text that is not greater than `NULL`, and asks for the resources of all
nodes.
-/

namespace OpenWorkloadScheduler.Domain

open Rpc Store Foundations

variable (domain : Domain)

/-- The resources of a node, as the rows have them. -/
def storedResources (tables : Tables) (nodeName : String) : List TResource :=
  (tables.resource.filter fun row => row.resourceNodeName = nodeName).map fun row =>
    ⟨row.resourceName, row.resourceCurrentValue, row.resourceInitialValue⟩

/-- The call of `add_resource` for a node and a resource. -/
def storeResource (name : String) (entry : String × TResource) : Action Bool :=
  addResource name entry.2 entry.1

/-- The rows with those of the entries. -/
def withResources (tables : Tables) (entries : List (String × TResource)) : Tables :=
  { tables with
    resource := tables.resource ++ entries.map fun entry => resourceRow entry.1 entry.2 }

/-- `get_node` returns the node with the given resources, in any order. -/
def GetsResources (name nodeName : String) (resources : List TResource) (world : World) : Prop :=
  ∃ node after, getNode domain name nodeName world = .ok node after ∧
    node.resources.Perm resources

/-! ## Storing -/

section Storing

variable {domain} {name : String} {schema : Schema} {before after : World}

theorem withResources_nil (tables : Tables) : withResources tables [] = tables := by
  simp [withResources]

theorem withResources_withResources (tables : Tables) (first rest : List (String × TResource)) :
    withResources (withResources tables first) rest = withResources tables (first ++ rest) := by
  simp [withResources]

theorem keys_withResource {tables : Tables} (keys : tables.Keys) {entry : String × TResource}
    (fits : (Part.resource entry.2).Fits entry.1 tables) :
    (withResources tables [entry]).Keys := by
  refine { keys with resourceKey := ?_, resourceNode := ?_ }
  · simp only [withResources, List.map_append, List.map_cons, List.map_nil]
    refine List.nodup_append.mpr ⟨keys.resourceKey, List.nodup_singleton _, ?_⟩
    intro key member other single same
    obtain ⟨row, rowMember, rfl⟩ := List.mem_map.mp member
    rw [List.mem_singleton.mp single] at same
    exact fits.1 row rowMember ⟨congrArg Prod.fst same, congrArg Prod.snd same⟩
  · intro row member
    rcases List.mem_append.mp member with member | member
    · exact keys.resourceNode row member
    · rw [List.mem_singleton.mp member]
      exact fits.2

theorem schema_of_storeResources {entries : List (String × TResource)}
    (found : before.server.schema? name = some schema) (keys : schema.tables.Keys)
    (stored : allTrue (storeResource name) entries before = .ok true after) :
    after.server.schema? name =
        some { schema with tables := withResources schema.tables entries } ∧
      (withResources schema.tables entries).Keys := by
  induction entries generalizing before schema with
  | nil =>
      cases stored
      rw [withResources_nil]
      exact ⟨found, keys⟩
  | cons entry entries inductionHypothesis =>
      obtain ⟨between, added, rest⟩ := andThen_eq_true_iff.mp stored
      -- no attribute of a domain plays a part for a resource
      obtain ⟨_, _, fits, found⟩ := @Part.schema_of_add ⟨name, 0, 0⟩ name entry.1
        (.resource entry.2) schema before between found added
      have both := inductionHypothesis found (keys_withResource keys fits) rest
      rwa [← List.singleton_append, ← withResources_withResources]

theorem storedResources_withResources (tables : Tables) (nodeName : String)
    (entries : List (String × TResource)) :
    storedResources (withResources tables entries) nodeName =
      storedResources tables nodeName ++
        (entries.filter fun entry => entry.1 = nodeName).map Prod.snd := by
  rw [storedResources, withResources, List.filter_append, List.map_append, List.filter_map,
    List.map_map]
  rfl

end Storing

/-! ## Reading -/

section Reading

variable {name : String} {schema : Schema} {before after : World} {row : NodeRow}
  {entries : List (String × TResource)}

/-- A node can be read after the calls if and only if nothing has been stored and it could be
read before. -/
theorem nodeReadable_withResources_iff {tables : Tables} :
    NodeReadable (withResources tables entries) row ↔ NodeReadable tables row ∧ entries = [] := by
  constructor
  · intro readable
    obtain ⟨none, nothing⟩ := List.append_eq_nil_iff.mp readable.resource
    obtain rfl := List.map_eq_nil_iff.mp nothing
    rw [withResources_nil] at readable
    exact ⟨readable, rfl⟩
  · rintro ⟨readable, rfl⟩
    rwa [withResources_nil]

/-- What `get_node` returns from a complete schema has all its resources if and only if the
schema has no resource and everything else that it reads is decoded. -/
theorem getsResources_iff (found : after.server.schema? name = some schema)
    (complete : schema.Complete) (keys : schema.tables.Keys) (member : row ∈ schema.tables.node) :
    GetsResources domain name row.nodeName (storedResources schema.tables row.nodeName)
        after.calmed ↔ NodeReadable schema.tables row := by
  have readable : Readable after.calmed name schema := ⟨after.quiet_calmed, found, complete⟩
  have yields := yields_getNode domain readable keys member
  constructor
  · rintro ⟨node, later, returned, _⟩
    exact (yields.of_ok returned).1
  · intro nodeReadable
    refine ⟨_, _, yields.returns nodeReadable, ?_⟩
    rw [storedResources, nodeReadable.resource]
    exact List.Perm.nil

/-- The schema is complete, and the server reads the names of the resources and of their nodes
as they are meant, has room for them, and tells them from those in the tables. -/
structure TakesResources (schema : Schema) (entries : List (String × TResource)) : Prop where
  legible : schema.Legible (entries.flatMap fun entry => [entry.1, entry.2.name])
  fits : ∀ entry ∈ entries, entry.1.length ≤ 11 ∧ entry.2.name.length ≤ 45

/-- Whatever resources of plain names the calls of `add_resource` have stored for whatever
nodes, `get_node` returns a node with exactly its resources if and only if nothing has been
stored, now or before, and everything else that it reads is decoded. -/
theorem getNode_resources_iff (found : before.server.schema? name = some schema)
    (takes : TakesResources schema entries) (keys : schema.tables.Keys)
    (member : row ∈ schema.tables.node)
    (stored : allTrue (storeResource name) entries before = .ok true after) :
    GetsResources domain name row.nodeName
        (storedResources schema.tables row.nodeName ++
          (entries.filter fun entry => entry.1 = row.nodeName).map Prod.snd) after.calmed ↔
      NodeReadable schema.tables row ∧ entries = [] := by
  obtain ⟨foundAfter, keysAfter⟩ := schema_of_storeResources found keys stored
  have complete := takes.legible.complete
  have read := getsResources_iff domain foundAfter (complete.withTables _) keysAfter member
  rw [storedResources_withResources] at read
  exact read.trans nodeReadable_withResources_iff

end Reading

/-! ## One resource -/

/-- Some memory of the node of the staged schema. -/
def memoryEntry : String × TResource :=
  ("localhost", ⟨"memory", 4, 4⟩)

theorem stored_memoryEntry :
    ∃ after, allTrue (storeResource "test_domain") [memoryEntry] (stagedWorld stagedTables) =
      .ok true after := by
  have fits : Part.Fits "localhost" stagedTables (.resource memoryEntry.2) :=
    ⟨fun _ none => absurd none List.not_mem_nil, by decide⟩
  obtain ⟨after, added, _⟩ := @Part.add_of_quiet dailyDomain "test_domain" "localhost"
    (.resource memoryEntry.2) (stagedWorld stagedTables) _ rfl rfl found_stagedWorld
    (complete_staged stagedTables) trivial fits trivial
  exact ⟨after, andThen_eq_true_iff.mpr ⟨after, added, rfl⟩⟩

theorem storedResources_memoryEntry :
    storedResources stagedTables "localhost" ++
        ([memoryEntry].filter fun entry => entry.1 = "localhost").map Prod.snd =
      [memoryEntry.2] := by
  simp [storedResources, stagedTables, memoryEntry]

theorem getNode_resources_iff_memoryEntry :
    ∃ after, allTrue (storeResource "test_domain") [memoryEntry] (stagedWorld stagedTables) =
        .ok true after ∧
      (GetsResources dailyDomain "test_domain" "localhost" [memoryEntry.2] after.calmed ↔
        NodeReadable stagedTables ⟨"localhost", 10⟩ ∧ [memoryEntry] = []) := by
  obtain ⟨after, stored⟩ := stored_memoryEntry
  have member : (⟨"localhost", 10⟩ : NodeRow) ∈ stagedTables.node := List.mem_singleton_self _
  have takes : TakesResources { oneNode with tables := stagedTables } [memoryEntry] :=
    ⟨⟨complete_staged stagedTables, by decide +kernel⟩, by decide⟩
  have reads := getNode_resources_iff dailyDomain found_stagedWorld takes keys_stagedTables member
    stored
  rw [storedResources_memoryEntry] at reads
  exact ⟨after, stored, reads⟩

/-- The value of the stored resource is not read, so that neither is its node. -/
theorem getNode_refuses_memoryEntry :
    ¬ ∀ (domain : Domain) (name : String) (schema : Schema) (before after : World)
      (row : NodeRow) (entries : List (String × TResource)),
      before.server.schema? name = some schema → schema.Complete → schema.tables.Keys →
        row ∈ schema.tables.node →
          allTrue (storeResource name) entries before = .ok true after →
            GetsResources domain name row.nodeName
              (storedResources schema.tables row.nodeName ++
                (entries.filter fun entry => entry.1 = row.nodeName).map Prod.snd)
              after.calmed := by
  intro always
  obtain ⟨after, stored⟩ := stored_memoryEntry
  have member : (⟨"localhost", 10⟩ : NodeRow) ∈ stagedTables.node := List.mem_singleton_self _
  have gets := always dailyDomain "test_domain" _ _ after ⟨"localhost", 10⟩ [memoryEntry]
    found_stagedWorld (complete_staged stagedTables) keys_stagedTables member stored
  rw [← storedResources_withResources] at gets
  obtain ⟨found, keys⟩ := schema_of_storeResources found_stagedWorld keys_stagedTables stored
  have complete :=
    (complete_staged stagedTables).withTables (withResources stagedTables [memoryEntry])
  have readable := (getsResources_iff dailyDomain found complete keys member).mp gets
  cases (nodeReadable_withResources_iff.mp readable).2

end OpenWorkloadScheduler.Domain
