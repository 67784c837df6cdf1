import OpenWorkloadScheduler.Foundations.Prefixes
import OpenWorkloadScheduler.Foundations.StableOrder
import OpenWorkloadScheduler.Routing.Router

/-!
# The routing table over its history

`insert_route` and `delete_route` change a map of indices of gateways.  The map
stands for the plain log of the calls: the gateways of a destination are its live
routes, lightest first and the earliest first among equals.

A deletion by gateway takes the gateway out of the indices and leaves the entry of
a destination in the map.  The lookups ask for the entry only.
-/

namespace OpenWorkloadScheduler

open Rpc Foundations

namespace Router

/-! ## Deletions -/

/-- `m_weighted_gateway::get<1>().erase (gateway)`. -/
def eraseGateway (gateway : String) (gateways : List WeightedGateway) :
    List WeightedGateway :=
  gateways.filter fun route => route.gateway ≠ gateway

/-- The loop of `delete_route` over the whole table. -/
def eraseEverywhere (router : Router) (gateway : String) : Router :=
  { router with
    routingTable :=
      ⟨router.routingTable.entries.map (.map id fun _ => eraseGateway gateway),
        router.routingTable.nodupKeys.map₂ fun _ => eraseGateway gateway⟩ }

/-- `Router::delete_route`; NULL is `none`. -/
def deleteRoute (router : Router) (destination gateway : Option String) : Router × Bool :=
  if router.routingTable.entries.isEmpty then (router, false)
  else
    match destination, gateway with
    | some destination, none =>
        ({ router with routingTable := router.routingTable.erase destination }, true)
    | some destination, some gateway =>
        match router.gateways? destination with
        | none => (router, false)
        | some gateways => (router.setGateways destination (eraseGateway gateway gateways), true)
    | none, some gateway => (router.eraseEverywhere gateway, true)
    | none, none => (router, true)

/-- The gateways of a destination, which may have no entry. -/
def gatewaysOf (router : Router) (destination : String) : List WeightedGateway :=
  (router.gateways? destination).getD []

theorem gatewaysOf_of_gateways? {router : Router} {destination : String}
    {gateways : List WeightedGateway} (entry : router.gateways? destination = some gateways) :
    router.gatewaysOf destination = gateways := by
  rw [gatewaysOf, entry, Option.getD_some]

theorem gateways?_of_isEmpty {router : Router} (empty : router.routingTable.entries.isEmpty)
    (destination : String) : router.gateways? destination = none := by
  rw [gateways?, AList.lookup, List.isEmpty_iff.mp empty]
  rfl

theorem gatewaysOf_of_isEmpty {router : Router} (empty : router.routingTable.entries.isEmpty)
    (destination : String) : router.gatewaysOf destination = [] := by
  rw [gatewaysOf, gateways?_of_isEmpty empty, Option.getD_none]

theorem gatewaysOf_setGateways (router : Router) (destination other : String)
    (gateways : List WeightedGateway) :
    (router.setGateways destination gateways).gatewaysOf other =
      if other = destination then gateways else router.gatewaysOf other := by
  split
  · rename_i same
    rw [same, gatewaysOf, gateways?_setGateways_self, Option.getD_some]
  · rename_i different
    rw [gatewaysOf, gateways?_setGateways_ne different, gatewaysOf]

theorem gatewaysOf_insertRoute (router : Router) (destination gateway other : String)
    (weight : Nat) :
    (router.insertRoute destination gateway weight).gatewaysOf other =
      if other = destination then
        insertByKey WeightedGateway.weight ⟨weight, gateway⟩ (router.gatewaysOf other)
      else router.gatewaysOf other := by
  split
  · rename_i same
    rw [same, gatewaysOf, gateways?_insertRoute_self, Option.getD_some]
    rfl
  · rename_i different
    rw [gatewaysOf, gateways?_insertRoute_ne different, gatewaysOf]

theorem mem_gatewaysOf_insertRoute {router : Router} {destination gateway other : String}
    {weight : Nat} {route : WeightedGateway} :
    route ∈ (router.insertRoute destination gateway weight).gatewaysOf other ↔
      (other = destination ∧ route = ⟨weight, gateway⟩) ∨ route ∈ router.gatewaysOf other := by
  rw [gatewaysOf_insertRoute]
  split
  · rename_i same
    rw [mem_insertByKey]
    simp [same]
  · rename_i different
    simp [different]

theorem gateways?_eraseEverywhere (router : Router) (gateway destination : String) :
    (router.eraseEverywhere gateway).gateways? destination =
      (router.gateways? destination).map (eraseGateway gateway) :=
  List.dlookup_map₂ destination

/-! ## Lookups -/

/-- Both lookups return NULL for a destination without an entry, and one entry of the
table otherwise. -/
def LooksUp (router : Router) (destination : String) : Prop :=
  (router.gateways? destination = none ∧ router.getRoute destination = .ok none ∧
      router.getGateway destination = .ok none) ∨
    ∃ route ∈ router.gatewaysOf destination, router.getRoute destination = .ok (some route) ∧
      router.getGateway destination = .ok (some route.gateway)

theorem lookups_of_gatewaysOf {router : Router} {destination : String}
    {route : WeightedGateway} (first : (router.gatewaysOf destination).head? = some route) :
    router.getRoute destination = .ok (some route) ∧
      router.getGateway destination = .ok (some route.gateway) := by
  obtain ⟨routes, gateways⟩ := List.head?_eq_some_iff.mp first
  cases entry : router.gateways? destination with
  | none =>
      rw [gatewaysOf, entry] at gateways
      cases gateways
  | some entered =>
      rw [gatewaysOf_of_gateways? entry] at gateways
      rw [getRoute, getGateway, entry, gateways]
      exact ⟨rfl, rfl⟩

/-- The route that `get_route` returns is one of the gateways of the destination. -/
theorem mem_gatewaysOf_of_getRoute {router : Router} {destination : String}
    {route : WeightedGateway} (found : router.getRoute destination = .ok (some route)) :
    route ∈ router.gatewaysOf destination := by
  rw [getRoute] at found
  cases entry : router.gateways? destination with
  | none =>
      rw [entry] at found
      cases found
  | some gateways =>
      rw [entry] at found
      rw [gatewaysOf_of_gateways? entry]
      cases gateways with
      | nil => cases found
      | cons first rest =>
          cases found
          exact List.mem_cons_self

end Router

/-- A call of `insert_route` or of `delete_route`. -/
inductive RouteChange where
  | insertRoute (destination gateway : String) (weight : Nat)
  | deleteRoute (destination gateway : Option String)
  deriving DecidableEq, Repr

namespace RouteChange

/-- The router after the call. -/
def perform (router : Router) : RouteChange → Router
  | insertRoute destination gateway weight => router.insertRoute destination gateway weight
  | deleteRoute destination gateway => (router.deleteRoute destination gateway).1

/-- The router after the calls of a history, from an empty one on. -/
def performed (history : List RouteChange) : Router :=
  history.foldl perform {}

theorem performed_concat (history : List RouteChange) (change : RouteChange) :
    performed (history ++ [change]) = change.perform (performed history) := by
  rw [performed, performed, List.foldl_concat]

/-! ## The log of the calls -/

/-- The deletion matches a route to the destination through the gateway. -/
def deletes (destination gateway : String) : RouteChange → Bool
  | insertRoute _ _ _ => false
  | deleteRoute none none => false
  | deleteRoute (some deleted) none => deleted = destination
  | deleteRoute none (some erased) => erased = gateway
  | deleteRoute (some deleted) (some erased) => deleted = destination && erased = gateway

/-- The routes to a destination that have been inserted and that no later deletion
matches, in the order of their insertion. -/
def liveRoutes (destination : String) : List RouteChange → List WeightedGateway
  | [] => []
  | deleteRoute _ _ :: later => liveRoutes destination later
  | insertRoute inserted gateway weight :: later =>
      if inserted = destination ∧ ¬ later.any (deletes destination gateway) then
        ⟨weight, gateway⟩ :: liveRoutes destination later
      else liveRoutes destination later

theorem liveRoutes_insertion (destination inserted gateway : String) (weight : Nat)
    (history : List RouteChange) :
    liveRoutes destination (history ++ [insertRoute inserted gateway weight]) =
      liveRoutes destination history ++
        if inserted = destination then [⟨weight, gateway⟩] else [] := by
  induction history with
  | nil => simp [liveRoutes]
  | cons change history inductionHypothesis =>
      cases change with
      | deleteRoute other erased => exact inductionHypothesis
      | insertRoute other otherGateway otherWeight =>
          have same : (history ++ [insertRoute inserted gateway weight]).any
              (deletes destination otherGateway) =
                history.any (deletes destination otherGateway) := by
            simp [deletes]
          rw [List.cons_append, liveRoutes, liveRoutes, same, inductionHypothesis]
          split
          · rw [List.cons_append]
          · rfl

theorem liveRoutes_deletion (destination : String) (deleted erased : Option String)
    (history : List RouteChange) :
    liveRoutes destination (history ++ [deleteRoute deleted erased]) =
      (liveRoutes destination history).filter fun route =>
        !deletes destination route.gateway (deleteRoute deleted erased) := by
  induction history with
  | nil => simp [liveRoutes]
  | cons change history inductionHypothesis =>
      cases change with
      | deleteRoute other otherErased => exact inductionHypothesis
      | insertRoute other otherGateway otherWeight =>
          rw [List.cons_append, liveRoutes, liveRoutes, inductionHypothesis, List.any_append,
            List.any_cons, List.any_nil, Bool.or_false]
          by_cases inserted : other = destination ∧
              ¬ history.any (deletes destination otherGateway)
          · rw [if_pos inserted, List.filter_cons]
            cases matched : deletes destination otherGateway (deleteRoute deleted erased) with
            | true => simp
            | false =>
                rw [Bool.or_false, if_pos inserted]
                simp
          · rw [if_neg inserted, if_neg]
            rintro ⟨same, unmatched⟩
            rw [Bool.or_eq_true, not_or] at unmatched
            exact inserted ⟨same, unmatched.1⟩

/-! ## The table stands for the log -/

theorem gatewaysOf_deleteRoute (router : Router) (destination : String)
    (deleted erased : Option String) :
    (router.deleteRoute deleted erased).1.gatewaysOf destination =
      (router.gatewaysOf destination).filter fun route =>
        !deletes destination route.gateway (deleteRoute deleted erased) := by
  unfold Router.deleteRoute
  split
  · rename_i empty
    rw [Router.gatewaysOf_of_isEmpty empty, List.filter_nil]
  · cases deleted with
    | none =>
        cases erased with
        | none => exact (List.filter_eq_self.mpr fun _ _ => rfl).symm
        | some gateway =>
            have test : (fun route : WeightedGateway =>
                !deletes destination route.gateway (deleteRoute none (some gateway))) =
                  fun route => decide (route.gateway ≠ gateway) := by
              funext route
              simp [deletes, eq_comm]
            rw [test]
            dsimp only
            rw [Router.gatewaysOf, Router.gateways?_eraseEverywhere, Router.gatewaysOf]
            cases router.gateways? destination <;> rfl
    | some name =>
        cases erased with
        | none =>
            dsimp only [deletes]
            by_cases same : name = destination
            · subst same
              rw [Router.gatewaysOf, Router.gateways?, AList.lookup_erase, Option.getD_none]
              simp
            · rw [Router.gatewaysOf, Router.gateways?, AList.lookup_erase_ne (Ne.symm same)]
              simp [same, Router.gatewaysOf, Router.gateways?]
        | some gateway =>
            dsimp only [deletes]
            by_cases same : name = destination
            · subst same
              cases entry : router.gateways? name with
              | none =>
                  rw [Router.gatewaysOf, entry]
                  rfl
              | some gateways =>
                  dsimp only
                  rw [Router.gatewaysOf_setGateways, if_pos rfl,
                    Router.gatewaysOf_of_gateways? entry, Router.eraseGateway]
                  simp [eq_comm]
            · cases entry : router.gateways? name with
              | none => simp [same]
              | some gateways =>
                  dsimp only
                  rw [Router.gatewaysOf_setGateways, if_neg (Ne.symm same)]
                  simp [same]

/-- The gateways of a destination are its live routes, by weight. -/
theorem gatewaysOf_performed (history : List RouteChange) (destination : String) :
    (performed history).gatewaysOf destination =
      orderedByKey WeightedGateway.weight (liveRoutes destination history) := by
  induction history using List.reverseRecOn with
  | nil => rfl
  | append_singleton history change inductionHypothesis =>
      rw [performed_concat]
      cases change with
      | insertRoute inserted gateway weight =>
          rw [perform, Router.gatewaysOf_insertRoute, liveRoutes_insertion, inductionHypothesis]
          by_cases same : destination = inserted
          · rw [if_pos same, if_pos same.symm, orderedByKey_concat]
          · rw [if_neg same, if_neg (Ne.symm same), List.append_nil]
      | deleteRoute deleted erased =>
          rw [perform, gatewaysOf_deleteRoute, liveRoutes_deletion, inductionHypothesis,
            filter_orderedByKey]

/-! ## The route that is chosen -/

/-- The call inserts a route to the destination, or deletes where such a route may be. -/
def concerns (destination : String) : RouteChange → Bool
  | insertRoute inserted _ _ => inserted = destination
  | deleteRoute (some deleted) _ => deleted = destination
  | deleteRoute none _ => true

theorem deletes_eq_false_of_not_concerns {destination gateway : String} {change : RouteChange}
    (apart : concerns destination change = false) :
    deletes destination gateway change = false := by
  cases change with
  | insertRoute inserted other weight => rfl
  | deleteRoute deleted erased =>
      cases deleted with
      | none => cases apart
      | some name =>
          have different : ¬ name = destination := of_decide_eq_false apart
          cases erased <;> simp [deletes, different]

theorem liveRoutes_filter_concerns (destination : String) (history : List RouteChange) :
    liveRoutes destination (history.filter (concerns destination)) =
      liveRoutes destination history := by
  induction history with
  | nil => rfl
  | cons change history inductionHypothesis =>
      have matched : ∀ gateway, (history.filter (concerns destination)).any
          (deletes destination gateway) = history.any (deletes destination gateway) := by
        intro gateway
        rw [List.any_filter]
        congr 1
        funext other
        cases about : concerns destination other with
        | true => rfl
        | false => rw [deletes_eq_false_of_not_concerns about, Bool.and_false]
      cases about : concerns destination change with
      | true =>
          rw [List.filter_cons_of_pos about]
          cases change with
          | insertRoute inserted gateway weight =>
              rw [liveRoutes, liveRoutes, matched, inductionHypothesis]
          | deleteRoute deleted erased => exact inductionHypothesis
      | false =>
          rw [List.filter_cons_of_neg (by simp [about]), inductionHypothesis]
          cases change with
          | insertRoute inserted gateway weight =>
              have different : ¬ inserted = destination := of_decide_eq_false about
              rw [liveRoutes, if_neg fun live => different live.1]
          | deleteRoute deleted erased => rfl

theorem lookups_performed {history : List RouteChange} {destination : String}
    (alive : liveRoutes destination history ≠ []) :
    ∃ route, (liveRoutes destination history).argmin WeightedGateway.weight = some route ∧
      (performed history).getRoute destination = .ok (some route) ∧
      (performed history).getGateway destination = .ok (some route.gateway) := by
  have first : ((performed history).gatewaysOf destination).head? =
      (liveRoutes destination history).argmin WeightedGateway.weight := by
    rw [gatewaysOf_performed, head?_orderedByKey]
  cases chosen : (liveRoutes destination history).argmin WeightedGateway.weight with
  | none => exact absurd (List.argmin_eq_none.mp chosen) alive
  | some route =>
      rw [chosen] at first
      exact ⟨route, rfl, Router.lookups_of_gatewaysOf first⟩

/-- After any history, `get_route` and `get_gateway` of a destination with a live route
designate the earliest inserted of its lightest live routes.  They answer as if the calls
about other destinations had not been made. -/
theorem lookups_choose_earliest_lightest (history : List RouteChange) (destination : String)
    (alive : liveRoutes destination history ≠ []) :
    (∃ route, (liveRoutes destination history).argmin WeightedGateway.weight = some route ∧
      (performed history).getRoute destination = .ok (some route) ∧
      (performed history).getGateway destination = .ok (some route.gateway)) ∧
    (performed (history.filter (concerns destination))).getRoute destination =
      (performed history).getRoute destination ∧
    (performed (history.filter (concerns destination))).getGateway destination =
      (performed history).getGateway destination := by
  obtain ⟨route, chosen, routed, gatewayed⟩ := lookups_performed alive
  have same := liveRoutes_filter_concerns destination history
  obtain ⟨other, otherChosen, otherRouted, otherGatewayed⟩ :=
    lookups_performed (same.symm ▸ alive :
      liveRoutes destination (history.filter (concerns destination)) ≠ [])
  rw [same, chosen, Option.some.injEq] at otherChosen
  subst otherChosen
  exact ⟨⟨route, chosen, routed, gatewayed⟩, otherRouted.trans routed.symm,
    otherGatewayed.trans gatewayed.symm⟩

/-- Three routes to `worker`, of which the lightest one is deleted. -/
def threeRoutes : List RouteChange :=
  [.insertRoute "worker" "far" 2, .insertRoute "worker" "left" 1,
    .insertRoute "relay" "right" 0, .insertRoute "worker" "right" 1,
    .insertRoute "worker" "worker" 0, .deleteRoute none (some "worker")]

theorem lookups_choose_left :
    (∃ route, (liveRoutes "worker" threeRoutes).argmin WeightedGateway.weight = some route ∧
      (performed threeRoutes).getRoute "worker" = .ok (some route) ∧
      (performed threeRoutes).getGateway "worker" = .ok (some route.gateway)) ∧
    (performed (threeRoutes.filter (concerns "worker"))).getRoute "worker" =
      (performed threeRoutes).getRoute "worker" ∧
    (performed (threeRoutes.filter (concerns "worker"))).getGateway "worker" =
      (performed threeRoutes).getGateway "worker" :=
  lookups_choose_earliest_lightest threeRoutes "worker" (by decide)

end RouteChange

/-! ## Entries without gateways -/

namespace Router

/-- Every destination of the table has a gateway. -/
def Populated (router : Router) : Prop :=
  ∀ destination gateways, router.gateways? destination = some gateways → gateways ≠ []

theorem populated_setGateways_iff {router : Router} {destination : String}
    {gateways : List WeightedGateway} (populated : router.Populated) :
    (router.setGateways destination gateways).Populated ↔ gateways ≠ [] := by
  constructor
  · intro left
    exact left destination gateways (gateways?_setGateways_self _ _ _)
  · intro nonempty other found entry
    by_cases same : other = destination
    · rw [same, gateways?_setGateways_self, Option.some.injEq] at entry
      rwa [← entry]
    · rw [gateways?_setGateways_ne same] at entry
      exact populated other found entry

theorem populated_insertRoute {router : Router} (populated : router.Populated)
    (destination gateway : String) (weight : Nat) :
    (router.insertRoute destination gateway weight).Populated := by
  unfold insertRoute
  split
  · refine (populated_setGateways_iff populated).mpr ?_
    exact List.ne_nil_of_mem (mem_insertGateway.mpr (Or.inl rfl))
  · exact (populated_setGateways_iff populated).mpr (List.cons_ne_nil _ _)

theorem populated_erase {router : Router} (populated : router.Populated) (destination : String) :
    Populated { router with routingTable := router.routingTable.erase destination } := by
  intro other gateways entry
  change (router.routingTable.erase destination).lookup other = _ at entry
  by_cases same : other = destination
  · rw [same, AList.lookup_erase] at entry
    cases entry
  · rw [AList.lookup_erase_ne same] at entry
    exact populated other gateways entry

theorem eraseGateway_ne_nil_iff {gateway : String} {gateways : List WeightedGateway} :
    eraseGateway gateway gateways ≠ [] ↔ ∃ route ∈ gateways, route.gateway ≠ gateway := by
  rw [eraseGateway, ne_eq, List.filter_eq_nil_iff]
  simp

/-- In a table whose destinations all have gateways, a lookup reads an entry. -/
theorem Populated.looksUp {router : Router} (populated : router.Populated)
    (destination : String) : router.LooksUp destination := by
  cases entry : router.gateways? destination with
  | none =>
      refine Or.inl ⟨entry, ?_, ?_⟩
      · rw [getRoute, entry]
        rfl
      · rw [getGateway, entry]
        rfl
  | some gateways =>
      obtain ⟨route, routes, rfl⟩ := List.exists_cons_of_ne_nil (populated _ _ entry)
      have gatewayed := gatewaysOf_of_gateways? entry
      refine Or.inr ⟨route, ?_, lookups_of_gatewaysOf ?_⟩
      · rw [gatewayed]
        exact List.mem_cons_self
      · rw [gatewayed]
        rfl

end Router

namespace RouteChange

/-- A deletion by gateway leaves another gateway at each destination that it is about. -/
def LeavesGateway (router : Router) : RouteChange → Prop
  | deleteRoute (some destination) (some gateway) =>
      ∀ gateways, router.gateways? destination = some gateways →
        ∃ route ∈ gateways, route.gateway ≠ gateway
  | deleteRoute none (some gateway) =>
      ∀ destination gateways, router.gateways? destination = some gateways →
        ∃ route ∈ gateways, route.gateway ≠ gateway
  | _ => True

theorem populated_deleteRoute_iff {router : Router} (populated : router.Populated)
    (deleted erased : Option String) :
    (router.deleteRoute deleted erased).1.Populated ↔
      LeavesGateway router (deleteRoute deleted erased) := by
  unfold Router.deleteRoute
  split
  · rename_i empty
    have absent := Router.gateways?_of_isEmpty empty
    refine iff_of_true populated ?_
    cases deleted <;> cases erased <;> simp [LeavesGateway, absent]
  · cases deleted with
    | none =>
        cases erased with
        | none => exact iff_of_true populated trivial
        | some gateway =>
            simp only [Router.Populated, Router.gateways?_eraseEverywhere,
              Option.map_eq_some_iff, LeavesGateway, ← Router.eraseGateway_ne_nil_iff]
            constructor
            · intro left destination gateways entry
              exact left destination _ ⟨gateways, entry, rfl⟩
            · rintro left destination _ ⟨gateways, entry, rfl⟩
              exact left destination gateways entry
    | some name =>
        cases erased with
        | none => exact iff_of_true (Router.populated_erase populated name) trivial
        | some gateway =>
            dsimp only [LeavesGateway]
            cases router.gateways? name with
            | none => exact iff_of_true populated nofun
            | some gateways =>
                dsimp only
                rw [Router.populated_setGateways_iff populated, Router.eraseGateway_ne_nil_iff]
                simp

/-- A call keeps a gateway at every destination if and only if it is no deletion that
takes the last ones from a destination. -/
theorem populated_perform_iff {router : Router} (populated : router.Populated)
    (change : RouteChange) :
    (change.perform router).Populated ↔ change.LeavesGateway router := by
  cases change with
  | insertRoute destination gateway weight =>
      exact iff_of_true (Router.populated_insertRoute populated _ _ _) trivial
  | deleteRoute deleted erased => exact populated_deleteRoute_iff populated deleted erased

theorem populated_throughout_iff (history : List RouteChange) :
    (∀ earlier later, history = earlier ++ later → (performed earlier).Populated) ↔
      EachAfter (fun earlier change => change.LeavesGateway (performed earlier)) [] history := by
  rw [eachAfter_iff_split]
  constructor
  · intro throughout earlier change later split
    have before := throughout earlier (change :: later) split
    have after := throughout (earlier ++ [change]) later (by
      rw [split, List.append_assoc, List.singleton_append])
    rw [performed_concat] at after
    exact (populated_perform_iff before change).mp after
  · intro each earlier
    induction earlier using List.reverseRecOn with
    | nil => exact fun _ _ => nofun
    | append_singleton earlier change inductionHypothesis =>
        intro later split
        rw [List.append_assoc, List.singleton_append] at split
        rw [performed_concat]
        refine (populated_perform_iff (inductionHypothesis _ split) change).mpr ?_
        exact each earlier change later split

/-- In every state of a history each destination of the table has a gateway, and every
lookup reads an entry or returns NULL, if and only if no deletion takes the last gateways
from a destination. -/
theorem lookups_sound_throughout_iff (history : List RouteChange) :
    (∀ earlier later, history = earlier ++ later →
      (performed earlier).Populated ∧ ∀ destination, (performed earlier).LooksUp destination) ↔
      EachAfter (fun earlier change => change.LeavesGateway (performed earlier)) [] history := by
  rw [← populated_throughout_iff]
  constructor
  · intro sound earlier later split
    exact (sound earlier later split).1
  · intro populated earlier later split
    have here := populated earlier later split
    exact ⟨here, here.looksUp⟩

/-- The one gateway to `worker` goes away. -/
def lostGateway : List RouteChange :=
  [.insertRoute "worker" "relay" 0, .deleteRoute none (some "relay")]

/-- Without its one gateway, `worker` is still looked up in the index. -/
theorem lookup_reads_end :
    ¬ ∀ (history : List RouteChange) (earlier later : List RouteChange),
      history = earlier ++ later → (performed earlier).Populated ∧
        ∀ destination, (performed earlier).LooksUp destination := by
  intro always
  obtain ⟨_, looksUp⟩ := always lostGateway lostGateway [] (List.append_nil _).symm
  have past : (performed lostGateway).getRoute "worker" =
      .error (.undefinedBehaviour "m_weighted_gateway::end") := by decide
  rcases looksUp "worker" with ⟨_, routed, _⟩ | ⟨route, _, routed, _⟩
  · rw [past] at routed
    cases routed
  · rw [past] at routed
    cases routed

end RouteChange

end OpenWorkloadScheduler
