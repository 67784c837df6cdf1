import Mathlib.Data.List.Sort
import OpenWorkloadScheduler.Config

/-!
# The class `Router`

The direct peers of a node, its routing table and the master that it knows.
The gateways of a destination are kept by weight; among equal weights
`multi_index` keeps the order of insertion.
-/

namespace OpenWorkloadScheduler

open Rpc

/-- `p_weighted_gateway`. -/
structure WeightedGateway where
  weight : Nat
  gateway : String
  deriving DecidableEq, Repr

structure Router where
  hostsKeys : List (String × String) := []
  routingTable : AList (fun _ : String => List WeightedGateway) := ∅
  masterNode : String := ""

namespace Router

/-- `m_weighted_gateway::insert`. -/
def insertGateway (route : WeightedGateway) (gateways : List WeightedGateway) :
    List WeightedGateway :=
  gateways.orderedInsert (fun first second => first.weight < second.weight) route

/-- The gateways of a destination, `none` where the table has no entry. -/
def gateways? (router : Router) (destination : String) : Option (List WeightedGateway) :=
  router.routingTable.lookup destination

def setGateways (router : Router) (destination : String)
    (gateways : List WeightedGateway) : Router :=
  { router with routingTable := router.routingTable.insert destination gateways }

/-- `Router::insert_route`. -/
def insertRoute (router : Router) (destination gateway : String) (weight : Nat) : Router :=
  match router.gateways? destination with
  | some gateways =>
      router.setGateways destination (insertGateway ⟨weight, gateway⟩ gateways)
  | none => router.setGateways destination [⟨weight, gateway⟩]

/-- `m_weighted_gateway::begin`, read. -/
def firstGateway : List WeightedGateway → Except Raised WeightedGateway
  | [] => .error (.undefinedBehaviour "m_weighted_gateway::end")
  | route :: _ => .ok route

/-- `Router::get_route`; NULL is `none`. -/
def getRoute (router : Router) (destination : String) :
    Except Raised (Option WeightedGateway) :=
  match router.gateways? destination with
  | some gateways => return some (← firstGateway gateways)
  | none => return none

/-- `Router::get_gateway`; NULL is `none`. -/
def getGateway (router : Router) (destination : String) : Except Raised (Option String) :=
  match router.gateways? destination with
  | some gateways => return some (← firstGateway gateways).gateway
  | none => return none

/-- `Router::set_master_node`, which keeps a master that is known. -/
def setMasterNode (router : Router) (node : String) : Router :=
  if router.masterNode = "" then { router with masterNode := node } else router

/-! ## The peers -/

/-- `m_host_keys::insert`: a host that is known keeps its key. -/
def insertHostKey (router : Router) (name key : String) : Router :=
  if name ∈ router.hostsKeys.map Prod.fst then router
  else
    { router with
      hostsKeys := router.hostsKeys.orderedInsert (fun first second => first.1 < second.1)
        (name, key) }

def eraseHostKey (router : Router) (name : String) : Router :=
  { router with hostsKeys := router.hostsKeys.filter fun host => host.1 ≠ name }

/-- What `update_peers_list` reads in one line of the file. -/
inductive PeerLine where
  | skipped
  | malformed
  | peer (name key : String)
  deriving DecidableEq, Repr

/-- A name is what stands before the first tabulation. -/
def readPeerLine (line : String) : PeerLine :=
  match line.toList with
  | [] => .skipped
  | '#' :: _ => .skipped
  | letters =>
      match letters.dropWhile (· ≠ '\t') with
      | [] => .malformed
      | _ :: key => .peer (String.ofList (letters.takeWhile (· ≠ '\t'))) (String.ofList key)

/-- The body of the loop of `update_peers_list` on a peer: `answer` is what
`hello` returns, `none` when an exception is caught.  The result of the last
successful call is still there then. -/
def meetPeer (router : Router) (helloResult : THello) (name key : String)
    (answer : Option THello) : Router × THello :=
  let known := if answer.isNone then router.eraseHostKey name else router
  let helloResult := answer.getD helloResult
  let routed := (known.insertHostKey name key).insertRoute name name 0
  (if helloResult.isMaster then routed.setMasterNode helloResult.name else routed, helloResult)

/-- The loop of `Router::update_peers_list` over the lines of the file.  With
each line stands whether the call of `hello` that it leads to is answered. -/
def meetPeers (hello : String → Option THello) (router : Router) (helloResult : THello) :
    List (String × Bool) → Router × Bool
  | [] => (router, true)
  | (line, answered) :: lines =>
      match readPeerLine line with
      | .skipped => meetPeers hello router helloResult lines
      | .malformed => (router, false)
      | .peer name key =>
          if name = "" then meetPeers hello router helloResult lines
          else
            let answer := if answered then hello name else none
            let met := router.meetPeer helloResult name key answer
            meetPeers hello met.1 met.2 lines

/-- `Router::update_peers_list` on a file that can be opened. -/
def updatePeersList (hello : String → Option THello) (router : Router)
    (lines : List (String × Bool)) : Router × Bool :=
  router.meetPeers hello {} lines

/-! ## The master -/

/-- `Router::reach_master (const char*)` on the answer of the target. -/
def learnMaster (router : Router) (target : String) (result : TRoute) : Router × Bool :=
  if result.destinationNode.name ≠ "" ∧ 0 ≤ result.hops then
    ((router.setMasterNode result.destinationNode.name).insertRoute
      result.destinationNode.name target result.hops.toNat, true)
  else (router, false)

/-- The loop of `Router::reach_master` over the direct peers.  An exception of a
peer leaves it. -/
def askPeers (ask : String → Except Raised TRoute) (router : Router) :
    List String → Except Raised (Router × Bool)
  | [] => .ok (router, false)
  | target :: targets => do
      let (learnt, found) := router.learnMaster target (← ask target)
      if found then return (learnt, true) else askPeers ask learnt targets

/-- `Router::reach_master`. -/
def reachMaster (ask : String → Except Raised TRoute) (router : Router) :
    Except Raised (Router × Bool) :=
  if router.masterNode ≠ "" then .ok (router, true)
  else router.askPeers ask (router.hostsKeys.map Prod.fst)

/-! ## Routes -/

theorem mem_insertGateway {route other : WeightedGateway} {gateways : List WeightedGateway} :
    other ∈ insertGateway route gateways ↔ other = route ∨ other ∈ gateways :=
  List.mem_orderedInsert _

/-- A gateway that weighs no more than a new one stays the first. -/
theorem insertGateway_cons {route first : WeightedGateway} {gateways : List WeightedGateway}
    (lighter : first.weight ≤ route.weight) :
    insertGateway route (first :: gateways) = first :: insertGateway route gateways := by
  rw [insertGateway, List.orderedInsert, if_neg (by omega), insertGateway]

@[simp]
theorem gateways?_setGateways_self (router : Router) (destination : String)
    (gateways : List WeightedGateway) :
    (router.setGateways destination gateways).gateways? destination = some gateways :=
  AList.lookup_insert router.routingTable

theorem gateways?_setGateways_ne {router : Router} {destination other : String}
    {gateways : List WeightedGateway} (different : other ≠ destination) :
    (router.setGateways destination gateways).gateways? other = router.gateways? other :=
  AList.lookup_insert_ne different

theorem gateways?_insertRoute_self (router : Router) (destination gateway : String)
    (weight : Nat) :
    (router.insertRoute destination gateway weight).gateways? destination =
      some (insertGateway ⟨weight, gateway⟩ ((router.gateways? destination).getD [])) := by
  unfold insertRoute
  cases router.gateways? destination with
  | none => exact gateways?_setGateways_self _ _ _
  | some gateways => exact gateways?_setGateways_self _ _ _

theorem gateways?_insertRoute_ne {router : Router} {destination gateway other : String}
    {weight : Nat} (different : other ≠ destination) :
    (router.insertRoute destination gateway weight).gateways? other =
      router.gateways? other := by
  unfold insertRoute
  cases router.gateways? destination with
  | none => exact gateways?_setGateways_ne different
  | some gateways => exact gateways?_setGateways_ne different

@[simp]
theorem masterNode_insertRoute (router : Router) (destination gateway : String)
    (weight : Nat) :
    (router.insertRoute destination gateway weight).masterNode = router.masterNode := by
  unfold insertRoute
  split <;> rfl

@[simp]
theorem gateways?_setMasterNode (router : Router) (node destination : String) :
    (router.setMasterNode node).gateways? destination = router.gateways? destination := by
  unfold setMasterNode
  split <;> rfl

/-- The master that is known was known before, or is the one that is set. -/
theorem masterNode_setMasterNode (router : Router) (node : String) :
    (router.setMasterNode node).masterNode = router.masterNode ∨
      (router.setMasterNode node).masterNode = node := by
  unfold setMasterNode
  split
  · exact Or.inr rfl
  · exact Or.inl rfl

@[simp]
theorem masterNode_insertHostKey (router : Router) (name key : String) :
    (router.insertHostKey name key).masterNode = router.masterNode := by
  unfold insertHostKey
  split <;> rfl

@[simp]
theorem gateways?_insertHostKey (router : Router) (name key destination : String) :
    (router.insertHostKey name key).gateways? destination = router.gateways? destination := by
  unfold insertHostKey
  split <;> rfl

theorem gateways?_insertRoute_congr {router other : Router} {destination gateway target : String}
    {weight : Nat} (same : ∀ target, router.gateways? target = other.gateways? target) :
    (router.insertRoute destination gateway weight).gateways? target =
      (other.insertRoute destination gateway weight).gateways? target := by
  by_cases equal : target = destination
  · subst equal
    rw [gateways?_insertRoute_self, gateways?_insertRoute_self, same]
  · rw [gateways?_insertRoute_ne equal, gateways?_insertRoute_ne equal, same]

/-- The routes after an insertion: the new one, and those that were there. -/
theorem gateways?_insertRoute_cases {router : Router} {destination gateway other : String}
    {weight : Nat} {gateways : List WeightedGateway} {route : WeightedGateway}
    (entry : (router.insertRoute destination gateway weight).gateways? other = some gateways)
    (member : route ∈ gateways) :
    (other = destination ∧ route = ⟨weight, gateway⟩) ∨
      ∃ before, router.gateways? other = some before ∧ route ∈ before := by
  by_cases same : other = destination
  · subst same
    rw [gateways?_insertRoute_self] at entry
    injection entry with entry
    rw [← entry, mem_insertGateway] at member
    rcases member with new | old
    · exact Or.inl ⟨rfl, new⟩
    · cases known : router.gateways? other with
      | none =>
          rw [known] at old
          cases old
      | some before =>
          rw [known] at old
          exact Or.inr ⟨before, rfl, old⟩
  · rw [gateways?_insertRoute_ne same] at entry
    exact Or.inr ⟨gateways, entry, member⟩

/-! ## What a peer changes -/

section Peers

variable (router : Router) (helloResult : THello) (name key : String)
  (answer : Option THello)

theorem gateways?_meetPeer (destination : String) :
    (router.meetPeer helloResult name key answer).1.gateways? destination =
      (router.insertRoute name name 0).gateways? destination := by
  have known : ∀ other,
      ((if answer.isNone then router.eraseHostKey name else router).insertHostKey name
        key).gateways? other = router.gateways? other := by
    intro other
    rw [gateways?_insertHostKey]
    split <;> rfl
  unfold meetPeer
  dsimp only
  split
  · rw [gateways?_setMasterNode]
    exact gateways?_insertRoute_congr known
  · exact gateways?_insertRoute_congr known

theorem masterNode_meetPeer :
    (router.meetPeer helloResult name key answer).1.masterNode = router.masterNode ∨
      (answer.getD helloResult).isMaster = true ∧
        (router.meetPeer helloResult name key answer).1.masterNode =
          (answer.getD helloResult).name := by
  have known : (((if answer.isNone then router.eraseHostKey name else router).insertHostKey
      name key).insertRoute name name 0).masterNode = router.masterNode := by
    rw [masterNode_insertRoute, masterNode_insertHostKey]
    split <;> rfl
  unfold meetPeer
  dsimp only
  split
  · rename_i isMaster
    rcases masterNode_setMasterNode _ (answer.getD helloResult).name with kept | set
    · exact Or.inl (kept.trans known)
    · exact Or.inr ⟨isMaster, set⟩
  · exact Or.inl known

end Peers

/-- What each peer keeps, whether or not it answers, the whole loop keeps. -/
theorem meetPeers_keeps {hello : String → Option THello} {property : Router → THello → Prop}
    (kept : ∀ router helloResult name key answer,
      property router helloResult → name ≠ "" → (answer = none ∨ answer = hello name) →
        property (router.meetPeer helloResult name key answer).1
          (router.meetPeer helloResult name key answer).2)
    (lines : List (String × Bool)) (router : Router) (helloResult : THello)
    (initial : property router helloResult) :
    ∃ last, property (router.meetPeers hello helloResult lines).1 last := by
  induction lines generalizing router helloResult with
  | nil => exact ⟨helloResult, initial⟩
  | cons line lines inductionHypothesis =>
      obtain ⟨line, answered⟩ := line
      rw [meetPeers]
      cases readPeerLine line with
      | skipped => exact inductionHypothesis router helloResult initial
      | malformed => exact ⟨helloResult, initial⟩
      | peer name key =>
          dsimp only
          by_cases empty : name = ""
          · rw [if_pos empty]
            exact inductionHypothesis router helloResult initial
          · rw [if_neg empty]
            refine inductionHypothesis _ _ (kept router helloResult name key _ initial empty ?_)
            cases answered with
            | true => exact Or.inr rfl
            | false => exact Or.inl rfl

end Router

end OpenWorkloadScheduler
