import Mathlib.Data.List.Dedup
import Mathlib.Data.List.Nodup
import OpenWorkloadScheduler.Routing.Router

/-!
# The peers that answer

`update_peers_list` calls `hello` on each peer of the file, and `hosts_keys` is
meant for the peers that are reachable directly.  The handler of an exception
erases the peer, but the statements below it insert the peer again, so that a
peer that fails ends up among those that answer.
-/

namespace OpenWorkloadScheduler

open Rpc

namespace Router

/-- `Router::get_reachable_peers_number`, a `u_int`. -/
def getReachablePeersNumber (router : Router) : Nat :=
  router.hostsKeys.length % 2 ^ 32

def hostNames (router : Router) : List String :=
  router.hostsKeys.map Prod.fst

/-- The table has a route to the host on which the host is the gateway. -/
def DirectRoute (router : Router) (name : String) : Prop :=
  ∃ gateways, router.gateways? name = some gateways ∧ ∃ route ∈ gateways, route.gateway = name

/-! ## The calls of a file -/

/-- A call of `hello` with the peer that its line names; `answer` is what it returns,
`none` when an exception is caught. -/
structure HelloCall where
  name : String
  key : String
  answer : Option THello

/-- The call that a line of the file leads to. -/
def helloCall? (line : String × Option THello) : Option HelloCall :=
  match readPeerLine line.1 with
  | .skipped => none
  | .malformed => none
  | .peer name key => if name = "" then none else some ⟨name, key, line.2⟩

def helloCalls (lines : List (String × Option THello)) : List HelloCall :=
  lines.filterMap helloCall?

/-- The loop of `Router::update_peers_list` over the lines of the file, where each call
of `hello` has an answer of its own. -/
def meetLines (router : Router) (helloResult : THello) :
    List (String × Option THello) → Router × Bool
  | [] => (router, true)
  | (line, answer) :: lines =>
      match readPeerLine line with
      | .skipped => meetLines router helloResult lines
      | .malformed => (router, false)
      | .peer name key =>
          if name = "" then meetLines router helloResult lines
          else
            let met := router.meetPeer helloResult name key answer
            meetLines met.1 met.2 lines

/-- The answer to the call of a line, where a peer that answers always says the same. -/
def answerTo (hello : String → Option THello) (line : String × Bool) : Option THello :=
  match readPeerLine line.1 with
  | .skipped => none
  | .malformed => none
  | .peer name _ => if line.2 then hello name else none

theorem meetPeers_eq_meetLines (hello : String → Option THello) (router : Router)
    (helloResult : THello) (lines : List (String × Bool)) :
    router.meetPeers hello helloResult lines =
      router.meetLines helloResult (lines.map fun line => (line.1, answerTo hello line)) := by
  induction lines generalizing router helloResult with
  | nil => rfl
  | cons line lines inductionHypothesis =>
      rw [List.map_cons, meetPeers, meetLines, answerTo]
      cases readPeerLine line.1 with
      | skipped => exact inductionHypothesis router helloResult
      | malformed => rfl
      | peer name key =>
          dsimp only
          rw [inductionHypothesis, inductionHypothesis]

/-- What the calls leave, one after the other. -/
def meetCalls (router : Router) (helloResult : THello) : List HelloCall → Router × THello
  | [] => (router, helloResult)
  | call :: calls =>
      let met := router.meetPeer helloResult call.name call.key call.answer
      meetCalls met.1 met.2 calls

/-- A loop that returns true has made all the calls of the file. -/
theorem meetLines_eq_meetCalls {router : Router} {helloResult : THello}
    {lines : List (String × Option THello)}
    (returned : (router.meetLines helloResult lines).2 = true) :
    (router.meetLines helloResult lines).1 =
      (router.meetCalls helloResult (helloCalls lines)).1 := by
  induction lines generalizing router helloResult with
  | nil => rfl
  | cons line lines inductionHypothesis =>
      rw [meetLines] at returned ⊢
      rw [helloCalls, List.filterMap_cons, helloCall?]
      cases read : readPeerLine line.1 with
      | skipped =>
          rw [read] at returned
          exact inductionHypothesis returned
      | malformed =>
          rw [read] at returned
          cases returned
      | peer name key =>
          rw [read] at returned
          dsimp only at returned ⊢
          by_cases empty : name = ""
          · rw [if_pos empty] at returned ⊢
            rw [if_pos empty]
            exact inductionHypothesis returned
          · rw [if_neg empty] at returned ⊢
            rw [if_neg empty]
            exact inductionHypothesis returned

/-- The loop returns true if and only if the file is well formed. -/
theorem meetLines_snd {router : Router} {helloResult : THello}
    {lines : List (String × Option THello)} :
    (router.meetLines helloResult lines).2 = true ↔
      ∀ line ∈ lines, readPeerLine line.1 ≠ .malformed := by
  induction lines generalizing router helloResult with
  | nil => exact iff_of_true rfl (List.forall_mem_nil _)
  | cons line lines inductionHypothesis =>
      rw [meetLines, List.forall_mem_cons]
      cases readPeerLine line.1 with
      | skipped => simpa using inductionHypothesis
      | malformed => simp
      | peer name key =>
          dsimp only
          split
          · simpa using inductionHypothesis
          · simpa using inductionHypothesis

/-! ## One call -/

section Call

variable (router : Router) (helloResult : THello) (name key : String)
  (answer : Option THello)

theorem hostNames_insertRoute (destination gateway : String) (weight : Nat) :
    (router.insertRoute destination gateway weight).hostNames = router.hostNames := by
  unfold insertRoute
  split <;> rfl

theorem hostNames_setMasterNode (node : String) :
    (router.setMasterNode node).hostNames = router.hostNames := by
  unfold setMasterNode
  split <;> rfl

theorem hostNames_meetPeer :
    (router.meetPeer helloResult name key answer).1.hostNames =
      ((if answer.isNone then router.eraseHostKey name else router).insertHostKey name
        key).hostNames := by
  unfold meetPeer
  dsimp only
  split
  · rw [hostNames_setMasterNode, hostNames_insertRoute]
  · rw [hostNames_insertRoute]

theorem mem_hostNames_insertHostKey {other : String} :
    other ∈ (router.insertHostKey name key).hostNames ↔
      other = name ∨ other ∈ router.hostNames := by
  unfold insertHostKey
  split
  · rename_i known
    constructor
    · exact Or.inr
    · rintro (rfl | member)
      · exact known
      · exact member
  · simp only [hostNames, List.mem_map, List.mem_orderedInsert]
    constructor
    · rintro ⟨host, rfl | member, rfl⟩
      · exact Or.inl rfl
      · exact Or.inr ⟨host, member, rfl⟩
    · rintro (rfl | ⟨host, member, rfl⟩)
      · exact ⟨_, Or.inl rfl, rfl⟩
      · exact ⟨host, Or.inr member, rfl⟩

theorem mem_hostNames_eraseHostKey {other : String} :
    other ∈ (router.eraseHostKey name).hostNames ↔
      other ∈ router.hostNames ∧ other ≠ name := by
  simp only [eraseHostKey, hostNames, List.mem_map, List.mem_filter, decide_eq_true_eq]
  constructor
  · rintro ⟨host, ⟨member, different⟩, rfl⟩
    exact ⟨⟨host, member, rfl⟩, different⟩
  · rintro ⟨⟨host, member, rfl⟩, different⟩
    exact ⟨host, ⟨member, different⟩, rfl⟩

/-- The peer is among the hosts after the call, whether or not it answered. -/
theorem mem_hostNames_meetPeer (other : String) :
    other ∈ (router.meetPeer helloResult name key answer).1.hostNames ↔
      other = name ∨ other ∈ router.hostNames := by
  rw [hostNames_meetPeer, mem_hostNames_insertHostKey]
  split
  · rw [mem_hostNames_eraseHostKey]
    constructor
    · rintro (same | ⟨member, _⟩)
      · exact Or.inl same
      · exact Or.inr member
    · rintro (same | member)
      · exact Or.inl same
      · by_cases same : other = name
        · exact Or.inl same
        · exact Or.inr ⟨member, same⟩
  · rfl

theorem nodup_hostNames_insertHostKey (distinct : router.hostNames.Nodup) :
    (router.insertHostKey name key).hostNames.Nodup := by
  unfold insertHostKey
  split
  · exact distinct
  · rename_i new
    have inserted := (List.perm_orderedInsert
      (fun first second : String × String => first.1 < second.1) (name, key)
      router.hostsKeys).map Prod.fst
    exact inserted.nodup_iff.mpr (List.nodup_cons.mpr ⟨new, distinct⟩)

theorem nodup_hostNames_meetPeer (distinct : router.hostNames.Nodup) :
    (router.meetPeer helloResult name key answer).1.hostNames.Nodup := by
  rw [hostNames_meetPeer]
  refine nodup_hostNames_insertHostKey _ name key ?_
  split
  · exact distinct.sublist (List.filter_sublist.map Prod.fst)
  · exact distinct

theorem directRoute_meetPeer (other : String) :
    (router.meetPeer helloResult name key answer).1.DirectRoute other ↔
      other = name ∨ router.DirectRoute other := by
  rw [DirectRoute, gateways?_meetPeer]
  by_cases same : other = name
  · subst same
    refine iff_of_true ?_ (Or.inl rfl)
    rw [gateways?_insertRoute_self]
    exact ⟨_, rfl, ⟨0, other⟩, mem_insertGateway.mpr (Or.inl rfl), rfl⟩
  · rw [gateways?_insertRoute_ne same, ← DirectRoute]
    exact (or_iff_right same).symm

end Call

/-! ## All the calls -/

/-- What each call adds the name of its peer to, the calls add all their names to. -/
theorem meetCalls_iff {name : String} {known : Router → Prop}
    (met : ∀ (router : Router) (helloResult : THello) (call : HelloCall),
      known (router.meetPeer helloResult call.name call.key call.answer).1 ↔
        name = call.name ∨ known router)
    (router : Router) (helloResult : THello) (calls : List HelloCall) :
    known (router.meetCalls helloResult calls).1 ↔
      name ∈ calls.map HelloCall.name ∨ known router := by
  induction calls generalizing router helloResult with
  | nil => exact (or_iff_right List.not_mem_nil).symm
  | cons call calls inductionHypothesis =>
      rw [meetCalls, inductionHypothesis, met, List.map_cons, List.mem_cons]
      tauto

theorem mem_hostNames_meetCalls (router : Router) (helloResult : THello)
    (calls : List HelloCall) {name : String} :
    name ∈ (router.meetCalls helloResult calls).1.hostNames ↔
      name ∈ calls.map HelloCall.name ∨ name ∈ router.hostNames :=
  @meetCalls_iff name (fun router => name ∈ router.hostNames)
    (fun router helloResult _ => router.mem_hostNames_meetPeer helloResult _ _ _ name) _ _ _

theorem directRoute_meetCalls (router : Router) (helloResult : THello)
    (calls : List HelloCall) {name : String} :
    (router.meetCalls helloResult calls).1.DirectRoute name ↔
      name ∈ calls.map HelloCall.name ∨ router.DirectRoute name :=
  @meetCalls_iff name (fun router => router.DirectRoute name)
    (fun router helloResult _ => router.directRoute_meetPeer helloResult _ _ _ name) _ _ _

theorem nodup_hostNames_meetCalls {router : Router} {helloResult : THello}
    {calls : List HelloCall} (distinct : router.hostNames.Nodup) :
    (router.meetCalls helloResult calls).1.hostNames.Nodup := by
  induction calls generalizing router helloResult with
  | nil => exact distinct
  | cons call calls inductionHypothesis =>
      exact inductionHypothesis
        (router.nodup_hostNames_meetPeer helloResult call.name call.key call.answer distinct)

/-- The name is one that a master answered to one of the calls. -/
def AnsweredAsMaster (calls : List HelloCall) (name : String) : Prop :=
  ∃ call ∈ calls, ∃ answer, call.answer = some answer ∧ answer.isMaster = true ∧
    answer.name = name

/-- The result that stays from an earlier peer may be read again after a failure, and
then it is the answer of that peer. -/
theorem masterNode_meetCalls {router : Router} {helloResult : THello}
    {calls made : List HelloCall} (within : ∀ call ∈ made, call ∈ calls)
    (carried : helloResult.isMaster = true → AnsweredAsMaster calls helloResult.name)
    (known : router.masterNode ≠ "" → AnsweredAsMaster calls router.masterNode) :
    (router.meetCalls helloResult made).1.masterNode ≠ "" →
      AnsweredAsMaster calls (router.meetCalls helloResult made).1.masterNode := by
  induction made generalizing router helloResult with
  | nil => exact known
  | cons call made inductionHypothesis =>
      obtain ⟨member, within⟩ := List.forall_mem_cons.mp within
      have answered : (call.answer.getD helloResult).isMaster = true →
          AnsweredAsMaster calls (call.answer.getD helloResult).name := by
        intro isMaster
        cases answer : call.answer with
        | none =>
            rw [answer] at isMaster
            exact carried isMaster
        | some result =>
            rw [answer] at isMaster
            exact ⟨call, member, result, answer, isMaster, rfl⟩
      have met : (router.meetPeer helloResult call.name call.key call.answer).1.masterNode ≠ "" →
          AnsweredAsMaster calls
            (router.meetPeer helloResult call.name call.key call.answer).1.masterNode := by
        rcases router.masterNode_meetPeer helloResult call.name call.key call.answer with
          same | ⟨isMaster, named⟩
        · rw [same]
          exact known
        · rw [named]
          exact fun _ => answered isMaster
      exact inductionHypothesis within answered met

/-! ## The purpose of the list -/

/-- The peers that answered one of the calls. -/
def answering (calls : List HelloCall) : List String :=
  ((calls.filter fun call => call.answer.isSome).map HelloCall.name).dedup

/-- The router knows the peers that answered, and no master but one of them. -/
structure KnowsReachable (router : Router) (calls : List HelloCall) : Prop where
  hosts : ∀ name, name ∈ router.hostNames ↔ name ∈ answering calls
  routes : ∀ name, router.DirectRoute name ↔ name ∈ answering calls
  number : router.getReachablePeersNumber = (answering calls).length
  master : router.masterNode ≠ "" → AnsweredAsMaster calls router.masterNode

theorem mem_answering {calls : List HelloCall} {name : String} :
    name ∈ answering calls ↔
      ∃ call ∈ calls, call.answer.isSome = true ∧ call.name = name := by
  simp only [answering, List.mem_dedup, List.mem_map, List.mem_filter, and_assoc]

/-- After the list was read, a fresh router knows the peers that answered if and only if
every peer of the list has answered, and a `u_int` can count them. -/
theorem knowsReachable_iff {lines : List (String × Option THello)}
    (returned : (meetLines {} {} lines).2 = true) :
    KnowsReachable (meetLines {} {} lines).1 (helloCalls lines) ↔
      (∀ call ∈ helloCalls lines, call.name ∈ answering (helloCalls lines)) ∧
        (answering (helloCalls lines)).length < 2 ^ 32 := by
  rw [meetLines_eq_meetCalls returned]
  generalize helloCalls lines = calls
  have hosts : ∀ name, name ∈ (meetCalls {} {} calls).1.hostNames ↔
      name ∈ calls.map HelloCall.name := by
    intro name
    rw [mem_hostNames_meetCalls]
    exact or_iff_left List.not_mem_nil
  have routes : ∀ name, (meetCalls {} {} calls).1.DirectRoute name ↔
      name ∈ calls.map HelloCall.name := by
    intro name
    rw [directRoute_meetCalls]
    exact or_iff_left nofun
  constructor
  · rintro ⟨answered, _, number, _⟩
    refine ⟨fun call member => ?_, number ▸ Nat.mod_lt _ (by decide)⟩
    exact (answered call.name).mp ((hosts call.name).mpr (List.mem_map_of_mem member))
  · rintro ⟨answered, few⟩
    have named : ∀ name, name ∈ calls.map HelloCall.name ↔ name ∈ answering calls := by
      intro name
      constructor
      · intro listed
        obtain ⟨call, member, rfl⟩ := List.mem_map.mp listed
        exact answered call member
      · intro reached
        obtain ⟨call, member, _, rfl⟩ := mem_answering.mp reached
        exact List.mem_map_of_mem member
    have distinct : (meetCalls {} {} calls).1.hostNames.Nodup :=
      nodup_hostNames_meetCalls List.nodup_nil
    have permuted : (meetCalls {} {} calls).1.hostNames.Perm (answering calls) :=
      (List.perm_ext_iff_of_nodup distinct (List.nodup_dedup _)).mpr
        fun name => (hosts name).trans (named name)
    have number := permuted.length_eq
    rw [hostNames, List.length_map] at number
    refine ⟨fun name => (hosts name).trans (named name),
      fun name => (routes name).trans (named name), ?_, ?_⟩
    · rw [getReachablePeersNumber, number, Nat.mod_eq_of_lt few]
    · exact masterNode_meetCalls (fun _ member => member) nofun (absurd rfl)

/-- A host with two lines that answers at the second. -/
def masterLines : List (String × Option THello) :=
  [("master\tkey", none), ("master\tkey", some ⟨"prod", "master", true⟩)]

theorem knowsReachable_iff_of_masterLines :
    KnowsReachable (meetLines {} {} masterLines).1 (helloCalls masterLines) ↔
      (∀ call ∈ helloCalls masterLines, call.name ∈ answering (helloCalls masterLines)) ∧
        (answering (helloCalls masterLines)).length < 2 ^ 32 :=
  knowsReachable_iff (by decide)

/-- The only peer of the file does not answer, and counts as reachable. -/
theorem knowsReachable_peer_that_fails :
    ¬ ∀ lines : List (String × Option THello), (meetLines {} {} lines).2 = true →
      KnowsReachable (meetLines {} {} lines).1 (helloCalls lines) := by
  intro always
  have found := always [("second\tkey", none)] (by decide)
  have reachable : "second" ∈ answering (helloCalls [("second\tkey", none)]) :=
    (found.hosts "second").mp (by decide)
  revert reachable
  decide

end Router

end OpenWorkloadScheduler
