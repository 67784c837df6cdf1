import Mathlib.Order.WellFounded
import OpenWorkloadScheduler.Foundations.NestedCalls
import OpenWorkloadScheduler.Foundations.Replacing

/-!
# Servers that wait for each other

A server that has handed a call on waits for the next one to accept it.  Where a set of
servers wait for each other in this way, or for one whose connection has been left
open, they wait for ever.  Where every server hands on to servers of a lower rank
only, all calls come to their end.
-/

namespace OpenWorkloadScheduler.Foundations

universe u v w x

variable {Host : Type u} {Request : Type v} {Reply : Type w} {State : Type x}

namespace Service

variable (service : Service Host Request Reply State)

/-! ## Waiting for ever -/

/-- The call waits for one of the servers to accept it, or for a reply that is never sent. -/
def Waits (hosts : Set Host) (call : Call Host Request Reply State) : Prop :=
  (∃ host request, call.stage = .sent host request ∧ host ∈ hosts ∧
      service.handling host request ≠ none) ∨
    ∃ host value, call.stage = .answered host value ∧ service.sends value = false

/-- Each of the servers is left with an open connection, or is busy with a call that waits. -/
def Stuck (hosts : Set Host) (situation : Situation Host Request Reply State) : Prop :=
  ∀ host ∈ hosts, host ∈ situation.held ∨
    ∃ call ∈ situation.calls, host ∈ call.hosts ∧ service.Waits hosts call

section Stuck

variable {service} {hosts : Set Host} {before : Situation Host Request Reply State}

/-- A server that is stuck is not free. -/
theorem Stuck.not_free (stuck : service.Stuck hosts before) {host : Host}
    (member : host ∈ hosts) : ¬ before.Free host := by
  intro free
  cases stuck host member with
  | inl held => exact free.1 held
  | inr busy =>
      obtain ⟨call, callMember, atHost, _⟩ := busy
      exact free.2 call callMember atHost

theorem Stuck.not_accepted (stuck : service.Stuck hosts before)
    {call : Call Host Request Reply State} {host : Host} {request : Request}
    (sent : call.stage = .sent host request) (free : before.Free host) :
    ¬ service.Waits hosts call := by
  intro waits
  cases waits with
  | inl waits =>
      obtain ⟨other, otherRequest, otherSent, member, _⟩ := waits
      rw [sent] at otherSent
      cases otherSent
      exact stuck.not_free member free
  | inr waits =>
      obtain ⟨other, value, decided, _⟩ := waits
      rw [sent] at decided
      cases decided

end Stuck

variable [DecidableEq Host] {service}

section Steps

variable {hosts : Set Host} {before after : Situation Host Request Reply State}
  {event : CallEvent Host Request}

/-- A call that waits for servers that are stuck stays where it is. -/
theorem Stuck.kept (stuck : service.Stuck hosts before)
    (stepped : service.Step before event after) :
    before.held ⊆ after.held ∧ ∀ (index : Nat) (call : Call Host Request Reply State),
      before.calls[index]? = some call → service.Waits hosts call →
        after.calls[index]? = some call := by
  have others : ∀ (moved : Nat) (old new : Call Host Request Reply State),
      before.calls[moved]? = some old → ¬ service.Waits hosts old →
        ∀ (index : Nat) (call : Call Host Request Reply State),
          before.calls[index]? = some call → service.Waits hosts call →
            (before.calls.set moved new)[index]? = some call := by
    intro moved old new found apart index call callFound waits
    rw [List.getElem?_set_ne]
    · exact callFound
    · intro same
      rw [← same, found] at callFound
      cases callFound
      exact apart waits
  cases stepped with
  | send host request closes =>
      apply And.intro (Set.Subset.refl _)
      intro index call found _
      have bound := (List.getElem?_eq_some_iff.mp found).1
      exact (List.getElem?_append_left bound).trans found
  | refuse found sent absent =>
      apply And.intro (Set.Subset.refl _)
      apply others _ _ _ found
      intro waits
      cases waits with
      | inl waits =>
          obtain ⟨host, request, otherSent, _, present⟩ := waits
          rw [sent] at otherSent
          cases otherSent
          exact present absent
      | inr waits =>
          obtain ⟨host, value, decided, _⟩ := waits
          rw [sent] at decided
          cases decided
  | reply found sent free _ | execute found sent free _ | forward found sent free _ =>
      apply And.intro (Set.Subset.refl _)
      exact others _ _ _ found (stuck.not_accepted sent free)
  | finish found begun =>
      apply And.intro (Set.Subset.refl _)
      apply others _ _ _ found
      simp [Waits, begun]
  | @answer index call host value found decided sends =>
      constructor
      · dsimp only
        split
        · exact Set.Subset.refl _
        · exact Set.subset_insert _ _
      · apply others _ _ _ found
        simp [Waits, decided, sends]

/-- Servers that are stuck stay so. -/
theorem Stuck.step (stuck : service.Stuck hosts before)
    (stepped : service.Step before event after) : service.Stuck hosts after := by
  obtain ⟨held, kept⟩ := stuck.kept stepped
  intro host member
  cases stuck host member with
  | inl old => exact Or.inl (held old)
  | inr busy =>
      obtain ⟨call, callMember, atHost, waits⟩ := busy
      obtain ⟨index, found⟩ := List.mem_iff_getElem?.mp callMember
      exact Or.inr ⟨call, List.mem_of_getElem? (kept index call found waits), atHost, waits⟩

end Steps

/-- No call that waits for servers that are stuck ever moves again. -/
theorem Stuck.run {hosts : Set Host} {before after : Situation Host Request Reply State}
    {events : List (CallEvent Host Request)} (stuck : service.Stuck hosts before)
    (run : Run service.Step before events after) :
    service.Stuck hosts after ∧ ∀ (index : Nat) (call : Call Host Request Reply State),
      before.calls[index]? = some call → service.Waits hosts call →
        after.calls[index]? = some call := by
  induction run with
  | stay situation => exact ⟨stuck, fun _ _ found _ => found⟩
  | next stepped _ inductionHypothesis =>
      obtain ⟨last, rest⟩ := inductionHypothesis (stuck.step stepped)
      apply And.intro last
      intro index call found waits
      exact rest index call ((stuck.kept stepped).2 index call found waits) waits

/-! ## Servers that come to wait for each other -/

end Service

/-- A request that a host hands on, and how. -/
structure Handover (Host : Type u) (Request : Type v) where
  host : Host
  request : Request
  gateway : Host
  next : Request

/-- The call that the host has handed on. -/
def Handover.call (handover : Handover Host Request) : Call Host Request Reply State :=
  ⟨handover.host, handover.request, true, [(handover.host, handover.request)],
    .sent handover.gateway handover.next⟩

namespace Service

variable (service : Service Host Request Reply State)

/-- Each of the hosts hands its request on to one of the hosts. -/
structure Closed (handovers : List (Handover Host Request)) : Prop where
  distinct : (handovers.map Handover.host).Nodup
  handled : ∀ handover ∈ handovers, service.handling handover.host handover.request =
    some (.forward handover.gateway handover.next)
  inside : ∀ handover ∈ handovers, handover.gateway ∈ handovers.map Handover.host
  served : ∀ handover ∈ handovers, service.handling handover.gateway handover.next ≠ none

/-- A call that is not at the host leaves it free. -/
theorem free_append {situation : Situation Host Request Reply State} {host : Host}
    {call : Call Host Request Reply State} (free : situation.Free host)
    (apart : host ∉ call.hosts) :
    ({ situation with calls := situation.calls ++ [call] } :
      Situation Host Request Reply State).Free host := by
  apply And.intro free.1
  intro other member
  cases List.mem_append.mp member with
  | inl old => exact free.2 other old
  | inr new => rwa [List.mem_singleton.mp new]

variable [DecidableEq Host] {service}

/-- A host that is free accepts the call, and hands it on. -/
theorem run_handover {handover : Handover Host Request}
    {before : Situation Host Request Reply State}
    (handled : service.handling handover.host handover.request =
      some (.forward handover.gateway handover.next))
    (free : before.Free handover.host) :
    Run service.Step before
      [.send handover.host handover.request true, .accept before.calls.length]
      { before with calls := before.calls ++ [handover.call] } := by
  have sent : service.Step before (.send handover.host handover.request true) _ :=
    .send handover.host handover.request true
  have last : (before.calls ++ [⟨handover.host, handover.request, true, [],
      .sent handover.host handover.request⟩])[before.calls.length]? = some
        (⟨handover.host, handover.request, true, [],
          .sent handover.host handover.request⟩ : Call Host Request Reply State) :=
    List.getElem?_concat_length
  have accepted := Step.forward last rfl
    (free_append free (by simp [Call.hosts, Stage.server])) handled
  rw [Situation.setCall] at accepted
  dsimp only at accepted
  rw [List.set_append_right _ _ (Nat.le_refl _), Nat.sub_self, List.set_cons_zero] at accepted
  exact .next sent (.next accepted (.stay _))

/-- Hosts that are free accept the calls one after the other, and hand them on. -/
theorem run_handovers {handovers : List (Handover Host Request)}
    {before : Situation Host Request Reply State}
    (distinct : (handovers.map Handover.host).Nodup)
    (handled : ∀ handover ∈ handovers, service.handling handover.host handover.request =
      some (.forward handover.gateway handover.next))
    (free : ∀ handover ∈ handovers, before.Free handover.host) :
    ∃ events, Run service.Step before events
      { before with calls := before.calls ++ handovers.map Handover.call } := by
  induction handovers generalizing before with
  | nil =>
      refine ⟨[], ?_⟩
      rw [List.map_nil, List.append_nil]
      exact .stay before
  | cons handover handovers inductionHypothesis =>
      obtain ⟨apart, distinct⟩ := List.nodup_cons.mp distinct
      have first := run_handover (handled handover List.mem_cons_self)
        (free handover List.mem_cons_self)
      have stillFree : ∀ other ∈ handovers,
          ({ before with calls := before.calls ++ [handover.call] } :
            Situation Host Request Reply State).Free other.host := by
        intro other member
        apply free_append (free other (List.mem_cons_of_mem _ member))
        intro same
        simp only [Call.hosts, Handover.call, Stage.server, Option.toList_none,
          List.nil_append, List.map_cons, List.map_nil, List.mem_singleton] at same
        exact apart (same ▸ List.mem_map_of_mem member)
      obtain ⟨events, rest⟩ := inductionHypothesis distinct
        (fun other member => handled other (List.mem_cons_of_mem _ member)) stillFree
      rw [List.map_cons, List.append_cons]
      exact ⟨_, first.append rest⟩

/-- Calls that hosts hand on to each other can come to be under way at the same time, and
then none of them ever moves again. -/
theorem stuck_of_closed {handovers : List (Handover Host Request)}
    (closed : service.Closed handovers)
    (states : Host → State) :
    ∃ events last, Run service.Step { states } events last ∧
      service.Stuck {host | host ∈ handovers.map Handover.host} last ∧
        last.calls = handovers.map Handover.call := by
  have free : ∀ handover ∈ handovers,
      ({ states } : Situation Host Request Reply State).Free handover.host := by
    intro handover _
    exact ⟨id, fun call member => absurd member List.not_mem_nil⟩
  obtain ⟨events, run⟩ := run_handovers closed.distinct closed.handled free
  refine ⟨events, _, run, ?_, List.nil_append _⟩
  intro host member
  obtain ⟨handover, handoverMember, rfl⟩ := List.mem_map.mp member
  right
  refine ⟨handover.call, List.mem_map_of_mem handoverMember, ?_, Or.inl ⟨handover.gateway,
    handover.next, rfl, closed.inside handover handoverMember,
    closed.served handover handoverMember⟩⟩
  simp [Call.hosts, Handover.call, Stage.server]

/-! ## Calls that come to their end -/

end Service

/-- Nobody calls anew. -/
def NoSend (_ : Situation Host Request Reply State) : CallEvent Host Request → Prop
  | .send _ _ _ => False
  | _ => True

/-- No connection has been left open, and every reply is sent. -/
structure Service.Clean (service : Service Host Request Reply State)
    (situation : Situation Host Request Reply State) : Prop where
  closed : situation.held = ∅
  sends : ∀ call ∈ situation.calls, ∀ host value, call.stage = .answered host value →
    service.sends value = true

/-- Every host hands on to hosts of a lower rank. -/
def Service.Descends (service : Service Host Request Reply State) (rank : Host → Nat) : Prop :=
  ∀ host request gateway next, service.handling host request = some (.forward gateway next) →
    rank gateway < rank host

/-- The steps that a call can still take. -/
def Call.load (rank : Host → Nat) (call : Call Host Request Reply State) : Nat :=
  match call.stage with
  | .sent host _ => 3 * (rank host + 1) + call.frames.length
  | .executing _ _ _ => call.frames.length + 2
  | .answered _ _ => call.frames.length + 1
  | .done _ => 0

def Situation.load (rank : Host → Nat) (situation : Situation Host Request Reply State) : Nat :=
  (situation.calls.map (Call.load rank)).sum

/-- A call that has been sent has come down to its host, and one that is done is nowhere. -/
structure Call.Ranked (rank : Host → Nat) (call : Call Host Request Reply State) : Prop where
  lower : ∀ host request, call.stage = .sent host request →
    ∀ frame ∈ call.frames, rank host < rank frame.1
  left : ∀ value, call.stage = .done value → call.frames = []

namespace Service

section Ranks

variable {service : Service Host Request Reply State} {rank : Host → Nat}
  {call : Call Host Request Reply State}

theorem ranked_of_server {host : Host} (server : call.stage.server = some host) :
    call.Ranked rank where
  lower place request sent := by simp [sent, Stage.server] at server
  left value done := by simp [done, Stage.server] at server

theorem ranked_receive (value : Reply) : (call.receive service value).Ranked rank := by
  unfold Call.receive
  cases frames : call.frames with
  | nil => exact ⟨by simp, fun _ _ => rfl⟩
  | cons frame rest =>
      apply ranked_of_server
      rfl

theorem load_receive (value : Reply) :
    (call.receive service value).load rank ≤ call.frames.length := by
  unfold Call.receive
  cases frames : call.frames <;> simp [Call.load]

variable [DecidableEq Host]

theorem ranked_of_step (descends : service.Descends rank)
    {before after : Situation Host Request Reply State} {event : CallEvent Host Request}
    (ranked : ∀ call ∈ before.calls, call.Ranked rank)
    (stepped : service.Step before event after) : ∀ call ∈ after.calls, call.Ranked rank := by
  have replaced : ∀ (index : Nat) (new : Call Host Request Reply State), new.Ranked rank →
      ∀ call ∈ before.calls.set index new, call.Ranked rank := by
    intro index new own call member
    cases List.mem_or_eq_of_mem_set member with
    | inl old => exact ranked call old
    | inr same => rwa [same]
  cases stepped with
  | send host request closes =>
      intro call member
      cases List.mem_append.mp member with
      | inl old => exact ranked call old
      | inr new =>
          rw [List.mem_singleton.mp new]
          exact ⟨by simp, by simp⟩
  | refuse _ _ _ | answer _ _ _ => exact replaced _ _ (ranked_receive _)
  | reply _ _ _ _ | execute _ _ _ _ | finish _ _ =>
      apply replaced
      apply ranked_of_server
      rfl
  | @forward index call host gateway request next found sent free handled =>
      apply replaced
      constructor
      · intro place placeRequest same frame member
        cases same
        have below := descends host request gateway next handled
        cases List.mem_cons.mp member with
        | inl own => rwa [own]
        | inr earlier =>
            have above := (ranked call (List.mem_of_getElem? found)).lower host request sent
            exact below.trans (above frame earlier)
      · simp

/-- A step other than a new call brings some call nearer to its end. -/
theorem load_of_step (descends : service.Descends rank)
    {before after : Situation Host Request Reply State} {event : CallEvent Host Request}
    (stepped : service.Step before event after) (noSend : NoSend before event) :
    after.load rank < before.load rank := by
  have replaced : ∀ (index : Nat) (old new : Call Host Request Reply State),
      before.calls[index]? = some old → new.load rank < old.load rank →
        ((before.calls.set index new).map (Call.load rank)).sum < before.load rank := by
    intro index old new found lighter
    have sum := sum_map_set_add (Call.load rank) new found
    rw [Situation.load]
    omega
  cases stepped with
  | send _ _ _ => cases noSend
  | refuse found sent _ =>
      apply replaced _ _ _ found
      apply (load_receive _).trans_lt
      simp only [Call.load, sent]
      omega
  | reply found sent _ _ | execute found sent _ _ =>
      apply replaced _ _ _ found
      simp only [Call.load, sent]
      omega
  | forward found sent _ handled =>
      apply replaced _ _ _ found
      have below := descends _ _ _ _ handled
      simp only [Call.load, sent, List.length_cons]
      omega
  | finish found begun =>
      apply replaced _ _ _ found
      simp only [Call.load, begun]
      omega
  | answer found decided _ =>
      apply replaced _ _ _ found
      apply (load_receive _).trans_lt
      simp only [Call.load, decided]
      omega

/-- A call at which a server is at work moves on. -/
theorem exists_step_of_server {situation : Situation Host Request Reply State}
    (clean : service.Clean situation) (member : call ∈ situation.calls)
    (busy : call.stage.server ≠ none) :
    ∃ event after, service.Step situation event after ∧ NoSend situation event := by
  obtain ⟨index, found⟩ := List.mem_iff_getElem?.mp member
  cases stage : call.stage with
  | sent host request => simp [stage, Stage.server] at busy
  | executing host value state => exact ⟨_, _, .finish found stage, trivial⟩
  | answered host value =>
      exact ⟨_, _, .answer found stage (clean.sends call member host value stage), trivial⟩
  | done value => simp [stage, Stage.server] at busy

/-- A call that has been sent to a host that is free, or to one without a server, moves on. -/
theorem exists_step_of_sent {situation : Situation Host Request Reply State} {host : Host}
    {request : Request} (member : call ∈ situation.calls)
    (sent : call.stage = .sent host request)
    (free : service.handling host request ≠ none → situation.Free host) :
    ∃ event after, service.Step situation event after ∧ NoSend situation event := by
  obtain ⟨index, found⟩ := List.mem_iff_getElem?.mp member
  cases handled : service.handling host request with
  | none => exact ⟨_, _, .refuse found sent handled, trivial⟩
  | some handling =>
      have accepts : situation.Free host := free (by simp [handled])
      cases handling with
      | reply value => exact ⟨_, _, .reply found sent accepts handled, trivial⟩
      | execute operation => exact ⟨_, _, .execute found sent accepts handled, trivial⟩
      | forward gateway next => exact ⟨_, _, .forward found sent accepts handled, trivial⟩

/-- As long as a call is under way, some call can move on. -/
theorem exists_step {situation : Situation Host Request Reply State}
    (ranked : ∀ call ∈ situation.calls, call.Ranked rank) (clean : service.Clean situation)
    (member : call ∈ situation.calls) (unfinished : ∀ value, call.stage ≠ .done value) :
    ∃ event after, service.Step situation event after ∧ NoSend situation event := by
  by_cases busy : ∃ other ∈ situation.calls, other.stage.server ≠ none
  · obtain ⟨other, otherMember, otherBusy⟩ := busy
    exact exists_step_of_server clean otherMember otherBusy
  · have idle : ∀ other ∈ situation.calls, other.stage.server = none := by
      intro other otherMember
      by_contra otherBusy
      exact busy ⟨other, otherMember, otherBusy⟩
    have sent : ∀ other ∈ situation.calls, (∀ value, other.stage ≠ .done value) →
        ∃ host request, other.stage = .sent host request := by
      intro other otherMember otherUnfinished
      cases stage : other.stage with
      | sent host request => exact ⟨host, request, rfl⟩
      | executing _ _ _ | answered _ _ => simpa [stage, Stage.server] using idle other otherMember
      | done value => exact absurd stage (otherUnfinished value)
    -- the call whose host has the lowest rank waits for nobody
    obtain ⟨host, request, callSent⟩ := sent call member unfinished
    obtain ⟨lowest, ⟨other, otherMember, place, otherRequest, otherSent, rfl⟩, least⟩ :=
      wellFounded_lt.has_min
        {height : Nat | ∃ other ∈ situation.calls, ∃ place otherRequest,
          other.stage = .sent place otherRequest ∧ rank place = height}
        ⟨rank host, call, member, host, request, callSent, rfl⟩
    apply exists_step_of_sent otherMember otherSent
    intro _
    constructor
    · rw [clean.closed]
      exact Set.notMem_empty place
    · intro third thirdMember atPlace
      simp only [Call.hosts, idle third thirdMember, Option.toList_none, List.nil_append,
        List.mem_map] at atPlace
      obtain ⟨frame, frameMember, rfl⟩ := atPlace
      obtain ⟨below, belowRequest, thirdSent⟩ := sent third thirdMember fun value done => by
        rw [(ranked third thirdMember).left value done] at frameMember
        cases frameMember
      exact least _ ⟨third, thirdMember, below, belowRequest, thirdSent, rfl⟩
        ((ranked third thirdMember).lower below belowRequest thirdSent frame frameMember)

/-! ## Runs -/

theorem ranked_of_run (descends : service.Descends rank) {states : Host → State}
    {last : Situation Host Request Reply State} {events : List (CallEvent Host Request)}
    (run : Run service.Step { states } events last) :
    ∀ call ∈ last.calls, call.Ranked rank := by
  apply run.keeps fun _ _ _ ranked stepped => ranked_of_step descends ranked stepped
  intro call member
  cases member

/-- The calls under way come to their end after so many steps. -/
theorem length_le_load (descends : service.Descends rank)
    {before after : Situation Host Request Reply State} {events : List (CallEvent Host Request)}
    (run : Run (Guarded service.Step NoSend) before events after) :
    events.length + after.load rank ≤ before.load rank := by
  induction run with
  | stay situation => simp
  | next stepped _ inductionHypothesis =>
      have lighter := load_of_step descends stepped.1 stepped.2
      rw [List.length_cons]
      omega

end Ranks

end Service

/-! ## Callers that leave their connection open -/

/-- Whatever is the first server of the call is the host that it was sent to. -/
structure Call.Entered (call : Call Host Request Reply State) : Prop where
  frames : ∀ frame, call.frames.getLast? = some frame → frame.1 = call.host
  sent : call.frames = [] → ∀ host request, call.stage = .sent host request →
    host = call.host
  served : call.frames = [] → ∀ host, call.stage.server = some host → host = call.host

namespace Service

/-- A server that has answered somebody who leaves the connection open is held.  This does
not depend on what the servers do with a request. -/
def HoldsOpen (service : Service Host Request Reply State)
    (situation : Situation Host Request Reply State) : Prop :=
  ∀ call ∈ situation.calls, call.Entered ∧ (call.closes = false → ∀ value,
    call.stage = .done value → value = service.unreachable ∨ call.host ∈ situation.held)

section Entering

variable {service : Service Host Request Reply State} {call : Call Host Request Reply State}

theorem entered_receive (entered : call.Entered) (value : Reply) :
    (call.receive service value).Entered := by
  unfold Call.receive
  cases frames : call.frames with
  | nil =>
      constructor
      · simp
      · simp
      · simp [Stage.server]
  | cons frame rest =>
      have last := entered.frames
      rw [frames] at last
      constructor
      · intro other found
        apply last other
        cases rest with
        | nil => cases found
        | cons second rest => exact found
      · simp
      · intro only host same
        cases same
        dsimp only at only
        subst only
        exact last frame rfl

/-- The reply reaches the caller from outside where no frame is left. -/
theorem done_receive {value last : Reply}
    (done : (call.receive service value).stage = .done last) :
    call.frames = [] ∧ last = value := by
  unfold Call.receive at done
  cases frames : call.frames with
  | nil =>
      rw [frames] at done
      cases done
      exact ⟨rfl, rfl⟩
  | cons frame rest =>
      rw [frames] at done
      cases done

/-- A call moves on. -/
theorem HoldsOpen.set {before : Situation Host Request Reply State}
    (holds : service.HoldsOpen before) {index : Nat} {changed : Call Host Request Reply State}
    {states : Host → State} {held : Set Host} {log : List (Entry Host Request Reply)}
    (grows : before.held ⊆ held) (entered : changed.Entered)
    (left : changed.closes = false → ∀ value, changed.stage = .done value →
      value = service.unreachable ∨ changed.host ∈ held) :
    service.HoldsOpen ⟨states, before.calls.set index changed, held, log⟩ := by
  intro call member
  cases List.mem_or_eq_of_mem_set member with
  | inl old =>
      obtain ⟨oldEntered, oldLeft⟩ := holds call old
      apply And.intro oldEntered
      intro keeps value done
      exact (oldLeft keeps value done).imp_right fun inside => grows inside
  | inr same =>
      rw [same]
      exact ⟨entered, left⟩

/-- The server that a call has been sent to is at work. -/
theorem entered_atWork {stage : Stage Host Request Reply State} {host : Host}
    (entered : call.Entered) (server : stage.server = some host)
    (atHost : call.frames = [] → host = call.host) :
    ({ call with stage } : Call Host Request Reply State).Entered where
  frames := entered.frames
  sent only place placeRequest sent := by
    cases sent
    cases server
  served only place other := by
    rw [server] at other
    cases other
    exact atHost only

variable [DecidableEq Host]

theorem holdsOpen_of_step {before after : Situation Host Request Reply State}
    {event : CallEvent Host Request} (holds : service.HoldsOpen before)
    (stepped : service.Step before event after) : service.HoldsOpen after := by
  cases stepped with
  | send host request closes =>
      intro call member
      cases List.mem_append.mp member with
      | inl old => exact holds call old
      | inr new =>
          rw [List.mem_singleton.mp new]
          refine ⟨⟨by simp, ?_, by simp [Stage.server]⟩, by simp⟩
          intro _ place placeRequest same
          cases same
          rfl
  | @refuse index call host request found sent absent =>
      obtain ⟨entered, _⟩ := holds call (List.mem_of_getElem? found)
      apply holds.set (Set.Subset.refl _) (entered_receive entered _)
      intro _ value done
      exact Or.inl (done_receive done).2
  | @reply index call host request value found sent free handled =>
      obtain ⟨entered, _⟩ := holds call (List.mem_of_getElem? found)
      apply holds.set (Set.Subset.refl _) (entered_atWork entered rfl _) (by simp)
      exact fun only => entered.sent only host request sent
  | @execute index call host request operation found sent free handled =>
      obtain ⟨entered, _⟩ := holds call (List.mem_of_getElem? found)
      apply holds.set (Set.Subset.refl _) (entered_atWork entered rfl _) (by simp)
      exact fun only => entered.sent only host request sent
  | @forward index call host gateway request next found sent free handled =>
      obtain ⟨entered, _⟩ := holds call (List.mem_of_getElem? found)
      apply holds.set (Set.Subset.refl _) ⟨_, by simp, by simp⟩ (by simp)
      intro frame last
      cases frames : call.frames with
      | nil =>
          rw [frames] at last
          cases last
          exact entered.sent frames host request sent
      | cons second rest =>
          apply entered.frames
          rw [frames] at last ⊢
          exact last
  | @finish index call host value state found begun =>
      obtain ⟨entered, _⟩ := holds call (List.mem_of_getElem? found)
      apply holds.set (Set.Subset.refl _) (entered_atWork entered rfl _) (by simp)
      intro only
      exact entered.served only host (by simp [begun, Stage.server])
  | @answer index call host value found decided sends =>
      obtain ⟨entered, _⟩ := holds call (List.mem_of_getElem? found)
      apply holds.set _ (entered_receive entered _)
      · intro keeps last done
        right
        have only := (done_receive done).1
        have atHost := entered.served only host (by simp [decided, Stage.server])
        rw [closes_receive] at keeps
        have leaves : call.closesAfter service value = false := by
          simp [Call.closesAfter, only, keeps]
        rw [(same_receive _).1, ← atHost]
        simp [leaves]
      · split
        · exact Set.Subset.refl _
        · exact Set.subset_insert _ _

end Entering

end Service

end OpenWorkloadScheduler.Foundations
