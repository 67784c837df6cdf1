import Mathlib.Data.List.Nodup
import Mathlib.Data.Set.Insert
import Mathlib.Logic.Function.Basic
import OpenWorkloadScheduler.Foundations.Runs

/-!
# Servers that serve one call at a time

A server accepts one connection and stays with it until the caller closes it.  From
the moment it accepts the call to the moment it has replied it is busy, and when it
hands the call on, it waits for the reply of the other server.

The calls of any number of callers are under way at the same time, and their steps come
in any order.  As a server is busy with one call at a time, the whole leads to the same
replies and to the same states as if the calls had been served one after the other.
-/

namespace OpenWorkloadScheduler.Foundations

universe u v w x

/-- What a server does with a request. -/
inductive Handling (Host : Type u) (Request : Type v) (Reply : Type w) (State : Type x) where
  | reply (value : Reply)
  | execute (operation : State → Reply × State)
  | forward (gateway : Host) (request : Request)

/-- The servers.  A host without a server handles nothing, and its callers get the
reply `unreachable`.  A server that has handed a request on passes back what it makes of the
reply, and then it closes its connection or leaves it open.  Some replies are
never sent. -/
structure Service (Host : Type u) (Request : Type v) (Reply : Type w) (State : Type x) where
  handling : Host → Request → Option (Handling Host Request Reply State)
  unreachable : Reply
  passes : Host → Request → Reply → Reply
  closes : Host → Request → Reply → Bool
  sends : Reply → Bool

/-- Where a call is. -/
inductive Stage (Host : Type u) (Request : Type v) (Reply : Type w) (State : Type x) where
  | sent (host : Host) (request : Request)
  | executing (host : Host) (value : Reply) (state : State)
  | answered (host : Host) (value : Reply)
  | done (value : Reply)

/-- A call from outside, with the servers that have handed it on, the last one first. -/
structure Call (Host : Type u) (Request : Type v) (Reply : Type w) (State : Type x) where
  host : Host
  request : Request
  closes : Bool
  frames : List (Host × Request)
  stage : Stage Host Request Reply State

/-- A call that has been decided, by its number, and its reply. -/
structure Entry (Host : Type u) (Request : Type v) (Reply : Type w) where
  index : Nat
  host : Host
  request : Request
  value : Reply

/-- The states of the servers, the calls so far, the servers to which a connection has been
left open, and the calls in the order in which they were decided. -/
structure Situation (Host : Type u) (Request : Type v) (Reply : Type w) (State : Type x) where
  states : Host → State
  calls : List (Call Host Request Reply State) := []
  held : Set Host := ∅
  log : List (Entry Host Request Reply) := []

variable {Host : Type u} {Request : Type v} {Reply : Type w} {State : Type x}

/-! ## One call -/

namespace Stage

/-- The server that is at work. -/
def server : Stage Host Request Reply State → Option Host
  | sent _ _ | done _ => none
  | executing host _ _ | answered host _ => some host

end Stage

namespace Call

/-- The servers that are busy with the call. -/
def hosts (call : Call Host Request Reply State) : List Host :=
  call.stage.server.toList ++ call.frames.map Prod.fst

/-- The call after a reply has reached its caller. -/
def receive (call : Call Host Request Reply State) (service : Service Host Request Reply State)
    (value : Reply) : Call Host Request Reply State :=
  match call.frames with
  | [] => { call with stage := .done value }
  | (host, request) :: frames =>
      { call with frames, stage := .answered host (service.passes host request value) }

/-- Whether the caller closes the connection when it has the reply. -/
def closesAfter (call : Call Host Request Reply State)
    (service : Service Host Request Reply State) (value : Reply) : Bool :=
  match call.frames with
  | [] => call.closes
  | (host, request) :: _ => service.closes host request value

/-- What becomes of a reply on its way back. -/
def result (call : Call Host Request Reply State) (service : Service Host Request Reply State)
    (value : Reply) : Reply :=
  call.frames.foldl (fun value frame => service.passes frame.1 frame.2 value) value

/-- The record of the call. -/
def entry (call : Call Host Request Reply State) (service : Service Host Request Reply State)
    (index : Nat) (value : Reply) : Entry Host Request Reply :=
  ⟨index, call.host, call.request, call.result service value⟩

end Call

namespace Service

/-! ## What is known of a call -/

/-- The request has been handed on over the frames to a host, where it is the second
request. -/
inductive Path (service : Service Host Request Reply State) (start : Host)
    (first : Request) : List (Host × Request) → Host → Request → Prop
  | here : Path service start first [] start first
  | forward {frames : List (Host × Request)} {host gateway : Host} {request next : Request}
      (path : Path service start first frames host request)
      (handled : service.handling host request = some (.forward gateway next)) :
      Path service start first ((host, request) :: frames) gateway next

/-- What is known of a call at its stage. -/
def Explained (service : Service Host Request Reply State)
    (situation : Situation Host Request Reply State) (index : Nat)
    (call : Call Host Request Reply State) : Prop :=
  match call.stage with
  | .sent host request =>
      service.Path call.host call.request call.frames host request ∧
        ∀ entry ∈ situation.log, entry.index ≠ index
  | .executing host value state =>
      (∃ request operation, service.Path call.host call.request call.frames host request ∧
        service.handling host request = some (.execute operation) ∧
          operation (situation.states host) = (value, state)) ∧
        ∀ entry ∈ situation.log, entry.index ≠ index
  | .answered _ value => call.entry service index value ∈ situation.log
  | .done value => call.frames = [] ∧ call.entry service index value ∈ situation.log

section Explanations

variable {service : Service Host Request Reply State}
  {before : Situation Host Request Reply State} {index : Nat}
  {call : Call Host Request Reply State}

/-- What is known of one call does not depend on another one. -/
theorem Explained.other {states : Host → State} {log : List (Entry Host Request Reply)}
    {other : Nat} {otherCall : Call Host Request Reply State}
    (explained : service.Explained before other otherCall) (different : other ≠ index)
    (kept : ∀ host ∈ otherCall.hosts, states host = before.states host)
    (grown : ∀ entry ∈ log, entry ∈ before.log ∨ entry.index = index)
    (subset : before.log ⊆ log) (after : Situation Host Request Reply State)
    (sameStates : after.states = states) (sameLog : after.log = log) :
    service.Explained after other otherCall := by
  subst sameStates sameLog
  have fresh : (∀ entry ∈ before.log, entry.index ≠ other) →
      ∀ entry ∈ after.log, entry.index ≠ other := by
    intro old entry member
    cases grown entry member with
    | inl earlier => exact old entry earlier
    | inr own =>
        rw [own]
        exact different.symm
  unfold Explained at explained ⊢
  cases stage : otherCall.stage with
  | sent host request =>
      simp only [stage] at explained ⊢
      exact ⟨explained.1, fresh explained.2⟩
  | executing host value state =>
      simp only [stage] at explained ⊢
      have busy : host ∈ otherCall.hosts := by simp [Call.hosts, stage, Stage.server]
      rw [kept host busy]
      exact ⟨explained.1, fresh explained.2⟩
  | answered host value =>
      simp only [stage] at explained ⊢
      exact subset explained
  | done value =>
      simp only [stage] at explained ⊢
      exact ⟨explained.1, subset explained.2⟩

/-- A call that has been decided is explained when the reply goes back. -/
theorem explained_receive {situation : Situation Host Request Reply State} {value : Reply}
    (decided : call.entry service index value ∈ situation.log) :
    service.Explained situation index (call.receive service value) := by
  unfold Explained
  cases frames : call.frames with
  | nil =>
      have received : call.receive service value = { call with stage := .done value } := by
        simp [Call.receive, frames]
      rw [received]
      exact ⟨frames, decided⟩
  | cons frame rest =>
      have received : call.receive service value = { call with
          frames := rest, stage := .answered frame.1 (service.passes frame.1 frame.2 value) } := by
        simp [Call.receive, frames]
      rw [received]
      simpa [Call.entry, Call.result, frames] using decided

theorem same_receive (value : Reply) : (call.receive service value).host = call.host ∧
    (call.receive service value).request = call.request := by
  unfold Call.receive
  cases call.frames <;> exact ⟨rfl, rfl⟩

theorem closes_receive (value : Reply) :
    (call.receive service value).closes = call.closes := by
  unfold Call.receive
  cases call.frames <;> rfl

theorem hosts_receive {value : Reply} {host : Host}
    (busy : host ∈ (call.receive service value).hosts) : host ∈ call.hosts := by
  unfold Call.receive at busy
  cases frames : call.frames with
  | nil => simp [frames, Call.hosts, Stage.server] at busy
  | cons frame rest =>
      simp only [frames, Call.hosts, Stage.server, Option.toList_some, List.singleton_append]
        at busy
      apply List.mem_append_right
      rwa [frames]

end Explanations

end Service

/-! ## The steps -/

inductive CallEvent (Host : Type u) (Request : Type v) where
  | send (host : Host) (request : Request) (closes : Bool)
  | refuse (index : Nat)
  | accept (index : Nat)
  | finish (index : Nat)
  | answer (index : Nat)

namespace Situation

/-- The server waits for a connection. -/
def Free (situation : Situation Host Request Reply State) (host : Host) : Prop :=
  host ∉ situation.held ∧ ∀ call ∈ situation.calls, host ∉ call.hosts

def setCall (situation : Situation Host Request Reply State) (index : Nat)
    (call : Call Host Request Reply State) : Situation Host Request Reply State :=
  { situation with calls := situation.calls.set index call }

end Situation

namespace Service

variable [DecidableEq Host] (service : Service Host Request Reply State)

/-- An operation takes its time: it begins with the state that it finds, and ends with the
state that it leaves. -/
inductive Step (before : Situation Host Request Reply State) :
    CallEvent Host Request → Situation Host Request Reply State → Prop where
  | send (host : Host) (request : Request) (closes : Bool) :
      Step before (.send host request closes)
        { before with calls := before.calls ++ [⟨host, request, closes, [], .sent host request⟩] }
  | refuse {index : Nat} {call : Call Host Request Reply State} {host : Host} {request : Request}
      (found : before.calls[index]? = some call) (sent : call.stage = .sent host request)
      (absent : service.handling host request = none) :
      Step before (.refuse index)
        { before.setCall index (call.receive service service.unreachable) with
          log := before.log ++ [call.entry service index service.unreachable] }
  | reply {index : Nat} {call : Call Host Request Reply State} {host : Host} {request : Request}
      {value : Reply} (found : before.calls[index]? = some call)
      (sent : call.stage = .sent host request) (free : before.Free host)
      (handled : service.handling host request = some (.reply value)) :
      Step before (.accept index)
        { before.setCall index { call with stage := .answered host value } with
          log := before.log ++ [call.entry service index value] }
  | execute {index : Nat} {call : Call Host Request Reply State} {host : Host}
      {request : Request} {operation : State → Reply × State}
      (found : before.calls[index]? = some call) (sent : call.stage = .sent host request)
      (free : before.Free host)
      (handled : service.handling host request = some (.execute operation)) :
      Step before (.accept index) (before.setCall index { call with
        stage := .executing host (operation (before.states host)).1
          (operation (before.states host)).2 })
  | forward {index : Nat} {call : Call Host Request Reply State} {host gateway : Host}
      {request next : Request} (found : before.calls[index]? = some call)
      (sent : call.stage = .sent host request) (free : before.Free host)
      (handled : service.handling host request = some (.forward gateway next)) :
      Step before (.accept index) (before.setCall index { call with
        frames := (host, request) :: call.frames
        stage := .sent gateway next })
  | finish {index : Nat} {call : Call Host Request Reply State} {host : Host} {value : Reply}
      {state : State} (found : before.calls[index]? = some call)
      (begun : call.stage = .executing host value state) :
      Step before (.finish index)
        { before.setCall index { call with stage := .answered host value } with
          states := Function.update before.states host state
          log := before.log ++ [call.entry service index value] }
  | answer {index : Nat} {call : Call Host Request Reply State} {host : Host} {value : Reply}
      (found : before.calls[index]? = some call) (decided : call.stage = .answered host value)
      (sends : service.sends value = true) :
      Step before (.answer index)
        { before.setCall index (call.receive service value) with
          held := if call.closesAfter service value then before.held
            else insert host before.held }

/-! ## One call after the other -/

/-- A call that is served while no other one is under way: the reply, and the states of
the servers then. -/
inductive Serves : Host → Request → (Host → State) → Reply → (Host → State) → Prop where
  | absent {host : Host} {request : Request} {states : Host → State}
      (handled : service.handling host request = none) :
      Serves host request states service.unreachable states
  | reply {host : Host} {request : Request} {states : Host → State} {value : Reply}
      (handled : service.handling host request = some (.reply value)) :
      Serves host request states value states
  | execute {host : Host} {request : Request} {states : Host → State}
      {operation : State → Reply × State}
      (handled : service.handling host request = some (.execute operation)) :
      Serves host request states (operation (states host)).1
        (Function.update states host (operation (states host)).2)
  | forward {host gateway : Host} {request next : Request} {states after : Host → State}
      {value : Reply}
      (handled : service.handling host request = some (.forward gateway next))
      (served : Serves gateway next states value after) :
      Serves host request states (service.passes host request value) after

/-- The calls are served in turn, with the replies of the list. -/
inductive ServedInTurn (first : Host → State) :
    List (Entry Host Request Reply) → (Host → State) → Prop where
  | none : ServedInTurn first [] first
  | next {log : List (Entry Host Request Reply)} {entry : Entry Host Request Reply}
      {states after : Host → State} (earlier : ServedInTurn first log states)
      (served : service.Serves entry.host entry.request states entry.value after) :
      ServedInTurn first (log ++ [entry]) after

variable {service}

/-- What serves the request at the end of the path serves the call. -/
theorem Path.serves {call : Call Host Request Reply State} {host : Host} {request : Request}
    {states after : Host → State} {value : Reply}
    (path : service.Path call.host call.request call.frames host request)
    (served : service.Serves host request states value after) :
    service.Serves call.host call.request states (call.result service value) after := by
  rw [Call.result]
  generalize call.frames = frames at path
  induction path generalizing value with
  | here => exact served
  | forward path handled inductionHypothesis =>
      exact inductionHypothesis (.forward handled served)

/-! ## What the steps keep -/

/-- Each server is busy with one call at most, and the calls that have been decided have
been served in turn. -/
structure Serial (service : Service Host Request Reply State) (first : Host → State)
    (situation : Situation Host Request Reply State) : Prop where
  explained : ∀ index call, situation.calls[index]? = some call →
    service.Explained situation index call
  exclusive : ∀ (index other : Nat) (call otherCall : Call Host Request Reply State),
    situation.calls[index]? = some call → situation.calls[other]? = some otherCall →
      ∀ host ∈ call.hosts, host ∈ otherCall.hosts → index = other
  known : ∀ entry ∈ situation.log, ∃ call, situation.calls[entry.index]? = some call ∧
    call.host = entry.host ∧ call.request = entry.request
  distinct : (situation.log.map Entry.index).Nodup
  turns : service.ServedInTurn first situation.log situation.states

section Steps

variable {first : Host → State} {before after : Situation Host Request Reply State}
  {event : CallEvent Host Request} {index : Nat} {call : Call Host Request Reply State}

/-- A call moves on. -/
theorem Serial.set (serial : service.Serial first before)
    (found : before.calls[index]? = some call) (changed : Call Host Request Reply State)
    {states : Host → State}
    {log : List (Entry Host Request Reply)} {held : Set Host}
    (same : changed.host = call.host ∧ changed.request = call.request)
    (hosts : ∀ host ∈ changed.hosts, host ∈ call.hosts ∨ before.Free host)
    (kept : ∀ host, host ∉ call.hosts → states host = before.states host)
    (grown : ∀ entry ∈ log, entry ∈ before.log ∨ ∃ value, entry = call.entry service index value)
    (subset : before.log ⊆ log)
    (own : service.Explained ⟨states, before.calls.set index changed, held, log⟩ index changed)
    (distinct : (log.map Entry.index).Nodup) (turns : service.ServedInTurn first log states) :
    service.Serial first ⟨states, before.calls.set index changed, held, log⟩ := by
  have bound : index < before.calls.length := (List.getElem?_eq_some_iff.mp found).1
  have self : (before.calls.set index changed)[index]? = some changed := by
    rw [List.getElem?_set_self bound]
  have beside : ∀ other, other ≠ index →
      (before.calls.set index changed)[other]? = before.calls[other]? := by
    intro other different
    exact List.getElem?_set_ne different.symm
  -- a server that the call has taken was free, so no other call is at it
  have apart : ∀ (other : Nat) (otherCall : Call Host Request Reply State),
      other ≠ index → before.calls[other]? = some otherCall →
        ∀ host ∈ changed.hosts, host ∉ otherCall.hosts := by
    intro other otherCall different otherFound host busy otherBusy
    cases hosts host busy with
    | inl old =>
        exact different (serial.exclusive _ _ _ _ otherFound found host otherBusy old)
    | inr free => exact free.2 otherCall (List.mem_of_getElem? otherFound) otherBusy
  constructor
  · intro other otherCall otherFound
    by_cases different : other = index
    · subst different
      rw [self] at otherFound
      cases otherFound
      exact own
    · rw [beside other different] at otherFound
      apply (serial.explained other otherCall otherFound).other different _ _ subset _ rfl rfl
      · intro host busy
        apply kept
        intro mine
        exact different (serial.exclusive _ _ _ _ otherFound found host busy mine)
      · intro entry member
        apply (grown entry member).imp_right
        intro own
        obtain ⟨value, rfl⟩ := own
        rfl
  · intro one other oneCall otherCall oneFound otherFound host busy otherBusy
    by_cases oneSame : one = index
    · by_cases otherSame : other = index
      · rw [oneSame, otherSame]
      · subst oneSame
        rw [self] at oneFound
        cases oneFound
        rw [beside other otherSame] at otherFound
        exact absurd otherBusy (apart other otherCall otherSame otherFound host busy)
    · rw [beside one oneSame] at oneFound
      by_cases otherSame : other = index
      · subst otherSame
        rw [self] at otherFound
        cases otherFound
        exact absurd busy (apart one oneCall oneSame oneFound host otherBusy)
      · rw [beside other otherSame] at otherFound
        exact serial.exclusive _ _ _ _ oneFound otherFound host busy otherBusy
  · intro entry member
    cases grown entry member with
    | inl earlier =>
        obtain ⟨other, otherFound, sent⟩ := serial.known entry earlier
        by_cases own : entry.index = index
        · rw [own, found] at otherFound
          cases otherFound
          rw [own]
          exact ⟨changed, self, same.1.trans sent.1, same.2.trans sent.2⟩
        · exact ⟨other, (beside _ own).trans otherFound, sent⟩
    | inr own =>
        obtain ⟨value, rfl⟩ := own
        exact ⟨changed, self, same⟩
  · exact distinct
  · exact turns

/-- A call is decided. -/
theorem Serial.decide (serial : service.Serial first before)
    (found : before.calls[index]? = some call) (changed : Call Host Request Reply State)
    {states : Host → State} {held : Set Host} {value : Reply}
    (same : changed.host = call.host ∧ changed.request = call.request)
    (hosts : ∀ host ∈ changed.hosts, host ∈ call.hosts ∨ before.Free host)
    (kept : ∀ host, host ∉ call.hosts → states host = before.states host)
    (undecided : ∀ entry ∈ before.log, entry.index ≠ index)
    (served : service.Serves call.host call.request before.states (call.result service value)
      states)
    (own : service.Explained ⟨states, before.calls.set index changed, held,
      before.log ++ [call.entry service index value]⟩ index changed) :
    service.Serial first ⟨states, before.calls.set index changed, held,
      before.log ++ [call.entry service index value]⟩ := by
  apply serial.set found changed same hosts kept _ (List.subset_append_left _ _) own
  · rw [List.map_append]
    apply List.Nodup.append serial.distinct (List.nodup_singleton _)
    intro number member same
    obtain ⟨entry, entryMember, rfl⟩ := List.mem_map.mp member
    exact undecided entry entryMember (List.mem_singleton.mp same)
  · exact .next serial.turns served
  · intro entry member
    cases List.mem_append.mp member with
    | inl earlier => exact Or.inl earlier
    | inr own => exact Or.inr ⟨value, List.mem_singleton.mp own⟩

/-- A new call changes nothing of the others. -/
theorem Serial.send (serial : service.Serial first before) (host : Host) (request : Request)
    (closes : Bool) :
    service.Serial first { before with
      calls := before.calls ++ [⟨host, request, closes, [], .sent host request⟩] } := by
  have cases : ∀ index call,
      (before.calls ++ [⟨host, request, closes, [], .sent host request⟩])[index]? = some call →
        before.calls[index]? = some call ∨ index = before.calls.length ∧
          call = ⟨host, request, closes, [], .sent host request⟩ := by
    intro index call found
    rw [List.getElem?_append] at found
    split at found
    · exact Or.inl found
    · obtain ⟨bound, rfl⟩ := List.getElem?_eq_some_iff.mp found
      rw [List.length_singleton] at bound
      exact Or.inr ⟨by omega, by simp⟩
  constructor
  · intro index call found
    cases cases index call found with
    | inl old => exact serial.explained index call old
    | inr new =>
        obtain ⟨rfl, rfl⟩ := new
        apply And.intro .here
        intro entry member same
        obtain ⟨other, otherFound, _⟩ := serial.known entry member
        rw [same] at otherFound
        exact (List.getElem?_eq_some_iff.mp otherFound).1.ne rfl
  · intro index other call otherCall found otherFound place busy otherBusy
    cases cases index call found with
    | inr new =>
        obtain ⟨_, rfl⟩ := new
        simp [Call.hosts, Stage.server] at busy
    | inl old =>
        cases cases other otherCall otherFound with
        | inr new =>
            obtain ⟨_, rfl⟩ := new
            simp [Call.hosts, Stage.server] at otherBusy
        | inl otherOld => exact serial.exclusive _ _ _ _ old otherOld place busy otherBusy
  · intro entry member
    obtain ⟨other, otherFound, sent⟩ := serial.known entry member
    have bound := (List.getElem?_eq_some_iff.mp otherFound).1
    exact ⟨other, (List.getElem?_append_left bound).trans otherFound, sent⟩
  · exact serial.distinct
  · exact serial.turns

theorem serial_of_step (serial : service.Serial first before)
    (stepped : service.Step before event after) : service.Serial first after := by
  cases stepped with
  | send host request closes => exact serial.send host request closes
  | @refuse index call host request found sent absent =>
      have explained := serial.explained index call found
      simp only [Explained, sent] at explained
      apply serial.decide found _ (same_receive _) _ (fun _ _ => rfl) explained.2
        (explained.1.serves (.absent absent))
      · exact explained_receive (List.mem_append_right _ (List.mem_singleton_self _))
      · exact fun host busy => Or.inl (hosts_receive busy)
  | @reply index call host request value found sent free handled =>
      have explained := serial.explained index call found
      simp only [Explained, sent] at explained
      apply serial.decide found { call with stage := .answered host value } ⟨rfl, rfl⟩ _
        (fun _ _ => rfl) explained.2
        (explained.1.serves (.reply handled))
      · exact List.mem_append_right _ (List.mem_singleton_self _)
      · intro place busy
        simp only [Call.hosts, Stage.server, Option.toList_some, List.singleton_append,
          List.mem_cons] at busy
        cases busy with
        | inl same => exact Or.inr (same ▸ free)
        | inr frame => exact Or.inl (List.mem_append_right _ frame)
  | @execute index call host request operation found sent free handled =>
      have explained := serial.explained index call found
      simp only [Explained, sent] at explained
      apply serial.set found { call with stage := .executing host _ _ } ⟨rfl, rfl⟩ _
        (fun _ _ => rfl) (fun _ => Or.inl) (List.Subset.refl _) _ serial.distinct serial.turns
      · intro place busy
        simp only [Call.hosts, Stage.server, Option.toList_some, List.singleton_append,
          List.mem_cons] at busy
        cases busy with
        | inl same => exact Or.inr (same ▸ free)
        | inr frame => exact Or.inl (List.mem_append_right _ frame)
      · exact ⟨⟨request, operation, explained.1, handled, rfl⟩, explained.2⟩
  | @forward index call host gateway request next found sent free handled =>
      have explained := serial.explained index call found
      simp only [Explained, sent] at explained
      apply serial.set found
        { call with frames := (host, request) :: call.frames, stage := .sent gateway next }
        ⟨rfl, rfl⟩ _ (fun _ _ => rfl) (fun _ => Or.inl) (List.Subset.refl _) _ serial.distinct
        serial.turns
      · intro place busy
        simp only [Call.hosts, Stage.server, Option.toList_none, List.nil_append, List.map_cons,
          List.mem_cons] at busy
        cases busy with
        | inl same => exact Or.inr (same ▸ free)
        | inr frame => exact Or.inl (List.mem_append_right _ frame)
      · exact ⟨.forward explained.1 handled, explained.2⟩
  | @finish index call host value state found begun =>
      have explained := serial.explained index call found
      simp only [Explained, begun] at explained
      obtain ⟨⟨request, operation, path, handled, computed⟩, undecided⟩ := explained
      have executed : service.Serves host request before.states _ _ := .execute handled
      have served := path.serves executed
      rw [computed] at served
      have same : call.hosts = ({ call with stage := .answered host value } :
          Call Host Request Reply State).hosts := by
        simp [Call.hosts, Stage.server, begun]
      apply serial.decide found { call with stage := .answered host value } ⟨rfl, rfl⟩ _ _
        undecided served
      · exact List.mem_append_right _ (List.mem_singleton_self _)
      · intro place busy
        rw [same]
        exact Or.inl busy
      · intro place idle
        apply Function.update_of_ne
        intro equal
        apply idle
        simp [Call.hosts, Stage.server, begun, equal]
  | @answer index call host value found decided sends =>
      have explained := serial.explained index call found
      simp only [Explained, decided] at explained
      apply serial.set found _ (same_receive _) _ (fun _ _ => rfl) (fun _ => Or.inl)
        (List.Subset.refl _) _ serial.distinct serial.turns
      · exact fun host busy => Or.inl (hosts_receive busy)
      · exact explained_receive explained

end Steps

/-! ## Runs -/

theorem serial_of_run {states : Host → State} {last : Situation Host Request Reply State}
    {events : List (CallEvent Host Request)}
    (run : Run service.Step { states } events last) : service.Serial states last := by
  apply run.keeps fun _ _ _ serial stepped => serial_of_step serial stepped
  constructor
  · intro index call found
    simp at found
  · intro index other call otherCall found
    simp at found
  · intro entry member
    cases member
  · exact List.nodup_nil
  · exact .none

/-- A call stays the call that was sent, and one that is done stays as it is. -/
theorem kept_of_step {before after : Situation Host Request Reply State}
    {event : CallEvent Host Request} (stepped : service.Step before event after) {index : Nat}
    {call : Call Host Request Reply State} (found : before.calls[index]? = some call) :
    ∃ other, after.calls[index]? = some other ∧ other.host = call.host ∧
      other.request = call.request ∧ other.closes = call.closes ∧
        ∀ value, call.stage = .done value → other = call := by
  have bound := (List.getElem?_eq_some_iff.mp found).1
  have replaced : ∀ (moved : Nat) (old new : Call Host Request Reply State),
      before.calls[moved]? = some old → (∀ value, old.stage ≠ .done value) →
        new.host = old.host → new.request = old.request → new.closes = old.closes →
          ∃ other, (before.calls.set moved new)[index]? = some other ∧ other.host = call.host ∧
            other.request = call.request ∧ other.closes = call.closes ∧
              ∀ value, call.stage = .done value → other = call := by
    intro moved old new movedFound unfinished host request closes
    by_cases same : moved = index
    · subst same
      rw [found] at movedFound
      cases movedFound
      exact ⟨new, List.getElem?_set_self bound, host, request, closes,
        fun value done => absurd done (unfinished value)⟩
    · exact ⟨call, (List.getElem?_set_ne same).trans found, rfl, rfl, rfl, fun _ _ => rfl⟩
  cases stepped with
  | send _ _ _ =>
      exact ⟨call, (List.getElem?_append_left bound).trans found, rfl, rfl, rfl, fun _ _ => rfl⟩
  | refuse movedFound sent _ =>
      exact replaced _ _ _ movedFound (by simp [sent]) (same_receive _).1 (same_receive _).2
        (closes_receive _)
  | reply movedFound sent _ _ | execute movedFound sent _ _ | forward movedFound sent _ _ =>
      exact replaced _ _ _ movedFound (by simp [sent]) rfl rfl rfl
  | finish movedFound begun => exact replaced _ _ _ movedFound (by simp [begun]) rfl rfl rfl
  | answer movedFound decided _ =>
      exact replaced _ _ _ movedFound (by simp [decided]) (same_receive _).1 (same_receive _).2
        (closes_receive _)

theorem log_of_step {before after : Situation Host Request Reply State}
    {event : CallEvent Host Request} (stepped : service.Step before event after) :
    before.log <+: after.log := by
  cases stepped with
  | send _ _ _ | execute _ _ _ _ | forward _ _ _ _ | answer _ _ _ => exact List.prefix_rfl
  | refuse _ _ _ | reply _ _ _ _ | finish _ _ => exact List.prefix_append _ _

theorem log_of_run {before after : Situation Host Request Reply State}
    {events : List (CallEvent Host Request)} (run : Run service.Step before events after) :
    before.log <+: after.log := by
  induction run with
  | stay situation => exact List.prefix_rfl
  | next stepped _ inductionHypothesis => exact (log_of_step stepped).trans inductionHypothesis

/-- A call that has its reply got it in its turn. -/
theorem Serial.entry_of_done {states : Host → State}
    {situation : Situation Host Request Reply State}
    (serial : service.Serial states situation) {index : Nat}
    {call : Call Host Request Reply State} {value : Reply}
    (found : situation.calls[index]? = some call) (done : call.stage = .done value) :
    ⟨index, call.host, call.request, value⟩ ∈ situation.log := by
  have explained := serial.explained index call found
  simp only [Explained, done, Call.entry, Call.result] at explained
  rw [explained.1] at explained
  exact explained.2

/-- Each of the calls has been served in its turn. -/
theorem ServedInTurn.serves {first last : Host → State} {log : List (Entry Host Request Reply)}
    (turns : service.ServedInTurn first log last) {entry : Entry Host Request Reply}
    (member : entry ∈ log) :
    ∃ states after, service.Serves entry.host entry.request states entry.value after := by
  induction turns with
  | none => cases member
  | next _ served inductionHypothesis =>
      cases List.mem_append.mp member with
      | inl earlier => exact inductionHypothesis earlier
      | inr own =>
          rw [List.mem_singleton.mp own]
          exact ⟨_, _, served⟩

theorem Serial.index_lt {states : Host → State} {situation : Situation Host Request Reply State}
    (serial : service.Serial states situation) {entry : Entry Host Request Reply}
    (member : entry ∈ situation.log) : entry.index < situation.calls.length := by
  obtain ⟨call, found, _⟩ := serial.known entry member
  exact (List.getElem?_eq_some_iff.mp found).1

end Service

end OpenWorkloadScheduler.Foundations
