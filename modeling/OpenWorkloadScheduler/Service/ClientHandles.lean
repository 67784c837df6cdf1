import OpenWorkloadScheduler.Service.PlanningHandlers

/-!
# The client of the handlers

The handlers of a node share one client, which holds at most one handler of a
remote service.  A handler of the node that forwards a call opens the client and
closes it after the call; it catches one type of exception and closes the client
there as well.  Six of them return the result of the call itself, and the
statement that closes the client is never reached.
-/

namespace OpenWorkloadScheduler

open Rpc Foundations

/-! ## The class `Rpc_Client` -/

/-- A call of a method of the client. -/
inductive ClientCall where
  | opened (hostname : String)
  | closed
  deriving DecidableEq, Repr

/-- The host of the handler, `none` for NULL, and the calls made so far. -/
structure RpcClient where
  handler : Option String := none
  calls : List ClientCall := []
  deriving DecidableEq, Repr

abbrev ClientAction :=
  EStateM Raised RpcClient

namespace RpcClient

/-- `Rpc_Client::open`.  A handler that is there is overwritten. -/
def openHost (hostname : String) : ClientAction Unit :=
  modify fun client =>
    { handler := some hostname, calls := client.calls ++ [.opened hostname] }

/-- `Rpc_Client::close`. -/
def closeHandler : ClientAction Unit :=
  modify fun client => { handler := none, calls := client.calls ++ [.closed] }

end RpcClient

/-! ## Remote calls -/

inductive ExceptionKind where
  | exRouting
  | exNode
  | exJob
  | exPlanning
  | exProcessing
  deriving DecidableEq, Repr

/-- How a remote call ends: with a normal result or with an exception of the service. -/
inductive RemoteOutcome where
  | returns
  | raises (kind : ExceptionKind) (msg : String)
  deriving DecidableEq, Repr

def ExceptionKind.raised (msg : String) : ExceptionKind → Raised
  | exRouting => .exRouting msg
  | exNode => .exNode msg
  | exJob => .exJob msg
  | exPlanning => .exPlanning msg
  | exProcessing => .exProcessing msg

def ExceptionKind.catches : ExceptionKind → Raised → Bool
  | exRouting, .exRouting _ => true
  | exNode, .exNode _ => true
  | exJob, .exJob _ => true
  | exPlanning, .exPlanning _ => true
  | exProcessing, .exProcessing _ => true
  | _, _ => false

theorem ExceptionKind.catches_raised (caught kind : ExceptionKind) (msg : String) :
    caught.catches (kind.raised msg) = true ↔ kind = caught := by
  cases caught <;> cases kind <;> simp [catches, raised]

def RemoteOutcome.run : RemoteOutcome → ClientAction Unit
  | returns => pure ()
  | raises kind msg => throw (kind.raised msg)

/-- The statement by which a handler forwards a call: the host that it opens, the
exception that it catches, and whether it closes the client before it returns. -/
structure RemoteCall where
  hostname : String
  caught : ExceptionKind
  closesOnReturn : Bool

def RemoteCall.perform (remote : RemoteCall) (outcome : RemoteOutcome) : ClientAction Unit :=
  tryCatch
    (do
      RpcClient.openHost remote.hostname
      outcome.run
      if remote.closesOnReturn then RpcClient.closeHandler)
    fun raised => do
      if remote.caught.catches raised then RpcClient.closeHandler
      throw raised

/-- The handlers of the requests about jobs that are not selections, and those of the
monitoring, stand with their `return` before `close`. -/
def Request.remoteCall (gateway : String) : Request → RemoteCall
  | .addNode _ _ => ⟨gateway, .exNode, true⟩
  | .removeNode _ _ => ⟨gateway, .exNode, true⟩
  | .getNode _ _ => ⟨gateway, .exNode, true⟩
  | .getNodes _ => ⟨gateway, .exNode, true⟩
  | .getJobs _ => ⟨gateway, .exJob, true⟩
  | .getReadyJobs _ => ⟨gateway, .exJob, true⟩
  | .getJob _ _ => ⟨gateway, .exJob, true⟩
  | .addJob _ _ => ⟨gateway, .exJob, false⟩
  | .updateJob _ _ => ⟨gateway, .exJob, false⟩
  | .removeJob _ _ => ⟨gateway, .exJob, false⟩
  | .updateJobState _ _ => ⟨gateway, .exJob, false⟩
  | .monitorFailedJobs _ => ⟨gateway, .exJob, false⟩
  | .monitorWaitingJobs _ => ⟨gateway, .exJob, false⟩

/-- The remote call that a handler makes, if it forwards.  What `hello` opens is the
target and not the gateway. -/
def ServiceCall.remoteCall (config : Config) (router : Router) :
    ServiceCall → Except Raised (Option RemoteCall)
  | .hello targetNode => do
      match ← OpenWorkloadScheduler.hello config router targetNode with
      | .inl _ => return none
      | .inr hostname => do
          let _ ← Handlers.port config
          return some ⟨hostname, .exRouting, true⟩
  | .reachMaster => do
      let _ ← answerReachMaster config router
      return none
  | .planning request => do
      match ← Handlers.handlePlanning config router request with
      | .forward gateway _ => return some ⟨gateway, .exPlanning, true⟩
      | _ => return none
  | .routed request => do
      match ← Handlers.handle config router request with
      | .forward gateway forwarded => return some (forwarded.remoteCall gateway)
      | _ => return none

/-- A call that a node serves, with what its handler finds then and the outcome of
the remote call, if it makes one. -/
structure ServedCall where
  config : Config
  router : Router
  call : ServiceCall
  outcome : RemoteOutcome

/-- The part of a handler that concerns the client. -/
def ServedCall.run (served : ServedCall) : ClientAction Unit :=
  match served.call.remoteCall served.config served.router with
  | .error raised => throw raised
  | .ok none => pure ()
  | .ok (some remote) => remote.perform served.outcome

namespace RpcClient

/-- The client when the handler is left, normally or by an exception. -/
def serve (client : RpcClient) (served : ServedCall) : RpcClient :=
  finalState (served.run client)

def serveAll (client : RpcClient) (calls : List ServedCall) : RpcClient :=
  calls.foldl serve client

end RpcClient

/-! ## CallsMatched calls -/

/-- Each opening is followed by its own closing. -/
inductive CallsMatched : List ClientCall → Prop where
  | nil : CallsMatched []
  | pair {rest : List ClientCall} (hostname : String) :
      CallsMatched rest → CallsMatched (.opened hostname :: .closed :: rest)

theorem CallsMatched.append_iff {first rest : List ClientCall} (matched : CallsMatched first) :
    CallsMatched (first ++ rest) ↔ CallsMatched rest := by
  induction matched with
  | nil => rfl
  | pair hostname _ inductionHypothesis =>
      rw [← inductionHypothesis]
      constructor
      · rintro ⟨⟩
        assumption
      · exact .pair hostname

/-- The client holds no handler, and each call of `open` so far has its `close`. -/
structure RpcClient.Closed (client : RpcClient) : Prop where
  free : client.handler = none
  matched : CallsMatched client.calls

/-- The outcomes after which the statement has closed the client again: the exception
that it catches, and a normal result where it closes before it returns. -/
def RemoteCall.closesAfter (remote : RemoteCall) : RemoteOutcome → Bool
  | .returns => remote.closesOnReturn
  | .raises kind _ => kind = remote.caught

/-- The handler does not forward, or closes the client after this outcome. -/
def ServedCall.ClosesAgain (served : ServedCall) : Prop :=
  ∀ remote, served.call.remoteCall served.config served.router = .ok (some remote) →
    remote.closesAfter served.outcome = true

namespace RpcClient

/-! ## One call -/

theorem finalState_perform (client : RpcClient) (remote : RemoteCall)
    (outcome : RemoteOutcome) :
    finalState (remote.perform outcome client) =
      if remote.closesAfter outcome = true then
        ⟨none, client.calls ++ [.opened remote.hostname] ++ [.closed]⟩
      else ⟨some remote.hostname, client.calls ++ [.opened remote.hostname]⟩ := by
  obtain ⟨hostname, caught, closesOnReturn⟩ := remote
  cases outcome with
  | returns => cases closesOnReturn <;> rfl
  | raises kind msg => cases caught <;> cases kind <;> rfl

/-- From a client that is closed, the call leaves it closed exactly where nothing is
opened or the outcome is one after which it is closed again. -/
theorem closed_serve_iff {client : RpcClient} (closed : client.Closed) (served : ServedCall) :
    (client.serve served).Closed ↔ served.ClosesAgain := by
  unfold serve ServedCall.run ServedCall.ClosesAgain
  match served.call.remoteCall served.config served.router with
  | .error raised => exact iff_of_true closed nofun
  | .ok none => exact iff_of_true closed nofun
  | .ok (some remote) =>
      dsimp only
      rw [finalState_perform]
      constructor
      · rintro ⟨free, _⟩ _ ⟨⟩
        by_contra fails
        rw [if_neg fails] at free
        cases free
      · intro closes
        rw [if_pos (closes remote rfl)]
        refine ⟨rfl, ?_⟩
        rw [List.append_assoc, closed.matched.append_iff]
        exact .pair _ .nil

/-! ## All calls -/

theorem closed_along_iff {client : RpcClient} (closed : client.Closed)
    (calls : List ServedCall) :
    (∀ made, made <+: calls → (client.serveAll made).Closed) ↔
      ∀ served ∈ calls, served.ClosesAgain := by
  induction calls generalizing client with
  | nil =>
      refine iff_of_true (fun made initial => ?_) (List.forall_mem_nil _)
      rw [List.prefix_nil.mp initial]
      exact closed
  | cons served calls inductionHypothesis =>
      rw [List.forall_mem_cons, ← closed_serve_iff closed]
      constructor
      · intro throughout
        have next : (client.serve served).Closed := throughout [served] ⟨calls, rfl⟩
        refine ⟨next, (inductionHypothesis next).mp fun made initial => ?_⟩
        exact throughout (served :: made) (List.cons_prefix_cons.mpr ⟨rfl, initial⟩)
      · rintro ⟨next, later⟩ made initial
        rcases List.prefix_cons_iff.mp initial with rfl | ⟨rest, rfl, within⟩
        · exact closed
        · exact (inductionHypothesis next).mpr later rest within

/-- In every run of calls from a fresh client, the client is closed before the first call
and after each of them, with one `close` for each `open`, if and only if each handler
closes it again. -/
theorem closed_throughout_iff (calls : List ServedCall) :
    (∀ made, made <+: calls → (serveAll {} made).Closed) ↔
      ∀ served ∈ calls, served.ClosesAgain :=
  closed_along_iff ⟨rfl, .nil⟩ calls

/-- A node that asks another one for the number of its failed jobs, and gets it. -/
def monitoringCall : ServedCall where
  config := { configOptions := [⟨"node_name", "first"⟩, ⟨"port", "8080"⟩].toAList }
  router := Router.insertRoute {} "second" "second" 0
  call := .routed (.monitorFailedJobs
    { callingNode := { name := "client", domainName := "prod" }
      targetNode := { name := "second", domainName := "prod" } })
  outcome := .returns

theorem serve_monitoringCall :
    serve {} monitoringCall = ⟨some "second", [.opened "second"]⟩ := by
  rfl

/-- The handler returns the result of the call before it closes the client. -/
theorem client_left_open :
    ¬ ∀ calls made, made <+: calls → (serveAll {} made).Closed := by
  intro always
  have closed := always [monitoringCall] [monitoringCall] ⟨[], rfl⟩
  have free : (serve {} monitoringCall).handler = none := closed.free
  rw [serve_monitoringCall] at free
  cases free

end RpcClient

end OpenWorkloadScheduler
