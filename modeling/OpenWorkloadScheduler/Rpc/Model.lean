import Mathlib.Algebra.Order.Ring.Int

/-!
# The data of `model.thrift`

The structures, enumerations and exceptions that the nodes exchange.  A field
keeps its Thrift name in camel case, and the default of a field is the value
that the constructor generated by Thrift gives it.

`typedef i16 integer` is kept as an `Int` between `-2 ^ 15` and `2 ^ 15 - 1`;
`Integer.narrow` is the conversion of a wider value to it.
-/

namespace OpenWorkloadScheduler.Rpc

/-- `typedef i16 integer`. -/
abbrev Integer := Int

namespace Integer

/-- Conversion of a wider integer to `i16`, which wraps around. -/
def narrow (value : Int) : Integer :=
  value.bmod (2 ^ 16)

/-- The values an `i16` can hold. -/
def InRange (value : Int) : Prop :=
  -2 ^ 15 ≤ value ∧ value < 2 ^ 15

instance (value : Int) : Decidable (InRange value) :=
  inferInstanceAs (Decidable (_ ∧ _))

theorem narrow_eq_self_iff (value : Int) :
    narrow value = value ↔ InRange value := by
  unfold narrow InRange
  constructor
  · intro unchanged
    have lower := @Int.le_bmod value (2 ^ 16) (by decide)
    have upper := @Int.bmod_lt value (2 ^ 16) (by decide)
    rw [unchanged] at lower upper
    omega
  · rintro ⟨lower, upper⟩
    exact Int.bmod_eq_of_le (by omega) (by omega)

end Integer

inductive EJobState where
  | waiting
  | running
  | succeded
  | failed
  deriving DecidableEq, Repr

inductive ERectypeAction where
  | restart
  | stopSchedule
  deriving DecidableEq, Repr

inductive ETimeConstraintType where
  | at
  | before
  | after
  deriving DecidableEq, Repr

structure TResource where
  name : String := ""
  currentValue : Integer := 0
  initialValue : Integer := 0
  deriving DecidableEq, Repr

structure TTimeConstraint where
  jobName : String := ""
  type : ETimeConstraintType := .at
  value : Int := 0
  deriving DecidableEq, Repr

structure TRecoveryType where
  id : Integer := 0
  shortLabel : String := ""
  label : String := ""
  action : ERectypeAction := .restart
  deriving DecidableEq, Repr

structure TJob where
  startTime : Int := 0
  stopTime : Int := 0
  returnCode : Integer := 0
  state : EJobState := .waiting
  name : String := ""
  nodeName : String := ""
  domain : String := ""
  cmdLine : String := ""
  weight : Integer := 0
  prv : List String := []
  nxt : List String := []
  timeConstraints : List TTimeConstraint := []
  recoveryType : TRecoveryType := {}
  deriving DecidableEq, Repr

structure TNode where
  name : String := ""
  weight : Integer := 0
  domainName : String := ""
  resources : List TResource := []
  jobs : List TJob := []
  deriving DecidableEq, Repr

structure TDay where
  beginTime : Int := 0
  duration : Integer := 0
  deriving DecidableEq, Repr

structure TPlanning where
  day : TDay := {}
  nodes : List TNode := []
  deriving DecidableEq, Repr

structure THello where
  domain : String := ""
  name : String := ""
  isMaster : Bool := false
  deriving DecidableEq, Repr

structure TRoute where
  destinationNode : TNode := {}
  hops : Integer := 0
  deriving DecidableEq, Repr

structure TRoutingData where
  callingNode : TNode := {}
  targetNode : TNode := {}
  ttl : Integer := 0
  deriving DecidableEq, Repr

/-- How a call can be left other than by returning.  Beside the exceptions of
the service and those of the libraries there are two ends that no handler
catches: undefined behaviour, and waiting for a mutex that is never released. -/
inductive Raised where
  | exRouting (msg : String)
  | exJob (msg : String)
  | exNode (msg : String)
  | exPlanning (msg : String)
  | exProcessing (msg : String)
  | standard (what : String)
  | undefinedBehaviour (what : String)
  | blocked
  deriving DecidableEq, Repr

end OpenWorkloadScheduler.Rpc
