import Mathlib.Data.List.AList
import OpenWorkloadScheduler.Rpc.Model

/-!
# The configuration of a node

The parameters read from the configuration file, and the two attributes of
`Config` beside them.  Nothing assigns `Config::master_node`.
-/

namespace OpenWorkloadScheduler

open Rpc

inductive ERunningMode where
  | p2p
  | active
  | passive
  deriving DecidableEq, Repr

structure Config where
  configOptions : AList fun _ : String => String
  runningMode : ERunningMode := .active
  masterNode : String := ""

namespace Config

/-- `Config::get_param`; NULL is `none`. -/
def getParam (config : Config) (field : String) : Option String :=
  config.configOptions.lookup field

/-- `*get_param(field)`, where the source does not test for NULL. -/
def param (config : Config) (field : String) : Except Raised String :=
  match config.getParam field with
  | some value => .ok value
  | none => .error (.undefinedBehaviour ("get_param(" ++ field ++ ")"))

theorem param_of_getParam {config : Config} {field value : String}
    (present : config.getParam field = some value) :
    config.param field = .ok value := by
  rw [param, present]

theorem param_eq_ok_iff {config : Config} {field value : String} :
    config.param field = .ok value ↔ config.getParam field = some value := by
  constructor
  · intro read
    unfold param at read
    split at read
    · rename_i found present
      cases read
      exact present
    · cases read
  · exact param_of_getParam

end Config

end OpenWorkloadScheduler
