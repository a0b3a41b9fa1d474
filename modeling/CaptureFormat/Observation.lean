import CaptureFormat.Directive
import CaptureFormat.Fault

namespace CaptureFormat

/-!
# Observations

While a template is worked off, an observer is told of every argument that is
used, with the name of its field and its position, and of every faulty
directive.  It changes a state of its own and nothing else.
-/

/-- One thing that an observer is told. -/
inductive Observation (V : Type) where
  /-- An argument was used under this name; an unnamed one has the empty name. -/
  | value (field : String) (index : Nat) (argument : V)
  /-- A directive was faulty. -/
  | fault (directive : Directive) (fault : Fault)
  deriving Repr, DecidableEq

/-- How the state of an observer changes with what it is told. -/
structure Observer (κ V : Type) where
  observe : κ → Observation V → κ

namespace Observer

/-- An observer that ignores everything. -/
def silent : Observer κ V where
  observe state _ := state

/-- An observer that is told of arguments only. -/
def ofValues (onValue : κ → String → Nat → V → κ) : Observer κ V where
  observe
    | state, .value field index argument => onValue state field index argument
    | state, .fault _ _ => state

/-- An observer that keeps everything in order. -/
def log : Observer (List (Observation V)) V where
  observe kept observation := kept ++ [observation]

/-- The state after several observations, in their order. -/
def observeAll (observer : Observer κ V) (state : κ) (observations : List (Observation V)) : κ :=
  observations.foldl observer.observe state

end Observer

end CaptureFormat
