import Mathlib.Data.Int.Notation
import Mathlib.Tactic.TypeStar

/-!
# Results of Case runs

The part of `CaseRunResult` of `project/execution.py` that says whether a Case has succeeded.
-/

namespace Blackbase.Project

universe u

/-- `CASE_RUN_STATUSES`. -/
inductive CaseRunStatus where
  | pending
  | running
  | succeeded
  | built
  | checked
  | resumed
  | failed
  | cancelled
  | timedOut
  | skipped
deriving DecidableEq

/-- `CASE_RUN_SUCCESS_STATUSES`. -/
def CaseRunStatus.success : CaseRunStatus → Bool
  | succeeded | built | checked | resumed => true
  | _ => false

/-- `CaseFailure`. -/
structure CaseFailure where
  kind : String
  message : String
  phase : String
deriving DecidableEq

/-- `CaseRunResult`.  The fields that a supervisor only passes on are left open. -/
structure CaseRunResult (O : Type u) where
  status : CaseRunStatus
  exitCode : ℤ
  failure : Option CaseFailure
  output : Option O
deriving DecidableEq

/-- `CaseRunResult.ok`. -/
def CaseRunResult.ok {O : Type u} (r : CaseRunResult O) : Bool :=
  r.exitCode = 0 ∧ r.status.success ∧ r.failure = none

end Blackbase.Project
