import Runbook.Duration

/-!
# Why a node failed

* `Failure` — the causes.
* `Failure.message` — the text that becomes the result of the node.
-/

namespace Runbook

/-- Why a node failed. -/
inductive Failure where
  /-- the operation failed, or could not be asked about -/
  | taskFailed (detail : String)
  /-- the executor panicked -/
  | panicked (detail : String)
  /-- the operation was still running after so many queries -/
  | pollingTimeout (attempts : UInt32)
  /-- the run was canceled -/
  | canceled (reason : String)
  /-- the executor took longer than its limit -/
  | executorTimeout (limit : Duration)
  /-- the executor reported an error -/
  | executor (detail : String)
  /-- the history could not be written -/
  | persistence (detail : String)
  deriving DecidableEq, Repr

namespace Failure

/-- The text of a failure. -/
def message : Failure → String
  | taskFailed detail => "task failed: " ++ detail
  | panicked detail => "panic: " ++ detail
  | pollingTimeout n => "polling timed out after " ++ toString n.toNat ++ " attempts"
  | canceled reason => "task canceled: " ++ reason
  | executorTimeout limit => "executor timed out after " ++ limit.describe
  | executor detail => detail
  | persistence detail => "persistence failed: " ++ detail

/-- Whether the run was canceled. -/
def isCanceled : Failure → Bool
  | canceled _ => true
  | _ => false

end Failure

end Runbook
