import Runbook.EngineError

/-!
# Faults on purpose

A store can be made to fail: a rule lets some calls of a kind through and fails
some after them. A new rule for a kind replaces the old one.
-/

namespace Runbook

/-- How calls of one kind fail. -/
structure FaultRule where
  /-- how many calls are let through -/
  skip : Nat
  /-- how many calls fail after them; `none` for all -/
  times : Option Nat
  deriving DecidableEq, Repr

namespace FaultRule

/-- Whether the next call fails, and the rule after it. -/
def next : FaultRule → Bool × FaultRule
  | ⟨skip + 1, times⟩ => (false, ⟨skip, times⟩)
  | ⟨0, none⟩ => (true, ⟨0, none⟩)
  | ⟨0, some 0⟩ => (false, ⟨0, some 0⟩)
  | ⟨0, some (times + 1)⟩ => (true, ⟨0, some times⟩)

end FaultRule

/-- A rule for some kinds of calls; the others never fail on purpose. -/
abbrev Faults := List (StoreCall × FaultRule)

namespace Faults

/-- Whether the next call of a kind fails, and the rules after it. -/
def next (call : StoreCall) : Faults → Bool × Faults
  | [] => (false, [])
  | (c, rule) :: rest =>
    if c = call then (rule.next.1, (c, rule.next.2) :: rest)
    else ((next call rest).1, (c, rule) :: (next call rest).2)

/-- Give calls of a kind a rule. -/
def put (fs : Faults) (call : StoreCall) (rule : FaultRule) : Faults :=
  (call, rule) :: fs.filter fun f => f.1 ≠ call

end Faults

end Runbook
