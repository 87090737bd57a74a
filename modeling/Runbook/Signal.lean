/-!
# Cancel signals

Every run has a signal that stops it. The first reason that is given stays; a
signal can also fire without any.
-/

namespace Runbook

/-- The signal that cancels a run. -/
structure Signal where
  /-- whether it has fired -/
  fired : Bool
  /-- the first reason given -/
  note : Option String
  deriving DecidableEq, Repr

namespace Signal

/-- A signal that has not fired. -/
def quiet : Signal := ⟨false, none⟩

instance : Inhabited Signal := ⟨quiet⟩

/-- Fire with a reason; an earlier reason stays. -/
def cancel (s : Signal) (reason : String) : Signal := ⟨true, s.note.or (some reason)⟩

/-- Fire without a reason. -/
def fire (s : Signal) : Signal := { s with fired := true }

/-- The reason that failures give. -/
def reason (s : Signal) : String := s.note.getD "canceled"

@[simp] theorem fired_cancel (s : Signal) (r : String) : (s.cancel r).fired = true := rfl

@[simp] theorem fired_fire (s : Signal) : s.fire.fired = true := rfl

/-- A later reason changes nothing. -/
@[simp] theorem reason_cancel_cancel (s : Signal) (r r' : String) :
    ((s.cancel r).cancel r').reason = (s.cancel r).reason := by
  cases h : s.note <;> simp [cancel, reason, h]

end Signal

end Runbook
