/-!
The phases of one run.
-/

namespace BoxSearch

/-- Where a run stands. It goes through the phases in this order; a run that fails is
`terminated` and never reaches `resultAvailable`. -/
inductive Phase where
  | uninitialized
  | initialized
  | running
  | terminated
  | resultAvailable
deriving Repr, BEq, DecidableEq

def Phase.name : Phase → String
  | uninitialized => "uninitialized"
  | initialized => "initialized"
  | running => "running"
  | terminated => "terminated"
  | resultAvailable => "result_available"

end BoxSearch
