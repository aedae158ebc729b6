import SourceAudit.Proofs.Preparation
import SourceAudit.Proofs.Sightings
import SourceAudit.Proofs.WatchTimeline

/-!
# Runs of built programs

A built program is run and watched in the same way whatever it was built from, and its build leaves
the schedule of the run as it is: the process, the clock and the pauses.
-/

namespace SourceAudit.Outside.Audit

instance : Unfiled Session.schedule where
  same _ _ _ _ := rfl

end SourceAudit.Outside.Audit

namespace SourceAudit.Monitor

open Outside Outside.Audit

/-! ## Runners -/

inductive Runner where
  | go
  | java
deriving DecidableEq

namespace Runner

def title : Runner → String
  | .go => "go_result"
  | .java => "java_result"

def build : Runner → Arguments → Audit Preparation
  | .go => Go.build
  | .java => Java.build

def runDynamic : Runner → Arguments → Audit Value
  | .go => Go.runDynamic
  | .java => Java.runDynamic

end Runner

/-! ## Reports -/

namespace BuiltProgram

end BuiltProgram

end SourceAudit.Monitor
