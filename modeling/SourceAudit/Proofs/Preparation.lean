import SourceAudit.Monitor.GoRun
import SourceAudit.Monitor.JavaRun
import SourceAudit.Proofs.Effects

/-!
# The preparation of a watched run

Before a program is run it is built, and its sources, libraries and project are looked for.
-/

namespace SourceAudit.Monitor

open Outside Outside.Audit

/-! ## Looking for libraries -/

namespace Java

theorem looks_librariesBelow (dir : String) : Looks (librariesBelow dir) := by
  refine .bind (.isDirectory dir) fun f => ?_
  split
  · exact .pure _
  · exact .bind (.walk dir) fun _ => .pure _

theorem looks_projectLibraries (root : String) (dirs : Value) :
    Looks (projectLibraries root dirs) := by
  unfold projectLibraries
  split
  · exact .pure _
  · refine .bind (.ofOutcome _) fun nms => .bind (.mapM (fun nm => ?_) nms) fun _ => .pure _
    split
    · exact .pure _
    · split
      · exact looks_librariesBelow _
      · exact .throw _

theorem looks_distinctExisting (es : List String) : Looks (distinctExisting es) :=
  .looking (fun _ _ => rfl) fun _ => .pure _

end Java

/-! ## Building -/

section Building

variable {part : Type} {view : Session → part}

variable [Unfiled view]

variable (commands : ∀ cmd dir lim, Leaves view (Audit.finish cmd dir lim))

include commands

end Building

end SourceAudit.Monitor
