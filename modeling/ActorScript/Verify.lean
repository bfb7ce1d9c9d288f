import ActorScript.Verify.Reach
import ActorScript.Verify.Variables

/-!
# Verification

A program is verified before any entity runs it.  `Verify.findings` lists all
that is wrong with it: first its sizes, then its entries and the control flow
from them, then the boundaries of instructions and records, and last its
variables.
-/

namespace ActorScript

/-- Everything that is wrong with a program. -/
def Verify.findings (program : Program) : List Verify.Finding :=
  let trace := Verify.reached program
  Verify.limitFindings program ++ Verify.entryFindings program ++
    Verify.flowFindings program.code.size trace ++
    Verify.structureFindings program.code trace ++
    Verify.variableFindings program trace

/-- Nothing is wrong with a program. -/
def Program.Verified (program : Program) : Prop :=
  Verify.findings program = []

instance (program : Program) : Decidable program.Verified :=
  inferInstanceAs (Decidable (Verify.findings program = []))

end ActorScript
