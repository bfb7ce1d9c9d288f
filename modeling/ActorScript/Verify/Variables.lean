import ActorScript.Program
import ActorScript.Verify.Structure
import Std.Data.HashSet

/-!
# Uses of variables

Names of variables are distinct, every variable operand of a reached
instruction is declared, and a variable of another entity is an actor variable.
-/

namespace ActorScript.Verify

/-- The scope of the variable that a word identifies. -/
def scopeOf? (program : Program) (id : Word) : Option Scope :=
  match id.offset? with
  | none => none
  | some index => (program.vars[index]?).map (·.scope)

/-- The names that stand behind an equal name, given the names in front. -/
def repeated : List String → Std.HashSet String → Array String → Array String
  | [], _, found => found
  | name :: rest, seen, found =>
      if seen.contains name then repeated rest seen (found.push name)
      else repeated rest (seen.insert name) found

/-- The findings about repeated declarations. -/
def declarationFindings (program : Program) : List Finding :=
  (repeated (program.vars.toList.map (·.name)) {} #[]).toList.map .duplicateVariable

/-- An operand word of the given kind has to identify a variable. -/
def identifiesVariable (kind : OperandKind) (word : Word) : Bool :=
  match kind with
  | .var => true
  | .handle => word != selfHandle
  | _ => false

/-- The findings about undeclared variables in an instruction. -/
def operandFindings (program : Program) (instruction : Instruction) : List Finding :=
  instruction.opcode.operands.zipIdx.filterMap fun (kind, index) =>
    let id := instruction.operand index
    if identifiesVariable kind id && (scopeOf? program id).isNone then
      some (.unknownVariable instruction.offset id)
    else none

/-- The finding about a variable of another entity. -/
def scopeFindings (program : Program) (instruction : Instruction) : List Finding :=
  match instruction.opcode with
  | .getActorVariable | .setActorVariable =>
      let id := instruction.operand 1
      match scopeOf? program id with
      | some .actor | none => []
      | some _ => [.notActorScoped instruction.offset id]
  | _ => []

/-- What is wrong with the variables of a program. -/
def variableFindings (program : Program) (trace : Trace) : List Finding :=
  declarationFindings program ++
    (instructions program.code trace).flatMap fun instruction =>
      operandFindings program instruction ++ scopeFindings program instruction

end ActorScript.Verify
