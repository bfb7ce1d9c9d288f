import ActorScript.Trace
import ActorScript.Verify.Finding

/-!
# Boundaries of instructions and records

No target may be an operand word of an instruction that is reached, and every
data record has to lie inside the stream and apart from such instructions.

Both tests look at the nearest instruction that starts below an offset.  They
need not look back further than the longest instruction is long.
-/

namespace ActorScript.Verify

/-- The length of the longest instruction. -/
def longest (trace : Trace) : Nat :=
  trace.starts.foldl (fun longest _ length => max longest length) 0

/-- The instruction with the largest offset below `limit`, with its length, if
one starts among the `window` offsets there. -/
def nearestBelow (trace : Trace) : (window limit : Nat) → Option (Nat × Nat)
  | 0, _ | _ + 1, 0 => none
  | window + 1, limit + 1 =>
      match trace.starts[limit]? with
      | some length => some (limit, length)
      | none => nearestBelow trace window limit

/-- The nearest instruction below an offset, when the offset is one of its
operand words. -/
def enclosing (trace : Trace) (window offset : Nat) : Option Nat :=
  match nearestBelow trace window offset with
  | none => none
  | some (start, length) => if start + length > offset then some start else none

/-- The finding about a `switch` with too many cases. -/
def caseFindings (instruction : Instruction) : List Finding :=
  match instruction.opcode with
  | .switch =>
      let count := (instruction.operands.size - Opcode.switchHeader) / 2
      if count > maxCases then [.switchTooLarge instruction.offset count] else []
  | _ => []

/-- The findings about the targets of an instruction. -/
def targetFindings (code : Array Word) (trace : Trace) (window : Nat)
    (instruction : Instruction) : List Finding :=
  (instruction.successors code).filterMap fun word =>
    match word.offset? with
    | none => none
    | some target =>
        match enclosing trace window target with
        | none => none
        | some within => some (.misalignedTarget instruction.offset target within)

/-- The finding about a data record, if any. -/
def recordFinding (size : Nat) (trace : Trace) (window : Nat) (record : RecordRef) :
    Option Finding :=
  match record.offset.offset? with
  | none => some (.recordOutOfRange record.source record.offset record.kind)
  | some start =>
      let stop := start + record.kind.length
      if stop ≤ size then
        match nearestBelow trace (window + record.kind.length) stop with
        | none => none
        | some (nearest, length) =>
            if nearest + length > start then
              some (.recordOverlapsCode record.source record.offset record.kind)
            else none
      else some (.recordOutOfRange record.source record.offset record.kind)

/-- The reached instructions, in the order of their offsets. -/
def instructions (code : Array Word) (trace : Trace) : List Instruction :=
  trace.starts.keys.filterMap fun offset =>
    match Instruction.decode code offset with
    | .ok instruction => some instruction
    | .error _ => none

/-- What is wrong with the boundaries of instructions and records. -/
def structureFindings (code : Array Word) (trace : Trace) : List Finding :=
  let window := longest trace
  (instructions code trace).flatMap (fun instruction =>
    caseFindings instruction ++ targetFindings code trace window instruction) ++
  trace.records.toList.filterMap (recordFinding code.size trace window)

end ActorScript.Verify
