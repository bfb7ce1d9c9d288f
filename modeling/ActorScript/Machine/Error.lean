import ActorScript.Instruction

/-!
# Runtime errors

What ends a run for good.  These are faults of a program; a frame that runs
into a limit or an unknown opcode is only stopped.
-/

namespace ActorScript

/-- A fault of a program found while running it. -/
inductive RuntimeError where
  | divisionByZero (offset : Nat)
  | moduloByZero (offset : Nat)
  /-- The cursor has left the stream. -/
  | cursorOutOfRange (cursor length : Nat)
  /-- A target lies outside the stream. -/
  | badTarget (offset : Nat) (target : Word)
  /-- A record operand lies outside the stream. -/
  | recordOutOfRange (offset : Nat) (record : Word)
  /-- The current action of an entity is no record of the stream. -/
  | badActionRecord (record : Word)
  /-- No instruction can be read at the cursor. -/
  | unreadable (fault : Instruction.Fault)
deriving DecidableEq, Repr

/-- The text of a runtime error. -/
def RuntimeError.message : RuntimeError → String
  | .divisionByZero offset => s!"division by zero at offset {offset}"
  | .moduloByZero offset => s!"modulo by zero at offset {offset}"
  | .cursorOutOfRange cursor length =>
      s!"cursor {cursor} is outside the instruction stream (length {length})"
  | .badTarget offset target =>
      s!"target {target} of instruction at offset {offset} is outside the instruction stream"
  | .recordOutOfRange offset record =>
      s!"record at {record} referenced from offset {offset} is out of range"
  | .badActionRecord record => s!"action record at {record} is out of range"
  | .unreadable fault => fault.message

end ActorScript
