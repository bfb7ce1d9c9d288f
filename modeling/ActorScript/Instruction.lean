import ActorScript.Opcode

/-!
# Decoding instructions

An instruction is read at an offset of the stream: the opcode word there and
the operand words behind it.  A `switch` carries, behind its fixed header, two
words for each case: the value and the target.

    [switch, variable, end, count, default, value, target, value, target, ...]

`Instruction.decode` reads one instruction and says why it cannot.
-/

namespace ActorScript

/-- An instruction read from a stream. -/
structure Instruction where
  opcode : Opcode
  /-- The offset of the opcode word. -/
  offset : Nat
  /-- The operand words, without the opcode word. -/
  operands : Array Word
deriving DecidableEq, Repr

namespace Instruction

/-- The reasons why no instruction can be read at an offset. -/
inductive Fault where
  /-- The offset lies outside the stream. -/
  | outOfRange (offset : Nat)
  /-- The word at the offset stands for no opcode. -/
  | unknownOpcode (offset : Nat) (word : Word)
  /-- The operands run past the end of the stream. -/
  | truncated (offset : Nat) (opcode : Opcode)
  /-- The case count of a `switch` is negative. -/
  | negativeCaseCount (offset : Nat) (count : Word)
deriving DecidableEq, Repr

/-- The text of a fault. -/
def Fault.message : Fault → String
  | .outOfRange offset => s!"offset {offset} is outside the instruction stream"
  | .unknownOpcode offset word => s!"unknown opcode {word.hex} at offset {offset}"
  | .truncated offset opcode => s!"{opcode.mnemonic} at offset {offset} is truncated"
  | .negativeCaseCount offset count =>
      s!"switch at offset {offset} has negative case count {count}"

/-- The number of operand words of the instruction at `offset`, which for a
`switch` depends on the case count in its header. -/
def operandCount (code : Array Word) (offset : Nat) (opcode : Opcode) : Except Fault Nat :=
  match opcode with
  | .switch =>
      match code[offset + 3]? with
      | none => .error (.truncated offset .switch)
      | some count =>
          match count.offset? with
          | none => .error (.negativeCaseCount offset count)
          | some cases => .ok (Opcode.switchHeader + 2 * cases)
  | opcode => .ok opcode.operands.length

/-- The instruction whose opcode word stands at `offset`. -/
def decode (code : Array Word) (offset : Nat) : Except Fault Instruction :=
  match code[offset]? with
  | none => .error (.outOfRange offset)
  | some word =>
      match Opcode.ofWord? word with
      | none => .error (.unknownOpcode offset word)
      | some opcode =>
          match operandCount code offset opcode with
          | .error fault => .error fault
          | .ok count =>
              if offset + 1 + count ≤ code.size then
                .ok ⟨opcode, offset, code.extract (offset + 1) (offset + 1 + count)⟩
              else
                .error (.truncated offset opcode)

/-- The number of words of an instruction, its opcode word included. -/
def length (instruction : Instruction) : Nat :=
  instruction.operands.size + 1

/-- The offset of the word behind an instruction. -/
def next (instruction : Instruction) : Nat :=
  instruction.offset + instruction.length

/-- An operand word, or zero where the instruction has none. -/
def operand (instruction : Instruction) (index : Nat) : Word :=
  instruction.operands[index]?.getD 0

/-- The target of a conditional for the case that its test fails. -/
def falseTarget (instruction : Instruction) : Option Word :=
  if instruction.opcode.isConditional then instruction.operands.back? else none

/-- The values and targets in the case table of a `switch`, in table order. -/
def cases (instruction : Instruction) : List (Word × Word) :=
  match instruction.opcode with
  | .switch =>
      (List.range ((instruction.operands.size - Opcode.switchHeader) / 2)).map fun index =>
        (instruction.operand (Opcode.switchHeader + 2 * index),
         instruction.operand (Opcode.switchHeader + 2 * index + 1))
  | _ => []

/-- Decoding succeeds only inside the stream, with the operands that stand there. -/
theorem decode_eq_ok {code : Array Word} {offset : Nat} {instruction : Instruction}
    (decoded : decode code offset = .ok instruction) :
    instruction.offset = offset ∧ instruction.next ≤ code.size ∧
      instruction.operands = code.extract (offset + 1) instruction.next := by
  unfold decode at decoded
  split at decoded
  · contradiction
  split at decoded
  · contradiction
  split at decoded
  · contradiction
  rename_i count _
  split at decoded
  · rename_i fits
    cases decoded
    have width : offset + 1 + count - (offset + 1) = count := by omega
    have total : offset + (count + 1) = offset + 1 + count := by omega
    simp [next, length, width, total, fits]
  · contradiction

/-- A decoded instruction starts inside the stream. -/
theorem offset_lt_size {code : Array Word} {offset : Nat} {instruction : Instruction}
    (decoded : decode code offset = .ok instruction) : offset < code.size := by
  obtain ⟨rfl, inside, _⟩ := decode_eq_ok decoded
  simp only [next, length] at inside
  omega

end Instruction

end ActorScript
