import ActorScript.Instruction

/-!
# Control flow of one instruction

Where execution may continue after an instruction, and which data records the
instruction names.  Targets are the raw words of the stream, so a target
outside it is still visible.
-/

namespace ActorScript

/-- A mention of a data record by an instruction or by an `ai` record. -/
structure RecordRef where
  /-- The offset of the instruction or record that mentions it. -/
  source : Nat
  /-- The word that gives the offset of the record. -/
  offset : Word
  kind : RecordKind
deriving DecidableEq, Repr

/-- The offset that a word names when it lies inside the stream. -/
def inStream? (code : Array Word) (target : Word) : Option Nat :=
  match target.offset? with
  | none => none
  | some offset => if offset < code.size then some offset else none

/-- The word at an offset is that of an `else` marker. -/
def elseMarkerAt (code : Array Word) (target : Word) : Bool :=
  match target.offset? with
  | none => false
  | some offset => code[offset]? == some Opcode.elseMarker.word

namespace Instruction

/-- Where execution may continue when a test fails: at the target and, if an
`else` marker stands there, behind the marker as well. -/
def falseSuccessors (code : Array Word) (instruction : Instruction) : List Word :=
  match instruction.falseTarget with
  | none => []
  | some target => if elseMarkerAt code target then [target, target + 2] else [target]

/-- Where execution may continue in a `switch`: behind its table, at its
default unless that is zero, and at each case. -/
def switchSuccessors (instruction : Instruction) : List Word :=
  let fallback := instruction.operand 3
  instruction.operand 1 ::
    ((if fallback = 0 then [] else [fallback]) ++ instruction.cases.map (·.2))

/-- The places where execution may continue after an instruction. -/
def successors (code : Array Word) (instruction : Instruction) : List Word :=
  let next := Word.ofOffset instruction.next
  match instruction.opcode with
  | .elseMarker => [instruction.operand 0]
  | .callState => [next, instruction.operand 0]
  | .switch => instruction.switchSuccessors
  | .endSwitch | .finish _ => []
  | .branch _ => next :: instruction.falseSuccessors code
  | _ => [next]

/-- The record operands of an instruction, those that are zero left out. -/
def records (instruction : Instruction) : List (Word × RecordKind) :=
  instruction.opcode.operands.zipIdx.filterMap fun
    | (.record kind, index) =>
        let word := instruction.operand index
        if word = 0 then none else some (word, kind)
    | _ => none

end Instruction

/-- The words of the record at an offset, when it lies inside the stream. -/
def recordAt (code : Array Word) (kind : RecordKind) (offset : Word) : Option (Array Word) :=
  match offset.offset? with
  | none => none
  | some start =>
      if start + kind.length ≤ code.size then
        some (code.extract start (start + kind.length))
      else none

/-- The action and move records named by the `ai` record at an offset, those
that are zero left out. -/
def aiRecordRefs (code : Array Word) (offset : Word) : List RecordRef :=
  match recordAt code .ai offset with
  | none => []
  | some words =>
      [(words[0]?.getD 0, RecordKind.action), (words[1]?.getD 0, RecordKind.move)].filterMap
        fun (target, kind) =>
          if target = 0 then none else some ⟨offset.toNatClampNeg, target, kind⟩

/-- Every record that an instruction names, directly or through an `ai` record. -/
def Instruction.recordRefs (code : Array Word) (instruction : Instruction) : List RecordRef :=
  instruction.records.flatMap fun (offset, kind) =>
    ⟨instruction.offset, offset, kind⟩ ::
      (match kind with
       | .ai => aiRecordRefs code offset
       | _ => [])

end ActorScript
