import ActorScript.Flow
import Std.Data.TreeMap

/-!
# Tracing control flow

Instructions and data records share one stream, so the only way to tell them
apart is to follow control flow from the entry offsets.  `trace` visits every
offset that execution can reach, last found first, and records the
instructions it met, the offsets that hold none, the targets outside the
stream and the data records named on the way.

An offset that holds an instruction is expanded once.  The number of offsets
of the stream not yet expanded bounds how often that can happen, and between
two expansions the list of pending offsets shrinks.
-/

namespace ActorScript

/-- What was met while following control flow. -/
structure Trace where
  /-- The offsets of the instructions met, with their lengths. -/
  starts : Std.TreeMap Nat Nat := {}
  /-- The faults met, each once. -/
  faults : Array Instruction.Fault := #[]
  /-- The targets outside the stream, each with the instruction that names it. -/
  dangling : Array (Nat × Word) := #[]
  /-- The data records named by the instructions met. -/
  records : Array RecordRef := #[]

namespace Trace

/-- Notes a fault unless it is known already. -/
def addFault (trace : Trace) (fault : Instruction.Fault) : Trace :=
  if trace.faults.contains fault then trace
  else { trace with faults := trace.faults.push fault }

/-- The targets of an instruction inside the stream, in the order of its successors. -/
def targets (code : Array Word) (instruction : Instruction) : List Nat :=
  (instruction.successors code).filterMap (inStream? code)

/-- The targets of an instruction outside the stream, each with its offset. -/
def strays (code : Array Word) (instruction : Instruction) : List (Nat × Word) :=
  (instruction.successors code).filterMap fun target =>
    if (inStream? code target).isNone then some (instruction.offset, target) else none

/-- Notes an instruction, the records it names and its targets outside the stream. -/
def addInstruction (code : Array Word) (trace : Trace) (instruction : Instruction) : Trace :=
  { trace with
    starts := trace.starts.insert instruction.offset instruction.length
    dangling := trace.dangling.appendList (strays code instruction)
    records := trace.records.appendList (instruction.recordRefs code) }

/-- The number of offsets of the stream not yet known to start an instruction. -/
def unvisited (code : Array Word) (trace : Trace) : Nat :=
  (List.range code.size).countP fun offset => !trace.starts.contains offset

@[simp]
theorem starts_addFault (trace : Trace) (fault : Instruction.Fault) :
    (trace.addFault fault).starts = trace.starts := by
  unfold addFault
  split <;> rfl

/-- Noting a new instruction leaves fewer offsets unvisited. -/
theorem unvisited_addInstruction_lt {code : Array Word} {trace : Trace}
    {instruction : Instruction} (inside : instruction.offset < code.size)
    (fresh : trace.starts.contains instruction.offset = false) :
    unvisited code (trace.addInstruction code instruction) < unvisited code trace := by
  unfold unvisited addInstruction
  simp only [Std.TreeMap.contains_insert]
  obtain ⟨before, after, split⟩ := List.append_of_mem (List.mem_range.2 inside)
  rw [split, List.countP_append, List.countP_append, List.countP_cons, List.countP_cons]
  have smaller : ∀ offsets : List Nat,
      offsets.countP (fun offset =>
        !(compare instruction.offset offset == .eq || trace.starts.contains offset)) ≤
      offsets.countP (fun offset => !trace.starts.contains offset) := by
    intro offsets
    apply List.countP_mono_left
    intro offset _ kept
    simp_all
  have first := smaller before
  have second := smaller after
  simp [fresh]
  simp at first second
  omega

/-- Follows control flow from the pending offsets, the first of them first. -/
def explore (code : Array Word) (pending : List Nat) (trace : Trace) : Trace :=
  match pending with
  | [] => trace
  | offset :: rest =>
      if _known : trace.starts.contains offset then explore code rest trace
      else
        match _decoded : Instruction.decode code offset with
        | .error fault => explore code rest (trace.addFault fault)
        | .ok instruction =>
            explore code ((targets code instruction).reverse ++ rest)
              (trace.addInstruction code instruction)
termination_by (unvisited code trace, pending.length)
decreasing_by
  · exact Prod.Lex.right _ (by simp)
  · simp only [unvisited, starts_addFault]
    exact Prod.Lex.right _ (by simp)
  · apply Prod.Lex.left
    have same := (Instruction.decode_eq_ok _decoded).1
    apply unvisited_addInstruction_lt
    · rw [same]
      exact Instruction.offset_lt_size _decoded
    · rw [same]
      exact Bool.eq_false_iff.2 _known

/-- An instruction was met at the offset. -/
def isInstruction (trace : Trace) (offset : Nat) : Bool :=
  trace.starts.contains offset

end Trace

/-- Follows control flow from the entry offsets, the last of them first. -/
def trace (code : Array Word) (roots : List Nat) : Trace :=
  Trace.explore code roots.reverse {}

end ActorScript
