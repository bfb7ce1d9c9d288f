import ActorScript.Proofs.Instruction
import ActorScript.Proofs.Trace
import ActorScript.Verify

/-!
# What verification guarantees

In a verified program control flow, as the verifier follows it, leads from the entries
to readable instructions only, never out of the stream, and every record named on the
way lies inside the stream.
-/

namespace ActorScript

/-- The verifier has followed control flow to an instruction at the offset. -/
def Program.Reaches (program : Program) (offset : Nat) : Prop :=
  (Verify.reached program).isInstruction offset = true

instance (program : Program) (offset : Nat) : Decidable (program.Reaches offset) :=
  inferInstanceAs (Decidable (_ = true))

namespace Program.Verified

variable {program : Program} (verified : program.Verified)
include verified

/-! ## The parts of the verification -/

theorem size_le : program.code.size ≤ Verify.maxWords := by
  have parts := verified
  simp only [Verified, Verify.findings, Verify.limitFindings, List.append_eq_nil_iff] at parts
  obtain ⟨⟨⟨⟨⟨⟨limits, _⟩, _⟩, _⟩, _⟩, _⟩, _⟩ := parts
  apply Nat.not_lt.1
  intro large
  rw [if_pos large] at limits
  contradiction

theorem vars_size_le : program.vars.size ≤ Verify.maxVariables := by
  have parts := verified
  simp only [Verified, Verify.findings, Verify.limitFindings, List.append_eq_nil_iff] at parts
  obtain ⟨⟨⟨⟨⟨⟨_, limits⟩, _⟩, _⟩, _⟩, _⟩, _⟩ := parts
  apply Nat.not_lt.1
  intro large
  rw [if_pos large] at limits
  contradiction

theorem name_size_le {declared : Variable} {id : Nat}
    (member : (declared, id) ∈ program.vars.toList.zipIdx) :
    declared.name.utf8ByteSize ≤ Image.maxNameLength := by
  have parts := verified
  simp only [Verified, Verify.findings, Verify.limitFindings, Verify.longNames,
    List.append_eq_nil_iff, List.filterMap_eq_nil_iff] at parts
  obtain ⟨⟨⟨⟨⟨_, names⟩, _⟩, _⟩, _⟩, _⟩ := parts
  apply Nat.not_lt.1
  intro long
  have finding := names _ member
  rw [if_pos long] at finding
  contradiction

theorem entry_lt_size {entry : Verify.Entry} {offset : Nat}
    (member : (entry, offset) ∈ Verify.entries program) : offset < program.code.size := by
  have parts := verified
  simp only [Verified, Verify.findings, Verify.entryFindings, List.append_eq_nil_iff,
    List.filterMap_eq_nil_iff] at parts
  obtain ⟨⟨⟨⟨_, _, entries⟩, _⟩, _⟩, _⟩ := parts
  have inside := entries _ member
  by_cases below : offset < program.code.size
  · exact below
  · simp [below] at inside

theorem faults_eq : (Verify.reached program).faults = #[] := by
  have parts := verified
  simp only [Verified, Verify.findings, Verify.flowFindings, List.append_eq_nil_iff,
    List.map_eq_nil_iff, Array.toList_eq_nil_iff] at parts
  obtain ⟨⟨⟨_, faults, _⟩, _⟩, _⟩ := parts
  exact faults

theorem dangling_eq : (Verify.reached program).dangling = #[] := by
  have parts := verified
  simp only [Verified, Verify.findings, Verify.flowFindings, List.append_eq_nil_iff,
    List.map_eq_nil_iff, Array.toList_eq_nil_iff] at parts
  obtain ⟨⟨⟨_, _, dangling⟩, _⟩, _⟩ := parts
  exact dangling

theorem recordFinding_eq {record : RecordRef}
    (member : record ∈ (Verify.reached program).records) :
    Verify.recordFinding program.code.size (Verify.reached program)
      (Verify.longest (Verify.reached program)) record = none := by
  have parts := verified
  simp only [Verified, Verify.findings, Verify.structureFindings, List.append_eq_nil_iff,
    List.filterMap_eq_nil_iff, Array.mem_toList_iff] at parts
  obtain ⟨⟨_, _, records⟩, _⟩ := parts
  exact records record member

/-! ## Control flow -/

omit verified in
theorem covers (program : Program) :
    Trace.Covers program.code [] (Verify.reached program) :=
  Trace.covers_trace (Verify.roots program)

/-- Where the trace accounts for an offset, there is an instruction. -/
theorem reaches_of_accountsFor {offset : Nat}
    (accounts : (Verify.reached program).AccountsFor program.code offset) :
    program.Reaches offset := by
  rcases accounts with met | ⟨fault, member, _⟩
  · exact met
  · rw [verified.faults_eq] at member
    exact absurd member (Array.not_mem_empty _)

omit verified in
theorem exists_decode {offset : Nat} (reaches : program.Reaches offset) :
    ∃ instruction, Instruction.decode program.code offset = .ok instruction := by
  obtain ⟨instruction, decoded, _⟩ := covers program offset reaches
  exact ⟨instruction, decoded⟩

theorem reaches_successor {offset : Nat} {instruction : Instruction} {word : Word}
    (reaches : program.Reaches offset)
    (decoded : Instruction.decode program.code offset = .ok instruction)
    (successor : word ∈ instruction.successors program.code) :
    ∃ target, inStream? program.code word = some target ∧ program.Reaches target := by
  obtain ⟨same, decoded_eq, expanded⟩ := covers program offset reaches
  rw [decoded] at decoded_eq
  cases decoded_eq
  cases found : inStream? program.code word with
  | none =>
      have stray : (instruction.offset, word) ∈ Trace.strays program.code instruction :=
        List.mem_filterMap.2 ⟨word, successor, by simp [found]⟩
      have noted := expanded.stray _ stray
      rw [verified.dangling_eq] at noted
      exact absurd noted (Array.not_mem_empty _)
  | some target =>
      have listed : target ∈ Trace.targets program.code instruction :=
        List.mem_filterMap.2 ⟨word, successor, found⟩
      have accounted := (expanded.target target listed).resolve_left List.not_mem_nil
      exact ⟨target, rfl, verified.reaches_of_accountsFor accounted⟩

/-- Execution falls through to an instruction. -/
theorem reaches_next {offset : Nat} {instruction : Instruction}
    (reaches : program.Reaches offset)
    (decoded : Instruction.decode program.code offset = .ok instruction)
    (successor : Word.ofOffset instruction.next ∈ instruction.successors program.code) :
    program.Reaches instruction.next := by
  obtain ⟨target, inside, reached⟩ := verified.reaches_successor reaches decoded successor
  have small : instruction.next ≤ Word.maximum :=
    calc
      instruction.next ≤ program.code.size := (Instruction.decode_eq_ok decoded).2.1
      _ ≤ Verify.maxWords := verified.size_le
      _ ≤ Word.maximum := by decide
  rw [inStream?_eq_some_iff, Word.offset?_ofOffset small] at inside
  cases inside.1
  exact reached

/-- Every script and every handler starts at an instruction. -/
theorem reaches_entry {offset : Nat} (entry : offset ∈ program.entries) :
    program.Reaches offset := by
  have inside : offset < program.code.size := by
    rcases List.mem_append.1 entry with script | handler
    · obtain ⟨scripts, member, present⟩ := List.mem_flatMap.1 script
      obtain ⟨⟨kind, _⟩, listed, rfl⟩ := List.mem_map.1 member
      rcases List.mem_append.1 present with tick | load
      · refine verified.entry_lt_size (?_ : (.tick kind, offset) ∈ Verify.entries program)
        apply List.mem_append_left
        refine List.mem_flatMap.2 ⟨_, listed, List.mem_append_left _ ?_⟩
        exact List.mem_map_of_mem tick
      · refine verified.entry_lt_size (?_ : (.load kind, offset) ∈ Verify.entries program)
        apply List.mem_append_left
        refine List.mem_flatMap.2 ⟨_, listed, List.mem_append_right _ ?_⟩
        exact List.mem_map_of_mem load
    · obtain ⟨⟨id, _⟩, listed, rfl⟩ := List.mem_map.1 handler
      refine verified.entry_lt_size (?_ : (.event id, _) ∈ Verify.entries program)
      apply List.mem_append_right
      exact List.mem_map_of_mem listed
  apply verified.reaches_of_accountsFor
  apply Trace.accountsFor_root
  rw [Verify.roots, List.mem_filter, mem_entryPoints]
  exact ⟨entry, by simpa using inside⟩

/-- Entry offsets are small. -/
theorem entry_le_maximum {offset : Nat} (entry : offset ∈ program.entries) :
    offset ≤ Word.maximum := by
  obtain ⟨instruction, decoded⟩ := exists_decode (verified.reaches_entry entry)
  calc
    offset ≤ program.code.size := Nat.le_of_lt (Instruction.offset_lt_size decoded)
    _ ≤ Verify.maxWords := verified.size_le
    _ ≤ Word.maximum := by decide

/-! ## Records -/

/-- A record that a reached instruction names lies inside the stream. -/
theorem recordAt_isSome {offset : Nat} {instruction : Instruction} {record : RecordRef}
    (reaches : program.Reaches offset)
    (decoded : Instruction.decode program.code offset = .ok instruction)
    (named : record ∈ instruction.recordRefs program.code) :
    (recordAt program.code record.kind record.offset).isSome = true := by
  obtain ⟨same, decoded_eq, expanded⟩ := covers program offset reaches
  rw [decoded] at decoded_eq
  cases decoded_eq
  have finding := verified.recordFinding_eq (expanded.record record named)
  unfold Verify.recordFinding at finding
  unfold recordAt
  cases start_eq : record.offset.offset? with
  | none =>
      rw [start_eq] at finding
      contradiction
  | some start =>
      by_cases inside : start + record.kind.length ≤ program.code.size
      · exact congrArg Option.isSome (if_pos inside)
      · rw [start_eq] at finding
        dsimp only at finding
        rw [if_neg inside] at finding
        contradiction

end Program.Verified

end ActorScript
