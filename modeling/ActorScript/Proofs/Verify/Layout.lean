import ActorScript.Proofs.Verify.Closure
import Mathlib

/-!
# The layout of a verified program

The verifier compares a target, or a record, with no other instruction than the nearest one
in front of its end.  That is enough while no two instructions overlap.  They do not unless
an entry offset is an operand word of an instruction, which the verifier does not look for.
-/

namespace ActorScript

/-- The offsets of the words of an instruction. -/
def Instruction.words (instruction : Instruction) : Finset Nat :=
  Finset.Ico instruction.offset instruction.next

/-- The offsets of the words of a record. -/
def RecordKind.words (kind : RecordKind) (start : Nat) : Finset Nat :=
  Finset.Ico start (start + kind.length)

namespace Program

/-- The verifier has followed control flow to an instruction. -/
def ReachesInstruction (program : Program) (instruction : Instruction) : Prop :=
  program.Reaches instruction.offset ∧
    Instruction.decode program.code instruction.offset = .ok instruction

/-- A reached instruction names a record, itself or by way of an `ai` record. -/
def Names (program : Program) (record : RecordRef) : Prop :=
  ∃ instruction, program.ReachesInstruction instruction ∧
    record ∈ instruction.recordRefs program.code

/-- The reached instructions and the records that they name do not overlap, and the records lie
inside the stream. -/
structure WellLaid (program : Program) : Prop where
  instructions : ∀ first second, program.ReachesInstruction first →
    program.ReachesInstruction second → first.offset ≠ second.offset →
    Disjoint first.words second.words
  records : ∀ record, program.Names record →
    ∃ start, record.offset.offset? = some start ∧
      start + record.kind.length ≤ program.code.size ∧
      ∀ instruction, program.ReachesInstruction instruction →
        Disjoint instruction.words (record.kind.words start)

/-- No entry offset is an operand word of a reached instruction. -/
def EntriesAligned (program : Program) : Prop :=
  ∀ entry ∈ program.entries, ∀ instruction, program.ReachesInstruction instruction →
    instruction.offset < entry → instruction.next ≤ entry

end Program

theorem Instruction.offset_lt_next (instruction : Instruction) :
    instruction.offset < instruction.next := by
  simp only [next, length]
  omega

/-! ## The nearest instruction -/

namespace Verify

variable {trace : Trace}

/-- The nearest instruction is found when any starts within the window, and no other starts
behind it. -/
theorem nearestBelow_eq_some {start length : Nat} (met : trace.starts[start]? = some length)
    {window limit : Nat} (below : start < limit)
    (near : limit ≤ start + window) :
    ∃ nearest width, nearestBelow trace window limit = some (nearest, width) ∧
      start ≤ nearest ∧ nearest < limit ∧ trace.starts[nearest]? = some width := by
  induction window generalizing limit with
  | zero => omega
  | succ window ih =>
      obtain _ | limit := limit
      · omega
      · cases here : trace.starts[limit]? with
        | some width => exact ⟨limit, width, by simp [nearestBelow, here], by omega, by omega, here⟩
        | none =>
            have apart : start ≠ limit := by
              rintro rfl
              rw [here] at met
              contradiction
            obtain ⟨nearest, width, found, after, before, noted⟩ :=
              ih (show start < limit by omega) (by omega)
            refine ⟨nearest, width, ?_, after, by omega, noted⟩
            simpa [nearestBelow, here] using found

/-- A maximum over a list is at least what it starts from and each of its entries. -/
theorem le_foldl_max (entries : List (Nat × Nat)) (least : Nat) :
    least ≤ entries.foldl (fun longest entry => max longest entry.2) least ∧
      ∀ entry ∈ entries,
        entry.2 ≤ entries.foldl (fun longest entry => max longest entry.2) least := by
  induction entries generalizing least with
  | nil => simp
  | cons first rest ih =>
      obtain ⟨grown, bounded⟩ := ih (max least first.2)
      rw [List.foldl_cons]
      refine ⟨by omega, List.forall_mem_cons.2 ⟨by omega, bounded⟩⟩

/-- No instruction is longer than the longest one. -/
theorem length_le_longest {start length : Nat} (met : trace.starts[start]? = some length) :
    length ≤ longest trace := by
  have listed := Std.TreeMap.mem_toList_iff_getElem?_eq_some.2 met
  rw [longest, Std.TreeMap.foldl_eq_foldl_toList]
  exact (le_foldl_max _ _).2 _ listed

end Verify

namespace Program

variable {program : Program} {instruction first second : Instruction}

theorem getElem?_starts (reaches : program.ReachesInstruction instruction) :
    (Verify.reached program).starts[instruction.offset]? = some instruction.length := by
  obtain ⟨met, decoded⟩ := reaches
  simp only [Reaches, Trace.isInstruction, Std.TreeMap.contains_eq_isSome_getElem?,
    Option.isSome_iff_exists] at met
  obtain ⟨length, noted⟩ := met
  obtain ⟨same, decoded_eq, length_eq⟩ :=
    Trace.measures_trace (Verify.roots program) instruction.offset length noted
  rw [decoded] at decoded_eq
  cases decoded_eq
  rw [noted, length_eq]

/-- At most one reached instruction stands at an offset. -/
theorem eq_of_offset_eq (reachesFirst : program.ReachesInstruction first)
    (reachesSecond : program.ReachesInstruction second) (same : first.offset = second.offset) :
    first = second := by
  have decoded := reachesFirst.2
  rw [same, reachesSecond.2] at decoded
  exact (Except.ok.inj decoded).symm

/-- What the trace of a program holds are its reached instructions. -/
theorem reachesInstruction_of_getElem?_starts {start length : Nat}
    (noted : (Verify.reached program).starts[start]? = some length) :
    ∃ instruction, program.ReachesInstruction instruction ∧ instruction.offset = start ∧
      instruction.length = length := by
  obtain ⟨instruction, decoded, length_eq⟩ :=
    Trace.measures_trace (Verify.roots program) start length noted
  have offset_eq := (Instruction.decode_eq_ok decoded).1
  refine ⟨instruction, ⟨?_, ?_⟩, offset_eq, length_eq⟩
  · rw [offset_eq, Reaches, Trace.isInstruction, Std.TreeMap.contains_eq_isSome_getElem?, noted]
    rfl
  · rw [offset_eq]
    exact decoded

/-- The reached instruction nearest below a limit, when any starts within the window. -/
theorem exists_nearestBelow (reaches : program.ReachesInstruction instruction)
    {window limit : Nat} (below : instruction.offset < limit)
    (near : limit ≤ instruction.offset + window) :
    ∃ nearest, program.ReachesInstruction nearest ∧
      Verify.nearestBelow (Verify.reached program) window limit =
        some (nearest.offset, nearest.length) ∧
      instruction.offset ≤ nearest.offset ∧ nearest.offset < limit := by
  obtain ⟨start, length, found, after, before, noted⟩ :=
    Verify.nearestBelow_eq_some (getElem?_starts reaches) below near
  obtain ⟨nearest, reached, rfl, rfl⟩ := reachesInstruction_of_getElem?_starts noted
  exact ⟨nearest, reached, found, after, before⟩

theorem mem_records {record : RecordRef} (names : program.Names record) :
    record ∈ (Verify.reached program).records := by
  obtain ⟨instruction, reaches, named⟩ := names
  obtain ⟨same, decoded, expanded⟩ := Verified.covers program instruction.offset reaches.1
  rw [reaches.2] at decoded
  cases decoded
  exact expanded.record record named

namespace Verified

variable (verified : program.Verified)
include verified

/-! ## What the verifier has compared -/

theorem targetFindings_eq (reaches : program.ReachesInstruction instruction) :
    Verify.targetFindings program.code (Verify.reached program)
      (Verify.longest (Verify.reached program)) instruction = [] := by
  have parts := verified
  simp only [Verified, Verify.findings, Verify.structureFindings, List.append_eq_nil_iff,
    List.flatMap_eq_nil_iff] at parts
  obtain ⟨⟨_, targets, _⟩, _⟩ := parts
  refine (targets instruction ?_).2
  refine List.mem_filterMap.2 ⟨instruction.offset, ?_, by rw [reaches.2]⟩
  rw [Std.TreeMap.mem_keys]
  exact reaches.1

/-- A target is not an operand word of the nearest instruction in front of it. -/
theorem enclosing_eq_none (reaches : program.ReachesInstruction instruction) {target : Nat}
    (listed : target ∈ Trace.targets program.code instruction) :
    Verify.enclosing (Verify.reached program) (Verify.longest (Verify.reached program)) target =
      none := by
  obtain ⟨word, successor, inside⟩ := List.mem_filterMap.1 listed
  have compared := List.filterMap_eq_nil_iff.1 (verified.targetFindings_eq reaches) word successor
  rw [(inStream?_eq_some_iff.1 inside).1] at compared
  cases enclosed : Verify.enclosing (Verify.reached program)
      (Verify.longest (Verify.reached program)) target with
  | none => rfl
  | some start => simp [enclosed] at compared

/-- Control flow leads to reached instructions only. -/
theorem reaches_of_reachable {offset : Nat}
    (reachable : Trace.Reachable program.code (Verify.roots program) offset) :
    program.Reaches offset :=
  verified.reaches_of_accountsFor (Trace.accountsFor_of_reachable reachable)

/-- Every reached instruction stands at an entry or is a target of another one. -/
theorem entry_or_target (reaches : program.ReachesInstruction instruction) :
    instruction.offset ∈ program.entries ∨ ∃ source, program.ReachesInstruction source ∧
      instruction.offset ∈ Trace.targets program.code source := by
  cases Trace.reachable_of_isInstruction reaches.1 with
  | root member =>
      rw [Verify.roots, List.mem_filter, mem_entryPoints] at member
      exact Or.inl member.1
  | @target start _ source reachable decoded member =>
      have offset_eq := (Instruction.decode_eq_ok decoded).1
      rw [← offset_eq] at reachable decoded
      exact Or.inr ⟨source, ⟨verified.reaches_of_reachable reachable, decoded⟩, member⟩

/-! ## Instructions -/

/-- Where no entry is an operand word, no reached instruction starts inside another one. -/
theorem next_le_offset (aligned : program.EntriesAligned)
    (reachesFirst : program.ReachesInstruction first)
    (reachesSecond : program.ReachesInstruction second)
    (before : first.offset < second.offset) : first.next ≤ second.offset := by
  induction offset_eq : second.offset using Nat.strong_induction_on generalizing second with
  | _ offset ih =>
      subst offset_eq
      by_contra overlap
      have width : first.next = first.offset + first.length := rfl
      have bounded := Verify.length_le_longest (getElem?_starts reachesFirst)
      have near : second.offset ≤
          first.offset + Verify.longest (Verify.reached program) := by omega
      obtain ⟨nearest, reachesNearest, found, after, below⟩ :=
        exists_nearestBelow reachesFirst before near
      -- The nearest instruction reaches over the offset too: it is the first one itself, as it
      -- would else be a smaller counterexample.
      have same : nearest = first := by
        apply eq_of_offset_eq reachesNearest reachesFirst
        by_contra apart
        have smaller := ih nearest.offset below reachesNearest (by omega) rfl
        omega
      rcases verified.entry_or_target reachesSecond with entry | ⟨source, reachesSource, listed⟩
      · exact overlap (aligned _ entry first reachesFirst before)
      · have free := verified.enclosing_eq_none reachesSource listed
        unfold Verify.enclosing at free
        rw [found] at free
        simp only [same] at free
        rw [if_pos (by omega)] at free
        contradiction

theorem disjoint_instructions (aligned : program.EntriesAligned)
    (reachesFirst : program.ReachesInstruction first)
    (reachesSecond : program.ReachesInstruction second)
    (apart : first.offset ≠ second.offset) : Disjoint first.words second.words := by
  rw [Finset.disjoint_left]
  intro offset inFirst inSecond
  rw [Instruction.words, Finset.mem_Ico] at inFirst inSecond
  rcases Nat.lt_or_gt_of_ne apart with before | behind
  · have passed := verified.next_le_offset aligned reachesFirst reachesSecond before
    omega
  · have passed := verified.next_le_offset aligned reachesSecond reachesFirst behind
    omega

/-! ## Records -/

/-- A record that a reached instruction names lies inside the stream. -/
theorem exists_start {record : RecordRef} (names : program.Names record) :
    ∃ start, record.offset.offset? = some start ∧
      start + record.kind.length ≤ program.code.size := by
  have finding := verified.recordFinding_eq (mem_records names)
  unfold Verify.recordFinding at finding
  cases start_eq : record.offset.offset? with
  | none => simp [start_eq] at finding
  | some start =>
      refine ⟨start, rfl, ?_⟩
      by_contra outside
      simp [start_eq, outside] at finding

/-- Where no entry is an operand word, no reached instruction overlaps a named record. -/
theorem disjoint_record (aligned : program.EntriesAligned) {record : RecordRef}
    (names : program.Names record) {start : Nat} (start_eq : record.offset.offset? = some start)
    (inside : start + record.kind.length ≤ program.code.size)
    (reaches : program.ReachesInstruction instruction) :
    Disjoint instruction.words (record.kind.words start) := by
  rw [Finset.disjoint_left]
  intro offset inInstruction inRecord
  rw [Instruction.words, Finset.mem_Ico] at inInstruction
  rw [RecordKind.words, Finset.mem_Ico] at inRecord
  have width : instruction.next = instruction.offset + instruction.length := rfl
  have bounded := Verify.length_le_longest (getElem?_starts reaches)
  have below : instruction.offset < start + record.kind.length := by omega
  have near : start + record.kind.length ≤ instruction.offset +
      (Verify.longest (Verify.reached program) + record.kind.length) := by omega
  obtain ⟨nearest, reachesNearest, found, after, _⟩ := exists_nearestBelow reaches below near
  -- The nearest instruction reaches into the record: it is this one or starts behind it.
  have into : start < nearest.offset + nearest.length := by
    have nearestWidth : nearest.next = nearest.offset + nearest.length := rfl
    by_cases same : nearest.offset = instruction.offset
    · cases eq_of_offset_eq reachesNearest reaches same
      omega
    · have passed := verified.next_le_offset aligned reaches reachesNearest (by omega)
      have grows := nearest.offset_lt_next
      omega
  have finding := verified.recordFinding_eq (mem_records names)
  unfold Verify.recordFinding at finding
  simp [start_eq, inside, found, into] at finding

end Verified

/-- The records that the reached instructions of a verified program name lie inside the stream.
Instructions and records do not overlap exactly when no entry offset is an operand word of a
reached instruction. -/
theorem wellLaid_iff (verified : program.Verified) :
    (∀ record, program.Names record → ∃ start, record.offset.offset? = some start ∧
      start + record.kind.length ≤ program.code.size) ∧
    (program.WellLaid ↔ program.EntriesAligned) := by
  refine ⟨fun record names => verified.exists_start names, ?_, ?_⟩
  · intro laid entry member instruction reaches before
    by_contra inside
    obtain ⟨other, decoded⟩ := Verified.exists_decode (verified.reaches_entry member)
    have offset_eq := (Instruction.decode_eq_ok decoded).1
    have reachesOther : program.ReachesInstruction other := by
      rw [ReachesInstruction, offset_eq]
      exact ⟨verified.reaches_entry member, decoded⟩
    have disjoint := laid.instructions instruction other reaches reachesOther (by omega)
    have grows := other.offset_lt_next
    have inOther : entry ∈ other.words := by
      rw [Instruction.words, Finset.mem_Ico]
      omega
    refine Finset.disjoint_left.1 disjoint ?_ inOther
    rw [Instruction.words, Finset.mem_Ico]
    omega
  · intro aligned
    constructor
    · intro first second reachesFirst reachesSecond apart
      exact verified.disjoint_instructions aligned reachesFirst reachesSecond apart
    · intro record names
      obtain ⟨start, start_eq, inside⟩ := verified.exists_start names
      refine ⟨start, start_eq, inside, ?_⟩
      intro instruction reaches
      exact verified.disjoint_record aligned names start_eq inside reaches

/-- A `hitradius` with an `enda` for its first operand, at which a second script starts, and
behind it a `move` whose record is made up of two other operands. -/
def entangled : Program where
  code := #[0x77, 7, 0, 0, 0, 0, 0x32, 4, 0, 7]
  actors := Table.empty.insert 1 { tick := some 0, load := some 1 }

/-- Verification does not keep instructions and records apart. -/
theorem not_forall_wellLaid_of_verified :
    ¬ ∀ program : Program, program.Verified → program.WellLaid := by
  intro separates
  have laid := separates entangled (by cbv)
  have reachesMove : entangled.ReachesInstruction ⟨.setMove, 6, #[4, 0]⟩ :=
    ⟨by cbv, by cbv⟩
  have reachesRadius : entangled.ReachesInstruction ⟨.hitRadius, 0, #[7, 0, 0, 0, 0]⟩ :=
    ⟨by cbv, by cbv⟩
  obtain ⟨start, start_eq, _, apart⟩ := laid.records ⟨6, 4, .move⟩ ⟨_, reachesMove, by decide⟩
  cases (show some 4 = some start from start_eq)
  have disjoint := apart _ reachesRadius
  exact Finset.disjoint_left.1 disjoint (by decide : 4 ∈ _) (by decide)

/-- A script that starts an `ai`, a handler behind it, and the three records of the `ai`. -/
def separate : Program where
  code := #[0x30, 4, 7, 9, 7, 12, 0, 0, 1, 1, 1, 1, 80, 0]
  actors := Table.empty.insert 1 { tick := some 0 }
  events := Table.empty.insert 5 3

/-- The script, the handler and the records stand apart. -/
theorem wellLaid_separate : separate.Verified ∧ separate.WellLaid := by
  have verified : separate.Verified := by cbv
  refine ⟨verified, (wellLaid_iff verified).2.2 ?_⟩
  have entries_eq : separate.entries = [0, 3] := rfl
  rintro entry member ⟨opcode, offset, operands⟩ ⟨reaches, decoded⟩ before
  rw [entries_eq] at member
  obtain rfl : entry = 3 := by
    simp only [List.mem_cons, List.not_mem_nil, or_false] at member before
    omega
  interval_cases offset
  · have script : Instruction.decode separate.code 0 = .ok ⟨.setAi, 0, #[4]⟩ := by cbv
    cases script.symm.trans decoded
    decide
  · have operand : (Verify.reached separate).isInstruction 1 = false := by cbv
    simp [Reaches, operand] at reaches
  · have ending : Instruction.decode separate.code 2 = .ok ⟨.finish .actor, 2, #[]⟩ := by cbv
    cases ending.symm.trans decoded
    decide

end Program

end ActorScript
