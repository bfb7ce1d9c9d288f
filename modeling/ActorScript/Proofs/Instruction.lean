import ActorScript.Flow

/-!
# Decoded instructions

Which offsets lie inside the stream, what stands there where an instruction is read, how many
operands the instruction has, and how those of a `switch` make up its table of cases.
-/

namespace ActorScript

theorem inStream?_eq_some_iff {code : Array Word} {word : Word} {offset : Nat} :
    inStream? code word = some offset ↔ word.offset? = some offset ∧ offset < code.size := by
  unfold inStream?
  cases word.offset? with
  | none => simp
  | some start =>
      by_cases inside : start < code.size
      · simp only [if_pos inside, Option.some.injEq]
        constructor
        · rintro rfl
          exact ⟨rfl, inside⟩
        · exact And.left
      · simp only [if_neg inside, reduceCtorEq, Option.some.injEq, false_iff]
        rintro ⟨rfl, below⟩
        exact inside below

namespace Instruction

variable {code : Array Word} {offset : Nat} {instruction : Instruction}

/-- All that decoding an instruction tells about the stream. -/
theorem decode_eq_ok_iff :
    decode code offset = .ok instruction ↔
      instruction.offset = offset ∧ code[offset]? = some instruction.opcode.word ∧
        operandCount code offset instruction.opcode = .ok instruction.operands.size ∧
        instruction.next ≤ code.size ∧
        instruction.operands = code.extract (offset + 1) instruction.next := by
  constructor
  · intro decoded
    obtain ⟨same, inside, operands⟩ := decode_eq_ok decoded
    unfold decode at decoded
    split at decoded
    · contradiction
    rename_i word word_eq
    split at decoded
    · contradiction
    rename_i opcode opcode_eq
    split at decoded
    · contradiction
    rename_i count count_eq
    split at decoded
    · rename_i fits
      cases decoded
      have size_eq : (code.extract (offset + 1) (offset + 1 + count)).size = count := by
        rw [Array.size_extract]
        omega
      refine ⟨rfl, ?_, ?_, inside, operands⟩
      · rw [word_eq, Opcode.ofWord?_eq_some_iff.1 opcode_eq]
      · rw [count_eq, size_eq]
    · contradiction
  · obtain ⟨opcode, start, operands⟩ := instruction
    rintro ⟨rfl, word_eq, count_eq, inside, operands_eq⟩
    have next_eq : next ⟨opcode, start, operands⟩ = start + 1 + operands.size := by
      simp only [next, length]
      omega
    rw [next_eq] at inside operands_eq
    simp only [decode, word_eq, Opcode.ofWord?_word, count_eq, if_pos inside]
    rw [← operands_eq]

/-- Only the operands of a `switch` are not counted by its opcode alone. -/
theorem size_operands (decoded : decode code offset = .ok instruction)
    (plain : instruction.opcode ≠ .switch) :
    instruction.operands.size = instruction.opcode.operands.length := by
  have count_eq := (decode_eq_ok_iff.1 decoded).2.2.1
  unfold operandCount at count_eq
  split at count_eq
  · contradiction
  · exact (Except.ok.inj count_eq).symm

/-- A conditional has a target for the case that its test fails. -/
theorem exists_falseTarget {condition : Test} (decoded : decode code offset = .ok instruction)
    (opcode_eq : instruction.opcode = .branch condition) :
    ∃ target, instruction.falseTarget = some target := by
  have size_eq := size_operands decoded (by simp [opcode_eq])
  have present : 0 < instruction.operands.size := by
    rw [size_eq, opcode_eq]
    simp [Opcode.operands]
  refine ⟨instruction.operands[instruction.operands.size - 1], ?_⟩
  simp [falseTarget, opcode_eq, Opcode.isConditional, Array.back?_eq_getElem?]

/-! ## The table of a `switch` -/

/-- Words taken two by two. -/
theorem flatMap_pairs {count : Nat} {words : List Word} (length_eq : words.length = 2 * count) :
    ((List.range count).flatMap fun index =>
      [words[2 * index]?.getD 0, words[2 * index + 1]?.getD 0]) = words := by
  induction count generalizing words with
  | zero =>
      rw [List.length_eq_zero_iff.1 length_eq]
      rfl
  | succ count ih =>
      match words, length_eq with
      | first :: second :: rest, length_eq =>
          have shorter : rest.length = 2 * count := by
            simp only [List.length_cons] at length_eq
            omega
          rw [List.range_succ_eq_map, List.flatMap_cons, List.flatMap_map]
          have behind := ih shorter
          have shift : ∀ index : Nat, 2 * (index + 1) = 2 * index + 1 + 1 := by omega
          simpa [shift] using behind

/-- The number of cases of a `switch` stands in its header. -/
theorem offset?_caseCount (decoded : decode code offset = .ok instruction)
    (opcode_eq : instruction.opcode = .switch) :
    ∃ count, (instruction.operand 2).offset? = some count ∧
      instruction.operands.size = Opcode.switchHeader + 2 * count := by
  obtain ⟨rfl, _, count_eq, inside, operands_eq⟩ := decode_eq_ok_iff.1 decoded
  rw [opcode_eq] at count_eq
  simp only [operandCount] at count_eq
  split at count_eq
  · contradiction
  rename_i word word_eq
  split at count_eq
  · contradiction
  rename_i count offset_eq
  have size_eq : instruction.operands.size = Opcode.switchHeader + 2 * count :=
    (Except.ok.inj count_eq).symm
  refine ⟨count, ?_, size_eq⟩
  have room : 2 < instruction.operands.size := by
    rw [size_eq, Opcode.switchHeader]
    omega
  have within : 2 < instruction.next - (instruction.offset + 1) := by
    simp only [next, length]
    omega
  have third : instruction.operands[2]? = some word := by
    rw [operands_eq, Array.getElem?_extract, Nat.min_eq_left inside, if_pos within]
    exact word_eq
  rw [operand, third]
  exact offset_eq

/-- The operands of a `switch` are its header and its cases. -/
theorem operands_of_switch (decoded : decode code offset = .ok instruction)
    (opcode_eq : instruction.opcode = .switch) :
    (instruction.operand 2).offset? = some instruction.cases.length ∧
      instruction.operands.toList =
        [instruction.operand 0, instruction.operand 1, instruction.operand 2,
          instruction.operand 3] ++ instruction.cases.flatMap fun entry => [entry.1, entry.2] := by
  obtain ⟨count, offset_eq, size_eq⟩ := offset?_caseCount decoded opcode_eq
  have cases_eq : instruction.cases = (List.range count).map fun index =>
      (instruction.operand (Opcode.switchHeader + 2 * index),
        instruction.operand (Opcode.switchHeader + 2 * index + 1)) := by
    have half : (instruction.operands.size - Opcode.switchHeader) / 2 = count := by
      rw [size_eq]
      omega
    simp only [cases, opcode_eq, half]
  constructor
  · rw [cases_eq, List.length_map, List.length_range]
    exact offset_eq
  · have length_eq : (instruction.operands.toList.drop Opcode.switchHeader).length = 2 * count := by
      rw [List.length_drop, Array.length_toList, size_eq, Nat.add_sub_cancel_left]
    have table := flatMap_pairs length_eq
    simp only [List.getElem?_drop, Array.getElem?_toList, ← Nat.add_assoc] at table
    have header : instruction.operands.toList.take Opcode.switchHeader =
        [instruction.operand 0, instruction.operand 1, instruction.operand 2,
          instruction.operand 3] := by
      have present : ∀ index < Opcode.switchHeader,
          instruction.operands.toList[index]? = some (instruction.operand index) := by
        intro index below
        have inside : index < instruction.operands.size := by omega
        simp [operand, inside]
      simp [Opcode.switchHeader, List.take_add_one, present 0 (by decide), present 1 (by decide),
        present 2 (by decide), present 3 (by decide)]
    rw [cases_eq, List.flatMap_map, ← header]
    conv => lhs; rw [← List.take_append_drop Opcode.switchHeader instruction.operands.toList]
    rw [← table]
    rfl

end Instruction

end ActorScript
