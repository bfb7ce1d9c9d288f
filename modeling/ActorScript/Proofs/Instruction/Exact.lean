import ActorScript.Proofs.Verify.Data

/-!
# Decoding is exact and local

An instruction is read where its opcode word stands with the operand words that the opcode takes
behind it, and nowhere else.  How many these are is told by the opcode, or by the third of them
behind a `switch`.  So what is read does not depend on any other word, and an instruction is read
back wherever its words are placed.
-/

namespace ActorScript.Instruction

/-- The number of operand words that an opcode takes at an offset.  The third of those behind a
`switch` is the number of its cases, and each case takes two words more. -/
inductive Takes (code : Array Word) (offset : Nat) : Opcode → Nat → Prop
  | fixed {opcode : Opcode} (plain : opcode ≠ .switch) :
      Takes code offset opcode opcode.operands.length
  | table {count : Word} {cases : Nat} (third : code[offset + 3]? = some count)
      (counted : count.toInt = cases) : Takes code offset .switch (4 + 2 * cases)

/-- The words of an instruction stand at its offset in a stream. -/
structure Stands (code : Array Word) (instruction : Instruction) : Prop where
  opcode : code[instruction.offset]? = some instruction.opcode.word
  takes : Takes code instruction.offset instruction.opcode instruction.operands.size
  operand : ∀ index < instruction.operands.size,
    code[instruction.offset + 1 + index]? = instruction.operands[index]?

/-- What is read at an offset is what stands there. -/
structure Exact (code : Array Word) (offset : Nat) : Prop where
  readable : (∃ instruction, decode code offset = .ok instruction) ↔
    ∃ opcode count, code[offset]? = some opcode.word ∧ Takes code offset opcode count ∧
      offset + 1 + count ≤ code.size
  stands : ∀ instruction, decode code offset = .ok instruction ↔
    instruction.offset = offset ∧ Stands code instruction
  inside : ∀ instruction, decode code offset = .ok instruction → instruction.next ≤ code.size
  /-- Behind the header of a `switch` stand its cases, as many as the third operand says. -/
  table : ∀ instruction, decode code offset = .ok instruction → instruction.opcode = .switch →
    (instruction.operand 2).toInt = instruction.cases.length ∧
      instruction.operands.toList =
        [instruction.operand 0, instruction.operand 1, instruction.operand 2,
          instruction.operand 3] ++ instruction.cases.flatMap fun entry => [entry.1, entry.2]
  /-- Only the words of the instruction matter. -/
  alone : ∀ instruction, decode code offset = .ok instruction → ∀ other : Array Word,
    (∀ place, offset ≤ place → place < instruction.next → other[place]? = code[place]?) →
      decode other offset = .ok instruction
  extended : ∀ instruction, decode code offset = .ok instruction → ∀ more : Array Word,
    decode (code ++ more) offset = .ok instruction

variable {code : Array Word} {offset : Nat} {instruction : Instruction}

/-! ## The number of operands -/

theorem operandCount_eq_ok_iff {opcode : Opcode} {count : Nat} :
    operandCount code offset opcode = .ok count ↔ Takes code offset opcode count := by
  constructor
  · intro count_eq
    unfold operandCount at count_eq
    split at count_eq
    · split at count_eq
      · contradiction
      · rename_i word third
        split at count_eq
        · contradiction
        · rename_i cases named
          cases count_eq
          exact .table third (Word.offset?_eq_some_iff.1 named)
    · rename_i plain
      cases count_eq
      exact .fixed plain
  · intro takes
    cases takes with
    | fixed plain =>
        unfold operandCount
        split
        · contradiction
        · rfl
    | table third counted =>
        simp only [operandCount, third, Word.offset?_eq_some_iff.2 counted, Opcode.switchHeader]

/-- The operands of an instruction that stands in a stream are a stretch of it. -/
theorem Stands.operands_eq (stands : Stands code instruction) :
    instruction.operands = code.extract (instruction.offset + 1) instruction.next ∧
      instruction.next ≤ code.size := by
  have inside : instruction.next ≤ code.size := by
    have first : instruction.offset < code.size := by
      by_contra outside
      have word := stands.opcode
      rw [Array.getElem?_eq_none (by omega)] at word
      contradiction
    by_contra outside
    simp only [next, length] at outside
    have last := stands.operand (instruction.operands.size - 1) (by omega)
    rw [Array.getElem?_eq_none (by omega), Array.getElem?_eq_getElem (by omega)] at last
    contradiction
  refine ⟨?_, inside⟩
  apply Array.ext_getElem?
  intro index
  rw [Array.getElem?_extract, min_eq_left inside]
  have width : instruction.next - (instruction.offset + 1) = instruction.operands.size := by
    simp only [next, length]
    omega
  rw [width]
  split
  · rename_i below
    exact (stands.operand index below).symm
  · rename_i beyond
    exact Array.getElem?_eq_none (by omega)

theorem stands_of_decode (decoded : decode code offset = .ok instruction) :
    Stands code instruction := by
  obtain ⟨rfl, word_eq, count_eq, inside, operands_eq⟩ := decode_eq_ok_iff.1 decoded
  refine ⟨word_eq, operandCount_eq_ok_iff.1 count_eq, ?_⟩
  intro index below
  have width : instruction.next - (instruction.offset + 1) = instruction.operands.size := by
    simp only [next, length]
    omega
  conv => rhs; rw [operands_eq]
  rw [Array.getElem?_extract, min_eq_left inside, width, if_pos below]

/-- An instruction is read exactly where its words stand. -/
theorem decode_eq_ok_iff_stands :
    decode code offset = .ok instruction ↔
      instruction.offset = offset ∧ Stands code instruction := by
  constructor
  · intro decoded
    exact ⟨(decode_eq_ok decoded).1, stands_of_decode decoded⟩
  · rintro ⟨rfl, stands⟩
    obtain ⟨operands_eq, inside⟩ := stands.operands_eq
    exact decode_eq_ok_iff.2 ⟨rfl, stands.opcode, operandCount_eq_ok_iff.2 stands.takes, inside,
      operands_eq⟩

/-- An instruction can be read where there is an opcode and room for its operands. -/
theorem exists_decode_iff :
    (∃ instruction, decode code offset = .ok instruction) ↔
      ∃ opcode count, code[offset]? = some opcode.word ∧ Takes code offset opcode count ∧
        offset + 1 + count ≤ code.size := by
  constructor
  · rintro ⟨instruction, decoded⟩
    have inside := (decode_eq_ok decoded).2.1
    obtain ⟨rfl, stands⟩ := decode_eq_ok_iff_stands.1 decoded
    refine ⟨instruction.opcode, instruction.operands.size, stands.opcode, stands.takes, ?_⟩
    simp only [next, length] at inside
    omega
  · rintro ⟨opcode, count, word_eq, takes, room⟩
    refine ⟨⟨opcode, offset, code.extract (offset + 1) (offset + 1 + count)⟩, ?_⟩
    simp only [decode, word_eq, Opcode.ofWord?_word, operandCount_eq_ok_iff.2 takes, if_pos room]

/-! ## Other streams -/

/-- What is read is not changed by words behind the stream. -/
theorem decode_append (decoded : decode code offset = .ok instruction) (more : Array Word) :
    decode (code ++ more) offset = .ok instruction := by
  have inside := (decode_eq_ok decoded).2.1
  apply decode_congr decoded
  intro place member
  have below := (Finset.mem_Ico.1 member).2
  exact Array.getElem?_append_left (by omega)

/-- The words of an instruction can be placed behind any others. -/
theorem decode_placed {opcode : Opcode} {operands : Array Word}
    (takes : Takes (#[opcode.word] ++ operands) 0 opcode operands.size)
    (before after : Array Word) :
    decode (before ++ (#[opcode.word] ++ operands) ++ after) before.size =
      .ok ⟨opcode, before.size, operands⟩ := by
  have shifted : ∀ index < operands.size + 1,
      (before ++ (#[opcode.word] ++ operands) ++ after)[before.size + index]? =
        (#[opcode.word] ++ operands)[index]? := by
    intro index below
    rw [Array.getElem?_append_left (by simp; omega), Array.getElem?_append_right (by omega),
      Nat.add_sub_cancel_left]
  apply decode_eq_ok_iff_stands.2
  refine ⟨rfl, ?_, ?_, ?_⟩
  · have spelled : (#[opcode.word] ++ operands)[0]? = some opcode.word := by simp
    exact (shifted 0 (by omega)).trans spelled
  · -- The third operand is where it was, and the operands do not end in front of it.
    dsimp only
    generalize size_eq : operands.size = size at takes shifted ⊢
    cases takes with
    | fixed plain => exact .fixed plain
    | table third counted => exact .table (by rw [shifted 3 (by omega)]; exact third) counted
  · intro index below
    rw [Nat.add_assoc, shifted (1 + index) (by dsimp only at below; omega),
      Array.getElem?_append_right (by simp)]
    simp

/-- An instruction is read exactly where an opcode word stands with the operands that it takes,
which are then its operands.  Wherever they are placed, in whatever stream, they are read back. -/
theorem exact_decode (code : Array Word) (offset : Nat) :
    Exact code offset ∧
      ∀ (opcode : Opcode) (operands : Array Word),
        Takes (#[opcode.word] ++ operands) 0 opcode operands.size →
        ∀ before after : Array Word,
          decode (before ++ (#[opcode.word] ++ operands) ++ after) before.size =
            .ok ⟨opcode, before.size, operands⟩ := by
  refine ⟨?_, fun _ _ takes => decode_placed takes⟩
  constructor
  · exact exists_decode_iff
  · exact fun instruction => decode_eq_ok_iff_stands
  · exact fun instruction decoded => (decode_eq_ok decoded).2.1
  · intro instruction decoded opcode_eq
    obtain ⟨counted, operands_eq⟩ := operands_of_switch decoded opcode_eq
    exact ⟨Word.offset?_eq_some_iff.1 counted, operands_eq⟩
  · intro instruction decoded other same
    apply decode_congr decoded
    intro place member
    obtain ⟨after, below⟩ := Finset.mem_Ico.1 member
    rw [(decode_eq_ok decoded).1] at after
    exact same place after below
  · exact fun instruction decoded => decode_append decoded

/-- A `switch` with two cases for one value is read back between other words. -/
theorem decode_between :
    Takes #[0x05, 0, 20, 2, 0, 3, 10, 3, 12] 0 .switch 8 ∧
      decode #[0x0B, 0x05, 0, 20, 2, 0, 3, 10, 3, 12, -1] 1 =
        .ok ⟨.switch, 1, #[0, 20, 2, 0, 3, 10, 3, 12]⟩ := by
  have takes : Takes #[0x05, 0, 20, 2, 0, 3, 10, 3, 12] 0 .switch 8 :=
    .table (by rfl) (by decide : Int32.toInt 2 = (2 : Nat))
  exact ⟨takes, (exact_decode #[] 0).2 .switch #[0, 20, 2, 0, 3, 10, 3, 12] takes #[0x0B] #[-1]⟩

end ActorScript.Instruction
