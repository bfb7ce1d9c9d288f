import ActorScript.Proofs.Verify.Layout

/-!
# Verification ignores data

Of the stream of a verified program the verifier has read the words of the instructions that
it reached, and of the `ai` records that they name.  The word at which it looks for an `else`
marker is among them, as control flow leads there as well.  Whatever the other words are, and
whatever stands behind the last one, it finds the same instructions in the same order.
-/

namespace ActorScript

/-- Equal words make equal stretches of two streams. -/
theorem extract_congr {code other : Array Word} {start stop : Nat} (inside : stop ≤ code.size)
    (within : stop ≤ other.size)
    (same : ∀ place ∈ Finset.Ico start stop, other[place]? = code[place]?) :
    other.extract start stop = code.extract start stop := by
  apply Array.ext_getElem?
  intro index
  rw [Array.getElem?_extract, Array.getElem?_extract, min_eq_left inside, min_eq_left within]
  split
  · exact same _ (Finset.mem_Ico.2 ⟨by omega, by omega⟩)
  · rfl

namespace Instruction

variable {code other : Array Word} {offset : Nat} {instruction : Instruction}

theorem mem_words_self (instruction : Instruction) : instruction.offset ∈ instruction.words :=
  Finset.mem_Ico.2 ⟨le_rfl, instruction.offset_lt_next⟩

/-- The case count is a word of a `switch`. -/
theorem operandCount_congr (decoded : decode code offset = .ok instruction)
    (same : ∀ place ∈ instruction.words, other[place]? = code[place]?) :
    operandCount other offset instruction.opcode = .ok instruction.operands.size := by
  obtain ⟨offset_eq, _, count_eq, _, _⟩ := decode_eq_ok_iff.1 decoded
  unfold operandCount at count_eq ⊢
  cases opcode_eq : instruction.opcode with
  | switch =>
      simp only [opcode_eq] at count_eq ⊢
      have header : Opcode.switchHeader ≤ instruction.operands.size := by
        split at count_eq
        · contradiction
        · split at count_eq
          · contradiction
          · have size_eq := Except.ok.inj count_eq
            omega
      have counted : offset + 3 ∈ instruction.words := by
        rw [words, Finset.mem_Ico, next, length, offset_eq]
        simp only [Opcode.switchHeader] at header
        omega
      rw [same _ counted]
      exact count_eq
  | _ => simpa only [opcode_eq] using count_eq

/-- An instruction can be read in every stream that holds its words. -/
theorem decode_congr (decoded : decode code offset = .ok instruction)
    (same : ∀ place ∈ instruction.words, other[place]? = code[place]?) :
    decode other offset = .ok instruction := by
  obtain ⟨offset_eq, word_eq, _, inside, operands_eq⟩ := decode_eq_ok_iff.1 decoded
  have grows := instruction.offset_lt_next
  have within : instruction.next ≤ other.size := by
    have last := same (instruction.next - 1) (Finset.mem_Ico.2 ⟨by omega, by omega⟩)
    have final : instruction.next - 1 < code.size := by omega
    rw [Array.getElem?_eq_getElem final, Array.getElem?_eq_some_iff] at last
    obtain ⟨below, _⟩ := last
    omega
  have first := same instruction.offset instruction.mem_words_self
  rw [offset_eq, word_eq] at first
  refine decode_eq_ok_iff.2 ⟨offset_eq, first, operandCount_congr decoded same, within, ?_⟩
  rw [operands_eq]
  refine (extract_congr inside within fun place member => ?_).symm
  have bounds := Finset.mem_Ico.1 member
  exact same place (Finset.mem_Ico.2 ⟨by omega, bounds.2⟩)

end Instruction

namespace Program

/-- A word belongs to a reached instruction or to an `ai` record that one names. -/
inductive IsRead (program : Program) (place : Nat) : Prop
  | instruction {instruction : Instruction} (reaches : program.ReachesInstruction instruction)
      (member : place ∈ instruction.words)
  | record {record : RecordRef} {start : Nat} (names : program.Names record)
      (kind_eq : record.kind = .ai) (start_eq : record.offset.offset? = some start)
      (member : place ∈ RecordKind.ai.words start)

/-- Another program has the tables of a program, the words of it that are read, and as many
words or more. -/
structure Retains (program other : Program) : Prop where
  vars_eq : other.vars = program.vars
  actors_eq : other.actors = program.actors
  events_eq : other.events = program.events
  size_le : program.code.size ≤ other.code.size
  word_eq : ∀ place, program.IsRead place → other.code[place]? = program.code[place]?

variable {program other : Program}

theorem Reaches.exists_instruction {offset : Nat} (reached : program.Reaches offset) :
    ∃ instruction, program.ReachesInstruction instruction ∧ instruction.offset = offset := by
  obtain ⟨instruction, decoded⟩ := Verified.exists_decode reached
  have offset_eq := (Instruction.decode_eq_ok decoded).1
  refine ⟨instruction, ?_, offset_eq⟩
  rw [ReachesInstruction, offset_eq]
  exact ⟨reached, decoded⟩

/-- The verifier looks at the reached instructions. -/
theorem reachesInstruction_of_mem {instruction : Instruction}
    (member : instruction ∈ Verify.instructions program.code (Verify.reached program)) :
    program.ReachesInstruction instruction := by
  obtain ⟨offset, listed, found⟩ := List.mem_filterMap.1 member
  obtain ⟨met, reaches, rfl⟩ := Reaches.exists_instruction (Std.TreeMap.mem_keys.1 listed)
  rw [reaches.2] at found
  cases found
  exact reaches

namespace Retains

variable (retains : program.Retains other)
include retains

theorem decode_eq {instruction : Instruction} (reaches : program.ReachesInstruction instruction) :
    Instruction.decode other.code instruction.offset = .ok instruction :=
  Instruction.decode_congr reaches.2 fun place member =>
    retains.word_eq place (.instruction reaches member)

theorem entries_eq : Verify.entries other = Verify.entries program := by
  simp only [Verify.entries, retains.actors_eq, retains.events_eq]

/-! ## What an instruction leads to and names -/

variable (verified : program.Verified)
include verified

/-- The word at a target is read. -/
theorem elseMarkerAt_eq {instruction : Instruction} {target : Word}
    (reaches : program.ReachesInstruction instruction)
    (successor : target ∈ instruction.successors program.code) :
    elseMarkerAt other.code target = elseMarkerAt program.code target := by
  obtain ⟨start, inside, reached⟩ := verified.reaches_successor reaches.1 reaches.2 successor
  obtain ⟨marked, reachesMarked, rfl⟩ := reached.exists_instruction
  have word_eq := retains.word_eq marked.offset
    (.instruction reachesMarked marked.mem_words_self)
  simp only [elseMarkerAt, (inStream?_eq_some_iff.1 inside).1, word_eq]

theorem successors_eq {instruction : Instruction}
    (reaches : program.ReachesInstruction instruction) :
    instruction.successors other.code = instruction.successors program.code := by
  unfold Instruction.successors
  split
  case h_6 condition opcode_eq =>
    unfold Instruction.falseSuccessors
    cases target_eq : instruction.falseTarget with
    | none => rfl
    | some target =>
        have successor : target ∈ instruction.successors program.code := by
          simp only [Instruction.successors, opcode_eq, Instruction.falseSuccessors, target_eq]
          split <;> simp
        simp only [retains.elseMarkerAt_eq verified reaches successor]
  all_goals rfl

theorem targets_eq {instruction : Instruction}
    (reaches : program.ReachesInstruction instruction) :
    Trace.targets other.code instruction = Trace.targets program.code instruction := by
  unfold Trace.targets
  rw [retains.successors_eq verified reaches]
  refine List.filterMap_congr fun word successor => ?_
  obtain ⟨target, inside, _⟩ := verified.reaches_successor reaches.1 reaches.2 successor
  obtain ⟨target_eq, below⟩ := inStream?_eq_some_iff.1 inside
  rw [inside]
  exact inStream?_eq_some_iff.2 ⟨target_eq, below.trans_le retains.size_le⟩

theorem strays_eq {instruction : Instruction}
    (reaches : program.ReachesInstruction instruction) :
    Trace.strays other.code instruction = Trace.strays program.code instruction := by
  unfold Trace.strays
  rw [retains.successors_eq verified reaches]
  refine List.filterMap_congr fun word successor => ?_
  obtain ⟨target, inside, _⟩ := verified.reaches_successor reaches.1 reaches.2 successor
  obtain ⟨target_eq, below⟩ := inStream?_eq_some_iff.1 inside
  rw [inside, inStream?_eq_some_iff.2 ⟨target_eq, below.trans_le retains.size_le⟩]

/-- The words of an `ai` record are read. -/
theorem aiRecordRefs_eq {record : RecordRef} (names : program.Names record)
    (kind_eq : record.kind = .ai) :
    aiRecordRefs other.code record.offset = aiRecordRefs program.code record.offset := by
  obtain ⟨start, start_eq, inside⟩ := verified.exists_start names
  rw [kind_eq] at inside
  have within := inside.trans retains.size_le
  have words_eq := extract_congr inside within fun place member =>
    retains.word_eq place (.record names kind_eq start_eq member)
  simp only [aiRecordRefs, recordAt, start_eq, if_pos inside, if_pos within, words_eq]

theorem recordRefs_eq {instruction : Instruction}
    (reaches : program.ReachesInstruction instruction) :
    instruction.recordRefs other.code = instruction.recordRefs program.code := by
  refine List.flatMap_congr fun ⟨word, kind⟩ member => ?_
  have names : program.Names ⟨instruction.offset, word, kind⟩ :=
    ⟨instruction, reaches, List.mem_flatMap.2 ⟨_, member, List.mem_cons_self⟩⟩
  cases kind with
  | ai => exact congrArg (_ :: ·) (retains.aiRecordRefs_eq verified names rfl)
  | _ => rfl

/-! ## The trace -/

theorem addInstruction_eq {instruction : Instruction} (trace : Trace)
    (reaches : program.ReachesInstruction instruction) :
    trace.addInstruction other.code instruction =
      trace.addInstruction program.code instruction := by
  simp only [Trace.addInstruction, retains.strays_eq verified reaches,
    retains.recordRefs_eq verified reaches]

/-- From offsets that are reached, control flow is followed in the same way. -/
theorem explore_eq {pending : List Nat} {trace : Trace}
    (waiting : ∀ offset ∈ pending, program.Reaches offset) :
    Trace.explore other.code pending trace = Trace.explore program.code pending trace := by
  fun_induction Trace.explore program.code pending trace with
  | case1 trace => rw [Trace.explore]
  | case2 trace offset rest known ih =>
      rw [Trace.explore, dif_pos known]
      exact ih (List.forall_mem_cons.1 waiting).2
  | case3 trace offset rest _ fault unreadable ih =>
      obtain ⟨instruction, decoded⟩ := Verified.exists_decode (waiting offset List.mem_cons_self)
      rw [unreadable] at decoded
      contradiction
  | case4 trace offset rest fresh instruction decoded ih =>
      obtain ⟨here, later⟩ := List.forall_mem_cons.1 waiting
      obtain ⟨met, reaches, rfl⟩ := here.exists_instruction
      cases decoded.symm.trans reaches.2
      have readable := retains.decode_eq reaches
      rw [Trace.explore, dif_neg fresh]
      split
      · rename_i fault unreadable
        rw [readable] at unreadable
        contradiction
      · rename_i found decodedFound
        rw [readable] at decodedFound
        cases decodedFound
        rw [retains.targets_eq verified reaches, retains.addInstruction_eq verified trace reaches]
        apply ih
        intro target member
        rcases List.mem_append.1 member with listed | pending
        · obtain ⟨word, successor, inside⟩ := List.mem_filterMap.1 (List.mem_reverse.1 listed)
          obtain ⟨reached, inside_eq, met⟩ :=
            verified.reaches_successor here decoded successor
          rw [inside] at inside_eq
          cases inside_eq
          exact met
        · exact later target pending

theorem roots_eq : Verify.roots other = Verify.roots program := by
  have points_eq : other.entryPoints = program.entryPoints := by
    simp only [entryPoints, entries, retains.actors_eq, retains.events_eq]
  unfold Verify.roots
  rw [points_eq]
  refine List.filter_congr fun offset member => ?_
  obtain ⟨instruction, decoded⟩ :=
    Verified.exists_decode (verified.reaches_entry (mem_entryPoints.1 member))
  have inside := Instruction.offset_lt_size decoded
  have within := inside.trans_le retains.size_le
  simp only [inside, within]

theorem reached_eq : Verify.reached other = Verify.reached program := by
  unfold Verify.reached trace
  rw [retains.roots_eq verified]
  apply retains.explore_eq verified
  intro offset member
  rw [List.mem_reverse, Verify.roots, List.mem_filter, mem_entryPoints] at member
  exact verified.reaches_entry member.1

/-! ## The findings -/

omit verified in
theorem instructions_eq :
    Verify.instructions other.code (Verify.reached program) =
      Verify.instructions program.code (Verify.reached program) := by
  refine List.filterMap_congr fun offset member => ?_
  obtain ⟨instruction, reaches, rfl⟩ :=
    Reaches.exists_instruction (Std.TreeMap.mem_keys.1 member)
  rw [reaches.2, retains.decode_eq reaches]

omit verified in
theorem limitFindings_eq (limits : Verify.limitFindings program = [])
    (small : other.code.size ≤ Verify.maxWords) : Verify.limitFindings other = [] := by
  simp only [Verify.limitFindings, Verify.longNames, retains.vars_eq, List.append_eq_nil_iff]
    at limits ⊢
  exact ⟨⟨if_neg (Nat.not_lt.2 small), limits.1.2⟩, limits.2⟩

theorem entryFindings_eq (findings : Verify.entryFindings program = []) :
    Verify.entryFindings other = [] := by
  simp only [Verify.entryFindings, retains.entries_eq, retains.events_eq, List.append_eq_nil_iff]
    at findings ⊢
  refine ⟨findings.1, List.filterMap_eq_nil_iff.2 ?_⟩
  rintro ⟨entry, offset⟩ member
  exact if_pos ((verified.entry_lt_size member).trans_le retains.size_le)

omit verified in
theorem recordFinding_eq {record : RecordRef}
    (finding : Verify.recordFinding program.code.size (Verify.reached program)
      (Verify.longest (Verify.reached program)) record = none) :
    Verify.recordFinding other.code.size (Verify.reached program)
      (Verify.longest (Verify.reached program)) record = none := by
  unfold Verify.recordFinding at finding ⊢
  cases start_eq : record.offset.offset? with
  | none => simp [start_eq] at finding
  | some start =>
      simp only [start_eq] at finding ⊢
      by_cases inside : start + record.kind.length ≤ program.code.size
      · rw [if_pos inside] at finding
        rw [if_pos (inside.trans retains.size_le)]
        exact finding
      · rw [if_neg inside] at finding
        contradiction

theorem structureFindings_eq
    (findings : Verify.structureFindings program.code (Verify.reached program) = []) :
    Verify.structureFindings other.code (Verify.reached program) = [] := by
  simp only [Verify.structureFindings, retains.instructions_eq, List.append_eq_nil_iff,
    List.flatMap_eq_nil_iff, List.filterMap_eq_nil_iff] at findings ⊢
  refine ⟨fun instruction member => ?_, fun record member => ?_⟩
  · obtain ⟨cases_eq, targets_eq⟩ := findings.1 instruction member
    refine ⟨cases_eq, ?_⟩
    unfold Verify.targetFindings at targets_eq ⊢
    rw [retains.successors_eq verified (reachesInstruction_of_mem member)]
    exact targets_eq
  · exact retains.recordFinding_eq (findings.2 record member)

omit verified in
theorem scopeOf?_eq (word : Word) : Verify.scopeOf? other word = Verify.scopeOf? program word := by
  simp only [Verify.scopeOf?, retains.vars_eq]

omit verified in
theorem variableFindings_eq
    (findings : Verify.variableFindings program (Verify.reached program) = []) :
    Verify.variableFindings other (Verify.reached program) = [] := by
  simp only [Verify.variableFindings, Verify.declarationFindings, retains.instructions_eq,
    retains.vars_eq, List.append_eq_nil_iff, List.flatMap_eq_nil_iff] at findings ⊢
  refine ⟨findings.1, fun instruction member => ?_⟩
  have found := findings.2 instruction member
  simp only [Verify.operandFindings, Verify.scopeFindings] at found ⊢
  simp only [retains.scopeOf?_eq]
  exact found

end Retains

/-- Only the tables of a verified program and the words that are read matter to verification, as
long as the stream does not grow too large. -/
theorem verified_of_retains (verified : program.Verified) (retains : program.Retains other)
    (small : other.code.size ≤ Verify.maxWords) :
    other.Verified ∧ Verify.reached other = Verify.reached program := by
  have trace_eq := retains.reached_eq verified
  refine ⟨?_, trace_eq⟩
  have parts := verified
  simp only [Verified, Verify.findings, trace_eq, List.append_eq_nil_iff] at parts ⊢
  obtain ⟨⟨⟨⟨limits, entries⟩, flow⟩, structures⟩, uses⟩ := parts
  refine ⟨⟨⟨⟨retains.limitFindings_eq limits small, retains.entryFindings_eq verified entries⟩,
    ?_⟩, retains.structureFindings_eq verified structures⟩, retains.variableFindings_eq uses⟩
  simp only [Verify.flowFindings, verified.faults_eq, verified.dangling_eq]
  rfl

/-- A script that starts an `ai`, the record of the `ai`, and the action that the record names. -/
def staged : Program where
  code := #[0x30, 3, 7, 6, 0, 0, 0, 1, 1, 1, 1]
  actors := Table.empty.insert 1 { tick := some 0 }

/-- The same program with another action and more words behind it. -/
def restaged : Program where
  code := #[0x30, 3, 7, 6, 0, 0, 4, -1, 0x77, 7, 9, 255, 0x30]
  actors := Table.empty.insert 1 { tick := some 0 }

theorem reachesInstruction_staged {instruction : Instruction}
    (reaches : staged.ReachesInstruction instruction) :
    instruction = ⟨.setAi, 0, #[3]⟩ ∨ instruction = ⟨.finish .actor, 2, #[]⟩ := by
  have listed : instruction.offset ∈ (Verify.reached staged).starts.keys :=
    Std.TreeMap.mem_keys.2 reaches.1
  have keys_eq : (Verify.reached staged).starts.keys = [0, 2] := by cbv
  have decoded := reaches.2
  rw [keys_eq, List.mem_pair] at listed
  rcases listed with offset_eq | offset_eq <;> rw [offset_eq] at decoded
  · have script : Instruction.decode staged.code 0 = .ok ⟨.setAi, 0, #[3]⟩ := by cbv
    exact Or.inl (Except.ok.inj (decoded.symm.trans script))
  · have ending : Instruction.decode staged.code 2 = .ok ⟨.finish .actor, 2, #[]⟩ := by cbv
    exact Or.inr (Except.ok.inj (decoded.symm.trans ending))

/-- The words of the action are not read. -/
theorem lt_of_isRead_staged {place : Nat} (read : staged.IsRead place) : place < 6 := by
  cases read with
  | instruction reaches member =>
      have bounds := Finset.mem_Ico.1 member
      rcases reachesInstruction_staged reaches with rfl | rfl
      · exact bounds.2.trans (by decide)
      · exact bounds.2.trans (by decide)
  | record names kind_eq start_eq member =>
      have bounds := Finset.mem_Ico.1 member
      obtain ⟨instruction, reaches, named⟩ := names
      rcases reachesInstruction_staged reaches with rfl | rfl
      · have records_eq : Instruction.recordRefs staged.code ⟨.setAi, 0, #[3]⟩ =
            [⟨0, 3, .ai⟩, ⟨3, 6, .action⟩] := by cbv
        rw [records_eq, List.mem_pair] at named
        rcases named with rfl | rfl
        · cases start_eq.symm.trans (rfl : Word.offset? 3 = some 3)
          exact bounds.2
        · contradiction
      · contradiction

/-- A verified program whose data has been changed. -/
theorem verified_restaged : staged.Verified ∧ staged.Retains restaged ∧
    restaged.code.size ≤ Verify.maxWords ∧ restaged.Verified ∧
    Verify.reached restaged = Verify.reached staged := by
  have verified : staged.Verified := by cbv
  have small : restaged.code.size ≤ Verify.maxWords := by decide
  have retains : staged.Retains restaged := by
    refine ⟨rfl, rfl, rfl, by decide, fun place read => ?_⟩
    have below := lt_of_isRead_staged read
    interval_cases place <;> rfl
  exact ⟨verified, retains, small, verified_of_retains verified retains small⟩

end Program

end ActorScript
