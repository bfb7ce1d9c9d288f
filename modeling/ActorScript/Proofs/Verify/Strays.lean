import ActorScript.Proofs.Trace.Exact
import ActorScript.Proofs.Instruction
import ActorScript.Verify

/-!
# Targets outside the stream

Execution passes on from an instruction by going on behind it or by a jump, and every passage
that leads outside the stream is reported once.  A report tells the two apart by the offset that
they lead to: an instruction that ends the stream and leads to its end is reported to run off it,
even where it jumps there.  So they are told apart in the programs without such a jump, and in no
others.
-/

namespace ActorScript

theorem Word.eq_ofOffset_iff {word : Word} {offset : Nat} (small : offset ≤ maximum) :
    word = ofOffset offset ↔ word.toInt = offset := by
  rw [← offset?_eq_some_iff]
  constructor
  · rintro rfl
    exact offset?_ofOffset small
  · intro named
    exact (ofOffset_of_offset? named).symm

/-- A way to pass on from an instruction. -/
inductive Passage where
  /-- Going on with what stands behind the instruction. -/
  | onward
  /-- The target of a jump, a call, a case or a failed test. -/
  | jump
deriving DecidableEq, Repr

/-- Where execution may continue after an instruction, and by which way it gets there. -/
def Instruction.passages (code : Array Word) (instruction : Instruction) :
    List (Passage × Word) :=
  let behind := (Passage.onward, Word.ofOffset instruction.next)
  match instruction.opcode with
  | .elseMarker => [(.jump, instruction.operand 0)]
  | .callState => [behind, (.jump, instruction.operand 0)]
  | .switch => instruction.switchSuccessors.map fun target => (.jump, target)
  | .endSwitch | .finish _ => []
  | .branch _ => behind :: (instruction.falseSuccessors code).map fun target => (.jump, target)
  | _ => [behind]

namespace Verify

/-- The report of a passage out of the stream. -/
def passageFinding (offset : Nat) : Passage × Word → Finding
  | (.onward, _) => .runsOffEnd offset
  | (.jump, target) => .danglingTarget offset target

/-- The report is about a target outside the stream. -/
def Finding.isStray : Finding → Bool
  | .danglingTarget _ _ | .runsOffEnd _ => true
  | _ => false

/-- What is found while control flow is followed from the entries. -/
def reachFindings (program : Program) : List Finding :=
  entryFindings program ++ flowFindings program.code.size (reached program)

/-- The reports about targets outside the stream. -/
def strayFindings (program : Program) : List Finding :=
  (reachFindings program).filter Finding.isStray

/-- Control flow leads from an entry inside the stream to an instruction. -/
abbrev Meets (program : Program) (instruction : Instruction) : Prop :=
  Trace.ReachableInstruction program.code (roots program) instruction

/-- For every instruction that control flow leads to, each passage out of the stream is reported
once, as what it is. -/
def TellsApart (program : Program) : Prop :=
  ∃ met : List Instruction, met.Nodup ∧
    (∀ instruction, instruction ∈ met ↔ Meets program instruction) ∧
    (strayFindings program).Perm (met.flatMap fun instruction =>
      ((instruction.passages program.code).filter fun passage =>
        (inStream? program.code passage.2).isNone).map (passageFinding instruction.offset))

/-- No instruction that ends the stream jumps to the end of the stream. -/
def EndsApart (program : Program) : Prop :=
  ∀ instruction, Meets program instruction → instruction.next = program.code.size →
    ∀ target, (Passage.jump, target) ∈ instruction.passages program.code →
      target.toInt ≠ program.code.size

variable {program : Program} {instruction : Instruction}

/-- The passages lead to the successors of an instruction, in their order. -/
theorem map_snd_passages (code : Array Word) (instruction : Instruction) :
    (instruction.passages code).map (·.2) = instruction.successors code := by
  unfold Instruction.passages Instruction.successors
  cases instruction.opcode <;> simp [Function.comp_def]

/-- Only one passage is no jump. -/
theorem eq_ofOffset_of_onward {code : Array Word} {target : Word}
    (member : (Passage.onward, target) ∈ instruction.passages code) :
    target = Word.ofOffset instruction.next := by
  unfold Instruction.passages at member
  split at member <;> simp_all

/-! ## The reports as they are made -/

/-- The report of a target outside the stream, told by its offset. -/
def offsetFinding (size : Nat) (instruction : Instruction) (target : Word) : Finding :=
  if instruction.next = size ∧ target = Word.ofOffset size then .runsOffEnd instruction.offset
  else .danglingTarget instruction.offset target

theorem strayFinding_eq (met : Meets program instruction) (target : Word) :
    strayFinding program.code.size (reached program) instruction.offset target =
      offsetFinding program.code.size instruction target := by
  have noted : (reached program).starts[instruction.offset]? = some instruction.length :=
    (Trace.exact_of_trace _ _).starts _ _ |>.2 ⟨instruction, met, rfl, rfl⟩
  simp only [strayFinding, noted]
  rfl

/-- Neither the entries nor the faults make a report about a target. -/
theorem strayFindings_eq (program : Program) :
    strayFindings program = (reached program).dangling.toList.map fun stray =>
      strayFinding program.code.size (reached program) stray.1 stray.2 := by
  have entries : (entryFindings program).filter Finding.isStray = [] := by
    rw [List.filter_eq_nil_iff]
    intro finding member
    rcases List.mem_append.1 member with event | entry
    · obtain ⟨⟨id, offset⟩, _, found⟩ := List.mem_filterMap.1 event
      dsimp only at found
      split at found <;> cases found
      simp [Finding.isStray]
    · obtain ⟨⟨entry, offset⟩, _, found⟩ := List.mem_filterMap.1 entry
      dsimp only at found
      split at found <;> cases found
      simp [Finding.isStray]
  have faults : ((reached program).faults.toList.map Finding.unreadable).filter
      Finding.isStray = [] := by
    simp [Finding.isStray]
  have strays : ∀ finding ∈ (reached program).dangling.toList.map (fun stray =>
      strayFinding program.code.size (reached program) stray.1 stray.2),
      finding.isStray = true := by
    intro finding member
    obtain ⟨⟨offset, target⟩, _, rfl⟩ := List.mem_map.1 member
    dsimp only [strayFinding]
    split
    · split <;> rfl
    · rfl
  rw [strayFindings, reachFindings, flowFindings, List.filter_append, List.filter_append, entries,
    faults, List.filter_eq_self.2 strays]
  rfl

/-- Each target outside the stream is reported once, whatever the program. -/
theorem exists_strayFindings_eq (program : Program) :
    ∃ met : List Instruction, met.Nodup ∧
      (∀ instruction, instruction ∈ met ↔ Meets program instruction) ∧
      strayFindings program = met.flatMap fun instruction =>
        ((instruction.successors program.code).filter fun target =>
          (inStream? program.code target).isNone).map
            (offsetFinding program.code.size instruction) := by
  obtain ⟨met, nodup, mem_iff, dangling_eq, _⟩ :=
    (Trace.exact_of_trace program.code (roots program)).expansions
  refine ⟨met, nodup, mem_iff, ?_⟩
  rw [strayFindings_eq, show (reached program).dangling.toList = _ from dangling_eq,
    List.map_flatMap]
  apply List.flatMap_congr
  intro instruction member
  rw [List.map_map]
  apply List.map_congr_left
  intro target _
  exact strayFinding_eq ((mem_iff instruction).1 member) target

/-! ## Going on and jumping to the end -/

/-- Whoever goes on with what lies outside the stream has come to its end. -/
theorem next_eq_of_onward (small : program.code.size ≤ Word.maximum)
    (met : Meets program instruction) {target : Word}
    (member : (Passage.onward, target) ∈ instruction.passages program.code)
    (outside : (inStream? program.code target).isNone = true) :
    instruction.next = program.code.size ∧ target = Word.ofOffset program.code.size := by
  have inside := (Instruction.decode_eq_ok met.2).2.1
  obtain rfl := eq_ofOffset_of_onward member
  have next_eq : instruction.next = program.code.size := by
    by_contra apart
    have found : inStream? program.code (Word.ofOffset instruction.next) =
        some instruction.next :=
      inStream?_eq_some_iff.2 ⟨Word.offset?_ofOffset (by omega), by omega⟩
    rw [found] at outside
    contradiction
  exact ⟨next_eq, by rw [next_eq]⟩

/-- A passage out of the stream is reported as what it is, unless it is a jump to the end of the
stream from the instruction there. -/
theorem offsetFinding_eq (small : program.code.size ≤ Word.maximum)
    (met : Meets program instruction) {passage : Passage × Word}
    (member : passage ∈ instruction.passages program.code)
    (outside : (inStream? program.code passage.2).isNone = true)
    (apart : passage.1 = .jump → instruction.next = program.code.size →
      passage.2.toInt ≠ program.code.size) :
    offsetFinding program.code.size instruction passage.2 =
      passageFinding instruction.offset passage := by
  obtain ⟨way, target⟩ := passage
  cases way with
  | onward => exact if_pos (next_eq_of_onward small met member outside)
  | jump =>
      apply if_neg
      rintro ⟨ends, target_eq⟩
      exact apart rfl ends ((Word.eq_ofOffset_iff small).1 target_eq)

theorem tellsApart_of_endsApart (small : program.code.size ≤ Word.maximum)
    (apart : EndsApart program) : TellsApart program := by
  obtain ⟨met, nodup, mem_iff, findings_eq⟩ := exists_strayFindings_eq program
  refine ⟨met, nodup, mem_iff, ?_⟩
  rw [findings_eq]
  apply List.Perm.of_eq
  apply List.flatMap_congr
  intro instruction listed
  have meets := (mem_iff instruction).1 listed
  rw [← map_snd_passages, List.filter_map, List.map_map]
  apply List.map_congr_left
  intro passage kept
  obtain ⟨member, outside⟩ := List.mem_filter.1 kept
  apply offsetFinding_eq small meets member outside
  intro jump ends
  obtain ⟨way, target⟩ := passage
  obtain rfl : way = .jump := jump
  exact apart instruction meets ends target member

/-- No report says of an instruction at the end of the stream that it jumps there. -/
theorem danglingTarget_not_mem (met : Meets program instruction)
    (ends : instruction.next = program.code.size) :
    Finding.danglingTarget instruction.offset (Word.ofOffset program.code.size) ∉
      strayFindings program := by
  intro reported
  obtain ⟨_, _, mem_iff, findings_eq⟩ := exists_strayFindings_eq program
  rw [findings_eq] at reported
  obtain ⟨other, listed, made⟩ := List.mem_flatMap.1 reported
  obtain ⟨target, _, finding_eq⟩ := List.mem_map.1 made
  unfold offsetFinding at finding_eq
  split at finding_eq
  · contradiction
  · rename_i told
    obtain ⟨offset_eq, rfl⟩ := Finding.danglingTarget.inj finding_eq
    have readable := ((mem_iff other).1 listed).2
    rw [offset_eq, met.2] at readable
    cases readable
    exact told ⟨ends, rfl⟩

theorem endsApart_of_tellsApart (small : program.code.size ≤ Word.maximum)
    (tells : TellsApart program) : EndsApart program := by
  intro instruction meets ends target member target_eq
  obtain ⟨met, _, mem_iff, findings_perm⟩ := tells
  have named := Word.offset?_eq_some_iff.2 target_eq
  obtain rfl := (Word.eq_ofOffset_iff small).2 target_eq
  have outside : (inStream? program.code (Word.ofOffset program.code.size)).isNone = true := by
    simp [inStream?, named]
  apply danglingTarget_not_mem meets ends
  refine findings_perm.mem_iff.2 (List.mem_flatMap.2 ⟨instruction, (mem_iff _).2 meets, ?_⟩)
  exact List.mem_map.2 ⟨_, List.mem_filter.2 ⟨member, outside⟩, rfl⟩

/-- Every target outside the stream of an instruction that control flow leads to is reported once,
as running off the end where it is the end of the stream and that of the instruction.  So going on
behind the last word is told from a jump exactly in the programs in which no instruction at the
end of the stream jumps there. -/
theorem tellsApart_iff (small : program.code.size ≤ maxWords) :
    (∃ met : List Instruction, met.Nodup ∧
      (∀ instruction, instruction ∈ met ↔ Meets program instruction) ∧
      strayFindings program = met.flatMap fun instruction =>
        ((instruction.successors program.code).filter fun target =>
          (inStream? program.code target).isNone).map
            (offsetFinding program.code.size instruction)) ∧
    (TellsApart program ↔ EndsApart program) := by
  have within : program.code.size ≤ Word.maximum := Nat.le_trans small (by decide)
  exact ⟨exists_strayFindings_eq program, endsApart_of_tellsApart within,
    tellsApart_of_endsApart within⟩

/-- A conditional at the end of the stream, with a target far behind it. -/
def falling : Program where
  code := #[0x11, 5, 40]
  actors := Table.empty.insert 1 { tick := some 0 }

/-- Whether its test holds or not, execution leaves the stream, in two ways that are told apart. -/
theorem tellsApart_falling : falling.code.size ≤ maxWords ∧ TellsApart falling := by
  refine ⟨by decide, (tellsApart_iff (by decide)).2.2 ?_⟩
  rintro ⟨opcode, offset, operands⟩ ⟨_, decoded⟩ _ target member target_eq
  have below : offset < 3 := Instruction.offset_lt_size decoded
  obtain rfl | rfl | rfl : offset = 0 ∨ offset = 1 ∨ offset = 2 := by omega
  · have script : Instruction.decode falling.code 0 = .ok ⟨.branch .count, 0, #[5, 40]⟩ := by cbv
    cases script.symm.trans decoded
    have passages_eq : Instruction.passages falling.code ⟨.branch .count, 0, #[5, 40]⟩ =
        [(.onward, 3), (.jump, 40)] := by
      decide
    simp only [passages_eq, List.mem_cons, Prod.mk.injEq, reduceCtorEq, false_and, false_or,
      true_and, List.not_mem_nil, or_false] at member
    subst member
    exact absurd target_eq (by decide)
  · have operand : Instruction.decode falling.code 1 = .error (.truncated 1 .switch) := by cbv
    cases operand.symm.trans decoded
  · have operand : Instruction.decode falling.code 2 =
        .error (.truncated 2 (.branch .probe)) := by
      cbv
    cases operand.symm.trans decoded

/-- A jump from the end of the stream to that end. -/
def leaping : Program where
  code := #[0x03, 2]
  actors := Table.empty.insert 1 { tick := some 0 }

/-- An `else` that ends the stream jumps to its end, and is reported to run off it. -/
theorem not_forall_tellsApart :
    ¬ ∀ program : Program, program.code.size ≤ maxWords → TellsApart program := by
  intro tells
  have meets : Meets leaping ⟨.elseMarker, 0, #[2]⟩ := ⟨.root (by decide), by cbv⟩
  have apart := endsApart_of_tellsApart (by decide) (tells leaping (by decide)) _ meets rfl 2
    (by decide)
  exact apart (by decide)

end Verify

end ActorScript
