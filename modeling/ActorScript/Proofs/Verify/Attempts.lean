import ActorScript.Proofs.Instruction
import ActorScript.Proofs.Machine.Entry
import ActorScript.Proofs.Verify.Closure
import ActorScript.Proofs.World.States

/-!
# Attempts in verified programs

A frame of a verified program stands at an instruction that the verifier has reached,
and every entity can go on with its action.  Each attempt keeps to that, whatever the
instruction, and fails at most by a division by zero.

There is one way out.  The verifier does not follow control flow behind an `endSwitch`,
while a brace run that ends there goes on behind it.  Such a run escapes unless an
instruction is reached there by another way.
-/

namespace ActorScript

/-- The action of an entity is none or one whose record lies inside the stream. -/
def Program.Animates (program : Program) (state : ActorState) : Prop :=
  state.action = 0 ∨ (recordAt program.code .action state.action).isSome = true

/-- A division by zero, of either kind. -/
def RuntimeError.isDivision : RuntimeError → Bool
  | .divisionByZero _ | .moduloByZero _ => true
  | _ => false

/-- An `endSwitch` ends a brace run, and the verifier has reached no instruction behind it. -/
def Moment.Escapes (session : Session) (moment : Moment World) : Prop :=
  moment.nesting = .block ∧ ∃ instruction,
    moment.execution.attempted? session = some instruction ∧
      instruction.opcode = .endSwitch ∧ ¬ session.program.Reaches instruction.next

namespace Execution

variable {session : Session} {instruction : Instruction} {offset : Nat}

/-- A frame that goes on stands at an instruction that the verifier has reached, and every
entity can go on with its action. -/
structure Tracked (session : Session) (execution : Execution World) : Prop where
  cursor : execution.frame.termination = .running →
    session.program.Reaches execution.frame.cursor
  states : execution.world.AllStates session.program.Animates

/-- What a run of the given kind leaves behind.  Behind a block the machine goes on where
the block has ended. -/
structure Concluded (session : Session) (nesting : Nesting) (outcome : Outcome World Unit) :
    Prop where
  states : outcome.2.world.AllStates session.program.Animates
  error : ∀ error, outcome.1 = .error error → error.isDivision = true
  cursor : nesting = .block → outcome.1 = .ok () → outcome.2.frame.termination = .running →
    session.program.Reaches outcome.2.frame.cursor

/-- What an attempt comes to that starts no nested run: it fails at most by a division, and goes
on only at a reached instruction. -/
structure Sound (session : Session) (outcome : Outcome World Flow) : Prop where
  error : ∀ error, outcome.1 = .error error → error.isDivision = true
  cursor : outcome.1 = .ok .proceed → session.program.Reaches outcome.2.frame.cursor
  states : outcome.2.world.AllStates session.program.Animates

/-- What every attempt comes to while a run does not escape. -/
inductive Stays (session : Session) (nesting : Nesting) : Attempt World → Prop
  | proceeds {after : Execution World} (tracked : after.Tracked session) :
      Stays session nesting (.settled (.ok .proceed, after))
  | ends {after : Execution World} (concluded : Concluded session nesting (.ok (), after)) :
      Stays session nesting (.settled (.ok .done, after))
  | fails {error : RuntimeError} {after : Execution World}
      (concluded : Concluded session nesting (.error error, after)) :
      Stays session nesting (.settled (.error error, after))
  | nests {kind : Nesting} {start : Execution World}
      {goOn : Outcome World Unit → Outcome World Flow}
      (tracked : start.Tracked session)
      (proceeds : ∀ after, Concluded session kind (.ok (), after) →
        ∃ middle, goOn (.ok (), after) = (.ok .proceed, middle) ∧ middle.Tracked session) :
      Stays session nesting (.nested kind start goOn)

/-- An execution that has been stopped has nowhere to go on. -/
theorem concluded_of_stopped {nesting : Nesting} {after : Execution World}
    (states : after.world.AllStates session.program.Animates)
    (stopped : after.frame.termination ≠ .running) :
    Concluded session nesting (.ok (), after) where
  states := states
  error _ failed := by cases failed
  cursor _ _ running := absurd running stopped

/-- Where a `switch` goes on is one of its successors. -/
theorem mem_successors_of_chosen {value goal : Word} (opcode_eq : instruction.opcode = .switch)
    (chosen_eq : chosen instruction value = some goal) :
    goal ∈ instruction.successors session.program.code := by
  simp only [Instruction.successors, opcode_eq, Instruction.switchSuccessors]
  apply List.mem_cons_of_mem
  unfold chosen at chosen_eq
  split at chosen_eq
  · rename_i choice found
    cases chosen_eq
    apply List.mem_append_right
    exact List.mem_map_of_mem (List.mem_of_find?_eq_some found)
  · apply List.mem_append_left
    dsimp only at chosen_eq ⊢
    split at chosen_eq
    · contradiction
    · rename_i present
      cases chosen_eq
      rw [if_neg present]
      exact List.mem_singleton_self _

section Reached

variable (verified : session.program.Verified) (reaches : session.program.Reaches offset)
  (decoded : Instruction.decode session.program.code offset = .ok instruction)
include verified reaches decoded

/-! ## Targets and records -/

/-- A successor of a reached instruction is a target that the machine accepts. -/
theorem reaches_of_successor {word : Word}
    (successor : word ∈ instruction.successors session.program.code) :
    ∃ target, targetOf session instruction word = .ok target ∧
      session.program.Reaches target := by
  obtain ⟨target, inside, reached⟩ := verified.reaches_successor reaches decoded successor
  exact ⟨target, by simp [targetOf, inside], reached⟩

theorem reaches_target {word : Word} {target : Nat}
    (successor : word ∈ instruction.successors session.program.code)
    (target_eq : targetOf session instruction word = .ok target) :
    session.program.Reaches target := by
  obtain ⟨same, same_eq, reached⟩ := reaches_of_successor verified reaches decoded successor
  rw [same_eq] at target_eq
  cases target_eq
  exact reached

theorem targetOf_ne_error {word : Word} {error : RuntimeError}
    (successor : word ∈ instruction.successors session.program.code) :
    targetOf session instruction word ≠ .error error := by
  obtain ⟨target, target_eq, _⟩ := reaches_of_successor verified reaches decoded successor
  rw [target_eq]
  intro impossible
  contradiction

/-- The target of a failed test is a successor, and so is the place behind an `else`
marker that stands there. -/
theorem reaches_falseTarget {condition : Test}
    (opcode_eq : instruction.opcode = .branch condition) :
    ∃ start, targetOf session instruction (instruction.falseTarget.getD 0) = .ok start ∧
      session.program.Reaches start ∧
      (elseMarkerAt session.program.code (instruction.falseTarget.getD 0) = true →
        session.program.Reaches (start + 2)) := by
  obtain ⟨word, word_eq⟩ := Instruction.exists_falseTarget decoded opcode_eq
  rw [word_eq, Option.getD_some]
  have direct : word ∈ instruction.successors session.program.code := by
    simp only [Instruction.successors, opcode_eq, Instruction.falseSuccessors, word_eq]
    split <;> simp
  obtain ⟨start, inside, reached⟩ := verified.reaches_successor reaches decoded direct
  refine ⟨start, by simp [targetOf, inside], reached, ?_⟩
  intro marked
  have behind : word + 2 ∈ instruction.successors session.program.code := by
    simp [Instruction.successors, opcode_eq, Instruction.falseSuccessors, word_eq, marked]
  obtain ⟨later, later_eq, reached⟩ := verified.reaches_successor reaches decoded behind
  obtain ⟨start_eq, below⟩ := inStream?_eq_some_iff.1 inside
  have small : start + 2 ≤ Word.maximum := by
    have limit := verified.size_le
    simp only [Verify.maxWords] at limit
    simp only [Word.maximum]
    omega
  have same : word + 2 = Word.ofOffset (start + 2) := by
    rw [Word.ofOffset_add, Word.ofOffset_of_offset? start_eq]
    rfl
  rw [same, inStream?_eq_some_iff, Word.offset?_ofOffset small] at later_eq
  cases later_eq.1
  exact reached

/-- Whatever action an instruction gives to an entity has its record. -/
theorem animates_of_adopts {action : Word} (adopts : Adopts session instruction action)
    {state : ActorState} (action_eq : state.action = action) :
    session.program.Animates state := by
  rw [Program.Animates, action_eq]
  cases adopts with
  | nothing _ => exact Or.inl rfl
  | action opcode_eq =>
      by_cases none : instruction.operand 0 = 0
      · exact Or.inl none
      · right
        have named : ⟨instruction.offset, instruction.operand 0, .action⟩ ∈
            instruction.recordRefs session.program.code := by
          simp [Instruction.recordRefs, Instruction.records, opcode_eq, Opcode.operands, none]
        have inside := verified.recordAt_isSome reaches decoded named
        exact inside
  | @ai words opcode_eq present record =>
      by_cases none : words[0]?.getD 0 = 0
      · exact Or.inl none
      · right
        have named : (instruction.operand 0, RecordKind.ai) ∈ instruction.records := by
          simp [Instruction.records, opcode_eq, Opcode.operands, present]
        have through : ⟨(instruction.operand 0).toNatClampNeg, words[0]?.getD 0, .action⟩ ∈
            aiRecordRefs session.program.code (instruction.operand 0) := by
          unfold aiRecordRefs
          rw [record]
          simp [none]
        have inside := verified.recordAt_isSome reaches decoded
          (List.mem_flatMap.2 ⟨_, named, List.mem_cons_of_mem _ through⟩)
        exact inside

/-! ## Plain instructions -/

/-- A plain instruction of a verified program fails only by a division. -/
theorem isDivision_of_failing {error : RuntimeError}
    (failing : Failing session instruction error) : error.isDivision = true := by
  cases failing with
  | division => rfl
  | modulo => rfl
  | marker opcode_eq target =>
      apply absurd target
      apply targetOf_ne_error verified reaches decoded
      simp [Instruction.successors, opcode_eq]
  | target opcode_eq target =>
      obtain ⟨start, start_eq, _⟩ := reaches_falseTarget verified reaches decoded opcode_eq
      rw [start_eq] at target
      contradiction
  | record opcode_eq present missing =>
      have named : ⟨instruction.offset, instruction.operand 0, .ai⟩ ∈
          instruction.recordRefs session.program.code := by
        simp [Instruction.recordRefs, Instruction.records, opcode_eq, Opcode.operands, present]
      have found := verified.recordAt_isSome reaches decoded named
      rw [missing] at found
      contradiction

/-- A jump of a plain instruction leads to a reached instruction. -/
theorem reaches_of_leadsTo {target : Nat} (leads : LeadsTo session instruction target) :
    session.program.Reaches target := by
  cases leads with
  | marker opcode_eq target_eq =>
      apply reaches_target verified reaches decoded _ target_eq
      simp [Instruction.successors, opcode_eq]
  | target opcode_eq unmarked target_eq =>
      obtain ⟨start, start_eq, reached, _⟩ := reaches_falseTarget verified reaches decoded opcode_eq
      rw [start_eq] at target_eq
      cases target_eq
      exact reached
  | alternative opcode_eq marked target_eq =>
      obtain ⟨start, start_eq, _, behind⟩ := reaches_falseTarget verified reaches decoded opcode_eq
      rw [start_eq] at target_eq
      cases target_eq
      exact behind marked

/-- Whatever a plain instruction changes, every entity can go on with its action. -/
theorem states_change {before after : Execution World}
    (change : Change session instruction before after)
    (states : before.world.AllStates session.program.Animates) :
    after.world.AllStates session.program.Animates := by
  cases change with
  | adjust change adopts =>
      rw [world_modifyActor]
      split
      · exact states
      · apply states.modifyState
        intro state fine
        rcases adopts state with same | adopted
        · rw [Program.Animates, same]
          exact fine
        · exact animates_of_adopts verified reaches decoded adopted rfl
  | store ref field _ value _ => exact states.writeField ref field value
  | cause _ effect =>
      rw [world_cause_inMemory]
      exact states.apply _ _ (Or.inl rfl)
  | jump _ => exact states
  | draw _ _ => exact states
  | drawDisplay _ _ => exact states
  | write _ _ _ => exact states
  | read _ _ _ => exact states
  | ask _ => exact states
  | stop => exact states

/-- Whatever a plain instruction changes, the cursor stays at reached instructions. -/
theorem reaches_change {before after : Execution World}
    (change : Change session instruction before after)
    (reached : session.program.Reaches before.frame.cursor) :
    session.program.Reaches after.frame.cursor := by
  cases change with
  | jump leads => exact reaches_of_leadsTo verified reaches decoded leads
  | adjust change _ =>
      rw [frame_modifyActor]
      exact reached
  | cause _ effect =>
      rw [frame_cause]
      split
      · exact reached
      · rw [Frame.stop_eq]
        exact reached
  | stop =>
      rw [frame_requestDelete, Frame.stop_eq]
      exact reached
  | draw _ _ => exact reached
  | drawDisplay _ _ => exact reached
  | write _ _ _ => exact reached
  | read _ _ _ => exact reached
  | store _ _ _ _ _ => exact reached
  | ask _ => exact reached

/-- A plain instruction that succeeds leads to a reached instruction. -/
theorem reaches_perform {execution after : Execution World}
    (plain : instruction.opcode.isPlain = true)
    (running : execution.frame.termination = .running)
    (behind : execution.frame.cursor = instruction.next)
    (performed : perform session instruction execution = (.ok (), after)) :
    session.program.Reaches after.frame.cursor := by
  by_cases marker : instruction.opcode = .elseMarker
  · -- The only plain instruction that never goes on behind itself.
    unfold perform at performed
    simp only [marker] at performed
    unfold jump at performed
    split at performed
    · rename_i target target_eq
      cases performed
      apply reaches_target verified reaches decoded _ target_eq
      simp [Instruction.successors, marker]
    · cases performed
  · have falls : Word.ofOffset instruction.next ∈
        instruction.successors session.program.code := by
      unfold Instruction.successors
      cases opcode_eq : instruction.opcode <;> simp_all [Opcode.isPlain]
    have start : session.program.Reaches execution.frame.cursor := by
      rw [behind]
      exact verified.reaches_next reaches decoded falls
    have kept := @kept_perform World _ session instruction execution running
      (fun execution => session.program.Reaches execution.frame.cursor)
      (reaches_change verified reaches decoded) start
    rw [performed] at kept
    exact kept

theorem states_perform {execution : Execution World}
    (running : execution.frame.termination = .running)
    (states : execution.world.AllStates session.program.Animates) :
    (perform session instruction execution).2.world.AllStates session.program.Animates := by
  have kept := @kept_perform World _ session instruction execution running
    (fun execution => execution.world.AllStates session.program.Animates)
    (states_change verified reaches decoded) states
  exact kept

theorem sound_perform {execution : Execution World} (plain : instruction.opcode.isPlain = true)
    (running : execution.frame.termination = .running)
    (behind : execution.frame.cursor = instruction.next)
    (states : execution.world.AllStates session.program.Animates) :
    Sound session (resume (perform session instruction execution)) := by
  have kept := states_perform verified reaches decoded running states
  cases performed : perform session instruction execution with
  | mk result after =>
      rw [performed] at kept
      cases result with
      | ok _ =>
          refine ⟨fun _ failed => (by cases failed), fun _ => ?_, kept⟩
          exact reaches_perform verified reaches decoded plain running behind performed
      | error error =>
          refine ⟨?_, fun proceeds => (by cases proceeds), kept⟩
          rintro _ ⟨⟩
          apply isDivision_of_failing verified reaches decoded
          exact failing_of_perform (congrArg Prod.fst performed)

/-! ## Nested runs -/

/-- A nested run starts at a reached instruction, and what follows a state call or a `switch`
does so as well. -/
theorem reaches_enters {execution : Execution World} {kind : Nesting} {start : Nat}
    {onward : Outcome World Unit → Outcome World Flow}
    (behind : execution.frame.cursor = instruction.next)
    (enters : Enters session instruction execution kind start onward) :
    session.program.Reaches start ∧
      (instruction.opcode = .leftBrace ∧ kind = .block ∧ start = execution.frame.cursor ∧
          onward = resume ∨
        ∃ cursor, onward = resumeAt cursor ∧ session.program.Reaches cursor) := by
  cases enters with
  | block opcode_eq =>
      refine ⟨?_, Or.inl ⟨opcode_eq, rfl, rfl, rfl⟩⟩
      rw [behind]
      apply verified.reaches_next reaches decoded
      simp [Instruction.successors, opcode_eq]
  | call opcode_eq target_eq =>
      refine ⟨?_, Or.inr ⟨_, rfl, ?_⟩⟩
      · apply reaches_target verified reaches decoded _ target_eq
        simp [Instruction.successors, opcode_eq]
      · rw [behind]
        apply verified.reaches_next reaches decoded
        simp [Instruction.successors, opcode_eq]
  | branch opcode_eq exit chosen_eq target_eq =>
      refine ⟨?_, Or.inr ⟨_, rfl, ?_⟩⟩
      · apply reaches_target verified reaches decoded _ target_eq
        exact mem_successors_of_chosen opcode_eq chosen_eq
      · apply reaches_target verified reaches decoded _ exit
        simp [Instruction.successors, opcode_eq, Instruction.switchSuccessors]

/-- Behind a nested run that has ended well the machine stays among the reached instructions. -/
theorem tracked_enters {execution : Execution World} {kind : Nesting} {start : Nat}
    {onward : Outcome World Unit → Outcome World Flow}
    (behind : execution.frame.cursor = instruction.next)
    (enters : Enters session instruction execution kind start onward) {after : Execution World}
    (concluded : Concluded session kind (.ok (), after)) :
    ∃ middle, onward (.ok (), after) = (.ok .proceed, middle) ∧ middle.Tracked session := by
  rcases (reaches_enters verified reaches decoded behind enters).2 with
    ⟨_, rfl, _, rfl⟩ | ⟨cursor, rfl, reached⟩
  · exact ⟨after, rfl, concluded.cursor rfl rfl, concluded.states⟩
  · exact ⟨after.moveTo cursor, rfl, fun _ => reached, concluded.states⟩

/-- The targets that a state call or a `switch` checks lie inside the stream. -/
theorem targetOf_ne_error_of_checks {execution : Execution World} {goal : Word}
    {error : RuntimeError}
    (checks : Checks instruction execution goal) :
    targetOf session instruction goal ≠ .error error := by
  apply targetOf_ne_error verified reaches decoded
  cases checks with
  | call opcode_eq => simp [Instruction.successors, opcode_eq]
  | exit opcode_eq => simp [Instruction.successors, opcode_eq, Instruction.switchSuccessors]
  | branch opcode_eq chosen_eq => exact mem_successors_of_chosen opcode_eq chosen_eq

/-- The place behind a `switch` is a reached instruction. -/
theorem reaches_exit {finish : Nat} (opcode_eq : instruction.opcode = .switch)
    (exit : targetOf session instruction (instruction.operand 1) = .ok finish) :
    session.program.Reaches finish := by
  apply reaches_target verified reaches decoded _ exit
  simp [Instruction.successors, opcode_eq, Instruction.switchSuccessors]

/-! ## Attempts -/

theorem stays_execute {execution : Execution World} {nesting : Nesting}
    (running : execution.frame.termination = .running)
    (behind : execution.frame.cursor = instruction.next)
    (states : execution.world.AllStates session.program.Animates)
    (held : nesting = .block → instruction.opcode = .endSwitch →
      session.program.Reaches instruction.next) :
    Stays session nesting (execute session instruction execution) := by
  have possible := executed session instruction execution
  generalize execute session instruction execution = attempt at possible
  cases possible with
  | @enters kind _ _ enters =>
      unfold invoke
      split
      · have stopped : Concluded session kind (.ok (), execution.requestDelete) :=
          concluded_of_stopped states (requestDelete_ne_running execution)
        obtain ⟨middle, onward_eq, tracked⟩ :=
          tracked_enters verified reaches decoded behind enters stopped
        rw [onward_eq]
        exact .proceeds tracked
      · apply Stays.nests
        · exact ⟨fun _ => (reaches_enters verified reaches decoded behind enters).1, states⟩
        · intro after concluded
          exact tracked_enters verified reaches decoded behind enters
            ⟨concluded.states, concluded.error, concluded.cursor⟩
  | astray checks target_eq =>
      exact absurd target_eq (targetOf_ne_error_of_checks verified reaches decoded checks)
  | skips opcode_eq exit _ =>
      exact .proceeds ⟨fun _ => reaches_exit verified reaches decoded opcode_eq exit, states⟩
  | ends opcode_eq =>
      apply Stays.ends
      refine ⟨states, fun _ failed => (by cases failed), ?_⟩
      intro block _ _
      rw [behind]
      rcases opcode_eq with closes | ends
      · apply verified.reaches_next reaches decoded
        simp [Instruction.successors, closes]
      · exact held block ends
  | finishes _ =>
      apply Stays.ends
      refine ⟨states, fun _ failed => (by cases failed), ?_⟩
      intro _ _ _
      rw [frame_moveTo, (Instruction.decode_eq_ok decoded).1]
      exact reaches
  | performs plain =>
      have sound := sound_perform verified reaches decoded plain running behind states
      cases performed : perform session instruction execution with
      | mk result after =>
          rw [performed] at sound
          cases result with
          | ok _ => exact .proceeds ⟨fun _ => sound.cursor rfl, sound.states⟩
          | error error =>
              refine .fails ⟨sound.states, ?_, fun _ succeeded => (by cases succeeded)⟩
              rintro _ ⟨⟩
              exact sound.error error rfl

end Reached

/-- An attempt at a reached instruction stays among the reached instructions unless the
moment escapes. -/
theorem stays_attempt (verified : session.program.Verified) {execution : Execution World}
    {nesting : Nesting} (tracked : execution.Tracked session)
    (held : ¬ Moment.Escapes session ⟨nesting, execution⟩) :
    Stays session nesting (attempt session execution) := by
  -- A frame that goes on can read the instruction at its cursor.
  have readable (fault : Instruction.Fault) (ready : execution.isReady session = true) :
      Instruction.decode session.program.code execution.frame.cursor ≠ .error fault := by
    intro unread
    simp only [isReady, Bool.and_eq_true] at ready
    have reached := tracked.cursor (Frame.isRunning_iff.1 ready.1)
    obtain ⟨instruction, decoded⟩ := Program.Verified.exists_decode reached
    cases unread.symm.trans decoded
  have possible := attempted session execution
  generalize attempt session execution = attempt at possible
  cases possible with
  | @executes instruction found =>
      have running := isRunning_of_attempted? found
      have decoded := (attempted?_eq_some_iff.1 found).2
      apply stays_execute verified (tracked.cursor running) decoded (isRunning_behind found) rfl
        tracked.states
      intro block ends
      apply Decidable.byContradiction
      intro unreached
      exact held ⟨block, instruction, found, ends, unreached⟩
  | idle _ =>
      apply Stays.ends
      exact concluded_of_stopped tracked.states (requestDelete_ne_running execution)
  | unknown meets =>
      obtain ⟨ready, _, _, unread⟩ := meets
      exact absurd unread (readable _ ready)
  | unreadable ready unread _ => exact absurd unread (readable _ ready)

end Execution

end ActorScript
