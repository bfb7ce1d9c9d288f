import ActorScript.Proofs.Machine.Steps
import ActorScript.Proofs.Verify.Attempts
import Mathlib

/-!
# Progress and preservation

A step of a verified program that starts at a reached instruction, in a frame that may go on
and over entities that can all go on with their actions.  Nothing is assumed about how the
frame got there.  An instruction that starts no nested run fails by a division or leads to a
reached instruction, and the entities can still go on.  A nested run starts at a reached
instruction, and behind a state call and a `switch` the frame goes on at one.

Where a brace run ends is not a matter of one step: it may end behind an `endSwitch`.
-/

namespace ActorScript

/-- An opcode that can start a nested run. -/
def Opcode.nests : Opcode → Bool
  | .leftBrace | .callState | .switch => true
  | _ => false

theorem Opcode.not_nests_of_isPlain {opcode : Opcode} (plain : opcode.isPlain = true) :
    opcode.nests = false := by
  cases opcode <;> simp_all [nests, isPlain]

/-- An entity can go on with its action when that is zero or the offset of five words inside
the stream. -/
theorem Program.animates_iff {program : Program} {state : ActorState} :
    program.Animates state ↔ state.action = 0 ∨
      ∃ start, state.action.offset? = some start ∧ start + 5 ≤ program.code.size := by
  unfold Animates recordAt
  cases start_eq : state.action.offset? with
  | none => simp
  | some start =>
      by_cases inside : start + 5 ≤ program.code.size <;> simp [RecordKind.length, inside]

namespace Execution

variable {session : Session} {execution : Execution World} {instruction : Instruction}

/-- What an attempt comes to at an opcode that can start a nested run.  Where it starts none,
because a `switch` has no case to run or the frame is too deep, it goes on at once. -/
inductive Delegates (session : Session) (opcode : Opcode) : Attempt World → Prop
  | settled {after : Execution World} (reaches : session.program.Reaches after.frame.cursor)
      (states : after.world.AllStates session.program.Animates) :
      Delegates session opcode (.settled (.ok .proceed, after))
  | nested {kind : Nesting} {start : Execution World}
      {goOn : Outcome World Unit → Outcome World Flow}
      (reaches : session.program.Reaches start.frame.cursor)
      (states : start.world.AllStates session.program.Animates)
      (resumes : opcode ≠ .leftBrace → ∃ cursor, session.program.Reaches cursor ∧
        ∀ after, goOn (.ok (), after) = (.ok .proceed, after.leave.moveTo cursor)) :
      Delegates session opcode (.nested kind start goOn)

/-! ## Steps and attempts -/

/-- A step goes on behind a nested run only when that has ended well. -/
theorem exists_of_step_nested {kind : Nesting} {start after : Execution World}
    {goOn : Outcome World Unit → Outcome World Flow}
    (attempt_eq : attempt session execution = .nested kind start goOn)
    (step_eq : step session execution = (.ok .proceed, after)) :
    ∃ inside, goOn (.ok (), inside) = (.ok .proceed, after) := by
  simp only [step, stepWith, attempt_eq] at step_eq
  cases nested_eq : runFor session (execution.height session) start with
  | none => simp [nested_eq] at step_eq
  | some result =>
      rw [nested_eq, Option.map_some, Option.getD_some] at step_eq
      obtain ⟨_ | _, inside⟩ := result
      · rw [(goOn_of_nested attempt_eq).2] at step_eq
        cases step_eq
      · exact ⟨inside, step_eq⟩

/-- A step at a state call or a `switch` that goes on does so at a reached instruction. -/
theorem Delegates.reaches_step {opcode : Opcode} {after : Execution World}
    (delegates : Delegates session opcode (attempt session execution))
    (moves : opcode ≠ .leftBrace) (step_eq : step session execution = (.ok .proceed, after)) :
    session.program.Reaches after.frame.cursor := by
  generalize attempt_eq : attempt session execution = attempt at delegates
  cases delegates with
  | settled reaches _ =>
      rw [step_of_settled attempt_eq] at step_eq
      cases step_eq
      exact reaches
  | nested _ _ resumes =>
      obtain ⟨cursor, reached, goOn_eq⟩ := resumes moves
      obtain ⟨inside, proceeds⟩ := exists_of_step_nested attempt_eq step_eq
      rw [goOn_eq] at proceeds
      cases proceeds
      exact reached

/-! ## Instructions -/

theorem sound_done (states : execution.world.AllStates session.program.Animates) :
    Sound session (.ok .done, execution) where
  error _ failed := by cases failed
  cursor proceeds := by cases proceeds
  states := states

theorem nests_of_enters {kind : Nesting} {start : Nat}
    {onward : Outcome World Unit → Outcome World Flow}
    (enters : Enters session instruction execution kind start onward) :
    instruction.opcode.nests = true := by
  cases enters with
  | block opcode_eq | call opcode_eq _ | branch opcode_eq _ _ _ =>
      rw [opcode_eq]
      rfl

section Reached

variable {offset : Nat} (verified : session.program.Verified)
  (reaches : session.program.Reaches offset)
  (decoded : Instruction.decode session.program.code offset = .ok instruction)
include verified reaches decoded

/-- An instruction that starts no nested run is settled, and only what ends a run ends it. -/
theorem sound_execute (running : execution.frame.termination = .running)
    (behind : execution.frame.cursor = instruction.next)
    (states : execution.world.AllStates session.program.Animates)
    (flat : instruction.opcode.nests = false) :
    ∃ outcome, execute session instruction execution = .settled outcome ∧
      Sound session outcome ∧ (instruction.opcode.isPlain = true → outcome.1 ≠ .ok .done) := by
  have possible := executed session instruction execution
  generalize execute session instruction execution = attempt at possible
  cases possible with
  | enters enters =>
      have nests := nests_of_enters enters
      rw [flat] at nests
      contradiction
  | astray checks target_eq =>
      exact absurd target_eq (targetOf_ne_error_of_checks verified reaches decoded checks)
  | skips opcode_eq _ _ =>
      rw [opcode_eq] at flat
      contradiction
  | ends opcode_eq =>
      refine ⟨_, rfl, sound_done states, fun plain => ?_⟩
      rcases opcode_eq with closes | closes <;> simp [closes, Opcode.isPlain] at plain
  | finishes opcode_eq =>
      refine ⟨_, rfl, sound_done states, fun plain => ?_⟩
      simp [opcode_eq, Opcode.isPlain] at plain
  | performs plain =>
      have sound := sound_perform verified reaches decoded plain running behind states
      exact ⟨_, rfl, sound, fun _ => resume_ne_done _⟩

theorem delegates_execute (behind : execution.frame.cursor = instruction.next)
    (states : execution.world.AllStates session.program.Animates)
    (nests : instruction.opcode.nests = true) :
    Delegates session instruction.opcode (execute session instruction execution) := by
  have possible := executed session instruction execution
  generalize execute session instruction execution = attempt at possible
  cases possible with
  | @enters _ _ onward enters =>
      obtain ⟨begins, goesOn⟩ := reaches_enters verified reaches decoded behind enters
      unfold invoke
      split
      · rcases goesOn with ⟨_, _, rfl, rfl⟩ | ⟨cursor, rfl, reached⟩
        · refine .settled ?_ states
          rw [frame_requestDelete, Frame.stop_eq]
          exact begins
        · exact .settled reached states
      · refine .nested begins states fun moves => ?_
        rcases goesOn with ⟨opens, _, _⟩ | ⟨cursor, rfl, reached⟩
        · exact absurd opens moves
        · exact ⟨cursor, reached, fun _ => rfl⟩
  | astray checks target_eq =>
      exact absurd target_eq (targetOf_ne_error_of_checks verified reaches decoded checks)
  | skips opcode_eq exit _ =>
      exact .settled (reaches_exit verified reaches decoded opcode_eq exit) states
  | ends opcode_eq => rcases opcode_eq with closes | closes <;> simp [closes, Opcode.nests] at nests
  | finishes opcode_eq => simp [opcode_eq, Opcode.nests] at nests
  | performs plain =>
      rw [Opcode.not_nests_of_isPlain plain] at nests
      contradiction

end Reached

/-- At a reached instruction of a verified program, a frame that may go on reads an instruction.
One that starts no nested run fails by a division at most, goes on at a reached instruction, and
leaves every entity with an action that it can go on with; it goes on unless it fails or its
opcode ends a run.  A nested run starts at a reached instruction, and a state call or a `switch`
goes on at one. -/
theorem step_of_reached (verified : session.program.Verified)
    (states : execution.world.AllStates session.program.Animates)
    (running : execution.frame.termination = .running)
    (within : session.config.isExhausted execution.frame.steps = false)
    (reaches : session.program.Reaches execution.frame.cursor) :
    ∃ instruction,
      Instruction.decode session.program.code execution.frame.cursor = .ok instruction ∧
      (instruction.opcode.nests = false → Sound session (step session execution) ∧
        (instruction.opcode.isPlain = true → (step session execution).1 ≠ .ok .done)) ∧
      (instruction.opcode.nests = true →
        Delegates session instruction.opcode (attempt session execution) ∧
        (instruction.opcode ≠ .leftBrace → ∀ after,
          step session execution = (.ok .proceed, after) →
          session.program.Reaches after.frame.cursor)) := by
  obtain ⟨instruction, decoded⟩ := Program.Verified.exists_decode reaches
  have found : execution.attempted? session = some instruction := by
    rw [attempted?_eq_some_iff, isReady, Frame.isRunning_iff.2 running, within]
    exact ⟨rfl, decoded⟩
  have attempt_eq := attempt_of_attempted? found
  refine ⟨instruction, decoded, fun flat => ?_, fun nests => ?_⟩
  · obtain ⟨outcome, execute_eq, sound⟩ :=
      sound_execute verified reaches decoded (isRunning_behind found) rfl states flat
    rw [execute_eq] at attempt_eq
    rw [step_of_settled attempt_eq]
    exact sound
  · have delegates : Delegates session instruction.opcode (attempt session execution) := by
      rw [attempt_eq]
      exact delegates_execute verified reaches decoded rfl states nests
    exact ⟨delegates, fun moves after step_eq => delegates.reaches_step moves step_eq⟩

/-! ## A choice -/

/-- A `switch` with one case, which sets an action, and `enda` behind it. -/
def choosing : Session where
  program := {
    code := #[5, 0, 7, 1, 0, 3, 8, 7, 0x31, 11, 6, 0, 0, 0, 0, 0]
    vars := #[{ name := "mood", scope := .global, initial := 3 }]
    actors := Table.empty.insert 1 { tick := some 0 } }

/-- An entity with an action, and a frame on its behalf that stands at an offset. -/
def standing (cursor : Nat) : Execution World :=
  let (id, spawned) := (World.new 1 0).spawn 1 (some 0)
  let world := spawned.modifyState id fun state => { state with action := 11 }
  { Machine.new choosing world with frame := { address := { entity := some id }, cursor } }

/-- The `switch` runs its case and goes on behind itself, and the case sets its action. -/
theorem step_choosing :
    (∃ goOn, attempt choosing (standing 0) =
        .nested .branch (((standing 0).countStep.moveTo 7).enter 8) goOn ∧
      choosing.program.Reaches 8) ∧
    (∃ after, step choosing (standing 0) = (.ok .proceed, after) ∧
      after.frame.cursor = 7 ∧ choosing.program.Reaches 7) ∧
    Sound choosing (step choosing (standing 8)) := by
  have fine (cursor : Nat) : (standing cursor).world.AllStates choosing.program.Animates := by
    apply World.AllStates.modifyState
    · exact (World.allStates_new 1 0).spawn 1 (some 0) (Or.inl rfl)
    · intro state _
      exact Program.animates_iff.2 (Or.inr ⟨11, rfl, by decide⟩)
  have verified : choosing.program.Verified := by cbv
  obtain ⟨choice, decoded, _, nests⟩ :=
    step_of_reached verified (fine 0) rfl rfl (by cbv)
  obtain ⟨delegates, goesOn⟩ := nests (by cases decoded; rfl)
  obtain ⟨setting, decodedSetting, sound, _⟩ :=
    step_of_reached verified (fine 8) rfl rfl (by cbv)
  refine ⟨?_, ?_, (sound (by cases decodedSetting; rfl)).1⟩
  · have attempt_eq : attempt choosing (standing 0) =
        .nested .branch (((standing 0).countStep.moveTo 7).enter 8)
          (fun outcome => resumeAt 7 (outcome.1, outcome.2.leave)) := by cbv
    rw [attempt_eq] at delegates
    cases delegates with
    | nested reaches _ _ => exact ⟨_, attempt_eq, reaches⟩
  · have proceeds : (step choosing (standing 0)).1 = .ok .proceed := by cbv
    have cursor_eq : (step choosing (standing 0)).2.frame.cursor = 7 := by cbv
    have reached := goesOn (by cases decoded; decide) _ (Prod.ext proceeds rfl)
    rw [cursor_eq] at reached
    exact ⟨_, Prod.ext proceeds rfl, cursor_eq, reached⟩

end Execution

end ActorScript
