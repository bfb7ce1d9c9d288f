import ActorScript.Machine.Entry
import ActorScript.Proofs.Machine.Steps

/-!
# Failures

An instruction that fails has not begun to change anything: only its step has been counted, the
cursor may stand behind it, and a random test has drawn.  A step that fails otherwise passes on
the error of its nested run.  An action that cannot go on is met before a frame is run, and no
instruction raises its error.
-/

namespace ActorScript

/-- An error that instructions raise: any but that of an action that cannot go on. -/
def RuntimeError.ofInstruction : RuntimeError → Bool
  | .badActionRecord _ => false
  | _ => true

namespace Execution

variable {session : Session} {instruction : Instruction}

/-! ## What is left alone -/

section World

variable {execution : Execution World}

/-- Nothing has changed but what an attempt needs before it can fail: the step counter, the
cursor and, for a random test, the stream that it draws from. -/
structure Untouched (session : Session) (before after : Execution World) : Prop where
  world : after.world = before.world
  registry : after.registry = before.registry
  displayRandom : after.displayRandom = before.displayRandom
  random : after.random = before.random ∨ ∃ instruction,
    before.attempted? session = some instruction ∧ instruction.opcode = .branch .random
  depth : after.frame.depth = before.frame.depth
  termination : after.frame.termination = before.frame.termination

theorem untouched_countStep (session : Session) (execution : Execution World) :
    Untouched session execution execution.countStep :=
  ⟨rfl, rfl, rfl, Or.inl rfl, rfl, rfl⟩

/-- An instruction that fails when it is carried out has drawn for a random test at most. -/
theorem untouched_of_execute {error : RuntimeError} {after : Execution World}
    (found : execution.attempted? session = some instruction)
    (settled : execute session instruction (execution.countStep.moveTo instruction.next) =
      .settled (.error error, after)) : Untouched session execution after := by
  rcases error_of_execute settled with ⟨rfl, _⟩ | performed
  · exact ⟨rfl, rfl, rfl, Or.inl rfl, rfl, rfl⟩
  · obtain ⟨world, random, left, asked, drawn⟩ :=
      perform_of_error (congrArg Prod.fst performed)
    rw [performed] at left
    cases left
    have unmoved : world = execution.world := by
      cases asked with
      | nothing | probe _ => rfl
    refine ⟨unmoved, rfl, rfl, ?_, rfl, rfl⟩
    exact drawn.symm.imp_right fun opcode_eq => ⟨instruction, found, opcode_eq⟩

/-- An attempt that fails leaves everything alone but what it needs before. -/
theorem untouched_of_settled {error : RuntimeError} {after : Execution World}
    (attempt_eq : attempt session execution = .settled (.error error, after)) :
    Untouched session execution after := by
  have possible := attempted session execution
  generalize attempt session execution = attempt at possible attempt_eq
  cases possible with
  | executes found => exact untouched_of_execute found attempt_eq
  | idle _ | unknown _ => cases attempt_eq
  | unreadable _ _ _ =>
      cases attempt_eq
      exact untouched_countStep session execution

end World

/-! ## Which errors there are -/

section Errors

variable {W : Type} [Host W] {execution : Execution W}

theorem ofInstruction_of_targetOf {target : Word} {error : RuntimeError}
    (astray : targetOf session instruction target = .error error) :
    error.ofInstruction = true := by
  unfold targetOf at astray
  split at astray
  · cases astray
  · cases astray
    rfl

theorem ofInstruction_of_failing {error : RuntimeError}
    (failing : Failing session instruction error) : error.ofInstruction = true := by
  cases failing with
  | division => rfl
  | modulo => rfl
  | marker _ target => exact ofInstruction_of_targetOf target
  | target _ target => exact ofInstruction_of_targetOf target
  | record _ _ _ => rfl

theorem ofInstruction_of_execute {error : RuntimeError} {after : Execution W}
    (settled : execute session instruction execution = .settled (.error error, after)) :
    error.ofInstruction = true := by
  rcases error_of_execute settled with ⟨_, _, _, target⟩ | performed
  · exact ofInstruction_of_targetOf target
  · exact ofInstruction_of_failing (failing_of_perform (congrArg Prod.fst performed))

theorem ofInstruction_of_settled {error : RuntimeError} {after : Execution W}
    (attempt_eq : attempt session execution = .settled (.error error, after)) :
    error.ofInstruction = true := by
  have possible := attempted session execution
  generalize attempt session execution = attempt at possible attempt_eq
  cases possible with
  | executes _ => exact ofInstruction_of_execute attempt_eq
  | idle _ | unknown _ => cases attempt_eq
  | unreadable _ _ error_eq =>
      cases attempt_eq
      rcases error_eq with rfl | rfl <;> rfl

/-- A block fails only with an error that an instruction has raised. -/
theorem ofInstruction_of_runBlock {error : RuntimeError} {after : Execution W}
    (block : execution.runBlock session = (.error error, after)) :
    error.ofInstruction = true := by
  rcases runBlock_cases session .frame execution with cut | ⟨moments, run⟩
  · cases cut.symm.trans block
  · obtain ⟨moment, _, final, attempt_eq⟩ := run.exists_fails (congrArg Prod.fst block)
    exact ofInstruction_of_settled attempt_eq

end Errors

end Execution

namespace Machine

open Execution

variable {W : Type} [Host W] {session : Session}

/-- A script that is run fails only with an error that an instruction has raised. -/
theorem ofInstruction_of_runScript {machine after : Machine W} {id : EntityId}
    {player : Option PlayerId} {extra : Word} {start : Nat} {occasion : Occasion}
    {error : RuntimeError}
    (failed : runScript session machine id player extra start occasion = (.error error, after)) :
    error.ofInstruction = true := by
  unfold runScript at failed
  split at failed
  · rename_i block
    cases failed
    exact ofInstruction_of_runBlock block
  · dsimp only at failed
    split at failed <;> cases failed

/-- An action that cannot go on is met before anything has been done. -/
theorem runTick_of_badActionRecord {machine : Machine W} {id : EntityId} {record : Word}
    (failed : (machine.runTick session id).1 = .error (.badActionRecord record)) :
    (machine.runTick session id).2 = machine := by
  unfold runTick at failed ⊢
  split at failed
  · cases failed
  · split at failed
    · cases failed
    · rename_i start _ inside
      dsimp only at failed ⊢
      rw [if_neg inside]
      split at failed
      · rfl
      · have raised := ofInstruction_of_runScript (Prod.ext failed rfl)
        cases raised

/-- A step fails in one of two ways.  Either the attempt itself fails, and then the world, the
variables, the depth of the frame and how it ends are as they were, and so are the random
streams unless a random test has drawn.  Or a nested run has failed, and the step passes on its
error.  A tick that fails because the entity cannot go on with its action leaves the whole
machine as it was. -/
theorem untouched_of_failure (session : Session) :
    (∀ (execution : Execution World) error after,
      StepsTo session execution (.error error, after) →
        (attempt session execution = .settled (.error error, after) ∧
          Untouched session execution after) ∨
        ∃ kind start goOn inside, attempt session execution = .nested kind start goOn ∧
          Terminates session start (.error error, inside) ∧ after = inside.leave) ∧
    ∀ (machine : Machine World) id record,
      (machine.runTick session id).1 = .error (.badActionRecord record) →
        (machine.runTick session id).2 = machine := by
  refine ⟨?_, fun machine id record => runTick_of_badActionRecord⟩
  intro execution error after steps
  rcases stepsTo_iff.1 steps with
    attempt_eq | ⟨kind, start, goOn, ⟨result, inside⟩, attempt_eq, terminates, goOn_eq⟩
  · exact Or.inl ⟨attempt_eq, untouched_of_settled attempt_eq⟩
  · right
    rcases goOn_cases attempt_eq goOn_eq with ⟨_, _, proceeds, _⟩ | ⟨other, failed, same, left⟩
    · cases proceeds
    · cases failed
      cases same
      exact ⟨kind, start, goOn, inside, attempt_eq, terminates, left⟩

/-- A test of distance with a target outside the stream, as the tick script of a kind.  An entity
as far from the player as this one would be given a sleep timer by the test. -/
def straying : Session where
  program := {
    code := #[0x16, 1, 90]
    actors := Table.empty.insert 1 { tick := some 0 } }
  config := { maxSleepDistance := 3 }

/-- An entity whose action lies outside the stream as well. -/
def strayingMachine : Machine World :=
  let spawned := ((World.new 1 0).spawn 1 (some 0)).2
  Machine.new straying (spawned.modifyState ⟨0, 0⟩ fun state => { state with action := 90 })

/-- The test fails before the timer is set, and the tick before the test. -/
theorem untouched_straying :
    let execution : Execution World := ⟨strayingMachine,
      { address := { entity := some ⟨0, 0⟩ }, extra := 5, cursor := 0 }⟩
    (step straying execution).1 = .error (.badTarget 0 90) ∧
      (step straying execution).2.world = strayingMachine.world ∧
      (step straying execution).2.frame.termination = .running ∧
      (strayingMachine.runTick straying ⟨0, 0⟩).1 = .error (.badActionRecord 90) ∧
      (strayingMachine.runTick straying ⟨0, 0⟩).2 = strayingMachine := by
  intro execution
  have failed : (step straying execution).1 = .error (.badTarget 0 90) := by rfl
  have unanimated : (strayingMachine.runTick straying ⟨0, 0⟩).1 =
      .error (.badActionRecord 90) := by rfl
  obtain ⟨step_fails, tick_fails⟩ := untouched_of_failure straying
  have settled : ∃ outcome, attempt straying execution = .settled outcome := ⟨_, rfl⟩
  rcases step_fails execution _ _ (stepsTo_of_step_error (Prod.ext failed rfl)) with
    ⟨_, untouched⟩ | ⟨kind, start, goOn, inside, nested, _⟩
  · exact ⟨failed, untouched.world, untouched.termination, unanimated,
      tick_fails strayingMachine ⟨0, 0⟩ 90 unanimated⟩
  · obtain ⟨outcome, attempt_eq⟩ := settled
    cases attempt_eq.symm.trans nested

end Machine

end ActorScript
