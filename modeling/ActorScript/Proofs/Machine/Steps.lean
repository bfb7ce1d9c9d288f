import ActorScript.Proofs.Machine.Run
import ActorScript.World.Field

/-!
# The steps of a run

The frame counts every instruction that a run attempts, at whatever depth and whether or
not it can be read, and nothing else moves the counter.  So a run answers at every height
above its number of attempts, and under a step limit every block ends within the limit.
-/

namespace ActorScript

/-- An instruction is attempted at this point of a run: the frame goes on and has steps left. -/
def Moment.attempts (session : Session) (moment : Moment W) : Bool :=
  moment.execution.isReady session

theorem Config.isExhausted_iff {config : Config} {steps : Nat} :
    config.isExhausted steps = true ↔ config.maxSteps ≠ 0 ∧ config.maxSteps ≤ steps := by
  simp [Config.isExhausted]

namespace Execution

variable {W : Type} [Host W] {session : Session} {execution : Execution W}

/-! ## Frames -/

/-- What the machine adds to the counter of the frame when it turns to an instruction. -/
def charge (session : Session) (execution : Execution W) : Nat :=
  if execution.isReady session then 1 else 0

/-- A plain instruction touches at most the cursor and the ending of the frame. -/
theorem frame_of_perform (session : Session) (instruction : Instruction)
    (running : execution.frame.termination = .running) :
    ∃ cursor termination, (perform session instruction execution).2.frame =
      { execution.frame with cursor, termination } := by
  refine @kept_perform W _ session instruction execution running (fun after =>
    ∃ cursor termination, after.frame = { execution.frame with cursor, termination }) ?_
    ⟨_, _, rfl⟩
  rintro before after change ⟨cursor, termination, before_eq⟩
  obtain ⟨cursor, termination, after_eq⟩ := change.frame_eq
  rw [after_eq, before_eq]
  exact ⟨_, _, rfl⟩

omit [Host W] in
theorem snd_resume (outcome : Outcome W Unit) : (resume outcome).2 = outcome.2 := by
  obtain ⟨result, after⟩ := outcome
  cases result <;> rfl

/-- Carrying out an instruction touches at most the cursor and the ending of the frame. -/
theorem frame_of_execute {instruction : Instruction} {outcome : Outcome W Flow}
    (running : execution.frame.termination = .running)
    (settled : execute session instruction execution = .settled outcome) :
    ∃ cursor termination, outcome.2.frame = { execution.frame with cursor, termination } := by
  have possible := executed session instruction execution
  generalize execute session instruction execution = attempt at possible settled
  cases possible with
  | enters enters =>
      rw [invoke_eq_settled settled]
      obtain ⟨cursor, onward_eq⟩ := enters.onward.1 execution.requestDelete
      rw [onward_eq, frame_moveTo, frame_requestDelete, Frame.stop_eq]
      exact ⟨_, _, rfl⟩
  | astray | skips | ends | finishes =>
      cases settled
      exact ⟨_, _, rfl⟩
  | performs =>
      cases settled
      rw [snd_resume]
      exact frame_of_perform session instruction running

/-- An attempt that is settled at once touches at most the cursor and the ending of the
frame, and counts. -/
theorem frame_of_settled {outcome : Outcome W Flow}
    (attempt_eq : attempt session execution = .settled outcome) :
    ∃ cursor termination, outcome.2.frame =
      { execution.frame with
        cursor, termination, steps := execution.frame.steps + execution.charge session } := by
  have possible := attempted session execution
  generalize attempt session execution = attempt at possible attempt_eq
  cases possible with
  | executes found =>
      have running := isRunning_behind found
      obtain ⟨cursor, termination, frame_eq⟩ := frame_of_execute running attempt_eq
      rw [frame_eq, charge, (attempted?_eq_some_iff.1 found).1]
      exact ⟨cursor, termination, rfl⟩
  | idle idle =>
      cases attempt_eq
      rw [charge, idle, frame_requestDelete, Frame.stop_eq]
      exact ⟨_, _, rfl⟩
  | unknown meets =>
      cases attempt_eq
      rw [charge, meets.1, frame_requestDelete, Frame.stop_eq]
      exact ⟨_, _, rfl⟩
  | unreadable ready _ _ =>
      cases attempt_eq
      rw [charge, ready]
      exact ⟨_, _, rfl⟩

theorem steps_of_settled {outcome : Outcome W Flow}
    (attempt_eq : attempt session execution = .settled outcome) :
    outcome.2.frame.steps = execution.frame.steps + execution.charge session := by
  obtain ⟨cursor, termination, frame_eq⟩ := frame_of_settled attempt_eq
  rw [frame_eq]

/-- Only an attempted instruction lets a run go on. -/
theorem charge_of_proceeds {middle : Execution W}
    (attempt_eq : attempt session execution = .settled (.ok .proceed, middle)) :
    execution.charge session = 1 := by
  obtain ⟨instruction, found, _⟩ := executed_of_proceeds attempt_eq
  rw [charge, (attempted?_eq_some_iff.1 found).1]
  rfl

/-- The instruction that starts a nested run has been counted. -/
theorem steps_of_nested {kind : Nesting} {start : Execution W}
    {goOn : Outcome W Unit → Outcome W Flow}
    (attempt_eq : attempt session execution = .nested kind start goOn) :
    start.frame.steps = execution.frame.steps + 1 ∧ execution.charge session = 1 := by
  obtain ⟨instruction, offset, onward, found, _, _, rfl, _⟩ := enters_of_nested attempt_eq
  rw [charge, (attempted?_eq_some_iff.1 found).1]
  exact ⟨rfl, rfl⟩

/-- What follows a nested run does not count. -/
theorem steps_of_goOn {kind : Nesting} {start after : Execution W} {flow : Except RuntimeError Flow}
    {goOn : Outcome W Unit → Outcome W Flow} {result : Outcome W Unit}
    (attempt_eq : attempt session execution = .nested kind start goOn)
    (goOn_eq : goOn result = (flow, after)) : after.frame.steps = result.2.frame.steps := by
  rcases goOn_cases attempt_eq goOn_eq with ⟨cursor, _, _, rfl⟩ | ⟨error, _, _, rfl⟩
  · rfl
  · rfl

/-! ## Counting the attempts -/

/-- The counter of the frame runs through the moments from one value to another: at each of
them it goes up by one if an instruction is attempted, and stands still otherwise. -/
def Tallies (session : Session) : (start : Nat) → List (Moment W) → (finish : Nat) → Prop
  | start, [], finish => start = finish
  | start, moment :: rest, finish =>
      moment.execution.frame.steps = start ∧
        Tallies session (start + moment.execution.charge session) rest finish

omit [Host W] in
theorem Tallies.append {start middle finish : Nat} {first second : List (Moment W)}
    (before : Tallies session start first middle) (after : Tallies session middle second finish) :
    Tallies session start (first ++ second) finish := by
  induction first generalizing start with
  | nil =>
      cases before
      exact after
  | cons moment rest ih => exact ⟨before.1, ih before.2⟩

omit [Host W] in
/-- The counter has gone up by the number of attempts. -/
theorem Tallies.finish_eq {start finish : Nat} {moments : List (Moment W)}
    (tallies : Tallies session start moments finish) :
    finish = start + moments.countP (Moment.attempts session) := by
  induction moments generalizing start with
  | nil => exact tallies.symm
  | cons moment rest ih =>
      rw [ih tallies.2, List.countP_cons, charge, Moment.attempts]
      omega

omit [Host W] in
theorem Tallies.of_append {start finish : Nat} {first second : List (Moment W)}
    (tallies : Tallies session start (first ++ second) finish) :
    ∃ middle, Tallies session start first middle ∧ Tallies session middle second finish := by
  induction first generalizing start with
  | nil => exact ⟨start, rfl, tallies⟩
  | cons moment rest ih =>
      obtain ⟨middle, before, after⟩ := ih tallies.2
      exact ⟨middle, ⟨tallies.1, before⟩, after⟩

omit [Host W] in
/-- Under a limit the counter gets no further than the limit. -/
theorem Tallies.le_max (limited : session.config.maxSteps ≠ 0) {start finish bound : Nat}
    {moments : List (Moment W)} (tallies : Tallies session start moments finish)
    (start_le : start ≤ max bound session.config.maxSteps) :
    (∀ moment ∈ moments, moment.execution.frame.steps ≤ max bound session.config.maxSteps) ∧
      finish ≤ max bound session.config.maxSteps := by
  induction moments generalizing start with
  | nil =>
      cases tallies
      exact ⟨List.forall_mem_nil _, start_le⟩
  | cons moment rest ih =>
      obtain ⟨rfl, behind⟩ := tallies
      have next_le : moment.execution.frame.steps + moment.execution.charge session ≤
          max bound session.config.maxSteps := by
        by_cases ready : moment.execution.isReady session = true
        · -- An instruction is attempted only below the limit.
          have below : ¬ session.config.maxSteps ≤ moment.execution.frame.steps := by
            intro above
            simp [isReady, Config.isExhausted_iff.2 ⟨limited, above⟩] at ready
          have one_at_most : moment.execution.charge session ≤ 1 := by
            unfold charge
            split <;> omega
          omega
        · simp only [charge, ready, Bool.false_eq_true, if_false]
          exact start_le
      obtain ⟨rest_le, finish_le⟩ := ih behind next_le
      exact ⟨List.forall_mem_cons.2 ⟨start_le, rest_le⟩, finish_le⟩

/-- The counter of a run counts its attempts. -/
theorem Run.tallies {nesting : Nesting} {moments : List (Moment W)} {outcome : Outcome W Unit}
    (run : Run session nesting execution moments outcome) :
    Tallies session execution.frame.steps moments outcome.2.frame.steps := by
  induction run with
  | ends attempt_eq => exact ⟨rfl, (steps_of_settled attempt_eq).symm⟩
  | fails attempt_eq => exact ⟨rfl, (steps_of_settled attempt_eq).symm⟩
  | proceeds attempt_eq _ ih =>
      rw [steps_of_settled attempt_eq] at ih
      exact ⟨rfl, ih⟩
  | returns attempt_eq _ goOn_eq _ innerIh laterIh =>
      obtain ⟨start_eq, charge_eq⟩ := steps_of_nested attempt_eq
      rw [start_eq, ← charge_eq] at innerIh
      rw [steps_of_goOn attempt_eq goOn_eq] at laterIh
      exact ⟨rfl, innerIh.append laterIh⟩
  | failsInside attempt_eq _ goOn_eq ih =>
      obtain ⟨start_eq, charge_eq⟩ := steps_of_nested attempt_eq
      rw [start_eq, ← charge_eq, ← steps_of_goOn attempt_eq goOn_eq] at ih
      exact ⟨rfl, ih⟩

/-! ## Heights -/

/-- A run never takes a step back. -/
theorem Run.steps_le {nesting : Nesting} {moments : List (Moment W)} {outcome : Outcome W Unit}
    (run : Run session nesting execution moments outcome) :
    execution.frame.steps ≤ outcome.2.frame.steps := by
  rw [run.tallies.finish_eq]
  exact Nat.le_add_right _ _

/-- The machine answers with the outcome of a run at every height above the number of steps
that the run takes. -/
theorem Run.runFor_eq {nesting : Nesting} {moments : List (Moment W)} {outcome : Outcome W Unit}
    (run : Run session nesting execution moments outcome) {height : Nat}
    (high : outcome.2.frame.steps < execution.frame.steps + height) :
    runFor session height execution = some outcome := by
  induction run generalizing height with
  | @ends _ execution after attempt_eq =>
      have taken := steps_of_settled attempt_eq
      obtain _ | height := height
      · simp only at taken high
        omega
      · simp [runFor, stepWith, attempt_eq]
  | @fails _ execution after error attempt_eq =>
      have taken := steps_of_settled attempt_eq
      obtain _ | height := height
      · simp only at taken high
        omega
      · simp [runFor, stepWith, attempt_eq]
  | @proceeds _ execution middle _ outcome attempt_eq later ih =>
      have taken := steps_of_settled attempt_eq
      have counted := charge_of_proceeds attempt_eq
      have grown := later.steps_le
      simp only at taken
      obtain _ | height := height
      · omega
      · simp only [runFor, stepWith, attempt_eq]
        exact ih (by omega)
  | @returns _ _ execution start middle goOn _ _ result outcome attempt_eq nested goOn_eq later
      innerIh laterIh =>
      obtain ⟨start_eq, _⟩ := steps_of_nested attempt_eq
      have same := steps_of_goOn attempt_eq goOn_eq
      have inner := nested.steps_le
      have grown := later.steps_le
      obtain _ | height := height
      · omega
      · have nested_eq : runFor session height start = some result := innerIh (by omega)
        simp only [runFor, stepWith, attempt_eq, nested_eq, Option.map_some, goOn_eq]
        exact laterIh (by omega)
  | @failsInside _ _ execution start after goOn _ result error attempt_eq nested goOn_eq ih =>
      obtain ⟨start_eq, _⟩ := steps_of_nested attempt_eq
      have same := steps_of_goOn attempt_eq goOn_eq
      have inner := nested.steps_le
      simp only at same high
      obtain _ | height := height
      · omega
      · have nested_eq : runFor session height start = some result := ih (by omega)
        simp [runFor, stepWith, attempt_eq, nested_eq, goOn_eq]

/-- Under a limit a run takes no more steps than the limit allows. -/
theorem Run.steps_le_max (limited : session.config.maxSteps ≠ 0) {nesting : Nesting}
    {moments : List (Moment W)} {outcome : Outcome W Unit}
    (run : Run session nesting execution moments outcome) :
    outcome.2.frame.steps ≤ max execution.frame.steps session.config.maxSteps :=
  (run.tallies.le_max limited (Nat.le_max_left _ _)).2

/-- A run takes no more steps than the counter of the frame holds: always under a limit, and
without one as long as the counter goes no further. -/
theorem Run.steps_le_stepLimit {nesting : Nesting} {moments : List (Moment W)}
    {outcome : Outcome W Unit} (run : Run session nesting execution moments outcome)
    (counted : session.config.maxSteps ≠ 0 ∨
      outcome.2.frame.steps ≤ session.config.stepLimit) :
    outcome.2.frame.steps ≤ max execution.frame.steps session.config.stepLimit := by
  rcases counted with limited | within
  · rw [Config.stepLimit, if_neg limited]
    exact run.steps_le_max limited
  · omega

/-- The machine runs a block to the outcome of its run: always under a limit, and without one
as long as the counter of the frame holds the steps. -/
theorem Run.runBlock_eq {nesting : Nesting} {moments : List (Moment W)} {outcome : Outcome W Unit}
    (run : Run session nesting execution moments outcome)
    (counted : session.config.maxSteps ≠ 0 ∨
      outcome.2.frame.steps ≤ session.config.stepLimit) :
    execution.runBlock session = outcome := by
  have most := run.steps_le_stepLimit counted
  have high : outcome.2.frame.steps < execution.frame.steps + execution.height session := by
    simp only [Execution.height]
    omega
  rw [runBlock, run.runFor_eq high]
  rfl

/-- A block terminates with the outcomes of its runs. -/
theorem terminates_iff_exists_run (nesting : Nesting) {outcome : Outcome W Unit} :
    Terminates session execution outcome ↔
      ∃ moments, Run session nesting execution moments outcome := by
  constructor
  · rintro ⟨height, answer⟩
    exact exists_run_of_runFor nesting answer
  · rintro ⟨moments, run⟩
    exact ⟨outcome.2.frame.steps + 1, run.runFor_eq (by omega)⟩

/-! ## Single steps -/

/-- A step comes to what its attempt has settled, or to what follows its nested run. -/
theorem stepsTo_iff {outcome : Outcome W Flow} :
    StepsTo session execution outcome ↔
      attempt session execution = .settled outcome ∨
        ∃ kind start goOn result, attempt session execution = .nested kind start goOn ∧
          Terminates session start result ∧ goOn result = outcome := by
  unfold StepsTo stepWith
  cases attempt session execution with
  | settled settled => simp
  | nested kind start goOn =>
      simp only [Option.map_eq_some_iff, reduceCtorEq, Attempt.nested.injEq, false_or]
      constructor
      · rintro ⟨height, result, answer, goOn_eq⟩
        exact ⟨kind, start, goOn, result, ⟨rfl, rfl, rfl⟩, ⟨height, answer⟩, goOn_eq⟩
      · rintro ⟨_, _, _, result, ⟨rfl, rfl, rfl⟩, ⟨height, answer⟩, goOn_eq⟩
        exact ⟨height, result, answer, goOn_eq⟩

/-- A step over a nested run comes to what follows that run. -/
theorem Run.stepsTo {kind : Nesting} {start : Execution W} {goOn : Outcome W Unit → Outcome W Flow}
    {moments : List (Moment W)} {result : Outcome W Unit} {outcome : Outcome W Flow}
    (run : Run session kind start moments result)
    (attempt_eq : attempt session execution = .nested kind start goOn)
    (goOn_eq : goOn result = outcome) : StepsTo session execution outcome := by
  have terminates := (terminates_iff_exists_run kind).2 ⟨moments, run⟩
  exact stepsTo_iff.2 (Or.inr ⟨kind, start, goOn, result, attempt_eq, terminates, goOn_eq⟩)

theorem step_of_settled {outcome : Outcome W Flow}
    (attempt_eq : attempt session execution = .settled outcome) :
    step session execution = outcome := by
  simp [step, stepWith, attempt_eq]

/-- A step that fails has been taken in time. -/
theorem stepsTo_of_step_error {error : RuntimeError} {after : Execution W}
    (failed : step session execution = (.error error, after)) :
    StepsTo session execution (.error error, after) := by
  unfold step at failed
  cases answer : stepWith session (runFor session (execution.height session)) execution with
  | none => simp [answer] at failed
  | some outcome =>
      rw [answer] at failed
      cases failed
      exact ⟨_, answer⟩

/-- The machine takes the step that it comes to: always under a limit, and without one as long
as the counter of the frame holds the steps of what is nested in it. -/
theorem StepsTo.step_eq {outcome : Outcome W Flow} (steps : StepsTo session execution outcome)
    (counted : session.config.maxSteps ≠ 0 ∨
      outcome.2.frame.steps ≤ session.config.stepLimit) :
    step session execution = outcome := by
  rcases stepsTo_iff.1 steps with
    settled | ⟨kind, start, goOn, result, attempt_eq, terminates, rfl⟩
  · exact step_of_settled settled
  · obtain ⟨moments, run⟩ := (terminates_iff_exists_run kind).1 terminates
    have same : (goOn result).2.frame.steps = result.2.frame.steps :=
      steps_of_goOn attempt_eq rfl
    rw [same] at counted
    have most := run.steps_le_stepLimit counted
    have start_eq := (steps_of_nested attempt_eq).1
    have answer : runFor session (execution.height session) start = some result := by
      apply run.runFor_eq
      simp only [Execution.height]
      omega
    simp [step, stepWith, attempt_eq, answer]

/-! ## The step limit -/

/-- Under a limit, a block ends with an answer of the machine at every height from
`Execution.height` on.  The counter of the frame counts the instructions that are attempted,
and no moment of the block finds it above the limit, nor above its value at the start. -/
theorem runBlock_within_limit (limited : session.config.maxSteps ≠ 0) (nesting : Nesting)
    (execution : Execution W) :
    (∀ height, execution.height session ≤ height →
      runFor session height execution = some (execution.runBlock session)) ∧
    ∃ moments, Run session nesting execution moments (execution.runBlock session) ∧
      (∀ before moment after, moments = before ++ moment :: after →
        moment.execution.frame.steps =
          execution.frame.steps + before.countP (Moment.attempts session)) ∧
      (execution.runBlock session).2.frame.steps =
        execution.frame.steps + moments.countP (Moment.attempts session) ∧
      (∀ moment ∈ moments, moment.execution.frame.steps ≤
        max execution.frame.steps session.config.maxSteps) ∧
      (execution.runBlock session).2.frame.steps ≤
        max execution.frame.steps session.config.maxSteps := by
  obtain ⟨moments, run⟩ := exists_run limited nesting execution
  have tallies := run.tallies
  obtain ⟨moments_le, finish_le⟩ := tallies.le_max limited (Nat.le_max_left _ _)
  constructor
  · intro height high
    apply run.runFor_eq
    have limit_eq : session.config.stepLimit = session.config.maxSteps := if_neg limited
    simp only [Execution.height, limit_eq] at high
    omega
  · refine ⟨moments, run, ?_, tallies.finish_eq, moments_le, finish_le⟩
    rintro before moment after rfl
    obtain ⟨middle, counted, here, _⟩ := tallies.of_append
    rw [here, counted.finish_eq]

/-- `{` and a jump back to it, which nest brace runs without end. -/
def spinning : Program where
  code := #[1, 3, 0]

/-- With three of eight steps taken already, `spinning` attempts five instructions. -/
theorem runBlock_spinning :
    let session : Session := { program := spinning, config := { maxSteps := 8 } }
    let execution : Execution World :=
      ⟨Machine.new session (World.new 1 0), { cursor := 0, steps := 3 }⟩
    (execution.runBlock session).2.frame.steps = 8 ∧
      ∃ moments, Run session .frame execution moments (execution.runBlock session) ∧
        moments.countP (Moment.attempts session) = 5 := by
  intro session execution
  have limited : session.config.maxSteps ≠ 0 := by decide
  obtain ⟨_, moments, run, _, steps_eq, _, _⟩ := runBlock_within_limit limited .frame execution
  have limit_met : (execution.runBlock session).2.frame.steps = 8 := by decide
  have start_eq : execution.frame.steps = 3 := rfl
  exact ⟨limit_met, moments, run, by omega⟩

end Execution

end ActorScript
