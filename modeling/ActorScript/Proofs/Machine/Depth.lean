import ActorScript.Proofs.Machine.Stop

/-!
# The depth of nested runs

A nested run is started one level deeper than the run around it, and only below the greatest
depth.  The level is given back behind the nested run, whether that ends or fails.  So every run
leaves the depth as it has found it, and nothing is run deeper than the greatest depth.
-/

namespace ActorScript.Execution

variable {W : Type} [Host W] {session : Session} {execution : Execution W}
  {instruction : Instruction}

/-! ## Levels are given back -/

theorem depth_of_settled {outcome : Outcome W Flow}
    (attempt_eq : attempt session execution = .settled outcome) :
    outcome.2.frame.depth = execution.frame.depth := by
  obtain ⟨cursor, termination, frame_eq⟩ := frame_of_settled attempt_eq
  rw [frame_eq]

/-- A nested run is started one level deeper, and only below the greatest depth. -/
theorem depth_of_nested {kind : Nesting} {start : Execution W}
    {goOn : Outcome W Unit → Outcome W Flow}
    (attempt_eq : attempt session execution = .nested kind start goOn) :
    start.frame.depth = execution.frame.depth + 1 ∧
      execution.frame.depth < session.config.maxCallDepth := by
  obtain ⟨instruction, offset, onward, _, _, shallow, rfl, _⟩ := enters_of_nested attempt_eq
  exact ⟨rfl, shallow⟩

/-- Behind a nested run one level is given back. -/
theorem depth_of_goOn {kind : Nesting} {start after : Execution W} {flow : Except RuntimeError Flow}
    {goOn : Outcome W Unit → Outcome W Flow} {result : Outcome W Unit}
    (attempt_eq : attempt session execution = .nested kind start goOn)
    (goOn_eq : goOn result = (flow, after)) :
    after.frame.depth = result.2.frame.depth - 1 := by
  rcases goOn_cases attempt_eq goOn_eq with ⟨cursor, _, _, rfl⟩ | ⟨error, _, _, rfl⟩
  · rfl
  · rfl

/-- A run leaves the depth as it has found it, whether it ends or fails. -/
theorem Run.depth_eq {nesting : Nesting} {moments : List (Moment W)} {outcome : Outcome W Unit}
    (run : Run session nesting execution moments outcome) :
    outcome.2.frame.depth = execution.frame.depth := by
  induction run with
  | ends attempt_eq | fails attempt_eq => exact depth_of_settled attempt_eq
  | proceeds attempt_eq _ ih => exact ih.trans (depth_of_settled attempt_eq)
  | returns attempt_eq _ goOn_eq _ innerIh laterIh =>
      have deeper := (depth_of_nested attempt_eq).1
      have given_back := depth_of_goOn attempt_eq goOn_eq
      omega
  | failsInside attempt_eq _ goOn_eq ih =>
      have deeper := (depth_of_nested attempt_eq).1
      have given_back := depth_of_goOn attempt_eq goOn_eq
      simp only at given_back ⊢
      omega

theorem Terminates.depth_eq {outcome : Outcome W Unit}
    (terminates : Terminates session execution outcome) :
    outcome.2.frame.depth = execution.frame.depth := by
  obtain ⟨moments, run⟩ := (terminates_iff_exists_run .frame).1 terminates
  exact run.depth_eq

theorem StepsTo.depth_eq {outcome : Outcome W Flow} (steps : StepsTo session execution outcome) :
    outcome.2.frame.depth = execution.frame.depth := by
  rcases stepsTo_iff.1 steps with
    settled | ⟨kind, start, goOn, result, attempt_eq, terminates, rfl⟩
  · exact depth_of_settled settled
  · have deeper := (depth_of_nested attempt_eq).1
    have inside := terminates.depth_eq
    have given_back : (goOn result).2.frame.depth = _ := depth_of_goOn attempt_eq rfl
    omega

/-! ## The greatest depth -/

/-- From a depth within bounds the machine gets to no moment beyond them. -/
theorem Reaches.depth_le {nesting : Nesting} {before : List (Moment W)} {moment : Moment W}
    (reaches : Reaches session nesting execution before moment)
    (shallow : execution.frame.depth ≤ session.config.maxCallDepth) :
    moment.execution.frame.depth ≤ session.config.maxCallDepth := by
  induction reaches with
  | here => exact shallow
  | proceeds attempt_eq _ ih =>
      have same := depth_of_settled attempt_eq
      simp only at same
      exact ih (by omega)
  | inside attempt_eq _ ih =>
      obtain ⟨deeper, below⟩ := depth_of_nested attempt_eq
      exact ih (by omega)
  | returns attempt_eq nested goOn_eq _ ih =>
      have deeper := (depth_of_nested attempt_eq).1
      have inside := nested.depth_eq
      have given_back := depth_of_goOn attempt_eq goOn_eq
      exact ih (by omega)

/-- At the greatest depth an instruction that would start a nested run stops the frame instead.
Without steps left the frame is stopped before the instruction is read. -/
theorem attempt_of_deep {kind : Nesting} {offset : Nat} {onward : Outcome W Unit → Outcome W Flow}
    (running : execution.frame.termination = .running)
    (deep : session.config.maxCallDepth ≤ execution.frame.depth)
    (decoded : Instruction.decode session.program.code execution.frame.cursor = .ok instruction)
    (enters : Enters session instruction (execution.countStep.moveTo instruction.next)
      kind offset onward) :
    ∃ flow after, attempt session execution = .settled (.ok flow, after) ∧
      after.toMachine = execution.toMachine ∧ after.frame.termination = .deleted := by
  cases ready : execution.isReady session with
  | true =>
      have found := attempted?_eq_some_iff.2 ⟨ready, decoded⟩
      have going := isRunning_behind found
      obtain ⟨cursor, onward_eq⟩ :=
        enters.onward.1 (execution.countStep.moveTo instruction.next).requestDelete
      refine ⟨.proceed, (execution.countStep.moveTo instruction.next).requestDelete.moveTo cursor,
        ?_, rfl, termination_requestDelete going⟩
      rw [attempt_of_attempted? found, execute_of_enters enters, ← onward_eq]
      exact if_pos deep
  | false =>
      exact ⟨.done, _, attempt_of_not_isReady ready, rfl, termination_requestDelete running⟩

/-- From an attempt that stops the frame the machine gets no further than to what it leaves. -/
theorem reaches_of_stopped {nesting : Nesting} {before : List (Moment W)} {moment : Moment W}
    {flow : Flow} {after : Execution W}
    (attempt_eq : attempt session execution = .settled (.ok flow, after))
    (stopped : after.frame.termination ≠ .running)
    (reaches : Reaches session nesting execution before moment) :
    moment.execution = execution ∨ moment.execution = after := by
  cases reaches with
  | here => exact Or.inl rfl
  | proceeds here later =>
      cases attempt_eq.symm.trans here
      have at_once := @attempt_of_stopped W _ session _ stopped
      right
      cases later with
      | here => rfl
      | proceeds here _ | inside here _ | returns here _ _ _ => cases at_once.symm.trans here
  | inside here _ | returns here _ _ _ => cases attempt_eq.symm.trans here

/-- From a depth within bounds, steps and blocks that terminate leave the frame at the depth at
which they have found it, whether they succeed or fail, and the machine attempts no instruction
beyond the greatest depth, however deeply it is nested.  At the greatest depth an instruction that
would start a nested run starts none: the frame ends as one whose entity is to be deleted, nothing
else changes, and there is no instruction that the machine could still get to. -/
theorem depth_kept (shallow : execution.frame.depth ≤ session.config.maxCallDepth) :
    (∀ outcome, StepsTo session execution outcome →
      outcome.2.frame.depth = execution.frame.depth) ∧
    (∀ outcome, Terminates session execution outcome →
      outcome.2.frame.depth = execution.frame.depth) ∧
    (∀ nesting before moment, Reaches session nesting execution before moment →
      moment.execution.frame.depth ≤ session.config.maxCallDepth) ∧
    ∀ instruction kind offset onward,
      execution.frame.termination = .running →
      execution.frame.depth = session.config.maxCallDepth →
      Instruction.decode session.program.code execution.frame.cursor = .ok instruction →
      Enters session instruction (execution.countStep.moveTo instruction.next)
        kind offset onward →
      ∃ flow after, attempt session execution = .settled (.ok flow, after) ∧
        step session execution = (.ok flow, after) ∧
        after.toMachine = execution.toMachine ∧ after.frame.termination = .deleted ∧
        ∀ nesting before moment, Reaches session nesting execution before moment →
          moment.execution = execution ∨
            moment.execution = after ∧ moment.attempts session = false := by
  refine ⟨fun _ steps => steps.depth_eq, fun _ terminates => terminates.depth_eq,
    fun _ _ _ reaches => reaches.depth_le shallow, ?_⟩
  intro instruction kind offset onward running deep decoded enters
  obtain ⟨flow, after, attempt_eq, unchanged, deleted⟩ :=
    attempt_of_deep running (Nat.le_of_eq deep.symm) decoded enters
  have stopped : after.frame.termination ≠ .running := by simp [deleted]
  refine ⟨flow, after, attempt_eq, step_of_settled attempt_eq, unchanged, deleted, ?_⟩
  intro nesting before moment reaches
  refine (reaches_of_stopped attempt_eq stopped reaches).imp_right fun last => ⟨last, ?_⟩
  simp [Moment.attempts, last, isReady, Frame.isRunning, stopped]

/-- A state that calls itself. -/
def recursing : Program where
  code := #[4, 0, 7]

/-- Three calls are nested in one another before the fourth one stops the frame, which then stands
at the depth at which it has started. -/
theorem depth_recursing :
    let session : Session :=
      { program := recursing, config := { maxCallDepth := 3, maxSteps := 8 } }
    let execution : Execution World := ⟨Machine.new session (World.new 1 0), { cursor := 0 }⟩
    let called (execution : Execution World) := (execution.countStep.moveTo 2).enter 0
    let deepest := called (called (called execution))
    (execution.runBlock session).2.frame.depth = 0 ∧
      (∃ before, Reaches session .frame execution before ⟨.call, deepest⟩) ∧
      deepest.frame.depth = 3 ∧ deepest.frame.depth ≤ session.config.maxCallDepth ∧
      (step session deepest).2.frame.termination = .deleted := by
  intro session execution called deepest
  have limited : session.config.maxSteps ≠ 0 := by decide
  have terminates : Terminates session execution (execution.runBlock session) :=
    (terminates_iff_exists_run .frame).2 (exists_run limited .frame execution)
  have first : attempt session execution = .nested .call (called execution) _ := rfl
  have second : attempt session (called execution) =
    .nested .call (called (called execution)) _ := rfl
  have third : attempt session (called (called execution)) = .nested .call deepest _ := rfl
  have nested : Reaches session .frame execution _ ⟨.call, deepest⟩ :=
    .inside first (.inside second (.inside third .here))
  obtain ⟨_, blocks, moments, _⟩ := @depth_kept World _ session execution (by decide)
  obtain ⟨_, _, _, stops⟩ := @depth_kept World _ session deepest (by decide)
  have calls : Enters session ⟨.callState, 0, #[0]⟩ (deepest.countStep.moveTo 2) .call 0 _ :=
    .call rfl rfl
  obtain ⟨_, _, _, step_eq, _, deleted, _⟩ := stops _ _ _ _ rfl rfl rfl calls
  refine ⟨blocks _ terminates, ⟨_, nested⟩, rfl, moments _ _ _ nested, ?_⟩
  rw [step_eq]
  exact deleted

end ActorScript.Execution
