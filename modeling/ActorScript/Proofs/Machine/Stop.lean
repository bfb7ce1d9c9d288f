import ActorScript.Proofs.Machine.Steps

/-!
# Requests to stop

A frame is stopped by an instruction, at whatever depth, or for want of steps.  `Stops`
lists the requests, each with the execution right after it, and no attempt does more after
a request than move the cursor.  The runs around it then end one after the other: they give
back their depth and move the cursor, and leave alone whatever else there is.
-/

namespace ActorScript.Execution

variable {W : Type} [Host W] {session : Session} {execution : Execution W}
  {instruction : Instruction}

/-! ## Single instructions -/

/-- An effect has removed the entity of the frame, and nothing else has happened but the
request to stop. -/
def Removes (execution after : Execution W) : Prop :=
  ∃ effect world,
    Host.apply execution.world execution.frame.context effect = (.removed, world) ∧
      after = { execution with world }.requestQuietDelete

section Running

variable (running : execution.frame.termination = .running)
include running

theorem removes_cause {effect : Effect}
    (stopped : (execution.cause effect).frame.termination ≠ .running) :
    execution.Removes (execution.cause effect) := by
  unfold cause carryOut at stopped ⊢
  split at stopped
  · exact absurd running stopped
  · rename_i world answer
    exact ⟨effect, world, answer, rfl⟩

/-- No handle is written when the effect has removed the entity. -/
theorem removes_spawnInto {kind id : Word}
    (stopped : (execution.spawnInto kind id).frame.termination ≠ .running) :
    execution.Removes (execution.spawnInto kind id) := by
  unfold spawnInto carryOut at stopped ⊢
  cases answer : Host.apply execution.world execution.frame.context (.spawnInto kind) with
  | mk result world =>
      cases result with
      | value word =>
          simp only [answer] at stopped
          exact absurd running stopped
      | removed => exact ⟨.spawnInto kind, world, answer, rfl⟩

theorem removes_damage {handle amount : Word}
    (stopped : (execution.damage handle amount).frame.termination ≠ .running) :
    execution.Removes (execution.damage handle amount) := by
  unfold damage at stopped ⊢
  split at stopped
  · exact absurd running stopped
  · exact removes_cause running stopped

theorem removes_moveEntity {handle dx dy dz : Word}
    (stopped : (execution.moveEntity handle dx dy dz).frame.termination ≠ .running) :
    execution.Removes (execution.moveEntity handle dx dy dz) := by
  unfold moveEntity at stopped ⊢
  split at stopped
  · exact absurd running stopped
  · exact removes_cause running stopped

end Running

@[simp]
theorem frame_loadField (target : FieldTarget) (handle field param id : Word) :
    (execution.loadField target handle field param id).frame = execution.frame := by
  unfold loadField
  split
  · rfl
  all_goals split <;> rfl

@[simp]
theorem frame_storeField (target : FieldTarget) (handle field param id : Word) :
    (execution.storeField target handle field param id).frame = execution.frame := by
  unfold storeField
  split
  · rfl
  · rfl
  · split <;> rfl

@[simp]
theorem frame_loadActorVariable (holder id destination : Word) :
    (execution.loadActorVariable holder id destination).frame = execution.frame := by
  unfold loadActorVariable
  split <;> rfl

@[simp]
theorem frame_storeActorVariable (holder id source : Word) :
    (execution.storeActorVariable holder id source).frame = execution.frame := by
  unfold storeActorVariable
  split <;> rfl

@[simp]
theorem frame_armSleep (condition : Test) (holds : Bool) :
    (armSleep session condition holds execution).frame = execution.frame := by
  unfold armSleep
  split
  · split <;> simp
  · split <;> simp
  · split <;> simp
  · rfl

omit [Host W] in
theorem termination_branch (holds : Bool) :
    (branch session instruction holds execution).2.frame.termination =
      execution.frame.termination := by
  unfold branch
  split
  · rfl
  · dsimp only
    split <;> rfl

/-- An instruction that cannot fail stops a frame by asking for the deletion of its entity or
by an effect that has removed it. -/
theorem act_of_stopped (running : execution.frame.termination = .running)
    (stopped : (act instruction execution).frame.termination ≠ .running) :
    (instruction.opcode = .killIt ∧ act instruction execution = execution.requestDelete) ∨
      execution.Removes (act instruction execution) := by
  unfold act at stopped ⊢
  dsimp only at stopped ⊢
  split at stopped
  case h_1 opcode_eq => exact Or.inl ⟨opcode_eq, rfl⟩
  case h_2 | h_3 | h_4 | h_5 | h_6 | h_7 | h_10 | h_11 | h_12 | h_13 =>
    simp [running] at stopped
  case h_15 => exact Or.inr (removes_spawnInto running stopped)
  case h_20 => exact Or.inr (removes_damage running stopped)
  case h_22 => exact Or.inr (removes_moveEntity running stopped)
  case h_14 | h_16 | h_17 | h_18 | h_19 | h_21 | h_23 | h_24 =>
    exact Or.inr (removes_cause running stopped)
  all_goals exact absurd running stopped

/-- A conditional moves the cursor and no other part of the frame. -/
theorem termination_performBranch (condition : Test) :
    (performBranch session instruction condition execution).2.frame.termination =
      execution.frame.termination := by
  unfold performBranch
  cases test_eq : test instruction condition execution with
  | mk holds tested =>
      have same : tested.frame = execution.frame := by
        rw [← @frame_test W _ instruction condition execution, test_eq]
      cases branch_eq : branch session instruction holds tested with
      | mk result branched =>
          have kept : branched.frame.termination = tested.frame.termination := by
            have branched_eq := congrArg (·.2.frame.termination) branch_eq
            exact branched_eq.symm.trans (termination_branch holds)
          simp only [branch_eq]
          rw [← same, ← kept]
          cases result with
          | ok _ => exact congrArg Frame.termination (frame_armSleep condition holds)
          | error _ => rfl

/-- A plain instruction stops a frame by asking for the deletion of its entity or by an effect
that has removed it; it does nothing more and does not fail. -/
theorem perform_of_stopped (running : execution.frame.termination = .running)
    (stopped : (perform session instruction execution).2.frame.termination ≠ .running) :
    (perform session instruction execution).1 = .ok () ∧
      ((instruction.opcode = .killIt ∧
          (perform session instruction execution).2 = execution.requestDelete) ∨
        execution.Removes (perform session instruction execution).2) := by
  unfold perform at stopped ⊢
  split at stopped
  · unfold jump at stopped
    split at stopped <;> exact absurd running stopped
  · rw [termination_performBranch] at stopped
    exact absurd running stopped
  · unfold performAssign at stopped
    dsimp only at stopped
    split at stopped <;> exact absurd running stopped
  · unfold performAi at stopped
    dsimp only at stopped
    split at stopped
    · simp [running] at stopped
    · split at stopped <;> simp [running] at stopped
  · exact ⟨rfl, act_of_stopped running stopped⟩

/-! ## Requests -/

omit [Host W] in
/-- A request to delete decides how a frame that goes on ends, and nothing else. -/
theorem frame_requestDelete_of_running (running : execution.frame.termination = .running) :
    execution.requestDelete.frame = { execution.frame with termination := .deleted } := by
  rw [frame_requestDelete, Frame.stop_eq, Frame.isRunning_iff.2 running]
  rfl

omit [Host W] in
theorem termination_requestDelete (running : execution.frame.termination = .running) :
    execution.requestDelete.frame.termination = .deleted := by
  rw [frame_requestDelete_of_running running]

/-- The reasons for which an attempt stops a frame that goes on, each with the execution right
after the request. -/
inductive Stops (session : Session) (execution : Execution W) : Execution W → Prop
  | steps (exhausted : session.config.isExhausted execution.frame.steps = true) :
      Stops session execution execution.requestDelete
  | unknown (meets : execution.MeetsUnknown session) :
      Stops session execution execution.countStep.requestDelete
  | depth {instruction : Instruction} {nesting : Nesting} {offset : Nat}
      {onward : Outcome W Unit → Outcome W Flow}
      (found : execution.attempted? session = some instruction)
      (enters : Enters session instruction (execution.countStep.moveTo instruction.next)
        nesting offset onward)
      (deep : session.config.maxCallDepth ≤ execution.frame.depth) :
      Stops session execution (execution.countStep.moveTo instruction.next).requestDelete
  | killed {instruction : Instruction}
      (found : execution.attempted? session = some instruction)
      (opcode_eq : instruction.opcode = .killIt) :
      Stops session execution (execution.countStep.moveTo instruction.next).requestDelete
  | removed {instruction : Instruction} {after : Execution W}
      (found : execution.attempted? session = some instruction)
      (performed : perform session instruction (execution.countStep.moveTo instruction.next) =
        (.ok (), after))
      (removes : (execution.countStep.moveTo instruction.next).Removes after) :
      Stops session execution after

omit [Host W] in
/-- At the greatest depth a nested run is not started: the frame is stopped. -/
theorem maxCallDepth_le_of_settled {nesting : Nesting} {offset : Nat} {outcome : Outcome W Flow}
    {onward : Outcome W Unit → Outcome W Flow}
    (invoke_eq : invoke session nesting offset onward execution = .settled outcome) :
    session.config.maxCallDepth ≤ execution.frame.depth := by
  unfold invoke at invoke_eq
  split at invoke_eq
  · assumption
  · contradiction

/-- A plain instruction that stops the frame makes a request and nothing more. -/
theorem stops_of_perform {result : Except RuntimeError Unit} {after : Execution W}
    (found : execution.attempted? session = some instruction)
    (performed : perform session instruction (execution.countStep.moveTo instruction.next) =
      (result, after))
    (stopped : after.frame.termination ≠ .running) :
    result = .ok () ∧ Stops session execution after := by
  have halted := @perform_of_stopped W _ session (execution.countStep.moveTo instruction.next)
    instruction (isRunning_behind found)
  rw [performed] at halted
  obtain ⟨rfl, request⟩ := halted stopped
  refine ⟨rfl, ?_⟩
  rcases request with ⟨opcode_eq, rfl⟩ | removes
  · exact .killed found opcode_eq
  · exact .removed found performed removes

/-- An instruction that stops a frame makes one of the requests, and moves at most the cursor
afterwards. -/
theorem stops_of_execute {result : Except RuntimeError Flow} {after : Execution W}
    (found : execution.attempted? session = some instruction)
    (settled : execute session instruction (execution.countStep.moveTo instruction.next) =
      .settled (result, after))
    (stopped : after.frame.termination ≠ .running) :
    ∃ request cursor flow, Stops session execution request ∧ after = request.moveTo cursor ∧
      result = .ok flow := by
  have still := isRunning_behind found
  have possible := executed session instruction (execution.countStep.moveTo instruction.next)
  generalize execute session instruction (execution.countStep.moveTo instruction.next) = attempt
    at possible settled
  cases possible with
  | enters enters =>
      have deep := maxCallDepth_le_of_settled settled
      have outcome_eq := invoke_eq_settled settled
      obtain ⟨cursor, onward_eq⟩ := enters.onward.1
        (execution.countStep.moveTo instruction.next).requestDelete
      rw [onward_eq] at outcome_eq
      cases outcome_eq
      exact ⟨_, cursor, .proceed, .depth found enters deep, rfl, rfl⟩
  | astray | skips | ends | finishes =>
      cases settled
      exact absurd still stopped
  | performs =>
      cases performed :
          perform session instruction (execution.countStep.moveTo instruction.next) with
      | mk answer final =>
          rw [performed] at settled
          cases answer with
          | ok _ =>
              cases settled
              obtain ⟨_, stops⟩ := stops_of_perform found performed stopped
              exact ⟨after, after.frame.cursor, .proceed, stops, rfl, rfl⟩
          | error error =>
              cases settled
              obtain ⟨succeeds, _⟩ := stops_of_perform found performed stopped
              contradiction

/-- So does an attempt that stops a frame. -/
theorem stops_of_settled {result : Except RuntimeError Flow} {after : Execution W}
    (running : execution.frame.termination = .running)
    (attempt_eq : attempt session execution = .settled (result, after))
    (stopped : after.frame.termination ≠ .running) :
    ∃ request cursor flow, Stops session execution request ∧ after = request.moveTo cursor ∧
      result = .ok flow := by
  have possible := attempted session execution
  generalize attempt session execution = attempt at possible attempt_eq
  cases possible with
  | executes found => exact stops_of_execute found attempt_eq stopped
  | idle idle =>
      cases attempt_eq
      have exhausted : session.config.isExhausted execution.frame.steps = true := by
        simpa [isReady, Frame.isRunning_iff.2 running] using idle
      exact ⟨_, execution.requestDelete.frame.cursor, .done, .steps exhausted, rfl, rfl⟩
  | unknown meets =>
      cases attempt_eq
      exact ⟨_, execution.countStep.requestDelete.frame.cursor, .done, .unknown meets, rfl, rfl⟩
  | unreadable _ _ _ =>
      cases attempt_eq
      exact absurd running stopped

/-! ## Behind a request -/

/-- Nothing has changed since a request but where the frame stands and how deep. -/
structure Unchanged (request execution : Execution W) : Prop where
  machine : execution.toMachine = request.toMachine
  termination : execution.frame.termination = request.frame.termination

omit [Host W] in
theorem Unchanged.refl (request : Execution W) : Unchanged request request :=
  ⟨rfl, rfl⟩

omit [Host W] in
theorem Unchanged.trans {request middle execution : Execution W}
    (first : Unchanged request middle) (second : Unchanged middle execution) :
    Unchanged request execution :=
  ⟨second.machine.trans first.machine, second.termination.trans first.termination⟩

omit [Host W] in
theorem unchanged_moveTo (request : Execution W) (cursor : Nat) :
    Unchanged request (request.moveTo cursor) :=
  ⟨rfl, rfl⟩

/-- Nothing changes between a nested run and what follows it. -/
theorem unchanged_of_goOn {kind : Nesting} {start after : Execution W}
    {flow : Except RuntimeError Flow} {goOn : Outcome W Unit → Outcome W Flow}
    {result : Outcome W Unit} (attempt_eq : attempt session execution = .nested kind start goOn)
    (goOn_eq : goOn result = (flow, after)) : Unchanged result.2 after := by
  rcases goOn_cases attempt_eq goOn_eq with ⟨cursor, _, _, rfl⟩ | ⟨error, _, _, rfl⟩
  · exact ⟨rfl, rfl⟩
  · exact ⟨rfl, rfl⟩

/-- Only a frame that goes on starts a nested run, and it goes on there. -/
theorem isRunning_of_nested {kind : Nesting} {start : Execution W}
    {goOn : Outcome W Unit → Outcome W Flow}
    (attempt_eq : attempt session execution = .nested kind start goOn) :
    start.frame.termination = .running := by
  obtain ⟨instruction, offset, onward, found, _, _, rfl, _⟩ := enters_of_nested attempt_eq
  have running := isRunning_behind found
  exact running

/-- A frame that has been stopped attempts nothing. -/
theorem attempt_of_stopped (stopped : execution.frame.termination ≠ .running) :
    attempt session execution = .settled (.ok .done, execution) := by
  have idle : execution.frame.isRunning = false := by
    rw [← Bool.not_eq_true, Frame.isRunning_iff]
    exact stopped
  simp [attempt, idle]

/-- A run of a frame that has been stopped ends at once. -/
theorem Run.of_stopped (nesting : Nesting) (stopped : execution.frame.termination ≠ .running) :
    Run session nesting execution [⟨nesting, execution⟩] (.ok (), execution) :=
  .ends (attempt_of_stopped stopped)

/-- There is no other run of a frame that has been stopped. -/
theorem Run.eq_of_stopped {nesting : Nesting} {moments : List (Moment W)} {outcome : Outcome W Unit}
    (run : Run session nesting execution moments outcome)
    (stopped : execution.frame.termination ≠ .running) : outcome = (.ok (), execution) := by
  have at_once : attempt session execution = _ := attempt_of_stopped stopped
  cases run with
  | ends attempt_eq =>
      cases at_once.symm.trans attempt_eq
      rfl
  | fails attempt_eq => cases at_once.symm.trans attempt_eq
  | proceeds attempt_eq _ => cases at_once.symm.trans attempt_eq
  | returns attempt_eq _ _ _ => cases at_once.symm.trans attempt_eq
  | failsInside attempt_eq _ _ => cases at_once.symm.trans attempt_eq

/-- A run that ends with its frame stopped has been stopped by a request, and stands as the
request has left it. -/
theorem Run.exists_stops {nesting : Nesting} {moments : List (Moment W)} {outcome : Outcome W Unit}
    (run : Run session nesting execution moments outcome)
    (running : execution.frame.termination = .running)
    (stopped : outcome.2.frame.termination ≠ .running) :
    ∃ before moment after request, moments = before ++ moment :: after ∧
      Stops session moment.execution request ∧ Unchanged request outcome.2 := by
  induction run with
  | @ends nesting execution after attempt_eq =>
      obtain ⟨request, cursor, _, stops, rfl, _⟩ := stops_of_settled running attempt_eq stopped
      exact ⟨[], ⟨nesting, execution⟩, [], request, rfl, stops, unchanged_moveTo request cursor⟩
  | fails attempt_eq =>
      obtain ⟨_, _, _, _, _, succeeds⟩ := stops_of_settled running attempt_eq stopped
      contradiction
  | @proceeds nesting execution middle moments _ attempt_eq later ih =>
      by_cases goes_on : middle.frame.termination = .running
      · obtain ⟨before, moment, after, request, rfl, found⟩ := ih goes_on stopped
        exact ⟨⟨nesting, execution⟩ :: before, moment, after, request, rfl, found⟩
      · obtain ⟨request, cursor, _, stops, rfl, _⟩ := stops_of_settled running attempt_eq goes_on
        cases later.eq_of_stopped goes_on
        exact ⟨[], ⟨nesting, execution⟩, moments, request, rfl, stops,
          unchanged_moveTo request cursor⟩
  | @returns nesting _ execution _ middle _ inner moments result _ attempt_eq _ goOn_eq later
      innerIh laterIh =>
      by_cases goes_on : middle.frame.termination = .running
      · obtain ⟨before, moment, after, request, rfl, found⟩ := laterIh goes_on stopped
        exact ⟨⟨nesting, execution⟩ :: (inner ++ before), moment, after, request, by simp, found⟩
      · have left := unchanged_of_goOn attempt_eq goOn_eq
        have inside : result.2.frame.termination ≠ .running := by
          rw [← left.termination]
          exact goes_on
        obtain ⟨before, moment, after, request, rfl, stops, ended⟩ :=
          innerIh (isRunning_of_nested attempt_eq) inside
        cases later.eq_of_stopped goes_on
        exact ⟨⟨nesting, execution⟩ :: before, moment, after ++ moments, request, by simp,
          stops, ended.trans left⟩
  | failsInside attempt_eq nested goOn_eq _ =>
      rcases goOn_cases attempt_eq goOn_eq with ⟨_, _, proceeds, _⟩ | ⟨error, failed, _, rfl⟩
      · contradiction
      · exact absurd (nested.isRunning_of_error failed) stopped

/-- The machine gets from the start of a run to a moment of it, those of nested runs included,
past the moments listed.  The run itself need not have an end. -/
inductive Reaches (session : Session) :
    Nesting → Execution W → List (Moment W) → Moment W → Prop
  | here {nesting : Nesting} {execution : Execution W} :
      Reaches session nesting execution [] ⟨nesting, execution⟩
  | proceeds {nesting : Nesting} {execution middle : Execution W} {before : List (Moment W)}
      {moment : Moment W}
      (attempt_eq : attempt session execution = .settled (.ok .proceed, middle))
      (later : Reaches session nesting middle before moment) :
      Reaches session nesting execution (⟨nesting, execution⟩ :: before) moment
  | inside {nesting kind : Nesting} {execution start : Execution W}
      {goOn : Outcome W Unit → Outcome W Flow} {before : List (Moment W)} {moment : Moment W}
      (attempt_eq : attempt session execution = .nested kind start goOn)
      (nested : Reaches session kind start before moment) :
      Reaches session nesting execution (⟨nesting, execution⟩ :: before) moment
  | returns {nesting kind : Nesting} {execution start middle : Execution W}
      {goOn : Outcome W Unit → Outcome W Flow} {inner before : List (Moment W)}
      {result : Outcome W Unit}
      {moment : Moment W}
      (attempt_eq : attempt session execution = .nested kind start goOn)
      (nested : Run session kind start inner result)
      (goOn_eq : goOn result = (.ok .proceed, middle))
      (later : Reaches session nesting middle before moment) :
      Reaches session nesting execution (⟨nesting, execution⟩ :: (inner ++ before)) moment

/-- What the machine gets to from a moment that it gets to. -/
theorem Reaches.trans {nesting : Nesting} {before more : List (Moment W)}
    {moment further : Moment W}
    (first : Reaches session nesting execution before moment)
    (second : Reaches session moment.nesting moment.execution more further) :
    Reaches session nesting execution (before ++ more) further := by
  induction first with
  | here => exact second
  | proceeds attempt_eq _ ih => exact .proceeds attempt_eq (ih second)
  | inside attempt_eq _ ih => exact .inside attempt_eq (ih second)
  | returns attempt_eq nested goOn_eq _ ih =>
      rw [List.cons_append, List.append_assoc]
      exact .returns attempt_eq nested goOn_eq (ih second)

/-- The machine gets to every moment of a run. -/
theorem Run.reaches {nesting : Nesting} {moments : List (Moment W)} {outcome : Outcome W Unit}
    (run : Run session nesting execution moments outcome) {before after : List (Moment W)}
    {moment : Moment W} (split : moments = before ++ moment :: after) :
    Reaches session nesting execution before moment := by
  induction run generalizing before after with
  | ends attempt_eq | fails attempt_eq =>
      rcases List.cons_eq_append_iff.1 split with ⟨rfl, first⟩ | ⟨rest, rfl, absent⟩
      · cases first
        exact .here
      · simp at absent
  | proceeds attempt_eq _ ih =>
      rcases List.cons_eq_append_iff.1 split with ⟨rfl, first⟩ | ⟨rest, rfl, behind⟩
      · cases first
        exact .here
      · exact .proceeds attempt_eq (ih behind)
  | returns attempt_eq nested goOn_eq _ innerIh laterIh =>
      rcases List.cons_eq_append_iff.1 split with ⟨rfl, first⟩ | ⟨rest, rfl, behind⟩
      · cases first
        exact .here
      · rcases List.append_eq_append_iff.1 behind with
          ⟨skipped, rfl, among⟩ | ⟨left, inner_eq, among⟩
        · exact .returns attempt_eq nested goOn_eq (laterIh among)
        · rcases List.cons_eq_append_iff.1 among with ⟨rfl, among⟩ | ⟨more, rfl, _⟩
          · have first : Reaches session _ _ [] moment := laterIh among.symm
            simpa [inner_eq] using Reaches.returns attempt_eq nested goOn_eq first
          · exact .inside attempt_eq (innerIh inner_eq)
  | failsInside attempt_eq _ _ ih =>
      rcases List.cons_eq_append_iff.1 split with ⟨rfl, first⟩ | ⟨rest, rfl, behind⟩
      · cases first
        exact .here
      · exact .inside attempt_eq (ih behind)

/-- Once a frame has been stopped, the runs around it end one after the other, and nothing
changes on the way. -/
theorem Reaches.exists_run {nesting : Nesting} {before : List (Moment W)} {moment : Moment W}
    (reaches : Reaches session nesting execution before moment) {flow : Flow} {after : Execution W}
    (attempt_eq : attempt session moment.execution = .settled (.ok flow, after))
    (stopped : after.frame.termination ≠ .running) :
    ∃ later final, Run session nesting execution (before ++ moment :: later) (.ok (), final) ∧
      (∀ moment ∈ later, Unchanged after moment.execution) ∧ Unchanged after final := by
  induction reaches with
  | @here nesting execution =>
      cases flow with
      | done =>
          exact ⟨[], after, .ends attempt_eq, List.forall_mem_nil _, .refl after⟩
      | proceed =>
          refine ⟨_, after, .proceeds attempt_eq (.of_stopped nesting stopped), ?_, .refl after⟩
          exact List.forall_mem_singleton.2 (.refl after)
  | proceeds here _ ih =>
      obtain ⟨later, final, run, unchanged⟩ := ih attempt_eq
      exact ⟨later, final, .proceeds here run, unchanged⟩
  | @inside nesting kind execution start goOn before moment here _ ih =>
      obtain ⟨later, final, run, unchanged, ended⟩ := ih attempt_eq
      -- The enclosing run gives back its depth, moves the cursor and finds the frame stopped.
      obtain ⟨cursor, goOn_eq⟩ := (goOn_of_nested here).1 final
      have left : Unchanged after (final.leave.moveTo cursor) :=
        ended.trans (unchanged_of_goOn here goOn_eq)
      have still : (final.leave.moveTo cursor).frame.termination ≠ .running := by
        rw [left.termination]
        exact stopped
      have closed : Run session nesting execution
          (⟨nesting, execution⟩ :: (before ++ moment :: later ++
            [⟨nesting, final.leave.moveTo cursor⟩])) (.ok (), final.leave.moveTo cursor) :=
        .returns here run goOn_eq (.of_stopped nesting still)
      refine ⟨later ++ [⟨nesting, final.leave.moveTo cursor⟩], _, ?_, ?_, left⟩
      · simpa using closed
      · exact List.forall_mem_append.2 ⟨unchanged, List.forall_mem_singleton.2 left⟩
  | @returns nesting _ execution _ _ _ inner before _ moment here nested goOn_eq _ ih =>
      obtain ⟨later, final, run, unchanged⟩ := ih attempt_eq
      have whole : Run session nesting execution
          (⟨nesting, execution⟩ :: (inner ++ (before ++ moment :: later))) (.ok (), final) :=
        .returns here nested goOn_eq run
      exact ⟨later, final, by simpa using whole, unchanged⟩

/-- Once an attempt at any depth stops a frame, the block ends with success.  How the frame has
been stopped stays as it is, and so do the world, the registry and both random streams as the
request has found them.  A frame is not stopped otherwise, and only one that goes on fails. -/
theorem runBlock_behind_stop (session : Session) (nesting : Nesting) (execution : Execution W) :
    (∀ before moment result after,
      Reaches session nesting execution before moment →
      moment.execution.frame.termination = .running →
      attempt session moment.execution = .settled (result, after) →
      after.frame.termination ≠ .running →
      ∃ request later outcome,
        Stops session moment.execution request ∧ Unchanged request after ∧
        Run session nesting execution (before ++ moment :: later) outcome ∧
        (∀ moment ∈ later, Unchanged request moment.execution) ∧
        Unchanged request outcome.2 ∧ outcome.1 = .ok () ∧
        (session.config.maxSteps ≠ 0 ∨ outcome.2.frame.steps ≤ session.config.stepLimit →
          execution.runBlock session = outcome)) ∧
    (∀ moments outcome,
      Run session nesting execution moments outcome →
      execution.frame.termination = .running → outcome.2.frame.termination ≠ .running →
      ∃ before moment after request, moments = before ++ moment :: after ∧
        Reaches session nesting execution before moment ∧
        Stops session moment.execution request ∧ Unchanged request outcome.2) ∧
    ∀ error, (execution.runBlock session).1 = .error error →
      (execution.runBlock session).2.frame.termination = .running := by
  refine ⟨?_, ?_, ?_⟩
  · intro before moment result after reaches running attempt_eq stopped
    obtain ⟨request, cursor, flow, stops, rfl, rfl⟩ := stops_of_settled running attempt_eq stopped
    obtain ⟨later, final, run, unchanged, ended⟩ := reaches.exists_run attempt_eq stopped
    have moved : Unchanged request (request.moveTo cursor) := unchanged_moveTo request cursor
    refine ⟨request, later, (.ok (), final), stops, moved, run, ?_, moved.trans ended, rfl, ?_⟩
    · intro moment member
      exact moved.trans (unchanged moment member)
    · exact run.runBlock_eq
  · intro moments outcome run running stopped
    obtain ⟨before, moment, after, request, split, found⟩ := run.exists_stops running stopped
    exact ⟨before, moment, after, request, split, run.reaches split, found⟩
  · intro error failed
    unfold runBlock at failed ⊢
    cases answer : runFor session (execution.height session) execution with
    | none => simp [answer] at failed
    | some outcome =>
        obtain ⟨moments, run⟩ := exists_run_of_runFor nesting answer
        rw [answer] at failed
        exact run.isRunning_of_error failed

/-- A brace block with a `killit` between two updates of a variable. -/
def killing : Program where
  code := #[1, 0x40, 0, 5, 0x0C, 0x40, 0, 7, 2, 7]
  vars := #[{ name := "counter", scope := .global }]

/-- The second update of `killing` is not made, and nothing behind the block is run. -/
theorem runBlock_killing :
    let session : Session := { program := killing, config := { maxSteps := 8 } }
    let execution : Execution World := ⟨Machine.new session (World.new 1 0), { cursor := 0 }⟩
    let updated := (((execution.countStep.moveTo 1).enter 1).countStep.moveTo 4).setVar 0 5
    let request := (updated.countStep.moveTo 5).requestDelete
    (execution.runBlock session).1 = .ok () ∧ Unchanged request (execution.runBlock session).2 ∧
      (execution.runBlock session).2.registry.get 0 {} = 5 := by
  intro session execution updated request
  have reaches : Reaches session .frame execution _ ⟨.block, updated⟩ :=
    .inside rfl (.proceeds rfl .here)
  have killed : attempt session updated = .settled (.ok .proceed, request) := rfl
  obtain ⟨_, _, outcome, _, moved, _, _, ended, succeeds, answer⟩ :=
    (runBlock_behind_stop session .frame execution).1 _ _ _ _ reaches rfl killed (by decide)
  have unchanged : Unchanged request outcome.2 :=
    ⟨ended.machine.trans moved.machine.symm, ended.termination.trans moved.termination.symm⟩
  rw [answer (Or.inl (by decide))]
  refine ⟨succeeds, unchanged, ?_⟩
  rw [unchanged.machine]
  cbv

end ActorScript.Execution
