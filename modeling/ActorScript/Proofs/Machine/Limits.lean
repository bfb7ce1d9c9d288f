import ActorScript.Proofs.Machine.Stop

/-!
# Raising the limits

An attempt depends on the limits of a session only by being cut off, and then the frame ends
as one whose entity is to be deleted.  Nothing takes that back.  So a run that ends in any
other way is the same run under any higher limits.
-/

namespace ActorScript

/-- A session with other limits. -/
def Session.withLimits (session : Session) (maxCallDepth maxSteps : Nat) : Session :=
  { session with config := { session.config with maxCallDepth, maxSteps } }

namespace Execution

variable {W : Type} [Host W] {session : Session} {execution : Execution W}
  {maxCallDepth maxSteps : Nat}

/-- An outcome that no limit can have brought about: a failure, or any ending of the frame
other than by a request to delete its entity. -/
def Uncut (outcome : Outcome W Unit) : Prop :=
  (∃ error, outcome.1 = .error error) ∨ outcome.2.frame.termination ≠ .deleted

/-- What an attempt comes to that a limit cuts off. -/
def Cut : Attempt W → Prop
  | .settled (.ok _, after) => after.frame.termination = .deleted
  | _ => False

theorem program_withLimits :
    (session.withLimits maxCallDepth maxSteps).program = session.program :=
  rfl

/-- Targets do not depend on the limits. -/
theorem targetOf_withLimits (instruction : Instruction) (target : Word) :
    targetOf (session.withLimits maxCallDepth maxSteps) instruction target =
      targetOf session instruction target :=
  rfl

/-! ## Attempts -/

section Raised

variable (deeper : session.config.maxCallDepth ≤ maxCallDepth)
include deeper

omit [Host W] in
theorem invoke_withLimits {nesting : Nesting} {offset : Nat}
    {goOn : Outcome W Unit → Outcome W Flow}
    (proceeds : ∃ cursor, goOn (.ok (), execution.requestDelete) =
      (.ok .proceed, execution.requestDelete.moveTo cursor))
    (running : execution.frame.termination = .running) :
    invoke (session.withLimits maxCallDepth maxSteps) nesting offset goOn execution =
        invoke session nesting offset goOn execution ∨
      Cut (invoke session nesting offset goOn execution) := by
  unfold invoke
  by_cases deep : session.config.maxCallDepth ≤ execution.frame.depth
  · right
    obtain ⟨cursor, goOn_eq⟩ := proceeds
    rw [if_pos deep, goOn_eq]
    exact termination_requestDelete running
  · left
    have shallow : ¬ maxCallDepth ≤ execution.frame.depth := by omega
    rw [if_neg deep]
    exact if_neg shallow

theorem execute_withLimits {instruction : Instruction}
    (running : execution.frame.termination = .running) :
    execute (session.withLimits maxCallDepth maxSteps) instruction execution =
        execute session instruction execution ∨
      Cut (execute session instruction execution) := by
  unfold execute
  split
  · exact invoke_withLimits deeper ⟨execution.requestDelete.frame.cursor, rfl⟩ running
  · exact Or.inl rfl
  · exact Or.inl rfl
  · exact Or.inl rfl
  · unfold callState
    rw [targetOf_withLimits]
    cases targetOf session instruction (instruction.operand 0) with
    | error error => exact Or.inl rfl
    | ok start => exact invoke_withLimits deeper ⟨execution.frame.cursor, rfl⟩ running
  · unfold switch
    rw [targetOf_withLimits]
    cases targetOf session instruction (instruction.operand 1) with
    | error error => exact Or.inl rfl
    | ok finish =>
        cases chosen instruction (execution.var (instruction.operand 0)) with
        | none => exact Or.inl rfl
        | some goal =>
            simp only [targetOf_withLimits]
            cases targetOf session instruction goal with
            | error error => exact Or.inl rfl
            | ok start => exact invoke_withLimits deeper ⟨finish, rfl⟩ running
  · exact Or.inl rfl

theorem fetch_withLimits (running : execution.frame.termination = .running) :
    fetch (session.withLimits maxCallDepth maxSteps) execution = fetch session execution ∨
      Cut (fetch session execution) := by
  unfold fetch
  rw [program_withLimits]
  dsimp only
  split
  · exact Or.inl rfl
  · split
    · exact Or.inl rfl
    · exact Or.inl rfl
    · exact execute_withLimits deeper running

/-- An attempt under higher limits is the same, unless a limit has cut it off. -/
theorem attempt_withLimits
    (longer : maxSteps = 0 ∨ session.config.maxSteps ≠ 0 ∧ session.config.maxSteps ≤ maxSteps)
    (execution : Execution W) :
    attempt (session.withLimits maxCallDepth maxSteps) execution = attempt session execution ∨
      Cut (attempt session execution) := by
  by_cases running : execution.frame.termination = .running
  · by_cases exhausted : session.config.isExhausted execution.frame.steps = true
    · right
      rw [attempt_of_not_isReady (by simp [isReady, exhausted])]
      exact termination_requestDelete running
    · have steps_left : (session.withLimits maxCallDepth maxSteps).config.isExhausted
          execution.frame.steps = false := by
        rw [Config.isExhausted_iff] at exhausted
        rw [Bool.eq_false_iff, ne_eq, Config.isExhausted_iff]
        rintro ⟨limited, used_up⟩
        rcases longer with unlimited | ⟨positive, at_least⟩
        · exact limited unlimited
        · exact exhausted ⟨positive, Nat.le_trans at_least used_up⟩
      have goes_on : execution.frame.isRunning = true := Frame.isRunning_iff.2 running
      have counted : execution.countStep.frame.termination = .running := running
      simp only [attempt, goes_on, steps_left, exhausted, Bool.not_true, Bool.false_eq_true,
        if_false]
      exact fetch_withLimits deeper counted
  · exact Or.inl ((attempt_of_stopped running).trans (attempt_of_stopped running).symm)

end Raised

/-! ## Runs -/

/-- Only an execution that is not cut off leads to an outcome that is not. -/
theorem Run.ne_deleted {nesting : Nesting} {moments : List (Moment W)} {outcome : Outcome W Unit}
    (run : Run session nesting execution moments outcome) (uncut : Uncut outcome) :
    execution.frame.termination ≠ .deleted := by
  intro deleted
  have stopped : execution.frame.termination ≠ .running := by simp [deleted]
  cases run.eq_of_stopped stopped
  rcases uncut with ⟨error, failed⟩ | otherwise
  · contradiction
  · exact otherwise deleted

/-- Behind a nested run that a limit has cut off the machine finds the frame stopped. -/
theorem uncut_of_goOn {kind : Nesting} {start middle : Execution W}
    {goOn : Outcome W Unit → Outcome W Flow} {result : Outcome W Unit}
    (attempt_eq : attempt session execution = .nested kind start goOn)
    (goOn_eq : goOn result = (.ok .proceed, middle))
    (goes_on : middle.frame.termination ≠ .deleted) : Uncut result := by
  rcases goOn_cases attempt_eq goOn_eq with ⟨cursor, _, _, rfl⟩ | ⟨error, failed, _⟩
  · exact Or.inr goes_on
  · exact Or.inl ⟨error, failed⟩

/-- The error of a run comes from a nested run that has failed. -/
theorem uncut_of_goOn_error {kind : Nesting} {start after : Execution W}
    {goOn : Outcome W Unit → Outcome W Flow} {result : Outcome W Unit} {error : RuntimeError}
    (attempt_eq : attempt session execution = .nested kind start goOn)
    (goOn_eq : goOn result = (.error error, after)) : Uncut result := by
  rcases goOn_cases attempt_eq goOn_eq with ⟨cursor, _, proceeds, _⟩ | ⟨error, failed, _⟩
  · contradiction
  · exact Or.inl ⟨error, failed⟩

/-- A run that no limit has cut off is the same run under higher limits. -/
theorem Run.withLimits (deeper : session.config.maxCallDepth ≤ maxCallDepth)
    (longer : maxSteps = 0 ∨ session.config.maxSteps ≠ 0 ∧ session.config.maxSteps ≤ maxSteps)
    {nesting : Nesting} {moments : List (Moment W)} {outcome : Outcome W Unit}
    (run : Run session nesting execution moments outcome) (uncut : Uncut outcome) :
    Run (session.withLimits maxCallDepth maxSteps) nesting execution moments outcome := by
  have same : ∀ {execution : Execution W} {attempted : Attempt W},
      attempt session execution = attempted → ¬ Cut attempted →
      attempt (session.withLimits maxCallDepth maxSteps) execution = attempted := by
    rintro execution attempted rfl uncut
    exact (attempt_withLimits deeper longer execution).resolve_right uncut
  induction run with
  | ends attempt_eq =>
      refine .ends (same attempt_eq ?_)
      intro cut
      rcases uncut with ⟨error, failed⟩ | otherwise
      · contradiction
      · exact otherwise cut
  | fails attempt_eq => exact .fails (same attempt_eq id)
  | proceeds attempt_eq later ih =>
      exact .proceeds (same attempt_eq (later.ne_deleted uncut)) (ih uncut)
  | returns attempt_eq nested goOn_eq later innerIh laterIh =>
      have inner := innerIh (uncut_of_goOn attempt_eq goOn_eq (later.ne_deleted uncut))
      exact .returns (same attempt_eq id) inner goOn_eq (laterIh uncut)
  | failsInside attempt_eq nested goOn_eq ih =>
      have inner := ih (uncut_of_goOn_error attempt_eq goOn_eq)
      exact .failsInside (same attempt_eq id) inner goOn_eq

/-- A block that terminates with an error, or otherwise than with a request to delete its
entity, terminates with the identical outcome under higher limits, by attempting the same
instructions in the same executions. -/
theorem terminates_withLimits (deeper : session.config.maxCallDepth ≤ maxCallDepth)
    (longer : maxSteps = 0 ∨ session.config.maxSteps ≠ 0 ∧ session.config.maxSteps ≤ maxSteps)
    (nesting : Nesting) {outcome : Outcome W Unit}
    (terminates : Terminates session execution outcome) (uncut : Uncut outcome) :
    Terminates (session.withLimits maxCallDepth maxSteps) execution outcome ∧
      (maxSteps ≠ 0 ∨ outcome.2.frame.steps ≤
          (session.withLimits maxCallDepth maxSteps).config.stepLimit →
        execution.runBlock (session.withLimits maxCallDepth maxSteps) = outcome) ∧
      ∃ moments, Run session nesting execution moments outcome ∧
        Run (session.withLimits maxCallDepth maxSteps) nesting execution moments outcome := by
  obtain ⟨moments, run⟩ := (terminates_iff_exists_run nesting).1 terminates
  have raised := run.withLimits deeper longer uncut
  refine ⟨(terminates_iff_exists_run nesting).2 ⟨moments, raised⟩, ?_, moments, run, raised⟩
  intro counted
  exact raised.runBlock_eq counted

/-- An empty brace block and the end of the script. -/
def bracing : Program where
  code := #[1, 2, 7]

/-- Limits that `bracing` just keeps to may be raised or lifted. -/
theorem runBlock_bracing :
    let session : Session := { program := bracing, config := { maxCallDepth := 1, maxSteps := 3 } }
    let execution : Execution World := ⟨Machine.new session (World.new 1 0), { cursor := 0 }⟩
    Terminates session execution (execution.runBlock session) ∧
      (execution.runBlock session).2.frame.termination = .running ∧
      execution.runBlock (session.withLimits 2 0) = execution.runBlock session := by
  intro session execution
  have terminates : Terminates session execution (execution.runBlock session) :=
    (terminates_iff_exists_run .frame).2 (exists_run (by decide) .frame execution)
  have running : (execution.runBlock session).2.frame.termination = .running := by decide
  have uncut : Uncut (execution.runBlock session) := Or.inr (by simp [running])
  have few : (execution.runBlock session).2.frame.steps ≤
      (session.withLimits 2 0).config.stepLimit := by
    have steps_eq : (execution.runBlock session).2.frame.steps = 3 := by decide
    rw [steps_eq]
    decide
  refine ⟨terminates, running, ?_⟩
  have deeper : session.config.maxCallDepth ≤ 2 := by decide
  exact (terminates_withLimits deeper (Or.inl rfl) .frame terminates uncut).2.1 (Or.inr few)

end Execution

end ActorScript
