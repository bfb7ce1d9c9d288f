import ActorScript.Machine.Run
import ActorScript.Proofs.Machine.Perform

/-!
# Runs and their moments

A run is described by the moments at which the machine turns to the instruction
at the cursor, those of nested runs included, and by the outcome of the last of
them.  `Run` is that description as a relation.  It holds of whatever `runFor`
answers, and under a step limit the machine always answers, so every block has
its moments.
-/

namespace ActorScript

/-- A point of a run at which the machine turns to the instruction at the cursor. -/
structure Moment (W : Type) where
  /-- How the innermost run was started. -/
  nesting : Nesting
  execution : Execution W

/-- An opcode that neither starts a nested run nor ends a run. -/
def Opcode.isPlain : Opcode → Bool
  | .leftBrace | .rightBrace | .callState | .switch | .endSwitch | .finish _ => false
  | _ => true

namespace Execution

variable {W : Type} {session : Session} {execution : Execution W}

/-! ## Attempts -/

/-- An instruction may be attempted: the frame goes on and has steps left. -/
def isReady (session : Session) (execution : Execution W) : Bool :=
  execution.frame.isRunning && !session.config.isExhausted execution.frame.steps

/-- The instruction that is attempted, if there is one. -/
def attempted? (session : Session) (execution : Execution W) : Option Instruction :=
  if execution.isReady session then
    (Instruction.decode session.program.code execution.frame.cursor).toOption
  else none

/-- The attempt finds a word that stands for no opcode. -/
def MeetsUnknown (session : Session) (execution : Execution W) : Prop :=
  execution.isReady session = true ∧ ∃ offset word,
    Instruction.decode session.program.code execution.frame.cursor =
      .error (.unknownOpcode offset word)

theorem attempted?_eq_some_iff {instruction : Instruction} :
    execution.attempted? session = some instruction ↔
      execution.isReady session = true ∧
        Instruction.decode session.program.code execution.frame.cursor = .ok instruction := by
  unfold attempted?
  split
  · rename_i ready
    cases decoded : Instruction.decode session.program.code execution.frame.cursor <;>
      simp [Except.toOption, ready]
  · rename_i ready
    simp [ready]

/-- Only a frame that goes on attempts an instruction. -/
theorem isRunning_of_attempted? {instruction : Instruction}
    (found : execution.attempted? session = some instruction) :
    execution.frame.termination = .running := by
  have ready := (attempted?_eq_some_iff.1 found).1
  simp only [isReady, Bool.and_eq_true] at ready
  exact Frame.isRunning_iff.1 ready.1

/-- The frame still goes on when the instruction is carried out. -/
theorem isRunning_behind {instruction : Instruction}
    (found : execution.attempted? session = some instruction) :
    (execution.countStep.moveTo instruction.next).frame.termination = .running := by
  have running := isRunning_of_attempted? found
  exact running

variable [Host W]

/-- The instruction at the cursor is carried out with the cursor behind it. -/
theorem attempt_of_attempted? {instruction : Instruction}
    (found : execution.attempted? session = some instruction) :
    attempt session execution =
      execute session instruction (execution.countStep.moveTo instruction.next) := by
  obtain ⟨ready, decoded⟩ := attempted?_eq_some_iff.1 found
  simp only [isReady, Bool.and_eq_true, Bool.not_eq_true'] at ready
  have inside := Instruction.offset_lt_size decoded
  simp [attempt, ready, fetch, Nat.not_le.2 inside, decoded]

/-- A frame that cannot go on is stopped, if it has not been stopped before. -/
theorem attempt_of_not_isReady (idle : execution.isReady session = false) :
    attempt session execution = .settled (.ok .done, execution.requestDelete) := by
  unfold attempt
  split
  · rename_i stopped
    have same : execution.requestDelete = execution := by
      have unchanged := Frame.stop_of_not_isRunning (by simpa using stopped) .deleted
      simp only [requestDelete, withFrame, Frame.requestDelete, unchanged]
    rw [same]
  · rename_i running
    rw [if_pos]
    simp only [isReady] at idle
    simp_all

/-- All that an attempt can come to. -/
inductive Attempted (session : Session) (execution : Execution W) : Attempt W → Prop
  | executes {instruction : Instruction}
      (found : execution.attempted? session = some instruction) :
      Attempted session execution
        (execute session instruction (execution.countStep.moveTo instruction.next))
  | idle (idle : execution.isReady session = false) :
      Attempted session execution (.settled (.ok .done, execution.requestDelete))
  | unknown (meets : execution.MeetsUnknown session) :
      Attempted session execution (.settled (.ok .done, execution.countStep.requestDelete))
  | unreadable {fault : Instruction.Fault} {error : RuntimeError}
      (ready : execution.isReady session = true)
      (unread : Instruction.decode session.program.code execution.frame.cursor = .error fault)
      (error_eq : error =
          .cursorOutOfRange execution.frame.cursor session.program.code.size ∨
        error = .unreadable fault) :
      Attempted session execution (.settled (.error error, execution.countStep))

/-- Where no instruction can be read, the frame is stopped for an unknown opcode or fails,
and nothing else happens. -/
theorem attempted_of_fault {fault : Instruction.Fault}
    (ready : execution.isReady session = true)
    (unread : Instruction.decode session.program.code execution.frame.cursor = .error fault) :
    Attempted session execution (attempt session execution) := by
  have still := ready
  simp only [isReady, Bool.and_eq_true, Bool.not_eq_true'] at ready
  simp only [attempt, ready, Bool.not_true, Bool.false_eq_true, if_false, fetch,
    frame_countStep, unread]
  split
  · exact .unreadable still unread (Or.inl rfl)
  · cases fault with
    | unknownOpcode offset word => exact .unknown ⟨still, offset, word, unread⟩
    | outOfRange _ | truncated _ _ | negativeCaseCount _ _ =>
        exact .unreadable still unread (Or.inr rfl)

theorem attempted (session : Session) (execution : Execution W) :
    Attempted session execution (attempt session execution) := by
  cases ready : execution.isReady session with
  | true =>
      cases decoded : Instruction.decode session.program.code execution.frame.cursor with
      | ok instruction =>
          have found := attempted?_eq_some_iff.2 ⟨ready, decoded⟩
          rw [attempt_of_attempted? found]
          exact .executes found
      | error fault => exact attempted_of_fault ready decoded
  | false =>
      rw [attempt_of_not_isReady ready]
      exact .idle ready

/-! ## What an instruction can do -/

/-- An instruction starts a nested run, of the given kind, at an offset; the function tells
how the machine goes on afterwards. -/
inductive Enters (session : Session) (instruction : Instruction) (execution : Execution W) :
    Nesting → Nat → (Outcome W Unit → Outcome W Flow) → Prop
  | block (opcode_eq : instruction.opcode = .leftBrace) :
      Enters session instruction execution .block execution.frame.cursor resume
  | call {start : Nat} (opcode_eq : instruction.opcode = .callState)
      (target : targetOf session instruction (instruction.operand 0) = .ok start) :
      Enters session instruction execution .call start (resumeAt execution.frame.cursor)
  | branch {finish start : Nat} {goal : Word} (opcode_eq : instruction.opcode = .switch)
      (exit : targetOf session instruction (instruction.operand 1) = .ok finish)
      (chosen_eq : chosen instruction (execution.var (instruction.operand 0)) = some goal)
      (target : targetOf session instruction goal = .ok start) :
      Enters session instruction execution .branch start (resumeAt finish)

/-- A target that a state call or a `switch` checks. -/
inductive Checks (instruction : Instruction) (execution : Execution W) : Word → Prop
  | call (opcode_eq : instruction.opcode = .callState) :
      Checks instruction execution (instruction.operand 0)
  | exit (opcode_eq : instruction.opcode = .switch) :
      Checks instruction execution (instruction.operand 1)
  | branch {goal : Word} (opcode_eq : instruction.opcode = .switch)
      (chosen_eq : chosen instruction (execution.var (instruction.operand 0)) = some goal) :
      Checks instruction execution goal

/-- All that carrying out an instruction can come to. -/
inductive Executed (session : Session) (instruction : Instruction) (execution : Execution W) :
    Attempt W → Prop
  | enters {nesting : Nesting} {offset : Nat} {goOn : Outcome W Unit → Outcome W Flow}
      (enters : Enters session instruction execution nesting offset goOn) :
      Executed session instruction execution (invoke session nesting offset goOn execution)
  | astray {goal : Word} {error : RuntimeError}
      (checks : Checks instruction execution goal)
      (target : targetOf session instruction goal = .error error) :
      Executed session instruction execution (.settled (.error error, execution))
  | skips {finish : Nat} (opcode_eq : instruction.opcode = .switch)
      (exit : targetOf session instruction (instruction.operand 1) = .ok finish)
      (chosen_eq : chosen instruction (execution.var (instruction.operand 0)) = none) :
      Executed session instruction execution (.settled (.ok .proceed, execution.moveTo finish))
  | ends (opcode_eq : instruction.opcode = .rightBrace ∨ instruction.opcode = .endSwitch) :
      Executed session instruction execution (.settled (.ok .done, execution))
  | finishes {ending : Ending} (opcode_eq : instruction.opcode = .finish ending) :
      Executed session instruction execution
        (.settled (.ok .done, execution.moveTo instruction.offset))
  | performs (plain : instruction.opcode.isPlain = true) :
      Executed session instruction execution
        (.settled (resume (perform session instruction execution)))

theorem executed (session : Session) (instruction : Instruction) (execution : Execution W) :
    Executed session instruction execution (execute session instruction execution) := by
  unfold execute
  split
  · rename_i opcode_eq
    exact .enters (.block opcode_eq)
  · rename_i opcode_eq
    exact .ends (Or.inl opcode_eq)
  · rename_i opcode_eq
    exact .ends (Or.inr opcode_eq)
  · rename_i opcode_eq
    exact .finishes opcode_eq
  · rename_i opcode_eq
    unfold callState
    split
    · rename_i target
      exact .astray (.call opcode_eq) target
    · rename_i target
      exact .enters (.call opcode_eq target)
  · rename_i opcode_eq
    unfold switch
    split
    · rename_i target
      exact .astray (.exit opcode_eq) target
    · rename_i exit
      split
      · rename_i chosen_eq
        exact .skips opcode_eq exit chosen_eq
      · rename_i chosen_eq
        split
        · rename_i target
          exact .astray (.branch opcode_eq chosen_eq) target
        · rename_i target
          exact .enters (.branch opcode_eq exit chosen_eq target)
  · apply Executed.performs
    cases opcode_eq : instruction.opcode <;> simp_all [Opcode.isPlain]

/-- An instruction that can start a nested run sets about it. -/
theorem execute_of_enters {instruction : Instruction} {nesting : Nesting} {offset : Nat}
    {onward : Outcome W Unit → Outcome W Flow}
    (enters : Enters session instruction execution nesting offset onward) :
    execute session instruction execution = invoke session nesting offset onward execution := by
  cases enters with
  | block opcode_eq => simp [execute, opcode_eq]
  | call opcode_eq target => simp [execute, opcode_eq, callState, target]
  | branch opcode_eq exit chosen_eq target =>
      simp [execute, opcode_eq, switch, exit, chosen_eq, target]

omit [Host W] in
/-- Behind a plain instruction a run goes on or fails. -/
theorem resume_ne_done (outcome : Outcome W Unit) : (resume outcome).1 ≠ .ok .done := by
  obtain ⟨_ | _, _⟩ := outcome
  · intro ended
    cases ended
  · intro ended
    cases ended

omit [Host W] in
/-- A nested run starts below the greatest depth and is left where it ends. -/
theorem invoke_eq_nested {nesting kind : Nesting} {offset : Nat} {start : Execution W}
    {goOn onward : Outcome W Unit → Outcome W Flow}
    (invoke_eq : invoke session nesting offset onward execution = .nested kind start goOn) :
    kind = nesting ∧ execution.frame.depth < session.config.maxCallDepth ∧
      start = execution.enter offset ∧
      goOn = fun (result, after) => onward (result, after.leave) := by
  unfold invoke at invoke_eq
  split at invoke_eq
  · contradiction
  · rename_i shallow
    cases invoke_eq
    exact ⟨rfl, Nat.not_le.1 shallow, rfl, rfl⟩

omit [Host W] in
theorem exists_invoke_eq_nested {nesting : Nesting} {offset : Nat}
    {onward : Outcome W Unit → Outcome W Flow}
    (shallow : execution.frame.depth < session.config.maxCallDepth) :
    ∃ goOn, invoke session nesting offset onward execution =
      .nested nesting (execution.enter offset) goOn := by
  unfold invoke
  rw [if_neg (Nat.not_le.2 shallow)]
  exact ⟨_, rfl⟩

omit [Host W] in
/-- At the greatest depth the frame is stopped and goes on as after a nested run. -/
theorem invoke_eq_settled {nesting : Nesting} {offset : Nat} {outcome : Outcome W Flow}
    {onward : Outcome W Unit → Outcome W Flow}
    (invoke_eq : invoke session nesting offset onward execution = .settled outcome) :
    outcome = onward (.ok (), execution.requestDelete) := by
  unfold invoke at invoke_eq
  split at invoke_eq
  · cases invoke_eq
    rfl
  · contradiction

/-- Where a nested run comes from. -/
theorem enters_of_nested {kind : Nesting} {start : Execution W}
    {goOn : Outcome W Unit → Outcome W Flow}
    (attempt_eq : attempt session execution = .nested kind start goOn) :
    ∃ instruction offset onward, execution.attempted? session = some instruction ∧
      Enters session instruction (execution.countStep.moveTo instruction.next)
        kind offset onward ∧
      execution.frame.depth < session.config.maxCallDepth ∧
      start = (execution.countStep.moveTo instruction.next).enter offset ∧
      goOn = fun (result, after) => onward (result, after.leave) := by
  have possible := attempted session execution
  generalize attempt session execution = attempt at possible attempt_eq
  cases possible with
  | idle _ | unknown _ | unreadable _ _ _ => cases attempt_eq
  | @executes instruction found =>
      have possible :=
        executed session instruction (execution.countStep.moveTo instruction.next)
      generalize execute session instruction (execution.countStep.moveTo instruction.next) =
        attempt at possible attempt_eq
      cases possible with
      | enters enters =>
          obtain ⟨rfl, shallow, rfl, rfl⟩ := invoke_eq_nested attempt_eq
          exact ⟨instruction, _, _, found, enters, shallow, rfl, rfl⟩
      | astray | skips | ends | finishes | performs => cases attempt_eq

omit [Host W] in
/-- How the machine goes on after a nested run: where it has ended or at an offset, or with
its error. -/
theorem Enters.onward {instruction : Instruction} {nesting : Nesting} {offset : Nat}
    {onward : Outcome W Unit → Outcome W Flow}
    (enters : Enters session instruction execution nesting offset onward) :
    (∀ after, ∃ cursor, onward (.ok (), after) = (.ok .proceed, after.moveTo cursor)) ∧
      ∀ error after, onward (.error error, after) = (.error error, after) := by
  cases enters with
  | block _ => exact ⟨fun after => ⟨after.frame.cursor, rfl⟩, fun _ _ => rfl⟩
  | call _ _ => exact ⟨fun _ => ⟨_, rfl⟩, fun _ _ => rfl⟩
  | branch _ _ _ _ => exact ⟨fun _ => ⟨_, rfl⟩, fun _ _ => rfl⟩

/-- What follows a nested run: its outcome is passed on, but the run goes on where it has
ended or at an offset. -/
theorem goOn_of_nested {kind : Nesting} {start : Execution W}
    {goOn : Outcome W Unit → Outcome W Flow}
    (attempt_eq : attempt session execution = .nested kind start goOn) :
    (∀ after, ∃ cursor, goOn (.ok (), after) = (.ok .proceed, after.leave.moveTo cursor)) ∧
      ∀ error after, goOn (.error error, after) = (.error error, after.leave) := by
  obtain ⟨instruction, offset, onward, _, enters, _, _, rfl⟩ := enters_of_nested attempt_eq
  obtain ⟨proceeds, fails⟩ := enters.onward
  exact ⟨fun after => proceeds after.leave, fun error after => fails error after.leave⟩

/-- Behind a nested run its depth is given back, and the enclosing run goes on or fails as the
nested one has. -/
theorem goOn_cases {kind : Nesting} {start after : Execution W} {flow : Except RuntimeError Flow}
    {goOn : Outcome W Unit → Outcome W Flow} {result : Outcome W Unit}
    (attempt_eq : attempt session execution = .nested kind start goOn)
    (goOn_eq : goOn result = (flow, after)) :
    (∃ cursor, result.1 = .ok () ∧ flow = .ok .proceed ∧ after = result.2.leave.moveTo cursor) ∨
      ∃ error, result.1 = .error error ∧ flow = .error error ∧ after = result.2.leave := by
  obtain ⟨proceeds, fails⟩ := goOn_of_nested attempt_eq
  obtain ⟨result, inside⟩ := result
  cases result with
  | ok _ =>
      obtain ⟨cursor, same⟩ := proceeds inside
      rw [same] at goOn_eq
      cases goOn_eq
      exact Or.inl ⟨cursor, rfl, rfl, rfl⟩
  | error error =>
      rw [fails] at goOn_eq
      cases goOn_eq
      exact Or.inr ⟨error, rfl, rfl, rfl⟩

/-! ## What every attempt keeps -/

/-- A condition that everything a run does to an execution keeps. -/
structure Keeps (session : Session) (Kept : Execution W → Prop) : Prop where
  countStep {execution : Execution W} : Kept execution → Kept execution.countStep
  moveTo {execution : Execution W} (cursor : Nat) : Kept execution → Kept (execution.moveTo cursor)
  enter {execution : Execution W} (start : Nat) : Kept execution → Kept (execution.enter start)
  leave {execution : Execution W} : Kept execution → Kept execution.leave
  requestDelete {execution : Execution W} : Kept execution → Kept execution.requestDelete
  change {instruction : Instruction} {before after : Execution W} :
    Change session instruction before after → Kept before → Kept after

/-- A condition on the machine alone is at stake only in what plain instructions change. -/
theorem Keeps.of_machine (Kept : Machine W → Prop)
    (change : ∀ {instruction : Instruction} {before after : Execution W},
      Change session instruction before after → Kept before.toMachine → Kept after.toMachine) :
    Keeps session fun execution : Execution W => Kept execution.toMachine where
  countStep start := start
  moveTo _ start := start
  enter _ start := start
  leave start := start
  requestDelete start := start
  change := change

section Keeps

variable {Kept : Execution W → Prop}

theorem Keeps.executed (keeps : Keeps session Kept) {instruction : Instruction}
    {outcome : Outcome W Flow} (running : execution.frame.termination = .running)
    (start : Kept execution)
    (settled : execute session instruction execution = .settled outcome) :
    Kept outcome.2 := by
  have possible := Execution.executed session instruction execution
  generalize execute session instruction execution = attempt at possible settled
  cases possible with
  | enters enters =>
      rw [invoke_eq_settled settled]
      obtain ⟨cursor, onward_eq⟩ := enters.onward.1 execution.requestDelete
      rw [onward_eq]
      exact keeps.moveTo cursor (keeps.requestDelete start)
  | astray _ _ =>
      cases settled
      exact start
  | skips _ _ _ =>
      cases settled
      exact keeps.moveTo _ start
  | ends _ =>
      cases settled
      exact start
  | finishes _ =>
      cases settled
      exact keeps.moveTo _ start
  | performs _ =>
      cases settled
      have performed : Kept (perform session instruction execution).2 :=
        kept_perform running keeps.change start
      revert performed
      generalize perform session instruction execution = outcome
      obtain ⟨result, after⟩ := outcome
      cases result <;> exact id

theorem Keeps.settled (keeps : Keeps session Kept) {outcome : Outcome W Flow}
    (start : Kept execution) (attempt_eq : attempt session execution = .settled outcome) :
    Kept outcome.2 := by
  have possible := attempted session execution
  generalize attempt session execution = attempt at possible attempt_eq
  cases possible with
  | executes found =>
      have running := isRunning_behind found
      exact keeps.executed running (keeps.moveTo _ (keeps.countStep start)) attempt_eq
  | idle _ =>
      cases attempt_eq
      exact keeps.requestDelete start
  | unknown _ =>
      cases attempt_eq
      exact keeps.requestDelete (keeps.countStep start)
  | unreadable _ _ _ =>
      cases attempt_eq
      exact keeps.countStep start

theorem Keeps.nested (keeps : Keeps session Kept) {kind : Nesting} {inside : Execution W}
    {goOn : Outcome W Unit → Outcome W Flow} (start : Kept execution)
    (attempt_eq : attempt session execution = .nested kind inside goOn) : Kept inside := by
  obtain ⟨instruction, offset, onward, _, _, _, rfl, _⟩ := enters_of_nested attempt_eq
  exact keeps.enter offset (keeps.moveTo _ (keeps.countStep start))

theorem Keeps.goOn (keeps : Keeps session Kept) {kind : Nesting} {inside : Execution W}
    {goOn : Outcome W Unit → Outcome W Flow} {outcome : Outcome W Unit}
    (attempt_eq : attempt session execution = .nested kind inside goOn)
    (finish : Kept outcome.2) : Kept (goOn outcome).2 := by
  obtain ⟨proceeds, fails⟩ := goOn_of_nested attempt_eq
  obtain ⟨result, after⟩ := outcome
  cases result with
  | ok _ =>
      obtain ⟨cursor, goOn_eq⟩ := proceeds after
      rw [goOn_eq]
      exact keeps.moveTo cursor (keeps.leave finish)
  | error error =>
      rw [fails]
      exact keeps.leave finish

end Keeps

/-! ## Runs -/

/-- A run with its moments, in order, and its outcome. -/
inductive Run (session : Session) :
    Nesting → Execution W → List (Moment W) → Outcome W Unit → Prop
  | ends {nesting : Nesting} {execution after : Execution W}
      (attempt_eq : attempt session execution = .settled (.ok .done, after)) :
      Run session nesting execution [⟨nesting, execution⟩] (.ok (), after)
  | fails {nesting : Nesting} {execution after : Execution W} {error : RuntimeError}
      (attempt_eq : attempt session execution = .settled (.error error, after)) :
      Run session nesting execution [⟨nesting, execution⟩] (.error error, after)
  | proceeds {nesting : Nesting} {execution middle : Execution W} {rest : List (Moment W)}
      {outcome : Outcome W Unit}
      (attempt_eq : attempt session execution = .settled (.ok .proceed, middle))
      (later : Run session nesting middle rest outcome) :
      Run session nesting execution (⟨nesting, execution⟩ :: rest) outcome
  | returns {nesting kind : Nesting} {execution start middle : Execution W}
      {goOn : Outcome W Unit → Outcome W Flow} {inner rest : List (Moment W)}
      {result outcome : Outcome W Unit}
      (attempt_eq : attempt session execution = .nested kind start goOn)
      (nested : Run session kind start inner result)
      (goOn_eq : goOn result = (.ok .proceed, middle))
      (later : Run session nesting middle rest outcome) :
      Run session nesting execution (⟨nesting, execution⟩ :: (inner ++ rest)) outcome
  | failsInside {nesting kind : Nesting} {execution start after : Execution W}
      {goOn : Outcome W Unit → Outcome W Flow} {inner : List (Moment W)} {result : Outcome W Unit}
      {error : RuntimeError}
      (attempt_eq : attempt session execution = .nested kind start goOn)
      (nested : Run session kind start inner result)
      (goOn_eq : goOn result = (.error error, after)) :
      Run session nesting execution (⟨nesting, execution⟩ :: inner) (.error error, after)

/-- What holds at the start of a run and is kept by everything a run does holds at each
of its moments and at its end. -/
theorem Run.kept {Kept : Execution W → Prop} (keeps : Keeps session Kept) {nesting : Nesting}
    {moments : List (Moment W)} {outcome : Outcome W Unit}
    (run : Run session nesting execution moments outcome) (start : Kept execution) :
    (∀ moment ∈ moments, Kept moment.execution) ∧ Kept outcome.2 := by
  induction run with
  | ends attempt_eq =>
      exact ⟨List.forall_mem_singleton.2 start, keeps.settled start attempt_eq⟩
  | fails attempt_eq =>
      exact ⟨List.forall_mem_singleton.2 start, keeps.settled start attempt_eq⟩
  | proceeds attempt_eq later ih =>
      obtain ⟨rest, finish⟩ := ih (keeps.settled start attempt_eq)
      exact ⟨List.forall_mem_cons.2 ⟨start, rest⟩, finish⟩
  | returns attempt_eq nested goOn_eq later innerIh laterIh =>
      obtain ⟨inner, inside⟩ := innerIh (keeps.nested start attempt_eq)
      have middle := keeps.goOn attempt_eq inside
      rw [goOn_eq] at middle
      obtain ⟨rest, finish⟩ := laterIh middle
      refine ⟨List.forall_mem_cons.2 ⟨start, ?_⟩, finish⟩
      intro moment member
      exact (List.mem_append.1 member).elim (inner moment) (rest moment)
  | failsInside attempt_eq nested goOn_eq ih =>
      obtain ⟨inner, inside⟩ := ih (keeps.nested start attempt_eq)
      have finish := keeps.goOn attempt_eq inside
      rw [goOn_eq] at finish
      exact ⟨List.forall_mem_cons.2 ⟨start, inner⟩, finish⟩

/-- Where a run starts decides its moments and its outcome. -/
theorem Run.unique {nesting : Nesting} {moments others : List (Moment W)}
    {outcome other : Outcome W Unit} (run : Run session nesting execution moments outcome)
    (another : Run session nesting execution others other) :
    moments = others ∧ outcome = other := by
  induction run generalizing others other with
  | ends here =>
      cases another with
      | ends attempt_eq | fails attempt_eq | proceeds attempt_eq _ | returns attempt_eq _ _ _
      | failsInside attempt_eq _ _ =>
          cases here.symm.trans attempt_eq
          all_goals exact ⟨rfl, rfl⟩
  | fails here =>
      cases another with
      | ends attempt_eq | fails attempt_eq | proceeds attempt_eq _ | returns attempt_eq _ _ _
      | failsInside attempt_eq _ _ =>
          cases here.symm.trans attempt_eq
          all_goals exact ⟨rfl, rfl⟩
  | proceeds here _ ih =>
      cases another with
      | proceeds attempt_eq later =>
          cases here.symm.trans attempt_eq
          obtain ⟨rfl, rfl⟩ := ih later
          exact ⟨rfl, rfl⟩
      | ends attempt_eq | fails attempt_eq | returns attempt_eq _ _ _
      | failsInside attempt_eq _ _ => cases here.symm.trans attempt_eq
  | returns here _ goOn_eq _ innerIh laterIh =>
      cases another with
      | returns attempt_eq nested same_goOn later =>
          cases here.symm.trans attempt_eq
          obtain ⟨rfl, rfl⟩ := innerIh nested
          cases goOn_eq.symm.trans same_goOn
          obtain ⟨rfl, rfl⟩ := laterIh later
          exact ⟨rfl, rfl⟩
      | failsInside attempt_eq nested same_goOn =>
          cases here.symm.trans attempt_eq
          obtain ⟨_, rfl⟩ := innerIh nested
          cases goOn_eq.symm.trans same_goOn
      | ends attempt_eq | fails attempt_eq | proceeds attempt_eq _ =>
          cases here.symm.trans attempt_eq
  | failsInside here _ goOn_eq ih =>
      cases another with
      | failsInside attempt_eq nested same_goOn =>
          cases here.symm.trans attempt_eq
          obtain ⟨rfl, rfl⟩ := ih nested
          cases goOn_eq.symm.trans same_goOn
          exact ⟨rfl, rfl⟩
      | returns attempt_eq nested same_goOn _ =>
          cases here.symm.trans attempt_eq
          obtain ⟨_, rfl⟩ := ih nested
          cases goOn_eq.symm.trans same_goOn
      | ends attempt_eq | fails attempt_eq | proceeds attempt_eq _ =>
          cases here.symm.trans attempt_eq

/-! ## Every block has its run -/

/-- Steps are never taken back. -/
theorem keeps_steps (session : Session) (bound : Nat) :
    Keeps session fun execution : Execution W => bound ≤ execution.frame.steps where
  countStep start := Nat.le_succ_of_le start
  moveTo _ start := start
  enter _ start := start
  leave start := start
  requestDelete start := by
    rw [frame_requestDelete, Frame.stop_eq]
    exact start
  change change start := by
    obtain ⟨cursor, termination, frame_eq⟩ := change.frame_eq
    rw [frame_eq]
    exact start

/-- The answers of `runFor` are outcomes of runs. -/
theorem exists_run_of_runFor {height : Nat} {outcome : Outcome W Unit} (nesting : Nesting)
    (answer : runFor session height execution = some outcome) :
    ∃ moments, Run session nesting execution moments outcome := by
  induction height generalizing execution outcome nesting with
  | zero => contradiction
  | succ height ih =>
      simp only [runFor, stepWith] at answer
      cases attempt_eq : attempt session execution with
      | settled settled =>
          obtain ⟨result, after⟩ := settled
          simp only [attempt_eq] at answer
          rcases result with error | flow
          · cases answer
            exact ⟨_, .fails attempt_eq⟩
          · cases flow with
            | done =>
                cases answer
                exact ⟨_, .ends attempt_eq⟩
            | proceed =>
                obtain ⟨rest, later⟩ := ih nesting answer
                exact ⟨_, .proceeds attempt_eq later⟩
      | nested kind start goOn =>
          simp only [attempt_eq] at answer
          cases nested_eq : runFor session height start with
          | none => simp [nested_eq] at answer
          | some result =>
              obtain ⟨inner, nested⟩ := ih kind nested_eq
              simp only [nested_eq, Option.map_some] at answer
              obtain ⟨result, inside⟩ := result
              cases result with
              | ok _ =>
                  obtain ⟨cursor, goOn_eq⟩ := (goOn_of_nested attempt_eq).1 inside
                  rw [goOn_eq] at answer
                  obtain ⟨rest, later⟩ := ih nesting answer
                  exact ⟨_, .returns attempt_eq nested goOn_eq later⟩
              | error error =>
                  have goOn_eq := (goOn_of_nested attempt_eq).2 error inside
                  rw [goOn_eq] at answer
                  cases answer
                  exact ⟨_, .failsInside attempt_eq nested goOn_eq⟩

/-- A run goes on directly only behind an instruction that it has carried out. -/
theorem executed_of_proceeds {after : Execution W}
    (attempt_eq : attempt session execution = .settled (.ok .proceed, after)) :
    ∃ instruction, execution.attempted? session = some instruction ∧
      execute session instruction (execution.countStep.moveTo instruction.next) =
        .settled (.ok .proceed, after) := by
  have possible := attempted session execution
  generalize attempt session execution = attempt at possible attempt_eq
  cases possible with
  | executes found => exact ⟨_, found, attempt_eq⟩
  | idle _ | unknown _ | unreadable _ _ _ => cases attempt_eq

omit [Host W] in
/-- Under a limit, an attempted instruction uses up one of the steps left. -/
theorem steps_lt_of_attempted? {instruction : Instruction}
    (limited : session.config.maxSteps ≠ 0)
    (found : execution.attempted? session = some instruction) :
    execution.frame.steps < session.config.maxSteps := by
  have ready := (attempted?_eq_some_iff.1 found).1
  simp only [isReady, Config.isExhausted, Bool.and_eq_true, Bool.not_eq_true'] at ready
  simpa [limited] using ready.2

/-- Under a limit, a height above the number of steps left is always high enough. -/
theorem runFor_isSome (limited : session.config.maxSteps ≠ 0) {height : Nat}
    (high : session.config.maxSteps - execution.frame.steps < height) :
    ∃ outcome, runFor session height execution = some outcome := by
  induction height generalizing execution with
  | zero => contradiction
  | succ height ih =>
      simp only [runFor, stepWith]
      cases attempt_eq : attempt session execution with
      | settled settled =>
          obtain ⟨result, after⟩ := settled
          rcases result with error | flow
          · exact ⟨_, rfl⟩
          · cases flow with
            | done => exact ⟨_, rfl⟩
            | proceed =>
                obtain ⟨instruction, found, settled⟩ := executed_of_proceeds attempt_eq
                have below := steps_lt_of_attempted? limited found
                have running := isRunning_behind found
                have more : execution.frame.steps + 1 ≤ after.frame.steps :=
                  (keeps_steps session _).executed running (Nat.le_refl _) settled
                exact ih (by omega)
      | nested kind start goOn =>
          obtain ⟨instruction, offset, onward, found, _, _, start_eq, _⟩ :=
            enters_of_nested attempt_eq
          have below := steps_lt_of_attempted? limited found
          have one_more : start.frame.steps = execution.frame.steps + 1 := by rw [start_eq]; rfl
          obtain ⟨⟨result, inside⟩, nested_eq⟩ := @ih start (by omega)
          simp only [nested_eq, Option.map_some]
          cases result with
          | ok _ =>
              obtain ⟨cursor, goOn_eq⟩ := (goOn_of_nested attempt_eq).1 inside
              simp only [goOn_eq]
              obtain ⟨moments, run⟩ := exists_run_of_runFor kind nested_eq
              have more : start.frame.steps ≤ inside.frame.steps :=
                (run.kept (keeps_steps session _) (Nat.le_refl _)).2
              have same : (inside.leave.moveTo cursor).frame.steps = inside.frame.steps := rfl
              exact ih (by omega)
          | error error =>
              rw [(goOn_of_nested attempt_eq).2 error inside]
              exact ⟨_, rfl⟩

/-- Under a limit, every block is a run. -/
theorem exists_run (limited : session.config.maxSteps ≠ 0) (nesting : Nesting)
    (execution : Execution W) :
    ∃ moments, Run session nesting execution moments (execution.runBlock session) := by
  have high : session.config.maxSteps - execution.frame.steps < execution.height session := by
    simp [Execution.height, Config.stepLimit, limited]
  obtain ⟨outcome, answer⟩ := runFor_isSome limited high
  unfold runBlock
  rw [answer]
  exact exists_run_of_runFor nesting answer

/-- Whatever the limit, a block is a run, or it has been stopped for going on beyond all bounds. -/
theorem runBlock_cases (session : Session) (nesting : Nesting) (execution : Execution W) :
    execution.runBlock session = (.ok (), execution.requestDelete) ∨
      ∃ moments, Run session nesting execution moments (execution.runBlock session) := by
  unfold runBlock
  cases answer : runFor session (execution.height session) execution with
  | none => exact Or.inl rfl
  | some outcome => exact Or.inr (exists_run_of_runFor nesting answer)

/-! ## How runs end -/

/-- An instruction that fails has met a target that leads nowhere, and nothing has happened, or
it is a plain one. -/
theorem error_of_execute {instruction : Instruction} {error : RuntimeError} {after : Execution W}
    (settled : execute session instruction execution = .settled (.error error, after)) :
    (after = execution ∧ ∃ goal, Checks instruction execution goal ∧
        targetOf session instruction goal = .error error) ∨
      perform session instruction execution = (.error error, after) := by
  have possible := executed session instruction execution
  generalize execute session instruction execution = attempt at possible settled
  cases possible with
  | enters enters =>
      obtain ⟨cursor, onward_eq⟩ := enters.onward.1 execution.requestDelete
      have outcome_eq := invoke_eq_settled settled
      rw [onward_eq] at outcome_eq
      cases outcome_eq
  | astray checks target =>
      cases settled
      exact Or.inl ⟨rfl, _, checks, target⟩
  | skips | ends | finishes => cases settled
  | performs =>
      cases performed : perform session instruction execution with
      | mk result final =>
          rw [performed] at settled
          cases result with
          | ok _ => cases settled
          | error other =>
              cases settled
              exact Or.inr rfl

/-- Only a frame that goes on fails. -/
theorem isRunning_of_error {after : Execution W} {error : RuntimeError}
    (attempt_eq : attempt session execution = .settled (.error error, after)) :
    after.frame.termination = .running := by
  have possible := attempted session execution
  generalize attempt session execution = attempt at possible attempt_eq
  cases possible with
  | executes found =>
      have running := isRunning_behind found
      rcases error_of_execute attempt_eq with ⟨rfl, _⟩ | performed
      · exact running
      · have same := frame_of_perform_error (congrArg Prod.fst performed)
        rw [performed] at same
        rw [same]
        exact running
  | idle _ | unknown _ => cases attempt_eq
  | unreadable ready _ _ =>
      cases attempt_eq
      simp only [isReady, Bool.and_eq_true] at ready
      exact Frame.isRunning_iff.1 ready.1

/-- A run that fails leaves its frame as one that goes on. -/
theorem Run.isRunning_of_error {nesting : Nesting} {moments : List (Moment W)}
    {outcome : Outcome W Unit} (run : Run session nesting execution moments outcome)
    {error : RuntimeError} (failed : outcome.1 = .error error) :
    outcome.2.frame.termination = .running := by
  induction run with
  | ends _ => cases failed
  | fails attempt_eq => exact Execution.isRunning_of_error attempt_eq
  | proceeds _ _ ih => exact ih failed
  | returns _ _ _ _ _ laterIh => exact laterIh failed
  | failsInside attempt_eq _ goOn_eq ih =>
      rcases goOn_cases attempt_eq goOn_eq with ⟨_, _, proceeds, _⟩ | ⟨_, inside, same, rfl⟩
      · contradiction
      · cases failed
        cases same
        exact ih inside

/-- A run that succeeds has ended with its last moment. -/
theorem Run.exists_last {nesting : Nesting} {moments : List (Moment W)} {outcome : Outcome W Unit}
    (run : Run session nesting execution moments outcome) (succeeds : outcome.1 = .ok ()) :
    ∃ front last, moments = front ++ [last] ∧
      attempt session last.execution = .settled (.ok .done, outcome.2) := by
  induction run with
  | @ends nesting execution after attempt_eq =>
      exact ⟨[], ⟨nesting, execution⟩, rfl, attempt_eq⟩
  | fails _ | failsInside _ _ _ => cases succeeds
  | @proceeds nesting execution _ _ _ _ _ ih =>
      obtain ⟨front, last, rfl, done⟩ := ih succeeds
      exact ⟨⟨nesting, execution⟩ :: front, last, rfl, done⟩
  | @returns nesting _ execution _ _ _ inner _ _ _ _ _ _ _ _ ih =>
      obtain ⟨front, last, rfl, done⟩ := ih succeeds
      exact ⟨⟨nesting, execution⟩ :: (inner ++ front), last, by simp, done⟩

/-- A run that fails has met an attempt that fails. -/
theorem Run.exists_fails {nesting : Nesting} {moments : List (Moment W)} {outcome : Outcome W Unit}
    (run : Run session nesting execution moments outcome) {error : RuntimeError}
    (failed : outcome.1 = .error error) :
    ∃ moment ∈ moments, ∃ after,
      attempt session moment.execution = .settled (.error error, after) := by
  induction run with
  | ends _ => cases failed
  | fails attempt_eq =>
      cases failed
      exact ⟨_, List.mem_singleton_self _, _, attempt_eq⟩
  | proceeds _ _ ih =>
      obtain ⟨moment, member, found⟩ := ih failed
      exact ⟨moment, List.mem_cons_of_mem _ member, found⟩
  | returns _ _ _ _ _ laterIh =>
      obtain ⟨moment, member, found⟩ := laterIh failed
      exact ⟨moment, List.mem_cons_of_mem _ (List.mem_append_right _ member), found⟩
  | failsInside attempt_eq _ goOn_eq ih =>
      rcases goOn_cases attempt_eq goOn_eq with ⟨_, _, proceeds, _⟩ | ⟨_, inside, same, _⟩
      · contradiction
      · cases failed
        cases same
        obtain ⟨moment, member, found⟩ := ih inside
        exact ⟨moment, List.mem_cons_of_mem _ member, found⟩

/-- What one attempt of a run brings about, and everything later keeps, holds at the end. -/
theorem Run.kept_from {Kept : Execution W → Prop} (keeps : Keeps session Kept)
    {nesting : Nesting} {moments : List (Moment W)} {outcome : Outcome W Unit}
    (run : Run session nesting execution moments outcome) {moment : Moment W}
    (member : moment ∈ moments) {settled : Outcome W Flow}
    (attempt_eq : attempt session moment.execution = .settled settled)
    (brought : Kept settled.2) : Kept outcome.2 := by
  induction run with
  | ends here =>
      cases List.mem_singleton.1 member
      cases here.symm.trans attempt_eq
      exact brought
  | fails here =>
      cases List.mem_singleton.1 member
      cases here.symm.trans attempt_eq
      exact brought
  | proceeds here later ih =>
      rcases List.mem_cons.1 member with rfl | among
      · cases here.symm.trans attempt_eq
        exact (later.kept keeps brought).2
      · exact ih among
  | returns here nested goOn_eq later innerIh laterIh =>
      rcases List.mem_cons.1 member with rfl | among
      · cases here.symm.trans attempt_eq
      · rcases List.mem_append.1 among with inside | behind
        · have middle := keeps.goOn here (innerIh inside)
          rw [goOn_eq] at middle
          exact (later.kept keeps middle).2
        · exact laterIh behind
  | failsInside here nested goOn_eq ih =>
      rcases List.mem_cons.1 member with rfl | among
      · cases here.symm.trans attempt_eq
      · have finish := keeps.goOn here (ih among)
        rw [goOn_eq] at finish
        exact finish

end Execution

end ActorScript
