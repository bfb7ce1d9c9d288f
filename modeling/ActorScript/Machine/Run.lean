import ActorScript.Machine.Perform

/-!
# Running instructions

The machine runs instructions until the current run ends.  A brace block, a
state call and a branch of a `switch` are nested runs.  A `rightBrace` and an
`endSwitch` end the innermost run only, because the cursor stands behind them.
The other endings leave the cursor on themselves, so that every enclosing brace
run reads them again and ends as well, until a state call, a `switch` or
whoever started the frame moves the cursor.

`attempt` says what the instruction at the cursor comes to: either it is settled
at once, or a nested run has to end first.  `runFor` runs at most to the given
height of instructions and nested runs and answers none when that is too low.
Every instruction counts against the step limit of the frame, so the limit
bounds the height.
-/

namespace ActorScript

/-- Whether the current run goes on. -/
inductive Flow where
  | proceed
  /-- The run has met its end, or the frame has been stopped. -/
  | done
deriving DecidableEq, Repr

/-- How a run was started. -/
inductive Nesting where
  /-- By whoever started the frame. -/
  | frame
  /-- By a `leftBrace`. -/
  | block
  /-- By a state call. -/
  | call
  /-- By a `switch`. -/
  | branch
deriving DecidableEq, Repr

/-- No further instruction may be attempted.  A limit of zero is none. -/
def Config.isExhausted (config : Config) (steps : Nat) : Bool :=
  config.maxSteps ≠ 0 && config.maxSteps ≤ steps

/-- The number of instructions that a frame can attempt.  Without a limit it
is larger than the number that any frame gets to. -/
def Config.stepLimit (config : Config) : Nat :=
  if config.maxSteps = 0 then 0x10000000000000000 else config.maxSteps

namespace Execution

variable {W : Type} [Host W]

/-- What an attempt at an instruction comes to. -/
inductive Attempt (W : Type) where
  | settled (outcome : Outcome W Flow)
  /-- A nested run has to end first, and `goOn` tells what its outcome leads to. -/
  | nested (nesting : Nesting) (start : Execution W) (goOn : Outcome W Unit → Outcome W Flow)

/-- Goes on where a nested run has ended. -/
def resume : Outcome W Unit → Outcome W Flow
  | (.ok (), execution) => (.ok .proceed, execution)
  | (.error error, execution) => (.error error, execution)

/-- Goes on at an offset, wherever a nested run has ended. -/
def resumeAt (cursor : Nat) : Outcome W Unit → Outcome W Flow
  | (.ok (), execution) => (.ok .proceed, execution.moveTo cursor)
  | (.error error, execution) => (.error error, execution)

/-- Starts a nested run at an offset.  At the greatest depth the frame is
stopped instead. -/
def invoke (session : Session) (nesting : Nesting) (start : Nat)
    (goOn : Outcome W Unit → Outcome W Flow) (execution : Execution W) : Attempt W :=
  if session.config.maxCallDepth ≤ execution.frame.depth then
    .settled (goOn (.ok (), execution.requestDelete))
  else
    .nested nesting (execution.enter start) fun (result, after) => goOn (result, after.leave)

/-- The target of the first case with a value, or the default unless that is zero. -/
def chosen (instruction : Instruction) (value : Word) : Option Word :=
  match instruction.cases.find? fun choice => choice.1 == value with
  | some choice => some choice.2
  | none =>
      let fallback := instruction.operand 3
      if fallback = 0 then none else some fallback

/-- A state call. -/
def callState (session : Session) (instruction : Instruction) (execution : Execution W) :
    Attempt W :=
  match targetOf session instruction (instruction.operand 0) with
  | .error error => .settled (.error error, execution)
  | .ok start => invoke session .call start (resumeAt execution.frame.cursor) execution

/-- A multi-way branch. -/
def switch (session : Session) (instruction : Instruction) (execution : Execution W) :
    Attempt W :=
  match targetOf session instruction (instruction.operand 1) with
  | .error error => .settled (.error error, execution)
  | .ok finish =>
      match chosen instruction (execution.var (instruction.operand 0)) with
      | none => .settled (.ok .proceed, execution.moveTo finish)
      | some target =>
          match targetOf session instruction target with
          | .error error => .settled (.error error, execution)
          | .ok start => invoke session .branch start (resumeAt finish) execution

/-- Carries out an instruction, behind which the cursor stands already. -/
def execute (session : Session) (instruction : Instruction) (execution : Execution W) :
    Attempt W :=
  match instruction.opcode with
  | .leftBrace => invoke session .block execution.frame.cursor resume execution
  | .rightBrace | .endSwitch => .settled (.ok .done, execution)
  | .finish _ => .settled (.ok .done, execution.moveTo instruction.offset)
  | .callState => callState session instruction execution
  | .switch => switch session instruction execution
  | _ => .settled (resume (perform session instruction execution))

/-- Reads the instruction at the cursor and carries it out.  An unknown opcode
stops the frame. -/
def fetch (session : Session) (execution : Execution W) : Attempt W :=
  let code := session.program.code
  let cursor := execution.frame.cursor
  if code.size ≤ cursor then
    .settled (.error (.cursorOutOfRange cursor code.size), execution)
  else
    match Instruction.decode code cursor with
    | .error (.unknownOpcode _ _) => .settled (.ok .done, execution.requestDelete)
    | .error fault => .settled (.error (.unreadable fault), execution)
    | .ok instruction => execute session instruction (execution.moveTo instruction.next)

/-- Attempts the instruction at the cursor, unless the frame has been stopped
or has used up its steps. -/
def attempt (session : Session) (execution : Execution W) : Attempt W :=
  if !execution.frame.isRunning then .settled (.ok .done, execution)
  else if session.config.isExhausted execution.frame.steps then
    .settled (.ok .done, execution.requestDelete)
  else fetch session execution.countStep

/-- A run inside another one: none when it takes too long. -/
abbrev Nested (W : Type) := Execution W → Option (Outcome W Unit)

/-- One step of a run, with the given way to run what is nested in it. -/
def stepWith (session : Session) (nested : Nested W) (execution : Execution W) :
    Option (Outcome W Flow) :=
  match attempt session execution with
  | .settled outcome => some outcome
  | .nested _ start goOn => (nested start).map goOn

/-- Steps until the current run ends, to at most the given height. -/
def runFor (session : Session) : (height : Nat) → Execution W → Option (Outcome W Unit)
  | 0, _ => none
  | height + 1, execution =>
      match stepWith session (runFor session height) execution with
      | none => none
      | some (.ok .proceed, after) => runFor session height after
      | some (.ok .done, after) => some (.ok (), after)
      | some (.error error, after) => some (.error error, after)

/-- The machine, given the time, runs a block to an outcome. -/
def Terminates (session : Session) (execution : Execution W) (outcome : Outcome W Unit) : Prop :=
  ∃ height, runFor session height execution = some outcome

/-- The machine, given the time, takes a step to an outcome. -/
def StepsTo (session : Session) (execution : Execution W) (outcome : Outcome W Flow) : Prop :=
  ∃ height, stepWith session (runFor session height) execution = some outcome

/-- A height that no run exceeds under a limit: one more than the steps left. -/
def height (session : Session) (execution : Execution W) : Nat :=
  session.config.stepLimit - execution.frame.steps + 1

/-- Steps until the current run ends.  Under a limit this is always the outcome
to which the run terminates.  Without one a run may be endless, and then the
answer is made up: what is said of such sessions is said of `Terminates`. -/
def runBlock (session : Session) (execution : Execution W) : Outcome W Unit :=
  (runFor session (execution.height session) execution).getD (.ok (), execution.requestDelete)

/-- One step of a run, with an answer that is made up when a nested run is
endless: the outcome of a step in every session is that of `StepsTo`. -/
def step (session : Session) (execution : Execution W) : Outcome W Flow :=
  (stepWith session (runFor session (execution.height session)) execution).getD
    (.ok .done, execution.requestDelete)

end Execution

end ActorScript
