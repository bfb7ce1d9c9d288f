import ActorScript.Proofs.Machine.Cascade
import ActorScript.Proofs.Machine.Depth

/-!
# Where runs end

A run takes steps of its own, one behind the other; a run that is nested in it belongs to the step
at the instruction that has started it.  `Walks` lists the executions at which a run has taken its
own steps: they are its moments at the depth at which it has started.  When a run succeeds, its last
own step has carried out a terminal, and the cursor stands on it or right behind it.  Otherwise that
step has carried out nothing, and the frame has been stopped.
-/

namespace ActorScript

/-- The moment has the given depth. -/
def Moment.isAt (depth : Nat) (moment : Moment W) : Bool :=
  moment.execution.frame.depth = depth

/-- Where the cursor stands when an instruction has ended a run: on an `enda`, `ends`, `endevent`
or `break`, and right behind a `rightBrace` or an `endSwitch`. -/
inductive Instruction.Closes (code : Array Word) (instruction : Instruction) (cursor : Nat) :
    Prop
  | on {ending : Ending} (opcode_eq : instruction.opcode = .finish ending)
      (cursor_eq : cursor = instruction.offset)
      (word_eq : code[cursor]? = some (Opcode.finish ending).word)
  | behind (ends : instruction.opcode = .rightBrace ∨ instruction.opcode = .endSwitch)
      (cursor_eq : cursor = instruction.offset + 1)
      (word_eq : code[cursor - 1]? = some instruction.opcode.word)

namespace Execution

variable {W : Type} [Host W] {session : Session} {execution : Execution W}
  {instruction : Instruction}

/-! ## The last step -/

/-- A terminal that is carried out ends the current run, and nothing happens but that it is counted
and the cursor moves. -/
theorem attempt_of_isTerminal (found : execution.attempted? session = some instruction)
    (terminal : instruction.opcode.isTerminal = true) :
    ∃ cursor, instruction.Closes session.program.code cursor ∧
      attempt session execution = .settled (.ok .done, execution.countStep.moveTo cursor) := by
  obtain ⟨offset_eq, word_eq, _⟩ :=
    Instruction.decode_eq_ok_iff.1 (attempted?_eq_some_iff.1 found).2
  cases opcode_eq : instruction.opcode with
  | finish ending =>
      rw [opcode_eq] at word_eq
      exact ⟨_, .on opcode_eq offset_eq.symm word_eq, attempt_of_finish found opcode_eq⟩
  | rightBrace | endSwitch =>
      have ends : instruction.opcode = .rightBrace ∨ instruction.opcode = .endSwitch := by
        simp [opcode_eq]
      exact ⟨_, .behind ends (by rw [offset_eq]) word_eq, attempt_of_ends found ends⟩
  | _ => simp [opcode_eq, Opcode.isTerminal] at terminal

/-- Of the instructions that are carried out only a terminal ends a run. -/
theorem isTerminal_of_done {after : Execution W}
    (found : execution.attempted? session = some instruction)
    (attempt_eq : attempt session execution = .settled (.ok .done, after)) :
    instruction.opcode.isTerminal = true := by
  rw [attempt_of_attempted? found] at attempt_eq
  generalize execution.countStep.moveTo instruction.next = behind at attempt_eq
  have possible := executed session instruction behind
  generalize execute session instruction behind = attempted at possible attempt_eq
  cases possible with
  | enters enters =>
      have outcome_eq := invoke_eq_settled attempt_eq
      obtain ⟨cursor, onward_eq⟩ := enters.onward.1 behind.requestDelete
      rw [onward_eq] at outcome_eq
      cases outcome_eq
  | astray | skips => cases attempt_eq
  | ends opcode_eq => rcases opcode_eq with closes | closes <;> simp [closes, Opcode.isTerminal]
  | finishes opcode_eq => simp [opcode_eq, Opcode.isTerminal]
  | performs _ =>
      have ended := congrArg Prod.fst (Attempt.settled.inj attempt_eq)
      exact absurd ended (resume_ne_done _)

/-- Where no instruction is carried out, a run ends only with its frame stopped. -/
theorem stopped_of_done {after : Execution W} (absent : execution.attempted? session = none)
    (attempt_eq : attempt session execution = .settled (.ok .done, after)) :
    after.frame.termination ≠ .running := by
  have possible := attempted session execution
  generalize attempt session execution = attempt at possible attempt_eq
  cases possible with
  | executes found => cases absent.symm.trans found
  | idle _ =>
      cases attempt_eq
      exact requestDelete_ne_running execution
  | unknown _ =>
      cases attempt_eq
      exact requestDelete_ne_running execution.countStep
  | unreadable _ _ _ => cases attempt_eq

/-- The last step of a run carries out a terminal, unless the frame has been stopped. -/
theorem closes_of_done {after : Execution W}
    (attempt_eq : attempt session execution = .settled (.ok .done, after)) :
    after.frame.termination ≠ .running ∨
      ∃ instruction, execution.attempted? session = some instruction ∧
        instruction.Closes session.program.code after.frame.cursor ∧
        after.frame.termination = .running := by
  cases found : execution.attempted? session with
  | none => exact Or.inl (stopped_of_done found attempt_eq)
  | some instruction =>
      obtain ⟨cursor, closes, settled⟩ :=
        attempt_of_isTerminal found (isTerminal_of_done found attempt_eq)
      have running := isRunning_of_attempted? found
      cases settled.symm.trans attempt_eq
      exact Or.inr ⟨instruction, rfl, closes, running⟩

/-! ## The steps of a run -/

/-- A run has gone on from one execution to another by steps of its own.  Listed are the
executions at which it has taken them. -/
inductive Walks (session : Session) : Execution W → List (Execution W) → Execution W → Prop
  | here {execution : Execution W} : Walks session execution [] execution
  | steps {execution middle last : Execution W} {rest : List (Execution W)}
      (steps : StepsTo session execution (.ok .proceed, middle))
      (later : Walks session middle rest last) :
      Walks session execution (execution :: rest) last

/-- No moment of a run is less deep than its start. -/
theorem Run.le_depth {nesting : Nesting} {moments : List (Moment W)} {outcome : Outcome W Unit}
    (run : Run session nesting execution moments outcome) :
    ∀ moment ∈ moments, execution.frame.depth ≤ moment.execution.frame.depth := by
  induction run with
  | ends _ | fails _ => exact List.forall_mem_singleton.2 (Nat.le_refl _)
  | proceeds attempt_eq _ ih =>
      rw [depth_of_settled attempt_eq] at ih
      exact List.forall_mem_cons.2 ⟨Nat.le_refl _, ih⟩
  | returns attempt_eq nested goOn_eq _ innerIh laterIh =>
      have same := (nested.stepsTo attempt_eq goOn_eq).depth_eq
      rw [same] at laterIh
      rw [(depth_of_nested attempt_eq).1] at innerIh
      refine List.forall_mem_cons.2 ⟨Nat.le_refl _, List.forall_mem_append.2 ⟨?_, laterIh⟩⟩
      exact fun moment member => Nat.le_of_succ_le (innerIh moment member)
  | failsInside attempt_eq _ _ ih =>
      rw [(depth_of_nested attempt_eq).1] at ih
      refine List.forall_mem_cons.2 ⟨Nat.le_refl _, ?_⟩
      exact fun moment member => Nat.le_of_succ_le (ih moment member)

/-- A nested run is nowhere at the depth of the run around it. -/
theorem Run.filter_isAt_of_nested {kind : Nesting} {start : Execution W}
    {goOn : Outcome W Unit → Outcome W Flow} {inner : List (Moment W)} {result : Outcome W Unit}
    (nested : Run session kind start inner result)
    (attempt_eq : attempt session execution = .nested kind start goOn) :
    inner.filter (Moment.isAt execution.frame.depth) = [] := by
  have deeper := (depth_of_nested attempt_eq).1
  rw [List.filter_eq_nil_iff]
  intro moment member
  have below := nested.le_depth moment member
  simp only [Moment.isAt, decide_eq_true_eq]
  omega

/-- A run that succeeds consists of its own steps, up to the last one. -/
theorem Run.exists_walks {nesting : Nesting} {moments : List (Moment W)} {outcome : Outcome W Unit}
    (run : Run session nesting execution moments outcome) (succeeds : outcome.1 = .ok ()) :
    ∃ own last, Walks session execution own last ∧
      (moments.filter (Moment.isAt execution.frame.depth)).map Moment.execution =
        own ++ [last] ∧
      attempt session last = .settled (.ok .done, outcome.2) := by
  induction run with
  | @ends nesting execution after attempt_eq =>
      exact ⟨[], execution, .here, by simp [Moment.isAt], attempt_eq⟩
  | fails _ | failsInside _ _ _ => cases succeeds
  | @proceeds nesting execution middle rest outcome attempt_eq _ ih =>
      obtain ⟨own, last, walks, own_eq, done⟩ := ih succeeds
      have first : StepsTo session execution (.ok .proceed, middle) :=
        stepsTo_iff.2 (Or.inl attempt_eq)
      rw [first.depth_eq] at own_eq
      exact ⟨execution :: own, last, .steps first walks, by simp [Moment.isAt, own_eq], done⟩
  | @returns nesting kind execution start middle goOn inner rest result outcome attempt_eq nested
      goOn_eq _ _ ih =>
      obtain ⟨own, last, walks, own_eq, done⟩ := ih succeeds
      have first := nested.stepsTo attempt_eq goOn_eq
      rw [first.depth_eq] at own_eq
      -- All moments of the nested run are deeper, so that they are none of the run's own.
      have skipped := nested.filter_isAt_of_nested attempt_eq
      refine ⟨execution :: own, last, .steps first walks, ?_, done⟩
      simp [skipped, own_eq, Moment.isAt]

/-- A run goes on in front with a step of its own. -/
theorem StepsTo.exists_run {middle : Execution W} {nesting : Nesting} {rest : List (Moment W)}
    {outcome : Outcome W Unit} (steps : StepsTo session execution (.ok .proceed, middle))
    (later : Run session nesting middle rest outcome) :
    ∃ moments, Run session nesting execution moments outcome := by
  rcases stepsTo_iff.1 steps with
    settled | ⟨kind, start, goOn, result, attempt_eq, terminates, goOn_eq⟩
  · exact ⟨_, .proceeds settled later⟩
  · obtain ⟨inner, nested⟩ := (terminates_iff_exists_run kind).1 terminates
    exact ⟨_, .returns attempt_eq nested goOn_eq later⟩

theorem Walks.exists_run {own : List (Execution W)} {last : Execution W} {nesting : Nesting}
    {rest : List (Moment W)} {outcome : Outcome W Unit} (walks : Walks session execution own last)
    (later : Run session nesting last rest outcome) :
    ∃ moments, Run session nesting execution moments outcome := by
  induction walks with
  | here => exact ⟨rest, later⟩
  | steps steps _ ih =>
      obtain ⟨moments, run⟩ := ih later
      exact steps.exists_run run

/-! ## The end of a run -/

/-- When a block succeeds, whatever its frame has been at the start, the frame has been stopped, or
the last own step of the block has carried out a terminal: an `enda`, `ends`, `endevent` or `break`,
on which the cursor stands, or a `rightBrace` or an `endSwitch`, right behind which it stands.
Terminals of nested runs are no steps of the block.  Conversely, a terminal that a block comes to by
its own steps ends it there, and the frame goes on. -/
theorem ends_at_terminal (session : Session) (nesting : Nesting) (execution : Execution W) :
    (∀ final, execution.runBlock session = (.ok (), final) ∨
        Terminates session execution (.ok (), final) →
      final.frame.termination ≠ .running ∨
        ∃ moments own last instruction,
          Run session nesting execution moments (.ok (), final) ∧
          Walks session execution own last ∧
          (moments.filter (Moment.isAt execution.frame.depth)).map Moment.execution =
            own ++ [last] ∧
          StepsTo session last (.ok .done, final) ∧
          last.attempted? session = some instruction ∧
          instruction.Closes session.program.code final.frame.cursor ∧
          final.frame.termination = .running) ∧
    ∀ own last instruction, Walks session execution own last →
      last.attempted? session = some instruction → instruction.opcode.isTerminal = true →
      ∃ final, Terminates session execution (.ok (), final) ∧
        StepsTo session last (.ok .done, final) ∧
        instruction.Closes session.program.code final.frame.cursor ∧
        final.frame.termination = .running := by
  constructor
  · intro final returns
    by_cases stopped : final.frame.termination = .running
    · have exists_run : ∃ moments, Run session nesting execution moments (.ok (), final) := by
        rcases returns with block | terminates
        · exact block ▸ (runBlock_cases session nesting execution).resolve_left fun cut => by
            cases cut.symm.trans block
            exact requestDelete_ne_running execution stopped
        · exact (terminates_iff_exists_run nesting).1 terminates
      obtain ⟨moments, run⟩ := exists_run
      obtain ⟨own, last, walks, own_eq, done⟩ := run.exists_walks rfl
      obtain ⟨instruction, ended⟩ := (closes_of_done done).resolve_left (absurd stopped)
      exact Or.inr ⟨moments, own, last, instruction, run, walks, own_eq,
        stepsTo_iff.2 (Or.inl done), ended⟩
    · exact Or.inl stopped
  · intro own last instruction walks found terminal
    obtain ⟨cursor, closes, done⟩ := attempt_of_isTerminal found terminal
    have ending : Run session nesting last _ (.ok (), last.countStep.moveTo cursor) := .ends done
    have running := isRunning_of_attempted? found
    exact ⟨_, (terminates_iff_exists_run nesting).2 (walks.exists_run ending),
      stepsTo_iff.2 (Or.inl done), closes, running⟩

/-- A brace run that calls a state, which breaks out of a brace run of its own. -/
def enclosing : Program where
  code := #[1, 4, 5, 2, 7, 1, 10]

/-- The `break` ends only the state.  The brace run that has called it ends at its `rightBrace`,
although an `enda` stands where the cursor is then. -/
theorem ends_enclosing :
    let session : Session := { program := enclosing, config := { maxSteps := 8 } }
    let execution : Execution World := ⟨Machine.new session (World.new 1 0), { cursor := 0 }⟩
    let inside := (execution.countStep.moveTo 1).enter 1
    ∃ final last, inside.runBlock session = (.ok (), final) ∧
      final.frame.cursor = 4 ∧ final.frame.termination = .running ∧
      Walks session inside [inside] last ∧
      last.attempted? session = some ⟨.rightBrace, 3, #[]⟩ ∧
      Instruction.Closes enclosing.code ⟨.rightBrace, 3, #[]⟩ final.frame.cursor := by
  intro session execution inside
  let called := (inside.countStep.moveTo 3).enter 5
  let deepest := (called.countStep.moveTo 6).enter 6
  let broken := (deepest.countStep.moveTo 7).moveTo 6
  let ended := (broken.leave.countStep.moveTo 7).moveTo 6
  let returned := ended.leave.moveTo 3
  have calls : attempt session inside = .nested .call called _ := rfl
  have opens : attempt session called = .nested .block deepest _ := rfl
  have breaks : attempt session deepest = .settled (.ok .done, broken) := rfl
  have again : attempt session broken.leave = .settled (.ok .done, ended) := rfl
  have closes : attempt session returned = .settled (.ok .done, returned.countStep.moveTo 4) := rfl
  have state : Run session .call called _ (.ok (), ended) :=
    .returns opens (.ends breaks) rfl (.ends again)
  have whole : Run session .block inside _ (.ok (), returned.countStep.moveTo 4) :=
    .returns calls state rfl (.ends closes)
  have read : returned.attempted? session = some ⟨.rightBrace, 3, #[]⟩ := rfl
  have steps : Walks session inside [inside] returned :=
    .steps (state.stepsTo calls rfl) .here
  obtain ⟨ends, meets⟩ := ends_at_terminal session .block inside
  obtain ⟨final, terminates, _, _, running⟩ := meets _ _ _ steps read rfl
  obtain ⟨_, run⟩ := (terminates_iff_exists_run .block).1 terminates
  have block : inside.runBlock session = (.ok (), final) := run.runBlock_eq (Or.inl (by decide))
  rcases ends final (Or.inl block) with
    stopped | ⟨_, own, last, instruction, same, walks, own_eq, _, found, closing, _⟩
  · exact absurd running stopped
  · obtain ⟨rfl, outcome_eq⟩ := same.unique whole
    cases outcome_eq
    have split : [inside] ++ [returned] = own ++ [last] := own_eq
    obtain ⟨rfl, last_eq⟩ := List.append_inj' split rfl
    cases last_eq
    cases found.symm.trans read
    exact ⟨_, returned, block, rfl, running, walks, read, closing⟩

end Execution

end ActorScript
