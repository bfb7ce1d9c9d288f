import ActorScript.Proofs.Instruction
import ActorScript.Proofs.Machine.Stop

/-!
# Brace runs that end together

A brace run that ends with the cursor on an `enda`, `ends`, `endevent` or `break` takes the runs
around it along: the enclosing brace runs read the same instruction one after the other, and so
does the run in which the outermost of them has been opened.  Only steps that run out on the way
stop the frame instead.  Behind a `rightBrace` or an `endSwitch` the enclosing run just goes on.
-/

namespace ActorScript.Execution

variable {W : Type} [Host W] {session : Session} {execution inside : Execution W}
  {instruction : Instruction}
  {ending : Ending} {rereads : Nat}

/-! ## Nests of brace runs -/

/-- A run has opened brace runs one in another, and the innermost of them has ended.  Listed are
the number of brace runs around the innermost one, which have not ended, the moments so far, and
the execution at the end of the innermost one. -/
inductive Braced (session : Session) :
    Nesting → Execution W → Nat → List (Moment W) → Execution W → Prop
  | innermost {nesting : Nesting} {execution start inside : Execution W}
      {goOn : Outcome W Unit → Outcome W Flow} {moments : List (Moment W)}
      (attempt_eq : attempt session execution = .nested .block start goOn)
      (run : Run session .block start moments (.ok (), inside)) :
      Braced session nesting execution 0 (⟨nesting, execution⟩ :: moments) inside
  | opens {nesting : Nesting} {execution start inside : Execution W}
      {goOn : Outcome W Unit → Outcome W Flow} {levels : Nat} {before : List (Moment W)}
      (attempt_eq : attempt session execution = .nested .block start goOn)
      (within : Braced session .block start levels before inside) :
      Braced session nesting execution (levels + 1) (⟨nesting, execution⟩ :: before) inside
  | proceeds {nesting : Nesting} {execution middle inside : Execution W} {levels : Nat}
      {before : List (Moment W)}
      (attempt_eq : attempt session execution = .settled (.ok .proceed, middle))
      (later : Braced session nesting middle levels before inside) :
      Braced session nesting execution levels (⟨nesting, execution⟩ :: before) inside
  | returns {nesting kind : Nesting} {execution start middle inside : Execution W}
      {goOn : Outcome W Unit → Outcome W Flow} {levels : Nat} {inner before : List (Moment W)}
      {result : Outcome W Unit}
      (attempt_eq : attempt session execution = .nested kind start goOn)
      (nested : Run session kind start inner result)
      (goOn_eq : goOn result = (.ok .proceed, middle))
      (later : Braced session nesting middle levels before inside) :
      Braced session nesting execution levels (⟨nesting, execution⟩ :: (inner ++ before)) inside

/-- Behind a brace run the enclosing one goes on where it has ended. -/
theorem goOn_of_block {start after : Execution W} {goOn : Outcome W Unit → Outcome W Flow}
    (attempt_eq : attempt session execution = .nested .block start goOn) :
    goOn (.ok (), after) = (.ok .proceed, after.leave) := by
  obtain ⟨instruction, offset, onward, _, enters, _, _, rfl⟩ := enters_of_nested attempt_eq
  cases enters
  rfl

/-! ## Reading an ending again -/

/-- An `enda`, `ends`, `endevent` or `break` ends the current run with the cursor on itself. -/
theorem attempt_of_finish (found : execution.attempted? session = some instruction)
    (finishes : instruction.opcode = .finish ending) :
    attempt session execution =
      .settled (.ok .done, execution.countStep.moveTo execution.frame.cursor) := by
  have offset_eq := (Instruction.decode_eq_ok (attempted?_eq_some_iff.1 found).2).1
  rw [attempt_of_attempted? found, ← offset_eq]
  simp only [execute, finishes]
  rfl

/-- The machine is the same, and the frame stands at the same offset. -/
structure Rests (inside execution : Execution W) : Prop where
  machine : execution.toMachine = inside.toMachine
  cursor : execution.frame.cursor = inside.frame.cursor

/-- The current run ends here, with nothing changed and the cursor where it has been. -/
structure Rereads (session : Session) (inside execution : Execution W) : Prop
    extends Rests inside execution where
  done : ∃ after, attempt session execution = .settled (.ok .done, after) ∧ Rests inside after

/-- The ending has been read again, as often as stated: the frame goes on and has counted it, or
its steps have run out on one of the attempts. -/
structure Lingers (session : Session) (inside : Execution W) (rereads : Nat)
    (execution : Execution W) : Prop extends Rests inside execution where
  ending :
    execution.frame.termination = .running ∧
        execution.frame.steps = inside.frame.steps + rereads ∨
      execution.frame.termination = .deleted ∧ ∃ spent < rereads,
        execution.frame.steps = inside.frame.steps + spent ∧
          session.config.isExhausted execution.frame.steps = true

omit [Host W] in
theorem Lingers.leave (lingers : Lingers session inside rereads execution) :
    Lingers session inside rereads execution.leave :=
  ⟨⟨lingers.machine, lingers.cursor⟩, lingers.ending⟩

section Ending

variable (decoded :
    Instruction.decode session.program.code inside.frame.cursor = .ok instruction)
  (finishes : instruction.opcode = .finish ending)
include decoded finishes

/-- An ending that is read again ends the current run as well.  Without steps left it is not
read, and the frame is stopped; a stopped frame ends every run. -/
theorem Lingers.exists_done (lingers : Lingers session inside rereads execution) :
    ∃ after, attempt session execution = .settled (.ok .done, after) ∧
      Lingers session inside (rereads + 1) after := by
  rcases lingers.ending with ⟨running, steps_eq⟩ | ⟨deleted, spent, fewer, stopped⟩
  · cases ready : execution.isReady session with
    | true =>
        have here : Instruction.decode session.program.code execution.frame.cursor =
            .ok instruction := by
          rw [lingers.cursor]
          exact decoded
        have found := attempted?_eq_some_iff.2 ⟨ready, here⟩
        exact ⟨execution.countStep.moveTo execution.frame.cursor, attempt_of_finish found finishes,
          ⟨lingers.machine, lingers.cursor⟩, Or.inl ⟨running, congrArg (· + 1) steps_eq⟩⟩
    | false =>
        have exhausted : session.config.isExhausted execution.frame.steps = true := by
          simpa [isReady, Frame.isRunning_iff.2 running] using ready
        have frame_eq := frame_requestDelete_of_running running
        refine ⟨execution.requestDelete, attempt_of_not_isReady ready,
          ⟨lingers.machine, ?_⟩, Or.inr ⟨termination_requestDelete running, rereads, ?_⟩⟩
        · rw [frame_eq]
          exact lingers.cursor
        · rw [frame_eq]
          exact ⟨Nat.lt_succ_self rereads, steps_eq, exhausted⟩
  · have halted : execution.frame.termination ≠ .running := by simp [deleted]
    exact ⟨execution, attempt_of_stopped halted, lingers.toRests,
      Or.inr ⟨deleted, spent, Nat.lt_succ_of_lt fewer, stopped⟩⟩

/-- The ending closes a brace run, and with it the run that has opened it. -/
theorem Lingers.exists_run {nesting : Nesting} {start final : Execution W}
    {goOn : Outcome W Unit → Outcome W Flow} {moments : List (Moment W)}
    (lingers : Lingers session inside rereads final)
    (attempt_eq : attempt session execution = .nested .block start goOn)
    (run : Run session .block start moments (.ok (), final)) :
    ∃ after, Run session nesting execution
        (⟨nesting, execution⟩ :: (moments ++ [⟨nesting, final.leave⟩])) (.ok (), after) ∧
      Rereads session inside final.leave ∧ Lingers session inside (rereads + 1) after := by
  obtain ⟨after, done, still⟩ := lingers.leave.exists_done decoded finishes
  have again : Rereads session inside final.leave :=
    ⟨lingers.leave.toRests, after, done, still.toRests⟩
  exact ⟨after, .returns attempt_eq run (goOn_of_block attempt_eq) (.ends done), again, still⟩

/-- The runs around the innermost brace run end one after the other, each by reading the ending
again. -/
theorem Braced.exists_run {nesting : Nesting} {levels : Nat} {before : List (Moment W)}
    (running : inside.frame.termination = .running)
    (braced : Braced session nesting execution levels before inside) :
    ∃ later final, Run session nesting execution (before ++ later) (.ok (), final) ∧
      later.map Moment.nesting = List.replicate levels .block ++ [nesting] ∧
      (∀ moment ∈ later, Rereads session inside moment.execution) ∧
      Lingers session inside (levels + 1) final := by
  induction braced with
  | @innermost nesting execution start inside goOn moments attempt_eq run =>
      have unread : Lingers session inside 0 inside := ⟨⟨rfl, rfl⟩, Or.inl ⟨running, rfl⟩⟩
      obtain ⟨final, closed, again, lingers⟩ :=
        unread.exists_run decoded finishes attempt_eq run
      exact ⟨[⟨nesting, inside.leave⟩], final, closed, rfl, List.forall_mem_singleton.2 again,
        lingers⟩
  | @opens nesting execution start inside goOn levels before attempt_eq _ ih =>
      -- The brace run ends by its own reading of the ending, and so does the run around it.
      obtain ⟨later, final, run, nestings, reread, lingers⟩ := ih decoded running
      obtain ⟨after, closed, again, still⟩ := lingers.exists_run decoded finishes attempt_eq run
      refine ⟨later ++ [⟨nesting, final.leave⟩], after, ?_, ?_, ?_, still⟩
      · simpa using closed
      · rw [List.map_append, nestings, List.replicate_succ']
        rfl
      · exact List.forall_mem_append.2 ⟨reread, List.forall_mem_singleton.2 again⟩
  | proceeds attempt_eq _ ih =>
      obtain ⟨later, final, run, rest⟩ := ih decoded running
      exact ⟨later, final, .proceeds attempt_eq run, rest⟩
  | @returns nesting _ execution _ _ _ _ _ inner before _ attempt_eq nested goOn_eq _ ih =>
      obtain ⟨later, final, run, rest⟩ := ih decoded running
      have whole := Run.returns attempt_eq nested goOn_eq run
      exact ⟨later, final, by simpa using whole, rest⟩

end Ending

/-! ## Behind a closing brace -/

/-- A `rightBrace` and an `endSwitch` are single words. -/
theorem next_eq_of_ends {offset : Nat}
    (decoded : Instruction.decode session.program.code offset = .ok instruction)
    (ends : instruction.opcode = .rightBrace ∨ instruction.opcode = .endSwitch) :
    instruction.next = offset + 1 := by
  have offset_eq := (Instruction.decode_eq_ok decoded).1
  have size_eq : instruction.operands.size = 0 := by
    rcases ends with opcode_eq | opcode_eq
    all_goals
      rw [Instruction.size_operands decoded (by simp [opcode_eq]), opcode_eq]
      rfl
  simp only [Instruction.next, Instruction.length]
  omega

/-- A `rightBrace` and an `endSwitch` end the current run with the cursor behind them. -/
theorem attempt_of_ends (found : execution.attempted? session = some instruction)
    (ends : instruction.opcode = .rightBrace ∨ instruction.opcode = .endSwitch) :
    attempt session execution =
      .settled (.ok .done, execution.countStep.moveTo (execution.frame.cursor + 1)) := by
  have next_eq := next_eq_of_ends (attempted?_eq_some_iff.1 found).2 ends
  rw [attempt_of_attempted? found, next_eq]
  rcases ends with opcode_eq | opcode_eq <;> simp only [execute, opcode_eq]

/-- A run that meets a `rightBrace` or an `endSwitch` as its last moment ends right behind it. -/
theorem Run.eq_of_ends {nesting : Nesting} {front : List (Moment W)} {last : Moment W}
    (run : Run session nesting execution (front ++ [last]) (.ok (), inside))
    (found : last.execution.attempted? session = some instruction)
    (ends : instruction.opcode = .rightBrace ∨ instruction.opcode = .endSwitch) :
    inside = last.execution.countStep.moveTo (last.execution.frame.cursor + 1) := by
  obtain ⟨_, _, split, done⟩ := run.exists_last rfl
  obtain ⟨_, last_eq⟩ := List.append_inj' split rfl
  cases last_eq
  cases (attempt_of_ends found ends).symm.trans done
  rfl

/-- When the innermost of some brace runs has ended with the frame going on and the cursor on an
`enda`, `ends`, `endevent` or `break`, the brace runs around it and the run in which they have
been opened end as well, with nothing changed and the cursor still on that instruction.  Each of
them reads it again; only if the steps run out on one of these attempts, the frame ends as one
whose entity is to be deleted.  Whoever has started the outermost run, such as a state call or a
`switch`, goes on.  When a brace run has ended by a `rightBrace` or an `endSwitch`, the enclosing
run goes on with the word right behind it, with nothing changed. -/
theorem braces_end_together (session : Session) (nesting : Nesting) (execution : Execution W) :
    (∀ levels before inside instruction ending,
      Braced session nesting execution levels before inside →
      inside.frame.termination = .running →
      Instruction.decode session.program.code inside.frame.cursor = .ok instruction →
      instruction.opcode = .finish ending →
      ∃ later final, Run session nesting execution (before ++ later) (.ok (), final) ∧
        later.map Moment.nesting = List.replicate levels .block ++ [nesting] ∧
        (∀ moment ∈ later, Rereads session inside moment.execution) ∧
        Lingers session inside (levels + 1) final ∧
        (∀ moments outcome, Run session nesting execution moments outcome →
          moments = before ++ later ∧ outcome = (.ok (), final)) ∧
        (session.config.maxSteps ≠ 0 ∨ final.frame.steps ≤ session.config.stepLimit →
          execution.runBlock session = (.ok (), final)) ∧
        ∀ caller goOn, attempt session caller = .nested nesting execution goOn →
          ∃ cursor, StepsTo session caller (.ok .proceed, final.leave.moveTo cursor)) ∧
    ∀ before kind opening start goOn front last inside instruction,
      Reaches session nesting execution before ⟨kind, opening⟩ →
      attempt session opening = .nested .block start goOn →
      Run session .block start (front ++ [last]) (.ok (), inside) →
      last.execution.attempted? session = some instruction →
      instruction.opcode = .rightBrace ∨ instruction.opcode = .endSwitch →
      inside.leave.frame.cursor = last.execution.frame.cursor + 1 ∧
        inside.leave.toMachine = last.execution.toMachine ∧
        inside.leave.frame.termination = .running ∧
        StepsTo session opening (.ok .proceed, inside.leave) ∧
        Reaches session nesting execution (before ++ ⟨kind, opening⟩ :: (front ++ [last]))
          ⟨kind, inside.leave⟩ := by
  constructor
  · intro levels before inside instruction ending braced running decoded finishes
    obtain ⟨later, final, run, nestings, reread, lingers⟩ :=
      braced.exists_run decoded finishes running
    refine ⟨later, final, run, nestings, reread, lingers,
      fun _ _ other => other.unique run, run.runBlock_eq, ?_⟩
    intro caller goOn attempt_eq
    obtain ⟨cursor, goOn_eq⟩ := (goOn_of_nested attempt_eq).1 final
    exact ⟨cursor, run.stepsTo attempt_eq goOn_eq⟩
  · intro before kind opening start goOn front last inside instruction reaches attempt_eq run
      found ends
    have inside_eq := run.eq_of_ends found ends
    have goOn_eq : goOn (.ok (), inside) = (.ok .proceed, inside.leave) :=
      goOn_of_block attempt_eq
    have going : last.execution.frame.termination = .running := isRunning_of_attempted? found
    refine ⟨?_, ?_, ?_, run.stepsTo attempt_eq goOn_eq, ?_⟩
    · rw [inside_eq]
      rfl
    · rw [inside_eq]
      rfl
    · rw [inside_eq]
      exact going
    · have behind : Reaches session kind opening (⟨kind, opening⟩ :: (front ++ [last] ++ []))
          ⟨kind, inside.leave⟩ := .returns attempt_eq run goOn_eq .here
      rw [List.append_nil] at behind
      exact reaches.trans behind

/-- Three brace runs, one in another: the innermost is closed, the next one breaks out. -/
def breaking : Program where
  code := #[1, 1, 1, 2, 0x0A]

/-- Behind the closing brace the second brace run of `breaking` goes on; its `break` ends the
first one and the frame as well, with one step for each. -/
theorem braces_end_breaking :
    let session : Session := { program := breaking, config := { maxSteps := 8 } }
    let execution : Execution World := ⟨Machine.new session (World.new 1 0), { cursor := 0 }⟩
    let outer := (execution.countStep.moveTo 1).enter 1
    let middle := (outer.countStep.moveTo 2).enter 2
    let closed := ((middle.countStep.moveTo 3).enter 3).countStep.moveTo 4
    (∃ before, Reaches session .frame execution before ⟨.block, closed.leave⟩) ∧
      ∃ final, Terminates session execution (.ok (), final) ∧ final.frame.cursor = 4 ∧
        final.frame.termination = .running ∧ final.frame.steps = 7 := by
  intro session execution outer middle closed
  let inside := (closed.leave.countStep.moveTo 5).moveTo 4
  have first : attempt session execution = .nested .block outer _ := rfl
  have second : attempt session outer = .nested .block middle _ := rfl
  have third : attempt session middle =
    .nested .block ((middle.countStep.moveTo 3).enter 3) _ := rfl
  have closes : attempt session ((middle.countStep.moveTo 3).enter 3) =
    .settled (.ok .done, closed) := rfl
  have breaks : attempt session closed.leave = .settled (.ok .done, inside) := rfl
  have innermost : Run session .block _ ([] ++ [⟨.block, _⟩]) (.ok (), closed) := .ends closes
  have run : Run session .block middle _ (.ok (), inside) :=
    .returns third innermost (goOn_of_block third) (.ends breaks)
  have braced : Braced session .frame execution 1 _ inside := .opens first (.innermost second run)
  have reaches : Reaches session .frame execution _ ⟨.block, middle⟩ :=
    .inside first (.inside second .here)
  obtain ⟨unwinds, goes_on⟩ := braces_end_together session .frame execution
  obtain ⟨_, _, _, _, behind⟩ :=
    goes_on _ _ _ _ _ _ _ _ ⟨.rightBrace, 3, #[]⟩ reaches third innermost rfl (Or.inl rfl)
  obtain ⟨_, final, whole, _, _, lingers, _⟩ :=
    unwinds _ _ _ ⟨.finish .breakOut, 4, #[]⟩ _ braced rfl rfl rfl
  refine ⟨⟨_, behind⟩, final, (terminates_iff_exists_run .frame).2 ⟨_, whole⟩, lingers.cursor, ?_⟩
  have counted : inside.frame.steps = 5 := rfl
  rcases lingers.ending with ⟨running, steps_eq⟩ | ⟨_, spent, fewer, steps_eq, exhausted⟩
  · exact ⟨running, steps_eq⟩
  · have used_up : 8 ≤ final.frame.steps := (Config.isExhausted_iff.1 exhausted).2
    omega

end ActorScript.Execution
