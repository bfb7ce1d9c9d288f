import ActorScript.Proofs.Instruction
import ActorScript.Proofs.Machine.Stop

/-!
# Conditionals and their bodies

A conditional stands in front of the body for the case that its test holds.  Its target names the
word behind that body, where an `else` marker may stand in front of the body for the other case:

    conditional F;  THEN;  F: else E;  ELSE;  E:

Two mechanisms work together.  Where the test fails, the conditional itself steps over a marker at
its target, and where the first body runs into the marker, the marker jumps over the second one.
So the machine carries out one of the bodies, and goes on at the same offset in both cases.
-/

namespace ActorScript

/-- An opcode that neither directs the run nor tests a condition nor stops the frame by itself. -/
def Opcode.isStraight : Opcode → Bool
  | .elseMarker | .killIt | .branch _ => false
  | opcode => opcode.isPlain

theorem Opcode.isPlain_of_isStraight {opcode : Opcode} (straight : opcode.isStraight = true) :
    opcode.isPlain = true := by
  cases opcode <;> simp_all [isStraight, isPlain]

/-- Straight instructions that stand one behind the other from one offset to another. -/
inductive Body (code : Array Word) : Nat → List Instruction → Nat → Prop
  | empty {offset : Nat} : Body code offset [] offset
  | instruction {offset finish : Nat} {first : Instruction} {rest : List Instruction}
      (decoded : Instruction.decode code offset = .ok first)
      (straight : first.opcode.isStraight = true) (later : Body code first.next rest finish) :
      Body code offset (first :: rest) finish

/-- The layout of a conditional: the instructions to carry out where its test holds, those where
it fails, and the offset behind both. -/
inductive Layout (code : Array Word) (conditional : Instruction) :
    List Instruction → List Instruction → Nat → Prop
  | withElse {middle finish : Nat} {body other : List Instruction} {marker : Instruction}
      {goal : Word} (first : Body code conditional.next body middle)
      (target : conditional.falseTarget = some goal) (named : goal.offset? = some middle)
      (marked : Instruction.decode code middle = .ok marker)
      (opcode_eq : marker.opcode = .elseMarker) (second : Body code marker.next other finish)
      (exit : (marker.operand 0).offset? = some finish) :
      Layout code conditional (body ++ [marker]) other finish
  | withoutElse {finish : Nat} {body : List Instruction} {goal : Word}
      (first : Body code conditional.next body finish)
      (target : conditional.falseTarget = some goal) (named : goal.offset? = some finish)
      (unmarked : code[finish]? ≠ some Opcode.elseMarker.word) :
      Layout code conditional body [] finish

namespace Execution

variable {W : Type} [Host W] {session : Session} {nesting : Nesting} {execution : Execution W}
  {instruction : Instruction}

/-! ## Undisturbed runs -/

/-- The machine carries out exactly the instructions listed, one after the other. -/
def Follows (session : Session) (nesting : Nesting) (execution : Execution W)
    (path : List Instruction) (after : Execution W) : Prop :=
  ∃ moments, Reaches session nesting execution moments ⟨nesting, after⟩ ∧
    moments.map (fun moment => moment.execution.attempted? session) = path.map some

theorem Follows.nothing : Follows session nesting execution [] execution :=
  ⟨[], .here, rfl⟩

theorem Follows.next {middle after : Execution W} {path : List Instruction}
    (found : execution.attempted? session = some instruction)
    (attempt_eq : attempt session execution = .settled (.ok .proceed, middle))
    (follows : Follows session nesting middle path after) :
    Follows session nesting execution (instruction :: path) after := by
  obtain ⟨moments, reaches, path_eq⟩ := follows
  refine ⟨⟨nesting, execution⟩ :: moments, .proceeds attempt_eq reaches, ?_⟩
  rw [List.map_cons, List.map_cons, found, path_eq]

theorem Follows.trans {middle after : Execution W} {path more : List Instruction}
    (first : Follows session nesting execution path middle)
    (second : Follows session nesting middle more after) :
    Follows session nesting execution (path ++ more) after := by
  obtain ⟨before, reached, path_eq⟩ := first
  obtain ⟨behind, further, more_eq⟩ := second
  refine ⟨before ++ behind, reached.trans further, ?_⟩
  rw [List.map_append, List.map_append, path_eq, more_eq]

/-- Among the next attempts, none that carries out an instruction fails or stops the frame. -/
def Undisturbed (session : Session) : Nat → Execution W → Prop
  | 0, _ => True
  | count + 1, execution => ∀ instruction result after,
      execution.attempted? session = some instruction →
      attempt session execution = .settled (result, after) →
      (∃ flow, result = .ok flow) ∧ after.frame.termination = .running ∧
        Undisturbed session count after

theorem Undisturbed.of_attempt {count : Nat} {after : Execution W}
    (attempt_eq : attempt session execution = .settled (.ok .proceed, after))
    (running : after.frame.termination = .running) (undisturbed : Undisturbed session count after) :
    Undisturbed session (count + 1) execution := by
  intro _ result reached _ settled
  rw [attempt_eq] at settled
  cases settled
  exact ⟨⟨_, rfl⟩, running, undisturbed⟩

/-- The frame goes on, has the steps for a number of instructions, and none of them fails or
stops it. -/
structure Poised (session : Session) (count : Nat) (execution : Execution W) : Prop where
  running : execution.frame.termination = .running
  affords : session.config.maxSteps = 0 ∨
    execution.frame.steps + count ≤ session.config.maxSteps
  undisturbed : Undisturbed session count execution

theorem Poised.attempted? {count : Nat} (poised : Poised session (count + 1) execution)
    (decoded : Instruction.decode session.program.code execution.frame.cursor = .ok instruction) :
    execution.attempted? session = some instruction := by
  have within : session.config.isExhausted execution.frame.steps = false := by
    rw [← Bool.not_eq_true, Config.isExhausted_iff]
    rintro ⟨limited, spent⟩
    rcases poised.affords with unlimited | enough
    · exact limited unlimited
    · omega
  rw [attempted?_eq_some_iff, isReady, Frame.isRunning_iff.2 poised.running, within]
  exact ⟨rfl, decoded⟩

/-- A plain instruction is carried out at once. -/
theorem execute_of_isPlain (plain : instruction.opcode.isPlain = true) :
    execute session instruction execution =
      .settled (resume (perform session instruction execution)) := by
  unfold execute
  cases opcode_eq : instruction.opcode <;> simp_all [Opcode.isPlain]

/-- A poised frame carries out the plain instruction at its cursor and is poised for the rest. -/
theorem Poised.step {count : Nat} (poised : Poised session (count + 1) execution)
    (nesting : Nesting)
    (decoded : Instruction.decode session.program.code execution.frame.cursor = .ok instruction)
    (plain : instruction.opcode.isPlain = true) :
    ∃ after, Follows session nesting execution [instruction] after ∧
      perform session instruction (execution.countStep.moveTo instruction.next) =
        (.ok (), after) ∧ Poised session count after := by
  have found := poised.attempted? decoded
  have attempt_eq := attempt_of_attempted? found
  rw [execute_of_isPlain plain] at attempt_eq
  cases performed :
      perform session instruction (execution.countStep.moveTo instruction.next) with
  | mk result after =>
      rw [performed] at attempt_eq
      cases result with
      | error error =>
          obtain ⟨⟨_, succeeds⟩, _⟩ := poised.undisturbed _ _ _ found attempt_eq
          cases succeeds
      | ok _ =>
          obtain ⟨_, running, undisturbed⟩ := poised.undisturbed _ _ _ found attempt_eq
          refine ⟨after, .next found attempt_eq .nothing, rfl, running, ?_, undisturbed⟩
          apply poised.affords.imp_right
          intro enough
          have taken : after.frame.steps = execution.frame.steps + 1 := by
            rw [← charge_of_proceeds attempt_eq]
            exact steps_of_settled attempt_eq
          omega

/-! ## Where instructions go on -/

/-- A straight instruction goes on behind itself. -/
theorem cursor_of_isStraight (straight : instruction.opcode.isStraight = true)
    (running : execution.frame.termination = .running) :
    (perform session instruction execution).2.frame.cursor = execution.frame.cursor := by
  refine @kept_perform W _ session instruction execution running
    (fun after => after.frame.cursor = execution.frame.cursor) ?_ rfl
  rintro before after change kept
  cases change with
  | jump leads =>
      cases leads with
      | marker opcode_eq _ | target opcode_eq _ _ | alternative opcode_eq _ _ =>
          simp [opcode_eq, Opcode.isStraight] at straight
  | adjust change _ => exact (congrArg Frame.cursor (frame_modifyActor before change)).trans kept
  | cause _ effect =>
      rw [frame_cause]
      split
      · exact kept
      · rw [Frame.stop_eq]
        exact kept
  | stop =>
      rw [frame_requestDelete, Frame.stop_eq]
      exact kept
  | _ => exact kept

theorem offset?_of_targetOf {target : Word} {offset : Nat}
    (target_eq : targetOf session instruction target = .ok offset) :
    target.offset? = some offset := by
  unfold targetOf at target_eq
  split at target_eq
  · rename_i inside
    cases target_eq
    exact (inStream?_eq_some_iff.1 inside).1
  · contradiction

/-- An `else` marker goes on at the offset that it names. -/
theorem cursor_of_marker {after : Execution W} {finish : Nat}
    (opcode_eq : instruction.opcode = .elseMarker)
    (exit : (instruction.operand 0).offset? = some finish)
    (performed : perform session instruction execution = (.ok (), after)) :
    after.frame.cursor = finish := by
  simp only [perform, opcode_eq, jump] at performed
  split at performed
  · rename_i offset target_eq
    cases performed
    exact Option.some.inj ((offset?_of_targetOf target_eq).symm.trans exit)
  · cases performed

omit [Host W] in
theorem rollTest_congr {other : Execution W} (same : execution.random = other.random)
    (chance : Word) : (execution.rollTest chance).1 = (other.rollTest chance).1 := by
  simp only [rollTest, same]

/-- A test reads nothing that belongs to the cursor or the step counter. -/
theorem test_countStep_moveTo (condition : Test) (cursor : Nat) :
    (test instruction condition (execution.countStep.moveTo cursor)).1 =
      (test instruction condition execution).1 := by
  have same : (execution.countStep.moveTo cursor).random = execution.random := rfl
  cases condition
  case random =>
    simp only [test]
    exact rollTest_congr same _
  all_goals rfl

/-- Where its test holds, a conditional goes on behind itself, and otherwise at its target or
behind the marker there. -/
theorem cursor_of_conditional {condition : Test} {after : Execution W} {goal : Word} {middle : Nat}
    (opcode_eq : instruction.opcode = .branch condition)
    (target : instruction.falseTarget = some goal) (named : goal.offset? = some middle)
    (performed : perform session instruction execution = (.ok (), after)) :
    after.frame.cursor =
      if (test instruction condition execution).1 then execution.frame.cursor
      else if elseMarkerAt session.program.code goal then middle + 2 else middle := by
  simp only [perform, opcode_eq, performBranch] at performed
  have untouched := @frame_test W _ instruction condition execution
  cases tested_eq : test instruction condition execution with
  | mk holds tested =>
      rw [tested_eq] at performed untouched
      cases holds with
      | true =>
          cases performed
          rw [frame_armSleep, untouched]
          rfl
      | false =>
          simp only [branch, target, Option.getD_some, Bool.false_eq_true, if_false] at performed
          cases target_eq : targetOf session instruction goal with
          | error error =>
              rw [target_eq] at performed
              cases performed
          | ok offset =>
              rw [target_eq] at performed
              cases performed
              cases (offset?_of_targetOf target_eq).symm.trans named
              rw [frame_armSleep]
              rfl

theorem elseMarkerAt_iff {code : Array Word} {goal : Word} {middle : Nat}
    (named : goal.offset? = some middle) :
    elseMarkerAt code goal = true ↔ code[middle]? = some Opcode.elseMarker.word := by
  simp [elseMarkerAt, named]

/-- An `else` marker takes up two words. -/
theorem next_of_marker {code : Array Word} {middle : Nat} {marker : Instruction}
    (marked : Instruction.decode code middle = .ok marker)
    (opcode_eq : marker.opcode = .elseMarker) : marker.next = middle + 2 := by
  have offset_eq := (Instruction.decode_eq_ok marked).1
  have size_eq := Instruction.size_operands marked (by simp [opcode_eq])
  rw [opcode_eq] at size_eq
  simp only [Opcode.operands, List.length_singleton] at size_eq
  simp only [Instruction.next, Instruction.length]
  omega

/-! ## Bodies and layouts -/

/-- A poised frame carries out a body and stands behind it. -/
theorem follows_body {offset finish count : Nat} {body : List Instruction}
    (laid : Body session.program.code offset body finish)
    (poised : Poised session (body.length + count) execution)
    (cursor_eq : execution.frame.cursor = offset) (nesting : Nesting) :
    ∃ after, Follows session nesting execution body after ∧ after.frame.cursor = finish ∧
      Poised session count after := by
  induction laid generalizing execution with
  | empty =>
      rw [List.length_nil, Nat.zero_add] at poised
      exact ⟨execution, .nothing, cursor_eq, poised⟩
  | @instruction offset finish first rest decoded straight _ ih =>
      rw [← cursor_eq] at decoded
      rw [List.length_cons, Nat.add_right_comm] at poised
      obtain ⟨middle, followed, performed, ready⟩ :=
        poised.step nesting decoded (Opcode.isPlain_of_isStraight straight)
      have behind := @cursor_of_isStraight W _ session
        (execution.countStep.moveTo first.next) first straight poised.running
      rw [performed] at behind
      obtain ⟨after, later, finished⟩ := ih ready behind
      exact ⟨after, followed.trans later, finished⟩

/-- A frame that starts at a conditional, in one of the two layouts, and has the steps for it
carries out exactly the conditional and the body that the test chooses, the first one with the
`else` marker behind it, and goes on at the offset behind both bodies, unless one of these
instructions fails or stops the frame. -/
theorem follows_chosen_body {conditional : Instruction} {condition : Test}
    {whenTrue whenFalse : List Instruction} {finish : Nat}
    (running : execution.frame.termination = .running)
    (decoded : Instruction.decode session.program.code execution.frame.cursor = .ok conditional)
    (opcode_eq : conditional.opcode = .branch condition)
    (layout : Layout session.program.code conditional whenTrue whenFalse finish)
    (nesting : Nesting) :
    let path := conditional ::
      (if (test conditional condition execution).1 then whenTrue else whenFalse)
    (session.config.maxSteps = 0 ∨
      execution.frame.steps + path.length ≤ session.config.maxSteps) →
    Undisturbed session path.length execution →
    ∃ after, Follows session nesting execution path after ∧ after.frame.cursor = finish ∧
      after.frame.termination = .running := by
  intro path affords undisturbed
  have poised : Poised session path.length execution := ⟨running, affords, undisturbed⟩
  obtain ⟨branched, begun, performed, ready⟩ :=
    poised.step nesting decoded (by simp [opcode_eq, Opcode.isPlain])
  have behind {goal : Word} {middle : Nat} (target : conditional.falseTarget = some goal)
      (named : goal.offset? = some middle) :=
    cursor_of_conditional opcode_eq target named performed
  simp only [test_countStep_moveTo] at behind
  -- What is left is the chosen body.
  suffices chosen : ∃ after, Follows session nesting branched
      (if (test conditional condition execution).1 then whenTrue else whenFalse) after ∧
      after.frame.cursor = finish ∧ after.frame.termination = .running by
    obtain ⟨after, followed, finished⟩ := chosen
    exact ⟨after, begun.trans followed, finished⟩
  cases holds : (test conditional condition execution).1 with
  | true =>
      simp only [holds, if_true] at ready behind ⊢
      cases layout with
      | @withElse middle _ body _ marker _ first target named marked marker_eq _ exit =>
          rw [List.length_append] at ready
          obtain ⟨reached, followed, at_marker, still⟩ :=
            follows_body first ready (behind target named) nesting
          rw [← at_marker] at marked
          obtain ⟨after, jumped, jump_eq, last⟩ :=
            still.step nesting marked (by simp [marker_eq, Opcode.isPlain])
          exact ⟨after, followed.trans jumped, cursor_of_marker marker_eq exit jump_eq,
            last.running⟩
      | withoutElse first target named _ =>
          have ready : Poised session (whenTrue.length + 0) branched := ready
          obtain ⟨after, followed, finished, last⟩ :=
            follows_body first ready (behind target named) nesting
          exact ⟨after, followed, finished, last.running⟩
  | false =>
      simp only [holds, Bool.false_eq_true, if_false] at ready behind ⊢
      cases layout with
      | withElse _ target named marked marker_eq second _ =>
          have word_eq := (Instruction.decode_eq_ok_iff.1 marked).2.1
          rw [marker_eq] at word_eq
          have ready : Poised session (whenFalse.length + 0) branched := ready
          have stepped := behind target named
          rw [if_pos ((elseMarkerAt_iff named).2 word_eq),
            ← next_of_marker marked marker_eq] at stepped
          obtain ⟨after, followed, finished, last⟩ :=
            follows_body second ready stepped nesting
          exact ⟨after, followed, finished, last.running⟩
      | withoutElse _ target named unmarked =>
          have stepped := behind target named
          rw [if_neg (mt (elseMarkerAt_iff named).1 unmarked)] at stepped
          exact ⟨branched, .nothing, stepped, ready.running⟩

/-- A conditional with a body for either case: both set the variable, and the first plays a sound
as well. -/
def forked : Program where
  code := #[0x18, 0, 3, 9, 0x40, 0, 3, 0x73, 3, 3, 14, 0x40, 0, 5, 7]
  vars := #[{ name := "mood", scope := .global, initial := 3 }]

/-- Where the variable has the value that is asked for, the first body and the marker are carried
out. -/
theorem follows_forked :
    let session : Session := { program := forked, config := { maxSteps := 8 } }
    let execution : Execution World := ⟨Machine.new session (World.new 1 0), { cursor := 0 }⟩
    ∃ after, Follows session .frame execution
        [⟨.branch (.compare .equal .literal), 0, #[0, 3, 9]⟩, ⟨.assign .set .literal, 4, #[0, 3]⟩,
          ⟨.sound, 7, #[3]⟩, ⟨.elseMarker, 9, #[14]⟩] after ∧
      after.frame.cursor = 14 ∧ after.frame.termination = .running := by
  intro session execution
  let conditional : Instruction := ⟨.branch (.compare .equal .literal), 0, #[0, 3, 9]⟩
  let setting : Instruction := ⟨.assign .set .literal, 4, #[0, 3]⟩
  let playing : Instruction := ⟨.sound, 7, #[3]⟩
  let marker : Instruction := ⟨.elseMarker, 9, #[14]⟩
  let other : Instruction := ⟨.assign .set .literal, 11, #[0, 5]⟩
  have first : Body session.program.code conditional.next [setting, playing] 9 :=
    .instruction rfl rfl (.instruction rfl rfl .empty)
  have second : Body session.program.code marker.next [other] 14 := .instruction rfl rfl .empty
  have layout : Layout session.program.code conditional [setting, playing, marker] [other] 14 :=
    .withElse first rfl rfl rfl rfl second rfl
  have value_eq : execution.var 0 = 3 := Std.HashMap.getD_empty
  have holds : (test conditional (.compare .equal .literal) execution).1 = true := by
    simp only [test, related, decide_eq_true_eq]
    exact value_eq
  let entered := execution.countStep.moveTo 4
  let set := (entered.countStep.moveTo 7).setVar 0 3
  let played := (set.countStep.moveTo 9).cause (.sound 3)
  have tests : attempt session execution = .settled (.ok .proceed, entered) := by
    have found : execution.attempted? session = some conditional := rfl
    have tested : test conditional (.compare .equal .literal) entered = (true, entered) :=
      Prod.ext ((test_countStep_moveTo _ _).trans holds) rfl
    rw [attempt_of_attempted? found, execute_of_isPlain rfl]
    change Attempt.settled (resume (performBranch session conditional (.compare .equal .literal)
      entered)) = _
    rw [performBranch, tested]
    rfl
  have sets : attempt session entered = .settled (.ok .proceed, set) := rfl
  have plays : attempt session set = .settled (.ok .proceed, played) := rfl
  have jumps : attempt session played =
    .settled (.ok .proceed, played.countStep.moveTo 14) := rfl
  have undisturbed : Undisturbed session 4 execution :=
    .of_attempt tests rfl (.of_attempt sets rfl (.of_attempt plays rfl (.of_attempt jumps rfl
      trivial)))
  have follows :=
    @follows_chosen_body World _ session execution conditional _ _ _ _ rfl rfl rfl layout .frame
  simp only [holds, if_true] at follows
  exact follows (Or.inr (by decide)) undisturbed

end Execution

end ActorScript
