import ActorScript.Proofs.Machine.Depth

/-!
# Behind state calls and switches

A state call goes on behind itself and a `switch` at its end, wherever and however the nested run
has ended.  The offset is fixed before the nested run starts: `Exits` says which one it is, and
`Routes` where the nested run starts.
-/

namespace ActorScript.Execution

variable {W : Type} [Host W] {session : Session} {execution : Execution W}
  {instruction : Instruction}

/-! ## The choice of a `switch` -/

/-- A `switch` chooses a target for a value: that of the first case with the value or, where no
case has it, the default, unless that is zero. -/
inductive Chooses (instruction : Instruction) (value : Word) : Word → Prop
  | listed {front back : List (Word × Word)} {goal : Word}
      (cases_eq : instruction.cases = front ++ (value, goal) :: back)
      (first : ∀ choice ∈ front, choice.1 ≠ value) : Chooses instruction value goal
  | fallback (unlisted : ∀ choice ∈ instruction.cases, choice.1 ≠ value)
      (present : instruction.operand 3 ≠ 0) :
      Chooses instruction value (instruction.operand 3)

theorem find?_cases_eq_none_iff {value : Word} :
    (instruction.cases.find? fun choice => choice.1 == value) = none ↔
      ∀ choice ∈ instruction.cases, choice.1 ≠ value := by
  simp [List.find?_eq_none]

theorem chosen_eq_some_iff {value goal : Word} :
    chosen instruction value = some goal ↔ Chooses instruction value goal := by
  unfold chosen
  constructor
  · intro chosen_eq
    split at chosen_eq
    · rename_i choice found
      cases chosen_eq
      obtain ⟨same, front, back, cases_eq, first⟩ := List.find?_eq_some_iff_append.1 found
      have value_eq : choice.1 = value := by simpa using same
      subst value_eq
      exact .listed cases_eq fun other member => by simpa using first other member
    · rename_i absent
      dsimp only at chosen_eq
      split at chosen_eq
      · contradiction
      · rename_i present
        cases chosen_eq
        exact .fallback (find?_cases_eq_none_iff.1 absent) present
  · intro chooses
    cases chooses with
    | @listed front back _ cases_eq first =>
        have found : (instruction.cases.find? fun choice => choice.1 == value) =
            some (value, goal) := by
          refine List.find?_eq_some_iff_append.2 ⟨by simp, front, back, cases_eq, ?_⟩
          intro other member
          simpa using first other member
        rw [found]
    | fallback unlisted present => simp [find?_cases_eq_none_iff.2 unlisted, present]

theorem chosen_eq_none {value : Word}
    (unlisted : ∀ choice ∈ instruction.cases, choice.1 ≠ value)
    (absent : instruction.operand 3 = 0) : chosen instruction value = none := by
  unfold chosen
  simp [find?_cases_eq_none_iff.2 unlisted, absent]

/-! ## Starts and exits -/

/-- A state call or a `switch` starts a nested run, of the given kind, at an offset, when its
variable has the given value. -/
inductive Routes (session : Session) (instruction : Instruction) (value : Word) :
    Nesting → Nat → Prop
  | call {start : Nat} (opcode_eq : instruction.opcode = .callState)
      (target : targetOf session instruction (instruction.operand 0) = .ok start) :
      Routes session instruction value .call start
  | branch {finish start : Nat} {goal : Word} (opcode_eq : instruction.opcode = .switch)
      (exit : targetOf session instruction (instruction.operand 1) = .ok finish)
      (chooses : Chooses instruction value goal)
      (target : targetOf session instruction goal = .ok start) :
      Routes session instruction value .branch start

/-- The offset at which a state call or a `switch` goes on. -/
inductive Exits (session : Session) (instruction : Instruction) : Nat → Prop
  | call (opcode_eq : instruction.opcode = .callState) :
      Exits session instruction instruction.next
  | switch {finish : Nat} (opcode_eq : instruction.opcode = .switch)
      (exit : targetOf session instruction (instruction.operand 1) = .ok finish) :
      Exits session instruction finish

omit [Host W] in
/-- Whatever a state call or a `switch` starts, it goes on at its exit. -/
theorem Enters.exits {kind : Nesting} {start : Nat} {onward : Outcome W Unit → Outcome W Flow}
    (enters : Enters session instruction execution kind start onward)
    (moves : instruction.opcode ≠ .leftBrace)
    (behind : execution.frame.cursor = instruction.next) :
    ∃ finish, Exits session instruction finish ∧ onward = resumeAt finish := by
  cases enters with
  | block opcode_eq => exact absurd opcode_eq moves
  | call opcode_eq _ =>
      rw [behind]
      exact ⟨_, .call opcode_eq, rfl⟩
  | branch opcode_eq exit _ _ => exact ⟨_, .switch opcode_eq exit, rfl⟩

omit [Host W] in
theorem exists_enters_iff {kind : Nesting} {start : Nat}
    (moves : instruction.opcode ≠ .leftBrace) :
    (∃ onward, Enters session instruction execution kind start onward) ↔
      Routes session instruction (execution.var (instruction.operand 0)) kind start := by
  constructor
  · rintro ⟨onward, enters⟩
    cases enters with
    | block opcode_eq => exact absurd opcode_eq moves
    | call opcode_eq target => exact .call opcode_eq target
    | branch opcode_eq exit chosen_eq target =>
        exact .branch opcode_eq exit (chosen_eq_some_iff.1 chosen_eq) target
  · intro routes
    cases routes with
    | call opcode_eq target => exact ⟨_, .call opcode_eq target⟩
    | branch opcode_eq exit chooses target =>
        exact ⟨_, .branch opcode_eq exit (chosen_eq_some_iff.2 chooses) target⟩

/-! ## Steps -/

section Attempted

variable (found : execution.attempted? session = some instruction)
  (delegates : instruction.opcode = .callState ∨ instruction.opcode = .switch)
include found delegates

omit found in
theorem ne_leftBrace_of_delegates : instruction.opcode ≠ .leftBrace := by
  rcases delegates with opcode_eq | opcode_eq <;> simp [opcode_eq]

/-- What a state call or a `switch` settles at once is a failure, or it goes on at its exit. -/
theorem exits_of_settled {flow : Flow} {after : Execution W}
    (attempt_eq : attempt session execution = .settled (.ok flow, after)) :
    flow = .proceed ∧ Exits session instruction after.frame.cursor := by
  rw [attempt_of_attempted? found] at attempt_eq
  generalize behind_eq : execution.countStep.moveTo instruction.next = behind at attempt_eq
  have possible := executed session instruction behind
  generalize attempt_eq' : execute session instruction behind = attempted at possible attempt_eq
  cases possible with
  | enters enters =>
      have cursor_eq : behind.frame.cursor = instruction.next := by rw [← behind_eq]; rfl
      obtain ⟨finish, exits, rfl⟩ :=
        enters.exits (ne_leftBrace_of_delegates delegates) cursor_eq
      cases invoke_eq_settled attempt_eq
      exact ⟨rfl, exits⟩
  | astray _ _ => cases attempt_eq
  | skips opcode_eq exit _ =>
      cases attempt_eq
      exact ⟨rfl, .switch opcode_eq exit⟩
  | ends opcode_eq | finishes opcode_eq =>
      rcases delegates with kind_eq | kind_eq <;> simp [kind_eq] at opcode_eq
  | performs plain =>
      rcases delegates with kind_eq | kind_eq <;> simp [kind_eq, Opcode.isPlain] at plain

/-- A step at a state call or a `switch` that succeeds goes on at its exit. -/
theorem exits_of_stepsTo {flow : Flow} {after : Execution W}
    (steps : StepsTo session execution (.ok flow, after)) :
    flow = .proceed ∧ Exits session instruction after.frame.cursor := by
  rcases stepsTo_iff.1 steps with
    settled | ⟨kind, start, goOn, ⟨result, inside⟩, attempt_eq, _, goOn_eq⟩
  · exact exits_of_settled found delegates settled
  · obtain ⟨same, offset, onward, found', enters, _, _, rfl⟩ := enters_of_nested attempt_eq
    cases found.symm.trans found'
    obtain ⟨finish, exits, rfl⟩ := enters.exits (ne_leftBrace_of_delegates delegates) rfl
    cases result with
    | error error => cases goOn_eq
    | ok _ =>
        cases goOn_eq
        exact ⟨rfl, exits⟩

/-- A nested run is started exactly below the greatest depth and where the targets allow it. -/
theorem exists_nested_iff {kind : Nesting} {start : Execution W} :
    (∃ goOn, attempt session execution = .nested kind start goOn) ↔
      execution.frame.depth < session.config.maxCallDepth ∧ ∃ offset,
        Routes session instruction (execution.var (instruction.operand 0)) kind offset ∧
          start = (execution.countStep.moveTo instruction.next).enter offset := by
  have routes_iff {offset : Nat} := @exists_enters_iff W session
    (execution.countStep.moveTo instruction.next) instruction kind offset
    (ne_leftBrace_of_delegates delegates)
  constructor
  · rintro ⟨goOn, attempt_eq⟩
    obtain ⟨same, offset, onward, found', enters, shallow, rfl, _⟩ := enters_of_nested attempt_eq
    cases found.symm.trans found'
    exact ⟨shallow, offset, routes_iff.1 ⟨onward, enters⟩, rfl⟩
  · rintro ⟨shallow, offset, routes, rfl⟩
    obtain ⟨onward, enters⟩ := routes_iff.2 routes
    rw [attempt_of_attempted? found, execute_of_enters enters]
    exact exists_invoke_eq_nested shallow

/-- A step at a state call or a `switch` that succeeds goes on, at the depth at which it has
started, behind the state call or at the end of the `switch`, however the nested run has ended.
A nested run is started below the greatest depth, at the target of the state call or at the one
that the `switch` chooses for its variable, with nothing changed but the frame.  A `switch` without
a case for the value and without a default only moves the cursor. -/
theorem returns_behind :
    (∀ flow after, StepsTo session execution (.ok flow, after) →
      flow = .proceed ∧ after.frame.depth = execution.frame.depth ∧
      (instruction.opcode = .callState → after.frame.cursor = instruction.next) ∧
      (instruction.opcode = .switch →
        targetOf session instruction (instruction.operand 1) = .ok after.frame.cursor)) ∧
    (∀ kind start, (∃ goOn, attempt session execution = .nested kind start goOn) ↔
      execution.frame.depth < session.config.maxCallDepth ∧ ∃ offset,
        Routes session instruction (execution.var (instruction.operand 0)) kind offset ∧
          start = (execution.countStep.moveTo instruction.next).enter offset) ∧
    (instruction.opcode = .switch →
      (∀ choice ∈ instruction.cases, choice.1 ≠ execution.var (instruction.operand 0)) →
      instruction.operand 3 = 0 →
      ∀ finish, targetOf session instruction (instruction.operand 1) = .ok finish →
        step session execution = (.ok .proceed, execution.countStep.moveTo finish)) := by
  refine ⟨?_, fun _ _ => exists_nested_iff found delegates, ?_⟩
  · intro flow after steps
    obtain ⟨proceeds, exits⟩ := exits_of_stepsTo found delegates steps
    refine ⟨proceeds, steps.depth_eq, ?_⟩
    generalize after.frame.cursor = finish at exits
    constructor
    · intro calls
      cases exits with
      | call _ => rfl
      | switch opcode_eq _ => cases calls.symm.trans opcode_eq
    · intro switches
      cases exits with
      | call opcode_eq => cases switches.symm.trans opcode_eq
      | switch _ exit => exact exit
  · intro switches unlisted absent finish exit
    have none_chosen : chosen instruction
        ((execution.countStep.moveTo instruction.next).var (instruction.operand 0)) = none :=
      chosen_eq_none unlisted absent
    apply step_of_settled
    rw [attempt_of_attempted? found]
    simp only [execute, switches, switch, exit, none_chosen]
    rfl

end Attempted

/-- A `switch` with two cases for the same value; the first of them breaks out of a block. -/
def repeating : Program where
  code := #[5, 0, 11, 3, 0, 1, 12, 3, 13, 3, 15, 7, 0x0C, 1, 0x0A, 6]
  vars := #[{ name := "mood", scope := .global, initial := 3 }]

/-- The first case for the value is run, and the frame goes on at the end of the `switch`. -/
theorem returns_repeating :
    let session : Session := { program := repeating, config := { maxSteps := 8 } }
    let execution : Execution World := ⟨Machine.new session (World.new 1 0), { cursor := 0 }⟩
    (∃ goOn, attempt session execution =
      .nested .branch ((execution.countStep.moveTo 11).enter 13) goOn) ∧
    ∃ after, StepsTo session execution (.ok .proceed, after) ∧
      after.frame.depth = 0 ∧ after.frame.cursor = 11 := by
  intro session execution
  let instruction : Instruction := ⟨.switch, 0, #[0, 11, 3, 0, 1, 12, 3, 13, 3, 15]⟩
  have found : execution.attempted? session = some instruction := rfl
  have value_eq : execution.var (instruction.operand 0) = 3 := Std.HashMap.getD_empty
  have chooses : Chooses instruction (execution.var (instruction.operand 0)) 13 := by
    rw [value_eq]
    exact @Chooses.listed instruction 3 [(1, 12)] [(3, 15)] 13 (by decide)
      (List.forall_mem_singleton.2 (by decide))
  have exit : targetOf session instruction (instruction.operand 1) = .ok 11 := rfl
  have target : targetOf session instruction 13 = .ok 13 := rfl
  have routes : Routes session instruction (execution.var (instruction.operand 0)) .branch 13 :=
    .branch rfl exit chooses target
  obtain ⟨returns, nests, _⟩ := returns_behind found (Or.inr rfl)
  obtain ⟨goOn, attempt_eq⟩ := (nests _ _).2 ⟨by decide, 13, routes, rfl⟩
  let inside := (((execution.countStep.moveTo 11).enter 13).countStep.moveTo 14).enter 14
  let broken := (inside.countStep.moveTo 15).moveTo 14
  have opens : attempt session ((execution.countStep.moveTo 11).enter 13) =
    .nested .block inside _ := rfl
  have breaks : attempt session inside = .settled (.ok .done, broken) := rfl
  have again : attempt session broken.leave =
    .settled (.ok .done, (broken.leave.countStep.moveTo 15).moveTo 14) := rfl
  have nested : Run session .branch _ _ _ := .returns opens (.ends breaks) rfl (.ends again)
  obtain ⟨cursor, goOn_eq⟩ :=
    (goOn_of_nested attempt_eq).1 ((broken.leave.countStep.moveTo 15).moveTo 14)
  have steps := nested.stepsTo attempt_eq goOn_eq
  obtain ⟨_, depth_eq, _, exits⟩ := returns _ _ steps
  have cursor_eq := (Except.ok.inj (exit.symm.trans (exits rfl))).symm
  exact ⟨⟨goOn, attempt_eq⟩, _, steps, depth_eq, cursor_eq⟩

end ActorScript.Execution
