import ActorScript.Machine.Perform
import ActorScript.Proofs.Machine.State
import Mathlib.Logic.Relation

/-!
# The changes of single instructions

An instruction that neither starts a nested run nor ends one makes a few changes
one after the other.  `Change` lists them, with what the instruction says about
each.  What every change keeps, the instruction keeps.  `Failing` lists the
reasons why such an instruction fails.
-/

namespace ActorScript.Execution

variable {W : Type} [Host W] {session : Session} {instruction : Instruction}

/-- An offset to which a plain instruction can move the cursor. -/
inductive LeadsTo (session : Session) (instruction : Instruction) : Nat → Prop
  | marker {offset : Nat} (opcode_eq : instruction.opcode = .elseMarker)
      (target : targetOf session instruction (instruction.operand 0) = .ok offset) :
      LeadsTo session instruction offset
  | target {condition : Test} {offset : Nat} (opcode_eq : instruction.opcode = .branch condition)
      (unmarked :
        elseMarkerAt session.program.code (instruction.falseTarget.getD 0) = false)
      (target :
        targetOf session instruction (instruction.falseTarget.getD 0) = .ok offset) :
      LeadsTo session instruction offset
  | alternative {condition : Test} {offset : Nat}
      (opcode_eq : instruction.opcode = .branch condition)
      (marked : elseMarkerAt session.program.code (instruction.falseTarget.getD 0) = true)
      (target :
        targetOf session instruction (instruction.falseTarget.getD 0) = .ok offset) :
      LeadsTo session instruction (offset + 2)

/-- An action that a plain instruction can give to the entity of the frame. -/
inductive Adopts (session : Session) (instruction : Instruction) : Word → Prop
  | nothing (opcode_eq : instruction.opcode = .setAi) : Adopts session instruction 0
  | action (opcode_eq : instruction.opcode = .setAction) :
      Adopts session instruction (instruction.operand 0)
  | ai {words : Array Word} (opcode_eq : instruction.opcode = .setAi)
      (present : instruction.operand 0 ≠ 0)
      (record : recordAt session.program.code .ai (instruction.operand 0) = some words) :
      Adopts session instruction (words[0]?.getD 0)

/-- One change that a plain instruction makes. -/
inductive Change (session : Session) (instruction : Instruction) :
    Execution W → Execution W → Prop
  | jump {execution : Execution W} {offset : Nat} (leads : LeadsTo session instruction offset) :
      Change session instruction execution (execution.moveTo offset)
  | draw {execution : Execution W} (bits : UInt64) (fits : bits ≤ 63) :
      Change session instruction execution
        { execution with random := (execution.random.draw bits).2 }
  | drawDisplay {execution : Execution W} (bits : UInt64) (fits : bits ≤ 63) :
      Change session instruction execution
        { execution with displayRandom := (execution.displayRandom.draw bits).2 }
  | write {execution : Execution W} (id : Word) (address : Address) (value : Word) :
      Change session instruction execution
        { execution with registry := execution.registry.set id address value }
  | adjust {execution : Execution W} (change : ActorState → ActorState)
      (adopts : ∀ state, (change state).action = state.action ∨
        Adopts session instruction (change state).action) :
      Change session instruction execution (execution.modifyActor change)
  | read {execution : Execution W} (ref : FieldRef) (field param : Word) :
      Change session instruction execution
        { execution with world := (Host.readField execution.world ref field param).2 }
  | store {execution : Execution W} (ref : FieldRef) (field param value : Word)
      (writable : Host.access execution.world ref.target field = .readWrite) :
      Change session instruction execution
        { execution with world := Host.writeField execution.world ref field param value }
  | ask {execution : Execution W} (probe : Probe) :
      Change session instruction execution
        { execution with
          world := (Host.probe execution.world execution.frame.context probe).2 }
  | cause {execution : Execution W} (running : execution.frame.termination = .running)
      (effect : Effect) : Change session instruction execution (execution.cause effect)
  | stop {execution : Execution W} :
      Change session instruction execution execution.requestDelete

/-- The changes that a plain instruction makes, one after the other. -/
abbrev Changes (session : Session) (instruction : Instruction) :
    Execution W → Execution W → Prop :=
  Relation.ReflTransGen (Change session instruction)

/-- A reason why a plain instruction fails. -/
inductive Failing (session : Session) (instruction : Instruction) : RuntimeError → Prop
  | division : Failing session instruction (.divisionByZero instruction.offset)
  | modulo : Failing session instruction (.moduloByZero instruction.offset)
  | marker {error : RuntimeError} (opcode_eq : instruction.opcode = .elseMarker)
      (target : targetOf session instruction (instruction.operand 0) = .error error) :
      Failing session instruction error
  | target {condition : Test} {error : RuntimeError}
      (opcode_eq : instruction.opcode = .branch condition)
      (target :
        targetOf session instruction (instruction.falseTarget.getD 0) = .error error) :
      Failing session instruction error
  | record (opcode_eq : instruction.opcode = .setAi)
      (present : instruction.operand 0 ≠ 0)
      (missing : recordAt session.program.code .ai (instruction.operand 0) = none) :
      Failing session instruction (.recordOutOfRange instruction.offset (instruction.operand 0))

/-- A change touches at most the cursor and the ending of a frame. -/
theorem Change.frame_eq {before after : Execution W}
    (change : Change session instruction before after) :
    ∃ cursor termination, after.frame = { before.frame with cursor, termination } := by
  cases change with
  | jump _ => exact ⟨_, _, rfl⟩
  | adjust change _ => exact ⟨_, _, frame_modifyActor before change⟩
  | cause _ effect =>
      rw [frame_cause]
      split
      · exact ⟨_, _, rfl⟩
      · exact ⟨_, _, Frame.stop_eq _ _⟩
  | stop => exact ⟨_, _, Frame.stop_eq _ _⟩
  | _ => exact ⟨_, _, rfl⟩

/-! ## Conditions -/

/-- A test draws or asks, or it changes nothing. -/
theorem changes_test (condition : Test) (execution : Execution W) :
    Changes session instruction execution (test instruction condition execution).2 := by
  cases condition with
  | random => exact Relation.ReflTransGen.single (.draw 8 (by decide))
  | canSee | canSeeTarget | canShootTarget | hitWeapon | squished | dead | probe =>
      exact Relation.ReflTransGen.single (.ask _)
  | _ => exact Relation.ReflTransGen.refl

theorem changes_branch {condition : Test} (opcode_eq : instruction.opcode = .branch condition)
    (holds : Bool) (execution : Execution W) :
    Changes session instruction execution (branch session instruction holds execution).2 := by
  unfold branch
  split
  · exact Relation.ReflTransGen.refl
  · dsimp only
    cases target : targetOf session instruction (instruction.falseTarget.getD 0) with
    | error error => exact Relation.ReflTransGen.refl
    | ok offset =>
        apply Relation.ReflTransGen.single
        by_cases marked :
            elseMarkerAt session.program.code (instruction.falseTarget.getD 0) = true
        · simp only [marked, if_true]
          exact .jump (.alternative opcode_eq marked target)
        · have unmarked := Bool.eq_false_iff.2 marked
          simp only [unmarked, Bool.false_eq_true, if_false]
          exact .jump (.target opcode_eq unmarked target)

omit [Host W] in
theorem failing_branch {condition : Test} (opcode_eq : instruction.opcode = .branch condition)
    {holds : Bool} {execution : Execution W} {error : RuntimeError}
    (failed : (branch session instruction holds execution).1 = .error error) :
    Failing session instruction error := by
  unfold branch at failed
  split at failed
  · contradiction
  · cases target : targetOf session instruction (instruction.falseTarget.getD 0) with
    | error other =>
        simp only [target, Except.error.injEq] at failed
        subst failed
        exact .target opcode_eq target
    | ok offset => simp [target] at failed

/-- The sleep timer is all that a test of distance or sight changes on an entity. -/
theorem changes_armSleep (condition : Test) (holds : Bool) (execution : Execution W) :
    Changes session instruction execution (armSleep session condition holds execution) := by
  unfold armSleep
  split
  · split
    · refine Relation.ReflTransGen.single (.adjust _ fun state => Or.inl ?_)
      split <;> rfl
    · exact Relation.ReflTransGen.refl
  · split
    · refine Relation.ReflTransGen.single (.adjust _ fun state => Or.inl ?_)
      split <;> rfl
    · exact Relation.ReflTransGen.refl
  · split
    · exact Relation.ReflTransGen.single (.adjust _ fun state => Or.inl rfl)
    · exact Relation.ReflTransGen.refl
  · exact Relation.ReflTransGen.refl

theorem changes_performBranch {condition : Test}
    (opcode_eq : instruction.opcode = .branch condition) (execution : Execution W) :
    Changes session instruction execution
      (performBranch session instruction condition execution).2 := by
  unfold performBranch
  have tested : Changes session instruction execution
      (test instruction condition execution).2 := changes_test condition execution
  cases test_eq : test instruction condition execution with
  | mk holds afterTest =>
      rw [test_eq] at tested
      have branched : Changes session instruction afterTest
          (branch session instruction holds afterTest).2 :=
        changes_branch opcode_eq holds afterTest
      cases branch_eq : branch session instruction holds afterTest with
      | mk result afterBranch =>
          rw [branch_eq] at branched
          simp only [branch_eq]
          cases result with
          | ok _ => exact (tested.trans branched).trans (changes_armSleep _ _ _)
          | error _ => exact tested.trans branched

theorem failing_performBranch {condition : Test}
    (opcode_eq : instruction.opcode = .branch condition) {execution : Execution W}
    {error : RuntimeError}
    (failed : (performBranch session instruction condition execution).1 = .error error) :
    Failing session instruction error := by
  unfold performBranch at failed
  cases test_eq : test instruction condition execution with
  | mk holds afterTest =>
      cases branch_eq : branch session instruction holds afterTest with
      | mk result afterBranch =>
          simp only [test_eq, branch_eq] at failed
          cases result with
          | ok _ => contradiction
          | error other =>
              exact failing_branch opcode_eq ((congrArg Prod.fst branch_eq).trans failed)

/-! ## Variables -/

theorem changes_performAssign (operation : Update) (source : Source) (execution : Execution W) :
    Changes session instruction execution
      (performAssign instruction operation source execution).2 := by
  unfold performAssign
  dsimp only
  split
  · exact Relation.ReflTransGen.single (.write _ _ _)
  · exact Relation.ReflTransGen.refl

omit [Host W] in
/-- Only a division by zero has no result. -/
theorem failing_performAssign {operation : Update} {source : Source} {execution : Execution W}
    {error : RuntimeError}
    (failed : (performAssign instruction operation source execution).1 = .error error) :
    Failing session instruction error := by
  unfold performAssign at failed
  dsimp only at failed
  split at failed
  · contradiction
  · rename_i other undefined
    cases failed
    unfold updated at undefined
    split at undefined
    case h_5 =>
      split at undefined
      · cases undefined
        exact .division
      · contradiction
    case h_6 =>
      split at undefined
      · cases undefined
        exact .modulo
      · contradiction
    all_goals contradiction

theorem changes_assignRoll (id scale : Word) (execution : Execution W) :
    Changes session instruction execution (execution.assignRoll id scale) :=
  (Relation.ReflTransGen.single (.draw 15 (by decide))).tail (.write _ _ _)

theorem changes_assignDisplayRoll (id : Word) (execution : Execution W) :
    Changes session instruction execution (execution.assignDisplayRoll id) :=
  (Relation.ReflTransGen.single (.drawDisplay 15 (by decide))).tail (.write _ _ _)

theorem changes_loadActorVariable (holder id destination : Word) (execution : Execution W) :
    Changes session instruction execution
      (execution.loadActorVariable holder id destination) := by
  unfold loadActorVariable
  split
  · exact Relation.ReflTransGen.refl
  · exact Relation.ReflTransGen.single (.write _ _ _)

theorem changes_storeActorVariable (holder id source : Word) (execution : Execution W) :
    Changes session instruction execution
      (execution.storeActorVariable holder id source) := by
  unfold storeActorVariable
  split
  · exact Relation.ReflTransGen.refl
  · exact Relation.ReflTransGen.single (.write _ _ _)

/-! ## Entities and fields -/

theorem changes_performAi (opcode_eq : instruction.opcode = .setAi) (execution : Execution W) :
    Changes session instruction execution (performAi session instruction execution).2 := by
  unfold performAi
  dsimp only
  split
  · refine Relation.ReflTransGen.single (.adjust _ fun state => Or.inr ?_)
    exact .nothing opcode_eq
  · rename_i present
    split
    · exact Relation.ReflTransGen.refl
    · rename_i record
      refine Relation.ReflTransGen.single (.adjust _ fun state => Or.inr ?_)
      exact .ai opcode_eq present record

theorem failing_performAi (opcode_eq : instruction.opcode = .setAi) {execution : Execution W}
    {error : RuntimeError}
    (failed : (performAi session instruction execution).1 = .error error) :
    Failing session instruction error := by
  unfold performAi at failed
  dsimp only at failed
  split at failed
  · contradiction
  · rename_i present
    split at failed
    · rename_i missing
      cases failed
      exact .record opcode_eq present missing
    · contradiction

theorem changes_loadField (target : FieldTarget) (handle field param id : Word)
    (execution : Execution W) :
    Changes session instruction execution
      (execution.loadField target handle field param id) := by
  unfold loadField
  split
  · exact Relation.ReflTransGen.single (.write _ _ _)
  all_goals
    split
    · exact Relation.ReflTransGen.single (.write _ _ _)
    · rename_i ref _
      exact (Relation.ReflTransGen.single (.read ref field param)).tail (.write _ _ _)

/-- What an operand names is of the kind that the instruction means. -/
theorem target_of_fieldRef? {execution : Execution W} {target : FieldTarget} {handle : Word}
    {ref : FieldRef} (named : execution.fieldRef? target handle = some ref) :
    ref.target = target := by
  unfold fieldRef? at named
  split at named
  case h_5 =>
    cases named
    rfl
  all_goals
    obtain ⟨_, _, rfl⟩ := Option.map_eq_some_iff.1 named
    rfl

theorem changes_storeField (target : FieldTarget) (handle field param id : Word)
    (execution : Execution W) :
    Changes session instruction execution
      (execution.storeField target handle field param id) := by
  unfold storeField
  split
  · exact Relation.ReflTransGen.refl
  · exact Relation.ReflTransGen.refl
  · rename_i writable
    split
    · exact Relation.ReflTransGen.refl
    · rename_i ref named
      rw [← target_of_fieldRef? named] at writable
      exact Relation.ReflTransGen.single (.store ref field param _ writable)

section Running

variable {execution : Execution W} (running : execution.frame.termination = .running)
include running

theorem changes_cause (effect : Effect) :
    Changes session instruction execution (execution.cause effect) :=
  Relation.ReflTransGen.single (.cause running effect)

theorem changes_spawnInto (kind id : Word) :
    Changes session instruction execution (execution.spawnInto kind id) := by
  have caused : Changes session instruction execution (execution.cause (.spawnInto kind)) :=
    changes_cause running _
  unfold cause at caused
  unfold spawnInto
  split
  · rename_i carried
    rw [carried] at caused
    exact caused.tail (.write _ _ _)
  · rename_i carried
    rw [carried] at caused
    exact caused

theorem changes_damage (handle amount : Word) :
    Changes session instruction execution (execution.damage handle amount) := by
  unfold damage
  split
  · exact Relation.ReflTransGen.refl
  · exact changes_cause running _

theorem changes_moveEntity (handle dx dy dz : Word) :
    Changes session instruction execution (execution.moveEntity handle dx dy dz) := by
  unfold moveEntity
  split
  · exact Relation.ReflTransGen.refl
  · exact changes_cause running _

theorem changes_act : Changes session instruction execution (act instruction execution) := by
  unfold act
  dsimp only
  split
  case h_1 => exact Relation.ReflTransGen.single .stop
  case h_2 =>
    rename_i opcode_eq
    refine Relation.ReflTransGen.single (.adjust _ fun state => Or.inr ?_)
    exact .action opcode_eq
  case h_3 | h_4 | h_5 | h_6 | h_7 =>
    exact Relation.ReflTransGen.single (.adjust _ fun state => Or.inl rfl)
  case h_8 => exact changes_assignRoll _ _ _
  case h_9 => exact changes_assignDisplayRoll _ _
  case h_10 => exact changes_loadActorVariable _ _ _ _
  case h_11 => exact changes_storeActorVariable _ _ _ _
  case h_12 => exact changes_loadField _ _ _ _ _ _
  case h_13 => exact changes_storeField _ _ _ _ _ _
  case h_15 => exact changes_spawnInto running _ _
  case h_20 => exact changes_damage running _ _
  case h_22 => exact changes_moveEntity running _ _ _ _
  case h_14 | h_16 | h_17 | h_18 | h_19 | h_21 | h_23 | h_24 => exact changes_cause running _
  all_goals exact Relation.ReflTransGen.refl

/-! ## Plain instructions -/

/-- Whatever a plain instruction does, it does by the changes listed. -/
theorem changes_perform :
    Changes session instruction execution (perform session instruction execution).2 := by
  unfold perform
  split
  · rename_i opcode_eq
    unfold jump
    split
    · rename_i target
      exact Relation.ReflTransGen.single (.jump (.marker opcode_eq target))
    · exact Relation.ReflTransGen.refl
  · rename_i opcode_eq
    exact changes_performBranch opcode_eq execution
  · exact changes_performAssign _ _ execution
  · rename_i opcode_eq
    exact changes_performAi opcode_eq execution
  · exact changes_act running

/-- What every change keeps, a plain instruction keeps. -/
theorem kept_perform {Kept : Execution W → Prop}
    (kept : ∀ {before after : Execution W}, Change session instruction before after →
      Kept before → Kept after)
    (start : Kept execution) : Kept (perform session instruction execution).2 := by
  have changes : Changes session instruction execution
      (perform session instruction execution).2 := changes_perform running
  generalize (perform session instruction execution).2 = after at changes ⊢
  induction changes with
  | refl => exact start
  | tail _ change ih => exact kept change ih

end Running

/-- A plain instruction fails only for one of the reasons listed. -/
theorem failing_of_perform {execution : Execution W} {error : RuntimeError}
    (failed : (perform session instruction execution).1 = .error error) :
    Failing session instruction error := by
  unfold perform at failed
  split at failed
  · rename_i opcode_eq
    unfold jump at failed
    split at failed
    · contradiction
    · rename_i target
      cases failed
      exact .marker opcode_eq target
  · rename_i opcode_eq
    exact failing_performBranch opcode_eq failed
  · exact failing_performAssign failed
  · rename_i opcode_eq
    exact failing_performAi opcode_eq failed
  · contradiction

/-- The world as at most one probe leaves it. -/
inductive Asked (execution : Execution W) : W → Prop
  | nothing : Asked execution execution.world
  | probe (probe : Probe) :
      Asked execution (Host.probe execution.world execution.frame.context probe).2

/-- A random test draws from the random stream, a test that the host answers asks it, and no other
test changes anything. -/
theorem test_eq (instruction : Instruction) (condition : Test) (execution : Execution W) :
    ∃ world random,
      (test instruction condition execution).2 = { execution with world, random } ∧
        execution.Asked world ∧ (condition = .random ∨ random = execution.random) := by
  cases condition with
  | random => exact ⟨_, _, rfl, .nothing, Or.inl rfl⟩
  | canSee | canSeeTarget | canShootTarget | hitWeapon | squished | dead | probe =>
      exact ⟨_, _, rfl, .probe _, Or.inr rfl⟩
  | _ => exact ⟨_, _, rfl, .nothing, Or.inr rfl⟩

/-- A test leaves the frame as it was. -/
theorem frame_test (condition : Test) (execution : Execution W) :
    (test instruction condition execution).2.frame = execution.frame := by
  obtain ⟨world, random, tested, _⟩ := test_eq instruction condition execution
  rw [tested]

omit [Host W] in
/-- A branch checks its target before it moves the cursor there. -/
theorem branch_of_error {holds : Bool} {execution : Execution W} {error : RuntimeError}
    (failed : (branch session instruction holds execution).1 = .error error) :
    (branch session instruction holds execution).2 = execution := by
  unfold branch at failed ⊢
  cases holds with
  | true => rfl
  | false =>
      dsimp only at failed ⊢
      cases target : targetOf session instruction (instruction.falseTarget.getD 0) with
      | error other => rfl
      | ok offset => simp [target] at failed

/-- A conditional that fails has drawn or asked for its test at most; no timer has been set. -/
theorem performBranch_of_error {condition : Test} {execution : Execution W}
    {error : RuntimeError}
    (failed : (performBranch session instruction condition execution).1 = .error error) :
    ∃ world random,
      (performBranch session instruction condition execution).2 =
          { execution with world, random } ∧
        execution.Asked world ∧ (condition = .random ∨ random = execution.random) := by
  unfold performBranch at failed ⊢
  obtain ⟨world, random, tested, asked, drawn⟩ := test_eq instruction condition execution
  cases test_eq : test instruction condition execution with
  | mk holds afterTest =>
      have left := @branch_of_error W session instruction holds afterTest
      simp only [test_eq] at tested failed ⊢
      cases branch_eq : branch session instruction holds afterTest with
      | mk result afterBranch =>
          rw [branch_eq] at left
          simp only [branch_eq] at failed ⊢
          cases result with
          | ok _ => contradiction
          | error other => exact ⟨world, random, (left rfl).trans tested, asked, drawn⟩

/-- A plain instruction that fails has advanced the random stream or asked the host at most, and
that only as a test. -/
theorem perform_of_error {execution : Execution W} {error : RuntimeError}
    (failed : (perform session instruction execution).1 = .error error) :
    ∃ world random,
      (perform session instruction execution).2 = { execution with world, random } ∧
        execution.Asked world ∧
        (instruction.opcode = .branch .random ∨ random = execution.random) := by
  unfold perform at failed ⊢
  split at failed
  · unfold jump at failed ⊢
    split at failed
    · contradiction
    · exact ⟨_, _, rfl, .nothing, Or.inr rfl⟩
  · rename_i condition opcode_eq
    obtain ⟨world, random, left, asked, drawn⟩ := performBranch_of_error failed
    refine ⟨world, random, left, asked, drawn.imp_left ?_⟩
    rintro rfl
    exact opcode_eq
  · unfold performAssign at failed ⊢
    dsimp only at failed ⊢
    split at failed
    · contradiction
    · exact ⟨_, _, rfl, .nothing, Or.inr rfl⟩
  · unfold performAi at failed ⊢
    dsimp only at failed ⊢
    split at failed
    · contradiction
    · rename_i present
      rw [if_neg present]
      split at failed
      · exact ⟨_, _, rfl, .nothing, Or.inr rfl⟩
      · contradiction
  · contradiction

/-- An instruction that fails leaves the frame as it was. -/
theorem frame_of_perform_error {execution : Execution W} {error : RuntimeError}
    (failed : (perform session instruction execution).1 = .error error) :
    (perform session instruction execution).2.frame = execution.frame := by
  obtain ⟨world, random, left, _⟩ := perform_of_error failed
  rw [left]

end ActorScript.Execution
