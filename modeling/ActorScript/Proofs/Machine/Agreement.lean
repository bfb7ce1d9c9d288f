import ActorScript.Machine.Perform
import ActorScript.Proofs.Registry.Agreement
import ActorScript.Verify.Variables

/-!
# Machines that differ in what the display shows

Two machines that differ in their display streams and in the values of some variables do the
same as long as no instruction reads one of these variables.  The only instruction that draws
from a display stream then has to write to one of them, as the draws are different.
-/

namespace ActorScript

/-- An operand of an instruction identifies a variable. -/
def Instruction.Mentions (instruction : Instruction) (id : Word) : Prop :=
  ∃ kind index, (kind, index) ∈ instruction.opcode.operands.zipIdx ∧
    instruction.operand index = id ∧ Verify.identifiesVariable kind id = true

/-- A roll for the display goes into one of the variables, and no other instruction mentions any
of them. -/
structure Instruction.KeepsApart (apart : Set Word) (instruction : Instruction) : Prop where
  roll : instruction.opcode = .displayRandom → instruction.operand 0 ∈ apart
  mention : instruction.opcode ≠ .displayRandom → ∀ id, instruction.Mentions id → id ∉ apart

/-- Every instruction that can be read at some offset keeps the variables apart. -/
def Program.KeepsApart (apart : Set Word) (program : Program) : Prop :=
  ∀ offset instruction, Instruction.decode program.code offset = .ok instruction →
    instruction.KeepsApart apart

variable {W : Type}

/-- Two machines are the same but for the display streams and the values of some variables. -/
structure Machine.AgreeBut (apart : Set Word) (first second : Machine W) : Prop where
  world_eq : second.world = first.world
  random_eq : second.random = first.random
  registry : first.registry.AgreeBut apart second.registry

namespace Execution

/-- Two executions of one frame on machines that agree. -/
structure AgreeBut (apart : Set Word) (first second : Execution W) : Prop where
  machine : first.toMachine.AgreeBut apart second.toMachine
  frame_eq : second.frame = first.frame

/-- Two computations have the same result on executions that agree. -/
structure Alike (apart : Set Word) {α : Type} (first second : α × Execution W) : Prop where
  result_eq : second.1 = first.1
  agree : AgreeBut apart first.2 second.2

theorem Alike.exists_eq {apart : Set Word} {α : Type} {first second : α × Execution W}
    (alike : Alike apart first second) :
    ∃ result after behind, first = (result, after) ∧ second = (result, behind) ∧
      AgreeBut apart after behind := by
  obtain ⟨result, after⟩ := first
  obtain ⟨other, behind⟩ := second
  obtain ⟨rfl, agree⟩ := alike
  exact ⟨_, after, behind, rfl, rfl, agree⟩

namespace AgreeBut

variable {apart : Set Word} {first second : Execution W} (agree : AgreeBut apart first second)
include agree

theorem world_eq : second.world = first.world :=
  agree.machine.world_eq

theorem entity_eq : second.entity = first.entity := by
  rw [entity, entity, agree.frame_eq]

theorem context_eq : second.frame.context = first.frame.context := by
  rw [agree.frame_eq]

/-! ## Changes of executions that agree -/

theorem withFrame (change : Frame → Frame) :
    AgreeBut apart (first.withFrame change) (second.withFrame change) :=
  ⟨agree.machine, congrArg change agree.frame_eq⟩

theorem moveTo (cursor : Nat) : AgreeBut apart (first.moveTo cursor) (second.moveTo cursor) :=
  agree.withFrame _

theorem countStep : AgreeBut apart first.countStep second.countStep :=
  agree.withFrame _

theorem enter (start : Nat) : AgreeBut apart (first.enter start) (second.enter start) :=
  agree.withFrame _

theorem leave : AgreeBut apart first.leave second.leave :=
  agree.withFrame _

theorem requestDelete : AgreeBut apart first.requestDelete second.requestDelete :=
  agree.withFrame _

theorem withWorld (world : W) :
    AgreeBut apart { first with world } { second with world } :=
  ⟨⟨rfl, agree.machine.random_eq, agree.machine.registry⟩, agree.frame_eq⟩

theorem withRandom (random : Random) :
    AgreeBut apart { first with random } { second with random } :=
  ⟨⟨agree.machine.world_eq, rfl, agree.machine.registry⟩, agree.frame_eq⟩

theorem withDisplay (display other : Random) :
    AgreeBut apart { first with displayRandom := display } { second with displayRandom := other } :=
  ⟨⟨agree.machine.world_eq, agree.machine.random_eq, agree.machine.registry⟩, agree.frame_eq⟩

theorem setAt {id left right : Word} (same : left = right ∨ id ∈ apart)
    {address other : Address} (address_eq : other = address) :
    AgreeBut apart { first with registry := first.registry.set id address left }
      { second with registry := second.registry.set id other right } := by
  subst address_eq
  exact ⟨⟨agree.machine.world_eq, agree.machine.random_eq, agree.machine.registry.set same other⟩,
    agree.frame_eq⟩

theorem setVar {id left right : Word} (same : left = right ∨ id ∈ apart) :
    AgreeBut apart (first.setVar id left) (second.setVar id right) :=
  agree.setAt same (congrArg Frame.address agree.frame_eq)

theorem assignRoll (id scale : Word) :
    AgreeBut apart (first.assignRoll id scale) (second.assignRoll id scale) := by
  unfold Execution.assignRoll
  rw [agree.machine.random_eq]
  exact (agree.withRandom _).setVar (Or.inl rfl)

theorem assignDisplayRoll {id : Word} (inside : id ∈ apart) :
    AgreeBut apart (first.assignDisplayRoll id) (second.assignDisplayRoll id) :=
  (agree.withDisplay _ _).setVar (Or.inr inside)

theorem var_eq {id : Word} (other : id ∉ apart) : second.var id = first.var id := by
  rw [var, var, agree.frame_eq, agree.machine.registry.get_eq other]

theorem argument_eq {source : Source} {word : Word} (other : source = .var → word ∉ apart) :
    second.argument source word = first.argument source word := by
  cases source with
  | literal => rfl
  | var => exact agree.var_eq (other rfl)

section Host

variable [Host W]

theorem modifyActor (change : ActorState → ActorState) :
    AgreeBut apart (first.modifyActor change) (second.modifyActor change) := by
  unfold Execution.modifyActor
  rw [agree.entity_eq, agree.world_eq]
  split
  · exact agree
  · exact agree.withWorld _

theorem ask (probe : Probe) : Alike apart (first.ask probe) (second.ask probe) := by
  unfold Execution.ask
  rw [agree.context_eq, agree.world_eq]
  exact ⟨rfl, agree.withWorld _⟩

theorem carryOut (effect : Effect) :
    Alike apart (first.carryOut effect) (second.carryOut effect) := by
  unfold Execution.carryOut
  rw [agree.context_eq, agree.world_eq]
  split
  · exact ⟨rfl, agree.withWorld _⟩
  · exact ⟨rfl, (agree.withWorld _).withFrame _⟩

theorem cause (effect : Effect) : AgreeBut apart (first.cause effect) (second.cause effect) :=
  (agree.carryOut effect).agree

/-! ## What operands stand for -/

theorem entityIn?_eq {id : Word} (other : id ∉ apart) :
    second.entityIn? id = first.entityIn? id := by
  rw [entityIn?, entityIn?, agree.var_eq other, agree.world_eq]

variable {handle : Word} (other : handle ≠ selfHandle → handle ∉ apart)
include other

theorem entityOf?_eq : second.entityOf? handle = first.entityOf? handle := by
  unfold entityOf?
  split
  · exact agree.entity_eq
  · rename_i named
    exact agree.entityIn?_eq (other named)

theorem fieldRef?_eq (target : FieldTarget) :
    second.fieldRef? target handle = first.fieldRef? target handle := by
  unfold fieldRef?
  split
  · rw [agree.entityOf?_eq other]
  · unfold playerOf?
    split
    · rw [agree.frame_eq]
    · rename_i named
      rw [agree.var_eq (other named)]
  · unfold sectorOf?
    split
    · rw [agree.entity_eq, agree.world_eq]
    · rename_i named
      rw [agree.var_eq (other named)]
  · unfold wallOf?
    split
    · rfl
    · rename_i named
      rw [agree.var_eq (other named)]
  · rfl

/-! ## Instructions that cannot fail -/

theorem loadField (target : FieldTarget) (field param id : Word) :
    AgreeBut apart (first.loadField target handle field param id)
      (second.loadField target handle field param id) := by
  unfold Execution.loadField
  rw [agree.world_eq, agree.fieldRef?_eq other]
  split
  · exact agree.setVar (Or.inl rfl)
  all_goals
    split
    · exact agree.setVar (Or.inl rfl)
    · exact (agree.withWorld _).setVar (Or.inl rfl)

theorem storeField (target : FieldTarget) (field param : Word) {id : Word}
    (source : id ∉ apart) :
    AgreeBut apart (first.storeField target handle field param id)
      (second.storeField target handle field param id) := by
  unfold Execution.storeField
  rw [agree.world_eq, agree.fieldRef?_eq other, agree.var_eq source]
  split
  · exact agree
  · exact agree
  · split
    · exact agree
    · exact agree.withWorld _

theorem damage (amount : Word) :
    AgreeBut apart (first.damage handle amount) (second.damage handle amount) := by
  unfold Execution.damage
  rw [agree.entityOf?_eq other]
  split
  · exact agree
  · exact agree.cause _

theorem moveEntity {dx dy dz : Word} (outsideX : dx ∉ apart) (outsideY : dy ∉ apart)
    (outsideZ : dz ∉ apart) :
    AgreeBut apart (first.moveEntity handle dx dy dz) (second.moveEntity handle dx dy dz) := by
  unfold Execution.moveEntity
  rw [agree.entityOf?_eq other, agree.var_eq outsideX, agree.var_eq outsideY,
    agree.var_eq outsideZ]
  split
  · exact agree
  · exact agree.cause _

omit other

theorem spawnInto (kind id : Word) :
    AgreeBut apart (first.spawnInto kind id) (second.spawnInto kind id) := by
  obtain ⟨answer, after, behind, first_eq, second_eq, agree⟩ :=
    (agree.carryOut (.spawnInto kind)).exists_eq
  unfold Execution.spawnInto
  rw [first_eq, second_eq]
  cases answer with
  | none => exact agree
  | some handle => exact agree.setVar (Or.inl rfl)

theorem loadActorVariable {holder id : Word} (destination : Word) (held : holder ∉ apart)
    (outside : id ∉ apart) :
    AgreeBut apart (first.loadActorVariable holder id destination)
      (second.loadActorVariable holder id destination) := by
  unfold Execution.loadActorVariable
  rw [agree.entityIn?_eq held, agree.frame_eq]
  split
  · exact agree
  · rw [agree.machine.registry.get_eq outside]
    exact agree.setVar (Or.inl rfl)

theorem storeActorVariable {holder source : Word} (id : Word) (held : holder ∉ apart)
    (outside : source ∉ apart) :
    AgreeBut apart (first.storeActorVariable holder id source)
      (second.storeActorVariable holder id source) := by
  unfold Execution.storeActorVariable
  rw [agree.entityIn?_eq held]
  split
  · exact agree
  · rw [agree.var_eq outside]
    exact agree.setAt (Or.inl rfl) (by rw [agree.frame_eq])

end Host

end AgreeBut

end Execution

namespace Instruction

variable {apart : Set Word} {instruction : Instruction} (keeps : instruction.KeepsApart apart)
  {opcode : Opcode} (opcode_eq : instruction.opcode = opcode) (plain : opcode ≠ .displayRandom)
include keeps opcode_eq plain

/-- An instruction that draws nothing for the display names only variables that are not apart. -/
theorem KeepsApart.of_var {index : Nat} (listed : (.var, index) ∈ opcode.operands.zipIdx) :
    instruction.operand index ∉ apart := by
  subst opcode_eq
  exact keeps.mention plain _ ⟨.var, index, listed, rfl, rfl⟩

theorem KeepsApart.of_handle {index : Nat} (listed : (.handle, index) ∈ opcode.operands.zipIdx)
    (named : instruction.operand index ≠ selfHandle) : instruction.operand index ∉ apart := by
  subst opcode_eq
  exact keeps.mention plain _ ⟨.handle, index, listed, rfl, bne_iff_ne.2 named⟩

end Instruction

namespace Execution.AgreeBut

variable [Host W] {apart : Set Word} {first second : Execution W}
  (agree : AgreeBut apart first second) {instruction : Instruction}
  (keeps : instruction.KeepsApart apart)
include agree keeps

theorem act : AgreeBut apart (act instruction first) (act instruction second) := by
  unfold Execution.act
  dsimp only
  split
  case h_1 => exact agree.requestDelete
  case h_2 | h_3 | h_4 | h_5 | h_6 | h_7 => exact agree.modifyActor _
  case h_8 source opcode_eq =>
    have scale : source = .var → instruction.operand 1 ∉ apart := by
      rintro rfl
      exact keeps.of_var opcode_eq nofun (by decide)
    rw [agree.argument_eq scale]
    exact agree.assignRoll _ _
  case h_9 opcode_eq => exact agree.assignDisplayRoll (keeps.roll opcode_eq)
  case h_10 opcode_eq =>
    exact agree.loadActorVariable _ (keeps.of_var opcode_eq nofun (by decide))
      (keeps.of_var opcode_eq nofun (by decide))
  case h_11 opcode_eq =>
    exact agree.storeActorVariable _ (keeps.of_var opcode_eq nofun (by decide))
      (keeps.of_var opcode_eq nofun (by decide))
  case h_12 opcode_eq =>
    exact agree.loadField (keeps.of_handle opcode_eq nofun (by simp [Opcode.operands])) _ _ _ _
  case h_13 opcode_eq =>
    exact agree.storeField (keeps.of_handle opcode_eq nofun (by simp [Opcode.operands])) _ _ _
      (keeps.of_var opcode_eq nofun (by simp [Opcode.operands]))
  case h_15 => exact agree.spawnInto _ _
  case h_20 opcode_eq =>
    exact agree.damage (keeps.of_handle opcode_eq nofun (by decide)) _
  case h_22 opcode_eq =>
    exact agree.moveEntity (keeps.of_handle opcode_eq nofun (by decide))
      (keeps.of_var opcode_eq nofun (by decide)) (keeps.of_var opcode_eq nofun (by decide))
      (keeps.of_var opcode_eq nofun (by decide))
  case h_14 | h_16 | h_17 | h_18 | h_19 | h_21 | h_23 | h_24 => exact agree.cause _
  all_goals exact agree

/-! ## Conditions -/

omit keeps in
theorem actorState_eq : second.actorState = first.actorState := by
  rw [actorState, actorState, agree.entity_eq, agree.world_eq]

theorem test {condition : Test} (opcode_eq : instruction.opcode = .branch condition) :
    Alike apart (test instruction condition first) (test instruction condition second) := by
  unfold Execution.test
  dsimp only
  rw [agree.actorState_eq, agree.frame_eq]
  split
  case h_1 =>
    unfold rollTest
    rw [agree.machine.random_eq]
    exact ⟨rfl, agree.withRandom _⟩
  case h_9 relation source =>
    have right : source = .var → instruction.operand 1 ∉ apart := by
      rintro rfl
      exact keeps.of_var opcode_eq nofun (by simp [Opcode.operands, Test.operands, Source.operand])
    have left : instruction.operand 0 ∉ apart :=
      keeps.of_var opcode_eq nofun (by simp [Opcode.operands, Test.operands])
    rw [agree.var_eq left, agree.argument_eq right]
    exact ⟨rfl, agree⟩
  all_goals
    first
    | exact ⟨rfl, agree⟩
    | exact agree.ask _

variable (session : Session)

omit keeps [Host W] in
theorem branch (instruction : Instruction) (holds : Bool) :
    Alike apart (branch session instruction holds first)
      (branch session instruction holds second) := by
  unfold Execution.branch
  split
  · exact ⟨rfl, agree⟩
  · dsimp only
    split
    · exact ⟨rfl, agree⟩
    · exact ⟨rfl, agree.moveTo _⟩

omit keeps in
theorem armSleep (condition : Test) (holds : Bool) :
    AgreeBut apart (armSleep session condition holds first)
      (armSleep session condition holds second) := by
  unfold Execution.armSleep
  rw [agree.frame_eq]
  split
  · split
    · exact agree.modifyActor _
    · exact agree
  · split
    · exact agree.modifyActor _
    · exact agree
  · split
    · exact agree.modifyActor _
    · exact agree
  · exact agree

theorem performBranch {condition : Test} (opcode_eq : instruction.opcode = .branch condition) :
    Alike apart (performBranch session instruction condition first)
      (performBranch session instruction condition second) := by
  obtain ⟨holds, tested, tested', first_eq, second_eq, agree⟩ :=
    (agree.test keeps opcode_eq).exists_eq
  obtain ⟨result, branched, branched', first_eq', second_eq', agree⟩ :=
    (agree.branch session instruction holds).exists_eq
  unfold Execution.performBranch
  rw [first_eq, second_eq]
  dsimp only
  rw [first_eq', second_eq']
  cases result with
  | ok _ => exact ⟨rfl, agree.armSleep session condition holds⟩
  | error error => exact ⟨rfl, agree⟩

/-! ## Plain instructions -/

omit [Host W] in
theorem performAssign {operation : Update} {source : Source}
    (opcode_eq : instruction.opcode = .assign operation source) :
    Alike apart (performAssign instruction operation source first)
      (performAssign instruction operation source second) := by
  have right : source = .var → instruction.operand 1 ∉ apart := by
    rintro rfl
    exact keeps.of_var opcode_eq nofun (by simp [Opcode.operands, Source.operand])
  have left : instruction.operand 0 ∉ apart :=
    keeps.of_var opcode_eq nofun (by simp [Opcode.operands])
  unfold Execution.performAssign
  dsimp only
  rw [agree.var_eq left, agree.argument_eq right]
  split
  · exact ⟨rfl, agree.setVar (Or.inl rfl)⟩
  · exact ⟨rfl, agree⟩

omit keeps in
theorem performAi (instruction : Instruction) :
    Alike apart (performAi session instruction first) (performAi session instruction second) := by
  unfold Execution.performAi
  dsimp only
  split
  · exact ⟨rfl, agree.modifyActor _⟩
  · split
    · exact ⟨rfl, agree⟩
    · exact ⟨rfl, agree.modifyActor _⟩

theorem perform :
    Alike apart (perform session instruction first) (perform session instruction second) := by
  unfold Execution.perform
  split
  · unfold jump
    split
    · exact ⟨rfl, agree.moveTo _⟩
    · exact ⟨rfl, agree⟩
  · rename_i opcode_eq
    exact agree.performBranch keeps session opcode_eq
  · rename_i opcode_eq
    exact agree.performAssign keeps opcode_eq
  · exact agree.performAi session instruction
  · exact ⟨rfl, agree.act keeps⟩

end Execution.AgreeBut

end ActorScript
