import ActorScript.Flow
import ActorScript.Machine.State

/-!
# Single instructions

What an instruction does that neither starts a nested run nor ends one.
`perform` carries out such an instruction; the cursor stands behind it
already.  An instruction that fails leaves behind at most an advanced random
stream, or what the host keeps of a probe.
-/

namespace ActorScript

/-- An answer or a runtime error, and the execution after it. -/
abbrev Outcome (W α : Type) := Except RuntimeError α × Execution W

namespace Execution

variable {W : Type} [Host W]

/-- The offset that a target names, which has to lie inside the stream. -/
def targetOf (session : Session) (instruction : Instruction) (target : Word) :
    Except RuntimeError Nat :=
  match inStream? session.program.code target with
  | some offset => .ok offset
  | none => .error (.badTarget instruction.offset target)

/-- Moves the cursor to a target. -/
def jump (session : Session) (instruction : Instruction) (target : Word)
    (execution : Execution W) : Outcome W Unit :=
  match targetOf session instruction target with
  | .ok offset => (.ok (), execution.moveTo offset)
  | .error error => (.error error, execution)

/-! ## Conditions -/

/-- A relation holds between two words. -/
def related (relation : Relation) (left right : Word) : Bool :=
  match relation with
  | .equal => left = right
  | .notEqual => left ≠ right
  | .greater => left > right
  | .less => left < right
  | .sharesBits => left &&& right ≠ 0

/-- Draws a number below 256 and tells whether it is in the top part that the
word gives the size of. -/
def rollTest (execution : Execution W) (chance : Word) : Bool × Execution W :=
  let (roll, random) := execution.random.draw 8
  (255 - chance.toInt ≤ roll, { execution with random })

/-- Whether a test holds.  A random test draws, and a probe may leave something
behind in the world; no other test changes anything. -/
def test (instruction : Instruction) (test : Test) (execution : Execution W) :
    Bool × Execution W :=
  let first := instruction.operand 0
  let second := instruction.operand 1
  let state := execution.actorState
  match test with
  | .random => execution.rollTest first
  | .count => (state.count ≥ first, execution)
  | .actionCount => (state.actionCount ≥ first, execution)
  | .action => (state.action = first, execution)
  | .ai => (state.ai = first, execution)
  | .move => (state.move = first, execution)
  | .playerNearer => (execution.frame.extra < first, execution)
  | .playerFarther => (execution.frame.extra > first, execution)
  | .compare relation source =>
      (related relation (execution.var first) (execution.argument source second), execution)
  | .canSee => execution.ask .canSee
  | .canSeeTarget => execution.ask .canSeeTarget
  | .canShootTarget => execution.ask .canShootTarget
  | .hitWeapon => execution.ask .hitWeapon
  | .squished => execution.ask .squished
  | .dead => execution.ask .dead
  | .probe => execution.ask (.custom first second)

/-- Goes on behind the instruction when its test holds, and otherwise at its
target or, if an `else` marker stands there, behind the marker. -/
def branch (session : Session) (instruction : Instruction) (holds : Bool)
    (execution : Execution W) : Outcome W Unit :=
  if holds then (.ok (), execution)
  else
    let target := instruction.falseTarget.getD 0
    match targetOf session instruction target with
    | .error error => (.error error, execution)
    | .ok offset =>
        (.ok (), execution.moveTo
          (if elseMarkerAt session.program.code target then offset + 2 else offset))

/-- Sets the sleep timer as a test of distance or sight demands. -/
def armSleep (session : Session) (test : Test) (holds : Bool) (execution : Execution W) :
    Execution W :=
  match test with
  | .playerNearer | .playerFarther =>
      if execution.frame.extra > session.config.maxSleepDistance then
        execution.modifyActor fun state =>
          if state.sleepTimer = 0 then { state with sleepTimer := session.config.sleepTime }
          else state
      else execution
  | .canSeeTarget =>
      if holds then
        execution.modifyActor fun state => { state with sleepTimer := session.config.sleepTime }
      else execution
  | _ => execution

/-- A conditional instruction. -/
def performBranch (session : Session) (instruction : Instruction) (condition : Test)
    (execution : Execution W) : Outcome W Unit :=
  let (holds, tested) := test instruction condition execution
  match branch session instruction holds tested with
  | (.ok (), branched) => (.ok (), armSleep session condition holds branched)
  | (.error error, branched) => (.error error, branched)

/-! ## Variables -/

/-- The word that an update computes.  Arithmetic wraps around, and division
truncates toward zero. -/
def updated (operation : Update) (offset : Nat) (left right : Word) :
    Except RuntimeError Word :=
  match operation with
  | .set => .ok right
  | .add => .ok (left + right)
  | .sub => .ok (left - right)
  | .mul => .ok (left * right)
  | .div => if right = 0 then .error (.divisionByZero offset) else .ok (left / right)
  | .mod => if right = 0 then .error (.moduloByZero offset) else .ok (left % right)
  | .and => .ok (left &&& right)
  | .or => .ok (left ||| right)
  | .xor => .ok (left ^^^ right)

/-- An update of a variable. -/
def performAssign (instruction : Instruction) (operation : Update) (source : Source)
    (execution : Execution W) : Outcome W Unit :=
  let id := instruction.operand 0
  let right := execution.argument source (instruction.operand 1)
  match updated operation instruction.offset (execution.var id) right with
  | .ok value => (.ok (), execution.setVar id value)
  | .error error => (.error error, execution)

/-- Writes a random share of a word into a variable. -/
def assignRoll (execution : Execution W) (id scale : Word) : Execution W :=
  let (roll, random) := execution.random.draw 15
  { execution with random }.setVar id (Int32.ofInt ((roll : Int) * scale.toInt / 0x8000))

/-- Writes a draw from the display stream into a variable. -/
def assignDisplayRoll (execution : Execution W) (id : Word) : Execution W :=
  let (roll, displayRandom) := execution.displayRandom.draw 15
  { execution with displayRandom }.setVar id (Word.ofOffset roll)

/-- Reads a variable of another entity. -/
def loadActorVariable (execution : Execution W) (holder id destination : Word) : Execution W :=
  match execution.entityIn? holder with
  | none => execution
  | some other =>
      execution.setVar destination
        (execution.registry.get id { execution.frame.address with entity := some other })

/-- Writes a variable of another entity. -/
def storeActorVariable (execution : Execution W) (holder id source : Word) : Execution W :=
  match execution.entityIn? holder with
  | none => execution
  | some other =>
      { execution with
        registry := execution.registry.set id
          { execution.frame.address with entity := some other } (execution.var source) }

/-! ## Entities -/

/-- Gives the entity of the frame an `ai` record, with the actions and the
movement that the record names.  Zero stands for none. -/
def performAi (session : Session) (instruction : Instruction) (execution : Execution W) :
    Outcome W Unit :=
  let ai := instruction.operand 0
  let adopt := fun (action move moveFlags : Word) =>
    execution.modifyActor fun state =>
      { state with
        ai, action, move, moveFlags
        count := 0, actionCount := 0, actionFrame := 0 }
  if ai = 0 then (.ok (), adopt 0 0 0)
  else
    match recordAt session.program.code .ai ai with
    | none => (.error (.recordOutOfRange instruction.offset ai), execution)
    | some words =>
        (.ok (), adopt (words[0]?.getD 0) (words[1]?.getD 0) (words[2]?.getD 0))

/-- Spawns an entity and keeps its handle in a variable. -/
def spawnInto (execution : Execution W) (kind id : Word) : Execution W :=
  match execution.carryOut (.spawnInto kind) with
  | (some handle, after) => after.setVar id handle
  | (none, after) => after

/-- Damages the entity that a handle operand names. -/
def damage (execution : Execution W) (handle amount : Word) : Execution W :=
  match execution.entityOf? handle with
  | none => execution
  | some target => execution.cause (.damage target amount)

/-- Moves the entity that a handle operand names, by the values of three variables. -/
def moveEntity (execution : Execution W) (handle dx dy dz : Word) : Execution W :=
  match execution.entityOf? handle with
  | none => execution
  | some target =>
      execution.cause
        (.moveEntity target (execution.var dx) (execution.var dy) (execution.var dz))

/-- The instructions that cannot fail.  Those that direct the run do nothing here. -/
def act (instruction : Instruction) (execution : Execution W) : Execution W :=
  let first := instruction.operand 0
  let second := instruction.operand 1
  let third := instruction.operand 2
  let fourth := instruction.operand 3
  match instruction.opcode with
  | .killIt => execution.requestDelete
  | .setAction =>
      execution.modifyActor fun state =>
        { state with actionCount := 0, actionFrame := 0, action := first }
  | .setMove =>
      execution.modifyActor fun state =>
        { state with count := 0, move := first, moveFlags := second }
  | .setCount => execution.modifyActor fun state => { state with count := first }
  | .resetCount => execution.modifyActor fun state => { state with count := 0 }
  | .resetActionCount => execution.modifyActor fun state => { state with actionCount := 0 }
  | .sleepTime => execution.modifyActor fun state => { state with sleepTimer := first }
  | .assignRandom source => execution.assignRoll first (execution.argument source second)
  | .displayRandom => execution.assignDisplayRoll first
  | .getActorVariable => execution.loadActorVariable first second third
  | .setActorVariable => execution.storeActorVariable first second third
  | .getField target => execution.loadField target first second third fourth
  | .setField target => execution.storeField target first second third fourth
  | .spawn => execution.cause (.spawn first)
  | .spawnInto => execution.spawnInto first second
  | .shoot => execution.cause (.shoot first)
  | .sound => execution.cause (.sound first)
  | .globalSound => execution.cause (.globalSound first)
  | .stopSound => execution.cause (.stopSound first)
  | .damage => execution.damage first second
  | .hitRadius =>
      execution.cause (.hitRadius first ⟨second, third, fourth, instruction.operand 4⟩)
  | .moveEntity => execution.moveEntity first second third fourth
  | .changeStatus => execution.cause (.changeStatus first)
  | .giveItem => execution.cause (.giveItem first second)
  | .leftBrace | .rightBrace | .elseMarker | .callState | .switch | .endSwitch | .finish _
  | .nullOp | .branch _ | .setAi | .assign _ _ | .debug => execution

/-- Carries out an instruction that neither starts a nested run nor ends one. -/
def perform (session : Session) (instruction : Instruction) (execution : Execution W) :
    Outcome W Unit :=
  match instruction.opcode with
  | .elseMarker => jump session instruction (instruction.operand 0) execution
  | .branch condition => performBranch session instruction condition execution
  | .assign operation source => performAssign instruction operation source execution
  | .setAi => performAi session instruction execution
  | _ => (.ok (), act instruction execution)

end Execution

end ActorScript
