import ActorScript.Machine.Run

/-!
# Starting frames

The ways to start a frame: the tick of an entity, its loading, an event, and a
pass over all entities.  A frame runs to its end before anything that it asked
for is done to its entity.
-/

namespace ActorScript

/-- What a settled frame was for. -/
inductive Occasion where
  | tick
  | load
deriving DecidableEq, Repr

/-- An answer or a runtime error, and the machine after it. -/
abbrev Answer (W α : Type) := Except RuntimeError α × Machine W

namespace Machine

variable {W : Type} [Host W]

/-- Deletes an entity, or cleans up behind one that is gone, as the outcome of
a frame asks. -/
def conclude (machine : Machine W) (id : EntityId) : FrameOutcome → Machine W
  | .normal => machine
  | .delete =>
      { machine with
        world := Host.delete (Host.releasePlayers machine.world id) id
        registry := machine.registry.forget id }
  | .deleteQuiet => { machine with registry := machine.registry.forget id }

/-- Counts the sleep timer of an active entity down; it goes dormant when the
timer stands at one. -/
def countSleep (world : W) (id : EntityId) : W :=
  match Host.stateOf? world id with
  | none => world
  | some state =>
      if state.sleepTimer > 1 then
        Host.modifyState world id fun state =>
          { state with sleepTimer := state.sleepTimer - 1 }
      else if state.sleepTimer = 1 then Host.setStatus world id .dormant
      else world

/-- Moves an entity and sees to its sleep, after a frame that ended normally. -/
def settle (machine : Machine W) (id : EntityId) (occasion : Occasion) : Machine W :=
  let world := Host.advanceMotion machine.world id
  match Host.statusOf? world id with
  | some .active =>
      { machine with world := if Host.maySleep world id then countSleep world id else world }
  | some .standable =>
      { machine with
        world := match occasion with
          | .tick => Host.checkStandable world id
          | .load => world }
  | _ => { machine with world }

/-- The state of an entity whose action has gone on by some tics. -/
def animated (tics frames increment delay : Word) (state : ActorState) : ActorState :=
  let clock := state.animationClock + tics
  let stepped :=
    if clock > delay then
      { state with
        actionCount := state.actionCount + 1
        animationClock := 0
        actionFrame := state.actionFrame + increment }
    else { state with animationClock := clock }
  if stepped.actionFrame.toInt.natAbs ≥ (frames * increment).toInt.natAbs then
    { stepped with actionFrame := 0 }
  else stepped

/-- Goes on with the current action of an entity, whose record must lie inside
the stream. -/
def advanceAnimation (session : Session) (world : W) (id : EntityId) :
    Except RuntimeError W :=
  match Host.stateOf? world id with
  | none => .ok world
  | some state =>
      if state.action = 0 then .ok world
      else
        match recordAt session.program.code .action state.action with
        | none => .error (.badActionRecord state.action)
        | some words =>
            .ok (Host.modifyState world id
              (animated session.config.ticsPerFrame (words[1]?.getD 0) (words[3]?.getD 0)
                (words[4]?.getD 0)))

/-- A frame at its start. -/
def begin (machine : Machine W) (address : Address) (extra : Word) (start : Nat) :
    Execution W :=
  { machine with frame := { address, extra, cursor := start } }

/-- Runs a script of an entity and does what is left to do afterwards. -/
def runScript (session : Session) (machine : Machine W) (id : EntityId)
    (player : Option PlayerId) (extra : Word) (start : Nat) (occasion : Occasion) :
    Answer W (Option FrameOutcome) :=
  match (machine.begin ⟨some id, player⟩ extra start).runBlock session with
  | (.error error, after) => (.error error, after.toMachine)
  | (.ok (), after) =>
      let outcome := after.frame.termination.outcome
      match outcome with
      | .normal => (.ok (some outcome), after.toMachine.settle id occasion)
      | .delete | .deleteQuiet => (.ok (some outcome), after.toMachine.conclude id outcome)

/-- The scripts of a living entity. -/
def scriptsOf? (session : Session) (machine : Machine W) (id : EntityId) : Option Scripts :=
  if Host.isAlive machine.world id then
    (Host.kindOf? machine.world id).bind session.program.actors.get?
  else none

/-- Runs the tick script of an entity, if it is alive and has one.  Outside the
world it is deleted instead. -/
def runTick (session : Session) (machine : Machine W) (id : EntityId) :
    Answer W (Option FrameOutcome) :=
  match (machine.scriptsOf? session id).bind (·.tick) with
  | none => (.ok none, machine)
  | some start =>
      if (Host.sectorOf? machine.world id).isNone then
        (.ok (some .delete), machine.conclude id .delete)
      else
        let nearest := Host.nearestPlayer? machine.world id
        match advanceAnimation session machine.world id with
        | .error error => (.error error, machine)
        | .ok world =>
            runScript session { machine with world } id (nearest.map (·.1))
              ((nearest.map (·.2)).getD 0) start .tick

/-- Runs the load script of an entity, if it is alive and has one.  Outside the
world it is deleted instead. -/
def runLoad (session : Session) (machine : Machine W) (id : EntityId)
    (player : Option PlayerId) (extra : Word) : Answer W (Option FrameOutcome) :=
  match (machine.scriptsOf? session id).bind (·.load) with
  | none => (.ok none, machine)
  | some start =>
      if (Host.sectorOf? machine.world id).isNone then
        (.ok (some .delete), machine.conclude id .delete)
      else runScript session machine id player extra start .load

/-- Runs the handler of an event, if there is one.  An entity that is not
alive takes no part. -/
def dispatchEvent (session : Session) (machine : Machine W) (event : Word)
    (entity : Option EntityId) (player : Option PlayerId) (extra : Word) :
    Answer W (Option FrameOutcome) :=
  if event < 0 then (.ok none, machine)
  else
    match session.program.events.get? event with
    | none => (.ok none, machine)
    | some start =>
        let entity := entity.filter (Host.isAlive machine.world)
        match (machine.begin ⟨entity, player⟩ extra start).runBlock session with
        | (.error error, after) => (.error error, after.toMachine)
        | (.ok (), after) =>
            let outcome := after.frame.termination.outcome
            match entity with
            | none => (.ok (some outcome), after.toMachine)
            | some id => (.ok (some outcome), after.toMachine.conclude id outcome)

/-- What became of the frames of a pass, in the order in which they ran. -/
abbrev PassReport := Array (EntityId × FrameOutcome)

/-- Ticks the given entities in order, behind those in the report. -/
def runEach (session : Session) :
    List EntityId → PassReport → Machine W → Answer W PassReport
  | [], report, machine => (.ok report, machine)
  | id :: rest, report, machine =>
      match machine.runTick session id with
      | (.error error, after) => (.error error, after)
      | (.ok none, after) => runEach session rest report after
      | (.ok (some outcome), after) => runEach session rest (report.push (id, outcome)) after

/-- Ticks every entity once.  An entity deleted earlier in the pass is passed
over, and one created in it waits for the next. -/
def runAll (session : Session) (machine : Machine W) : Answer W PassReport :=
  runEach session (Host.tickOrder machine.world) #[] machine

end Machine

end ActorScript
