import ActorScript.Simulation.Report

/-!
# Simulations

Runs a program in a small world: spawns entities, loads them, and then ticks
the world a number of times, with events before each tick.  A fault of the
program ends the simulation without a report.
-/

namespace ActorScript

/-- What a simulation is to do. -/
structure Scenario where
  /-- The kinds to spawn; all declared ones when there are none. -/
  kinds : List Word := []
  /-- The number of entities of each kind. -/
  count : Nat := 1
  ticks : Nat := 1
  /-- The events before each tick. -/
  events : List Word := []
  players : UInt16 := 1
deriving DecidableEq, Repr

namespace Scenario

/-- The number of sectors of the world.  Entities are spawned in the first. -/
def sectorCount : Word := 4

/-- The number of walls of the world. -/
def wallCount : Word := 4

/-- The player for whom entities are loaded and events dispatched. -/
def player (scenario : Scenario) : Option PlayerId :=
  if scenario.players = 0 then none else some 0

/-- The kinds of the entities to spawn, in order. -/
def spawns (scenario : Scenario) (program : Program) : List Word :=
  let kinds := if scenario.kinds.isEmpty then program.actors.toList.map (·.1) else scenario.kinds
  kinds.flatMap (List.replicate scenario.count)

/-- Spawns and loads entities of the given kinds, behind those in the report. -/
def loadEach (session : Session) (player : Option PlayerId) :
    List Word → Machine.PassReport → Machine World →
      Answer World Machine.PassReport
  | [], report, machine => (.ok report, machine)
  | kind :: rest, report, machine =>
      let (id, world) := machine.world.spawn kind (some 0)
      match Machine.runLoad session { machine with world } id player 0 with
      | (.error error, after) => (.error error, after)
      | (.ok none, after) => loadEach session player rest report after
      | (.ok (some outcome), after) =>
          loadEach session player rest (report.push (id, outcome)) after

/-- Dispatches events in order. -/
def dispatchEach (session : Session) (player : Option PlayerId) :
    List Word → Machine World → Answer World Unit
  | [], machine => (.ok (), machine)
  | event :: rest, machine =>
      match machine.dispatchEvent session event none player 0 with
      | (.error error, after) => (.error error, after)
      | (.ok _, after) => dispatchEach session player rest after

/-- Ticks the world a number of times, from the tick of the given number on. -/
def tickFrom (session : Session) (scenario : Scenario) (number : Nat) :
    (count : Nat) → Array StepReport → Machine World → Answer World (Array StepReport)
  | 0, steps, machine => (.ok steps, machine)
  | count + 1, steps, machine =>
      match dispatchEach session scenario.player scenario.events machine with
      | (.error error, after) => (.error error, after)
      | (.ok (), dispatched) =>
          match dispatched.runAll session with
          | (.error error, after) => (.error error, after)
          | (.ok pass, after) =>
              tickFrom session scenario (number + 1) count
                (steps.push (.ofPass s!"tick {number}" pass)) after

/-- The machine before the first entity is spawned. -/
def start (session : Session) (scenario : Scenario) : Machine World :=
  .new session ((World.new sectorCount wallCount).addPlayers scenario.players.toNat)

/-- Runs a simulation. -/
def simulate (session : Session) (scenario : Scenario) : Except RuntimeError Report :=
  match loadEach session scenario.player (scenario.spawns session.program) #[]
      (start session scenario) with
  | (.error error, _) => .error error
  | (.ok pass, loaded) =>
      match tickFrom session scenario 1 scenario.ticks #[.ofPass "load" pass] loaded with
      | (.error error, _) => .error error
      | (.ok steps, after) => .ok (.ofMachine after scenario.players steps.toList)

end Scenario

end ActorScript
