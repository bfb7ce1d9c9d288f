import ActorScript.Word

/-!
# Settings of the machine

The limits and the timing of a session.
-/

namespace ActorScript

/-- The settings of a session. -/
structure Config where
  /-- The deepest nesting of brace blocks, state calls and switch branches. -/
  maxCallDepth : Nat := 64
  /-- The instructions that one frame may attempt; zero for no limit. -/
  maxSteps : Nat := 1000000
  /-- The number of players that have cells of player variables. -/
  maxPlayers : Nat := 16
  /-- What a tick adds to the animation clock. -/
  ticsPerFrame : Word := 4
  /-- The sleep timer that checks of distance and sight set. -/
  sleepTime : Word := 300
  /-- The distance to the player beyond which an entity counts down to sleep. -/
  maxSleepDistance : Word := 24000
  /-- The seed of the random streams. -/
  seed : UInt64 := 0x5EED
deriving DecidableEq, Repr

end ActorScript
