import ActorScript.Word

/-!
# Entities and players

Entities live in numbered slots.  A slot counts its occupants in its
generation, so an `EntityId` names one occupant for good, while scripts see
only the number of the slot.
-/

namespace ActorScript

/-- The identity of an entity. -/
structure EntityId where
  /-- The slot. -/
  index : UInt32
  /-- How often the slot had been vacated before. -/
  generation : UInt32
deriving DecidableEq, Repr, Inhabited, Hashable

namespace EntityId

/-- The word by which scripts name an entity. -/
def handle (id : EntityId) : Word :=
  id.index.toInt32

/-- The text of an identity. -/
def text (id : EntityId) : String :=
  s!"#{id.index}v{id.generation}"

end EntityId

/-- The number of a player. -/
abbrev PlayerId := UInt16

/-- The player that a word names. -/
def PlayerId.ofWord? (word : Word) : Option PlayerId :=
  match word.offset? with
  | none => none
  | some number => if number < 0x10000 then some (UInt16.ofNat number) else none

/-- Whose cell of a variable is meant. -/
structure Address where
  entity : Option EntityId := none
  player : Option PlayerId := none
deriving DecidableEq, Repr

/-- The part that an entity plays in a tick. -/
inductive Status where
  | active
  | dormant
  | standable
  | other (code : Word)
deriving DecidableEq, Repr

namespace Status

/-- The status that a script asks for by a word. -/
def ofWord (word : Word) : Status :=
  if word = 0 then active else if word = 1 then dormant else if word = 2 then standable
  else other word

end Status

/-- What scripts keep on an entity between frames. -/
structure ActorState where
  /-- The general counter. -/
  count : Word := 0
  /-- The offset of the current move record. -/
  move : Word := 0
  /-- The animation steps done in the current action. -/
  actionCount : Word := 0
  /-- The current animation frame, relative to the first. -/
  actionFrame : Word := 0
  /-- The offset of the current action record. -/
  action : Word := 0
  /-- The offset of the current ai record. -/
  ai : Word := 0
  /-- The time since the last animation step. -/
  animationClock : Word := 0
  /-- The ticks until the entity goes dormant; zero when it is not counting. -/
  sleepTimer : Word := 0
  moveFlags : Word := 0
deriving DecidableEq, Repr

end ActorScript
