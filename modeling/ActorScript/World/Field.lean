import ActorScript.World.Basic

/-!
# Fields

Scripts read and write numbered fields of entities, players, sectors and walls
and of the user settings, as far as they are declared.  With them the world has
all that a host needs.
-/

namespace ActorScript

namespace World

/-- What scripts may do with a field. -/
def access (world : World) (target : FieldTarget) (field : Word) : Access :=
  world.accesses.getD (target, field) .unknown

/-- Declares a field. -/
def declareField (world : World) (target : FieldTarget) (field : Word) (access : Access) :
    World :=
  { world with accesses := world.accesses.insert (target, field) access }

/-- The field of a sector, whether the sector exists or not. -/
def sectorField (world : World) (sector field : Word) : Word :=
  world.sectorFields.getD (sector, field) 0

/-- Sets the field of a sector, whether the sector exists or not. -/
def setSectorField (world : World) (sector field value : Word) : World :=
  { world with sectorFields := world.sectorFields.insert (sector, field) value }

/-- The field of a wall, whether the wall exists or not. -/
def wallField (world : World) (wall field : Word) : Word :=
  world.wallFields.getD (wall, field) 0

/-- A user setting. -/
def userField (world : World) (field : Word) : Word :=
  world.userFields.getD field 0

/-- Sets a user setting. -/
def setUserField (world : World) (field value : Word) : World :=
  { world with userFields := world.userFields.insert field value }

/-- The value of a field, or none when there is nothing that could have it. -/
def field? (world : World) (ref : FieldRef) (field : Word) : Option Word :=
  match ref with
  | .actor id => (world.entity? id).map fun entity => (entity.fields.get? field).getD 0
  | .player id => world.players[id.toNat]?.map fun player => (player.fields.get? field).getD 0
  | .sector number =>
      if isNumbered world.sectorCount number then some (world.sectorField number field) else none
  | .wall number =>
      if isNumbered world.wallCount number then some (world.wallField number field) else none
  | .userDef => some (world.userField field)

/-- Counts a read or write of a field. -/
def countFieldCall (world : World) : World :=
  { world with fieldCalls := world.fieldCalls + 1 }

/-- Reads a field. -/
def readField (world : World) (ref : FieldRef) (field : Word) : Option Word × World :=
  (world.field? ref field, world.countFieldCall)

/-- Sets a field, if there is something that can have it. -/
def setField (world : World) (ref : FieldRef) (field value : Word) : World :=
  match ref with
  | .actor id =>
      world.modify id fun entity => { entity with fields := entity.fields.insert field value }
  | .player id =>
      { world with players := world.players.modify id.toNat fun player =>
          { player with fields := player.fields.insert field value } }
  | .sector number =>
      if isNumbered world.sectorCount number then world.setSectorField number field value
      else world
  | .wall number =>
      if isNumbered world.wallCount number then
        { world with wallFields := world.wallFields.insert (number, field) value }
      else world
  | .userDef => world.setUserField field value

/-- Writes a field. -/
def writeField (world : World) (ref : FieldRef) (field value : Word) : World :=
  world.countFieldCall.setField ref field value

/-- Of the frame that a probe or an effect comes from this world regards only the
entity, and only for effects.  Nothing in it keeps an entity awake. -/
instance : Host World where
  entityAt? := entityAt?
  isAlive := isAlive
  kindOf? := kindOf?
  sectorOf? := sectorOf?
  statusOf? := statusOf?
  stateOf? := stateOf?
  modifyState := modifyState
  nearestPlayer? := nearestPlayer?
  access := access
  readField world ref field _ := world.readField ref field
  writeField world ref field _ value := world.writeField ref field value
  probe world _ asked := (world.probe asked, world)
  apply world context effect := world.apply context.address.entity effect
  advanceMotion := advanceMotion
  setStatus := setStatus
  checkStandable := checkStandable
  releasePlayers := releasePlayers
  delete := delete
  tickOrder := tickOrder

end World

end ActorScript
