import ActorScript.Entity
import ActorScript.Variable
import Std.Data.HashMap

/-!
# The values of variables

A registry holds the cells of the declared variables.  A global variable has
one cell and a player variable one for each player.  An actor variable has one
cell for each entity slot, marked with the generation that wrote it, so that a
later occupant of the slot starts from the initial value again.

Forgetting an entity raises the watermark of its slot.  Generations below the
watermark are retired: no read or write through them reaches a cell.
-/

namespace ActorScript

/-- The place of one value of a variable. -/
inductive Cell where
  | global (id : Nat)
  | actor (id : Nat) (entity : EntityId)
  | player (id : Nat) (player : PlayerId)
deriving DecidableEq, Repr

/-- A value of an actor variable, with the generation that wrote it. -/
structure ActorCell where
  generation : UInt32
  value : Word
deriving DecidableEq, Repr

/-- The values of the declared variables.  A cell that has not been written is
absent. -/
structure Registry where
  vars : Array Variable
  /-- The number of players that have cells. -/
  maxPlayers : Nat
  globals : Std.HashMap Nat Word := {}
  players : Std.HashMap (Nat × PlayerId) Word := {}
  /-- The cells of each actor variable in each slot. -/
  actors : Std.HashMap (Nat × UInt32) ActorCell := {}
  /-- The lowest generation of each slot that is not retired, when not zero. -/
  watermarks : Std.HashMap UInt32 UInt32 := {}

namespace Registry

/-- The registry of declared variables before any write. -/
def new (vars : Array Variable) (maxPlayers : Nat) : Registry :=
  { vars, maxPlayers }

/-- The variable that a word identifies. -/
def declaration? (registry : Registry) (id : Word) : Option Variable :=
  match id.offset? with
  | none => none
  | some index => registry.vars[index]?

/-- The identifier of the first variable with a name. -/
def idOf? (registry : Registry) (name : String) : Option Word :=
  (registry.vars.findIdx? fun declared => declared.name == name).map Word.ofOffset

/-- The lowest generation of a slot that is not retired. -/
def watermark (registry : Registry) (index : UInt32) : UInt32 :=
  registry.watermarks.getD index 0

/-- An entity has been forgotten, or a later occupant of its slot has. -/
def isRetired (registry : Registry) (entity : EntityId) : Bool :=
  entity.generation < registry.watermark entity.index

/-- The cell of a variable at an address. -/
def cellAt (registry : Registry) (index : Nat) (scope : Scope) (address : Address) :
    Option Cell :=
  match scope with
  | .global => some (.global index)
  | .actor =>
      match address.entity with
      | none => none
      | some entity => if registry.isRetired entity then none else some (.actor index entity)
  | .player =>
      match address.player with
      | none => none
      | some player =>
          if player.toNat < registry.maxPlayers then some (.player index player) else none

/-- The cell that a word and an address lead to. -/
def resolve (registry : Registry) (id : Word) (address : Address) : Option Cell :=
  match id.offset? with
  | none => none
  | some index =>
      match registry.vars[index]? with
      | none => none
      | some declared => registry.cellAt index declared.scope address

/-- The value in a cell of a variable.  An actor cell that a later occupant of
the slot has written is invalid for the earlier one. -/
def valueIn (registry : Registry) (declared : Variable) : Cell → Word
  | .global id => registry.globals.getD id declared.initial
  | .player id player => registry.players.getD (id, player) declared.initial
  | .actor id entity =>
      match registry.actors[(id, entity.index)]? with
      | none => declared.initial
      | some cell =>
          if cell.generation = entity.generation then cell.value
          else if cell.generation > entity.generation then declared.invalidValue
          else declared.initial

/-- Reads a variable.  An undeclared one reads as zero. -/
def get (registry : Registry) (id : Word) (address : Address) : Word :=
  match registry.declaration? id with
  | none => 0
  | some declared =>
      match registry.resolve id address with
      | none => declared.invalidValue
      | some cell => registry.valueIn declared cell

/-- Puts a value into a cell, unless a later occupant of the slot has written it. -/
def store (registry : Registry) (cell : Cell) (value : Word) : Registry :=
  match cell with
  | .global id => { registry with globals := registry.globals.insert id value }
  | .player id player => { registry with players := registry.players.insert (id, player) value }
  | .actor id entity =>
      match registry.actors[(id, entity.index)]? with
      | some present =>
          if present.generation > entity.generation then registry
          else { registry with
            actors := registry.actors.insert (id, entity.index) ⟨entity.generation, value⟩ }
      | none => { registry with
          actors := registry.actors.insert (id, entity.index) ⟨entity.generation, value⟩ }

/-- Writes a variable.  Writes to read-only and undeclared variables and to
addresses without a cell are ignored. -/
def set (registry : Registry) (id : Word) (address : Address) (value : Word) : Registry :=
  match registry.declaration? id with
  | none => registry
  | some declared =>
      if declared.readOnly then registry
      else
        match registry.resolve id address with
        | none => registry
        | some cell => registry.store cell value

/-- The generation behind another one, or the last generation of all. -/
def generationAfter (generation : UInt32) : UInt32 :=
  if generation = 0xFFFFFFFF then generation else generation + 1

/-- Retires an entity and every earlier occupant of its slot, and drops the
values that the entity has written. -/
def forget (registry : Registry) (entity : EntityId) : Registry :=
  { registry with
    watermarks := registry.watermarks.insert entity.index
      (max (registry.watermark entity.index) (generationAfter entity.generation))
    actors := registry.actors.filter fun key cell =>
      !(key.2 == entity.index && cell.generation == entity.generation) }

end Registry

end ActorScript
