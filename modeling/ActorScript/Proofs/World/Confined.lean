import ActorScript.Proofs.World.Fields

/-!
# Changes confined to one entity

What is done on behalf of an entity may change that entity at will.  All others that were there
are there still, and nothing more has happened to them than that they have been moved, and that
those of their fields that are declared for writing have been written.
-/

namespace ActorScript.World

variable {world after : World} {owner : Option EntityId} {id : EntityId}
  {access : Word → Access} {entity middle later : Entity}

/-! ## Single entities -/

/-- An entity has been moved, and fields of it that may be written have been, at most. -/
def Brushed (access : Word → Access) (entity later : Entity) : Prop :=
  ∃ position fields, later = { entity with position, fields } ∧
    ∀ field, access field ≠ .readWrite → fields.get? field = entity.fields.get? field

theorem Brushed.refl (access : Word → Access) (entity : Entity) : Brushed access entity entity :=
  ⟨_, _, rfl, fun _ _ => rfl⟩

theorem Brushed.trans (first : Brushed access entity middle)
    (second : Brushed access middle later) : Brushed access entity later := by
  obtain ⟨_, _, rfl, kept⟩ := first
  obtain ⟨_, _, rfl, still⟩ := second
  exact ⟨_, _, rfl, fun field unwritable => (still field unwritable).trans (kept field unwritable)⟩

theorem brushed_insert {field : Word} (writable : access field = .readWrite) (value : Word) :
    Brushed access entity { entity with fields := entity.fields.insert field value } := by
  refine ⟨_, _, rfl, fun name unwritable => ?_⟩
  rw [Table.get?_insert, if_neg]
  rintro rfl
  exact unwritable writable

/-! ## Worlds -/

/-- A change of a world has its way with one entity, if with any, and brushes the others. -/
structure Confined (owner : Option EntityId) (before after : World) : Prop where
  tidy : after.Tidy
  access_eq : after.access = before.access
  brushed : ∀ other entity, owner ≠ some other → before.entity? other = some entity →
    ∃ later, after.entity? other = some later ∧ Brushed (before.access .actor) entity later

theorem Confined.refl (tidy : world.Tidy) (owner : Option EntityId) :
    Confined owner world world :=
  ⟨tidy, rfl, fun _ entity _ found => ⟨entity, found, .refl _ entity⟩⟩

theorem Confined.trans {before : World} (earlier : Confined owner before world)
    (rest : Confined owner world after) : Confined owner before after where
  tidy := rest.tidy
  access_eq := rest.access_eq.trans earlier.access_eq
  brushed other entity apart found := by
    obtain ⟨middle, middle_found, first⟩ := earlier.brushed other entity apart found
    obtain ⟨later, later_found, second⟩ := rest.brushed other middle apart middle_found
    rw [earlier.access_eq] at second
    exact ⟨later, later_found, first.trans second⟩

section Changes

variable (tidy : world.Tidy)
include tidy

/-- Whatever touches no slot is confined, whoever does it. -/
theorem confined_of_slots_eq (slots_eq : after.slots = world.slots)
    (free_eq : after.free = world.free) (access_eq : after.access = world.access) :
    Confined owner world after where
  tidy := (alike_of_slots_eq slots_eq free_eq).tidy tidy
  access_eq := access_eq
  brushed other entity _ found :=
    ⟨entity, (entity?_congr slots_eq other).trans found, .refl _ entity⟩

/-- The owner may be changed in any way, and anybody may be brushed. -/
theorem confined_modify {change : Entity → Entity}
    (brushes : owner = some id ∨ ∀ entity, Brushed (world.access .actor) entity (change entity)) :
    Confined owner world (world.modify id change) where
  tidy := (alike_modify world id change).tidy tidy
  access_eq := rfl
  brushed other entity apart found := by
    by_cases same : other = id
    · subst same
      refine ⟨change entity, ?_, brushes.resolve_left apart entity⟩
      rw [entity?_modify_self, found]
      rfl
    · refine ⟨entity, ?_, .refl _ entity⟩
      rw [entity?_modify_of_ne same]
      exact found

theorem confined_writeField {ref : FieldRef} {field : Word}
    (writable : world.access ref.target field = .readWrite) (value : Word) :
    Confined owner world (world.writeField ref field value) := by
  have counted : Confined owner world world.countFieldCall :=
    confined_of_slots_eq tidy rfl rfl rfl
  apply counted.trans
  unfold writeField setField
  cases ref with
  | actor id => exact confined_modify counted.tidy (.inr fun _ => brushed_insert writable value)
  | player number => exact confined_of_slots_eq counted.tidy rfl rfl rfl
  | sector number | wall number =>
      dsimp only
      split
      · exact confined_of_slots_eq counted.tidy rfl rfl rfl
      · exact .refl counted.tidy owner
  | userDef => exact confined_of_slots_eq counted.tidy rfl rfl rfl

theorem confined_spawn (small : world.slots.size < UInt32.size) (kind : Word)
    (sector : Option Word) : Confined owner world (world.spawn kind sector).2 where
  tidy := tidy.spawn kind sector small
  access_eq := by
    unfold spawn
    dsimp only
    split <;> rfl
  brushed other entity _ found := by
    have alive : world.isAlive other = true := Option.isSome_of_mem found
    exact ⟨entity, (entity?_spawn tidy alive kind sector).trans found, .refl _ entity⟩

/-- Nobody else is in the slot that is vacated. -/
theorem confined_remove (own : owner = some id) : Confined owner world (world.remove id) := by
  by_cases alive : world.isAlive id = true
  · refine ⟨Tidy.remove alive tidy, ?_, fun other entity apart found => ?_⟩
    · unfold remove
      split <;> rfl
    · have elsewhere : other.index ≠ id.index := by
        intro same
        have also : world.isAlive other = true := Option.isSome_of_mem found
        exact apart (own.trans (congrArg some (eq_of_index_eq alive also same.symm)))
      exact ⟨entity, (entity?_remove elsewhere).trans found, .refl _ entity⟩
  · rw [remove_of_not_isAlive (Bool.eq_false_iff.2 alive)]
    exact .refl tidy owner

theorem confined_delete (own : owner = some id) : Confined owner world (world.delete id) := by
  unfold delete
  split
  · have removed := confined_remove tidy own
    exact removed.trans (confined_of_slots_eq removed.tidy rfl rfl rfl)
  · exact .refl tidy owner

/-- An effect brushes everybody but the entity on whose behalf it is. -/
theorem confined_apply (small : world.slots.size < UInt32.size) {source : Option EntityId}
    (own : ∀ id, source = some id → owner = some id) (effect : Effect) :
    Confined owner world (world.apply source effect).2 := by
  have noted : Confined owner world
      { world with effects := world.effects.push ⟨source, effect⟩ } :=
    confined_of_slots_eq tidy rfl rfl rfl
  apply noted.trans
  have possible : Carried _ source (world.apply source effect) := carried _ source effect
  generalize world.apply source effect = outcome at possible
  cases possible with
  | idle _ => exact .refl noted.tidy owner
  | spawns kind sector => exact confined_spawn noted.tidy small kind sector
  | changes _ id _ _ moves =>
      apply confined_modify noted.tidy
      refine moves.imp (own id) fun moved entity => ?_
      obtain ⟨position, change_eq⟩ := moved entity
      exact ⟨position, entity.fields, change_eq, fun _ _ => rfl⟩
  | removes source_eq => exact confined_remove noted.tidy (own _ source_eq)

end Changes

end ActorScript.World
