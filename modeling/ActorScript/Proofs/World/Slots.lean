import ActorScript.World.Field

/-!
# Slots and identities

An entity is alive when its identity has the generation of an occupied slot.  The
queries about an entity answer only while it is alive, and whatever changes an entity
leaves the slots as they are, each with its generation and its occupant.
-/

namespace ActorScript.World

variable {world : World} {id : EntityId}

theorem entity?_eq_some_iff {entity : Entity} :
    world.entity? id = some entity ↔
      world.slots[id.index.toNat]? = some ⟨id.generation, some entity⟩ := by
  unfold entity? slot?
  cases found : world.slots[id.index.toNat]? with
  | none => simp
  | some slot =>
      obtain ⟨generation, occupant⟩ := slot
      by_cases current : generation = id.generation
      · simp [current]
      · simp [current]

theorem isAlive_iff :
    world.isAlive id = true ↔
      ∃ entity, world.slots[id.index.toNat]? = some ⟨id.generation, some entity⟩ := by
  rw [isAlive, Option.isSome_iff_exists]
  exact exists_congr fun entity => entity?_eq_some_iff

/-! ## Changes of single entities -/

/-- What the slots say about who is alive: each generation, and whether the slot is
occupied. -/
def shape (world : World) : List (UInt32 × Bool) :=
  world.slots.toList.map fun slot => (slot.generation, slot.entity.isSome)

theorem shape_getElem? (world : World) (index : Nat) :
    world.shape[index]? =
      (world.slots[index]?).map fun slot => (slot.generation, slot.entity.isSome) := by
  simp [shape]

theorem length_shape (world : World) : world.shape.length = world.slots.size := by
  simp [shape]

theorem isAlive_iff_shape :
    world.isAlive id = true ↔ world.shape[id.index.toNat]? = some (id.generation, true) := by
  rw [isAlive_iff, shape_getElem?]
  constructor
  · rintro ⟨entity, found⟩
    simp [found]
  · intro found
    obtain ⟨⟨generation, occupant⟩, here, same⟩ := Option.map_eq_some_iff.1 found
    obtain ⟨rfl, occupied⟩ := Prod.mk.inj same
    obtain ⟨entity, rfl⟩ := Option.isSome_iff_exists.1 occupied
    exact ⟨entity, here⟩

/-- Changing an entity leaves the shape of the slots. -/
@[simp]
theorem shape_modify (world : World) (id : EntityId) (change : Entity → Entity) :
    (world.modify id change).shape = world.shape := by
  apply List.ext_getElem?
  intro index
  rw [shape_getElem?, shape_getElem?]
  simp only [modify, Array.getElem?_modify]
  split
  · cases world.slots[index]? with
    | none => rfl
    | some slot =>
        simp only [Option.map_some]
        split <;> simp
  · rfl

/-! ## Effects -/

/-- All that carrying out an effect can come to.  Entities other than its own are moved at
most. -/
inductive Carried (world : World) (source : Option EntityId) : EffectAnswer × World → Prop
  | idle (word : Word) : Carried world source (.value word, world)
  | spawns (kind : Word) (sector : Option Word) :
      Carried world source
        (.value (world.spawn kind sector).1.handle, (world.spawn kind sector).2)
  | changes (word : Word) (id : EntityId) {change : Entity → Entity}
      (state : ∀ entity, (change entity).state = entity.state)
      (fields : ∀ entity, (change entity).fields = entity.fields)
      (moves : source = some id ∨ ∀ entity, ∃ position, change entity = { entity with position }) :
      Carried world source (.value word, world.modify id change)
  | removes {id : EntityId} (own : source = some id) :
      Carried world source (.removed, world.remove id)

theorem carried (world : World) (source : Option EntityId) (effect : Effect) :
    Carried world source (world.carryOut source effect) := by
  unfold carryOut
  split
  · exact .spawns _ _
  · exact .spawns _ _
  · exact .changes _ _ (fun _ => rfl) (fun _ => rfl) (.inr fun _ => ⟨_, rfl⟩)
  · split
    · exact .idle _
    · split
      · exact .removes rfl
      · exact .changes _ _ (fun _ => rfl) (fun _ => rfl) (.inl rfl)
  all_goals exact .idle _

/-- Noting an effect before it is carried out touches no slot. -/
theorem applied (world : World) (source : Option EntityId) (effect : Effect) :
    ∃ noted : World, noted.slots = world.slots ∧ noted.free = world.free ∧
      Carried noted source (world.apply source effect) :=
  ⟨{ world with effects := world.effects.push ⟨source, effect⟩ }, rfl, rfl, carried _ _ _⟩

/-! ## Deletions -/

theorem deletions_spawn (world : World) (kind : Word) (sector : Option Word) :
    (world.spawn kind sector).2.deletions = world.deletions := by
  unfold spawn
  dsimp only
  split <;> rfl

theorem deletions_remove (world : World) (id : EntityId) :
    (world.remove id).deletions = world.deletions := by
  unfold remove
  split <;> rfl

/-- An effect removes an entity without recording it as deleted. -/
theorem deletions_apply (world : World) (source : Option EntityId) (effect : Effect) :
    (world.apply source effect).2.deletions = world.deletions := by
  unfold apply carryOut
  split
  · exact deletions_spawn _ _ _
  · exact deletions_spawn _ _ _
  · rfl
  · split
    · rfl
    · split
      · exact deletions_remove _ _
      · rfl
  all_goals rfl

theorem deletions_writeField (world : World) (ref : FieldRef) (field value : Word) :
    (world.writeField ref field value).deletions = world.deletions := by
  unfold writeField setField
  split
  · rfl
  · rfl
  · split <;> rfl
  · split <;> rfl
  · rfl

end ActorScript.World
