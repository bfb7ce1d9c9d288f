import ActorScript.Proofs.World.Slots

/-!
# Generations

The generation of a slot counts how often the slot has been vacated.  It only grows, as
long as no slot is vacated as often as a generation can count, so an identity that has
lost its entity never gets one again.
-/

namespace ActorScript.World

variable {world : World} {id other : EntityId}

/-- The generation of a slot, which is zero as long as there is no such slot. -/
def generation (world : World) (index : UInt32) : UInt32 :=
  (world.shape[index.toNat]?.getD (0, false)).1

/-- There is an entity in a slot. -/
def isOccupied (world : World) (index : UInt32) : Bool :=
  (world.shape[index.toNat]?.getD (0, false)).2

/-- An entity is alive as long as its slot is occupied in its generation. -/
theorem isAlive_iff_generation :
    world.isAlive id = true ↔
      world.isOccupied id.index = true ∧ world.generation id.index = id.generation := by
  rw [isAlive_iff_shape, isOccupied, generation]
  cases world.shape[id.index.toNat]? with
  | none => simp
  | some slot =>
      obtain ⟨current, occupied⟩ := slot
      simp only [Option.some.injEq, Prod.mk.injEq, Option.getD_some]
      exact and_comm

/-- No two living entities share a slot. -/
theorem eq_of_index_eq (alive : world.isAlive id = true) (also : world.isAlive other = true)
    (same : id.index = other.index) : id = other := by
  have current := (isAlive_iff_generation.1 alive).2
  rw [same, (isAlive_iff_generation.1 also).2] at current
  cases id
  cases other
  rw [EntityId.mk.injEq]
  exact ⟨same, current.symm⟩

/-- The last generation that a slot can have. -/
def lastGeneration : UInt32 := 0xFFFFFFFF

theorem lt_add_one {generation : UInt32} (more : generation ≠ lastGeneration) :
    generation < generation + 1 := by
  have bound := generation.toNat_lt
  have different : generation.toNat ≠ 0xFFFFFFFF := by
    intro same
    apply more
    exact UInt32.toNat_inj.1 same
  rw [UInt32.lt_iff_toNat_lt, UInt32.toNat_add]
  simp
  omega

/-- The slots on the free list are there, empty and listed once. -/
structure Tidy (world : World) : Prop where
  nodup : world.free.Nodup
  vacant : ∀ index ∈ world.free,
    index.toNat < world.slots.size ∧ world.isOccupied index = false

/-- The world has been lived on: no generation goes back, and where it stays the entity
stays. -/
def Succeeds (before after : World) : Prop :=
  ∀ index, before.generation index < after.generation index ∨
    (before.generation index = after.generation index ∧
      (before.isOccupied index = true → after.isOccupied index = true))

theorem Succeeds.refl (world : World) : Succeeds world world :=
  fun _ => Or.inr ⟨rfl, id⟩

theorem Succeeds.trans {before between after : World} (first : Succeeds before between)
    (second : Succeeds between after) : Succeeds before after := by
  intro index
  rcases first index with grows | ⟨same, stays⟩
  · rcases second index with growsMore | ⟨same, _⟩
    · exact Or.inl (UInt32.lt_trans grows growsMore)
    · exact Or.inl (same ▸ grows)
  · rcases second index with grows | ⟨alike, staysOn⟩
    · exact Or.inl (same ▸ grows)
    · exact Or.inr ⟨same.trans alike, fun occupied => staysOn (stays occupied)⟩

/-- An identity has been given out: its entity is alive or has been removed. -/
def Knows (world : World) (id : EntityId) : Prop :=
  id.generation < world.generation id.index ∨ world.isAlive id = true

theorem Knows.later {before after : World} (knows : before.Knows id)
    (succeeds : Succeeds before after) : after.Knows id := by
  rcases succeeds id.index with grows | ⟨same, stays⟩
  · rcases knows with gone | alive
    · exact Or.inl (UInt32.lt_trans gone grows)
    · rw [isAlive_iff_generation] at alive
      exact Or.inl (alive.2 ▸ grows)
  · rcases knows with gone | alive
    · exact Or.inl (same ▸ gone)
    · rw [isAlive_iff_generation] at alive
      exact Or.inr (isAlive_iff_generation.2 ⟨stays alive.1, same ▸ alive.2⟩)

/-! ## Worlds with the same slots -/

/-- Two worlds agree on which slots there are, which are free and who is alive. -/
structure Alike (before after : World) : Prop where
  shape_eq : after.shape = before.shape
  free_eq : after.free = before.free

namespace Alike

variable {after : World} (alike : Alike world after)
include alike

theorem generation_eq : after.generation = world.generation := by
  funext index
  rw [generation, generation, alike.shape_eq]

theorem isOccupied_eq : after.isOccupied = world.isOccupied := by
  funext index
  rw [isOccupied, isOccupied, alike.shape_eq]

theorem size_eq : after.slots.size = world.slots.size := by
  rw [← length_shape, alike.shape_eq, length_shape]

theorem isAlive_eq (id : EntityId) : after.isAlive id = world.isAlive id := by
  rw [Bool.eq_iff_iff, isAlive_iff_shape, isAlive_iff_shape, alike.shape_eq]

theorem succeeds : Succeeds world after := by
  intro index
  rw [alike.generation_eq, alike.isOccupied_eq]
  exact Or.inr ⟨rfl, id⟩

theorem tidy (tidy : world.Tidy) : after.Tidy where
  nodup := alike.free_eq ▸ tidy.nodup
  vacant index member := by
    rw [alike.size_eq, alike.isOccupied_eq]
    exact tidy.vacant index (alike.free_eq ▸ member)

end Alike

theorem Alike.trans {before between after : World} (first : Alike before between)
    (second : Alike between after) : Alike before after :=
  ⟨second.shape_eq.trans first.shape_eq, second.free_eq.trans first.free_eq⟩

theorem alike_of_slots_eq {after : World} (slots_eq : after.slots = world.slots)
    (free_eq : after.free = world.free) : Alike world after :=
  ⟨by rw [shape, shape, slots_eq], free_eq⟩

theorem alike_countFieldCall (world : World) : Alike world world.countFieldCall :=
  ⟨rfl, rfl⟩

theorem alike_modify (world : World) (id : EntityId) (change : Entity → Entity) :
    Alike world (world.modify id change) :=
  ⟨shape_modify world id change, rfl⟩

theorem alike_modifyState (world : World) (id : EntityId) (change : ActorState → ActorState) :
    Alike world (world.modifyState id change) :=
  alike_modify world id _

theorem alike_writeField (world : World) (ref : FieldRef) (field value : Word) :
    Alike world (world.writeField ref field value) := by
  unfold writeField setField
  split
  · exact (alike_countFieldCall world).trans (alike_modify _ _ _)
  · exact ⟨rfl, rfl⟩
  · split <;> exact ⟨rfl, rfl⟩
  · split <;> exact ⟨rfl, rfl⟩
  · exact ⟨rfl, rfl⟩

/-! ## New entities -/

section Spawn

variable (kind : Word) (sector : Option Word)

/-- A slot from the free list is occupied in its generation. -/
theorem shape_spawn_of_free {index : UInt32} {rest : List UInt32}
    (free_eq : world.free = index :: rest) (place : Nat) :
    (world.spawn kind sector).2.shape[place]? =
      if index.toNat = place then (world.shape[place]?).map fun slot => (slot.1, true)
      else world.shape[place]? := by
  rw [shape_getElem?, shape_getElem?]
  simp only [spawn, free_eq, Array.getElem?_modify]
  split
  · cases world.slots[place]? <;> simp
  · rfl

/-- Without a free slot there is a new one behind the others. -/
theorem shape_spawn_of_full (free_eq : world.free = []) :
    (world.spawn kind sector).2.shape = world.shape ++ [(0, true)] := by
  simp [spawn, free_eq, shape]

/-- A new entity changes no generation. -/
theorem generation_spawn :
    (world.spawn kind sector).2.generation = world.generation := by
  funext index
  unfold generation
  cases free_eq : world.free with
  | nil =>
      rw [shape_spawn_of_full kind sector free_eq, List.getElem?_append]
      split
      · rfl
      · rename_i beyond
        rw [List.getElem?_eq_none (Nat.not_lt.1 beyond)]
        cases index.toNat - world.shape.length <;> rfl
  | cons first rest =>
      rw [shape_spawn_of_free kind sector free_eq]
      split
      · cases world.shape[index.toNat]? <;> rfl
      · rfl

/-- A new entity has the generation of its slot. -/
theorem spawn_generation (small : world.slots.size < UInt32.size) :
    (world.spawn kind sector).1.generation =
      world.generation (world.spawn kind sector).1.index := by
  unfold generation
  cases free_eq : world.free with
  | nil =>
      have place : (UInt32.ofNat world.slots.size).toNat = world.slots.size :=
        UInt32.toNat_ofNat_of_lt' small
      simp only [spawn, free_eq, place]
      rw [List.getElem?_eq_none (Nat.le_of_eq (length_shape world))]
      rfl
  | cons first rest =>
      simp only [spawn, free_eq, shape_getElem?]
      cases world.slots[first.toNat]? <;> rfl

/-- A new entity occupies its slot and no other. -/
theorem isOccupied_spawn (tidy : world.Tidy) (small : world.slots.size < UInt32.size)
    (index : UInt32) :
    (world.spawn kind sector).2.isOccupied index =
      (decide (index = (world.spawn kind sector).1.index) || world.isOccupied index) := by
  unfold isOccupied
  cases free_eq : world.free with
  | nil =>
      have place : (UInt32.ofNat world.slots.size).toNat = world.slots.size :=
        UInt32.toNat_ofNat_of_lt' small
      have same_iff : index = UInt32.ofNat world.slots.size ↔ index.toNat = world.slots.size := by
        rw [← UInt32.toNat_inj, place]
      have id_eq : (world.spawn kind sector).1.index = UInt32.ofNat world.slots.size := by
        simp [spawn, free_eq]
      rw [shape_spawn_of_full kind sector free_eq, List.getElem?_append, length_shape, id_eq]
      simp only [same_iff]
      rcases Nat.lt_trichotomy index.toNat world.slots.size with below | here | above
      · simp [below, Nat.ne_of_lt below]
      · simp [here]
      · have beyond : world.shape[index.toNat]? = none := by
          rw [List.getElem?_eq_none]
          rw [length_shape]
          exact Nat.le_of_lt above
        have further : [((0 : UInt32), true)][index.toNat - world.slots.size]? = none := by
          rw [List.getElem?_eq_none]
          exact Nat.sub_pos_of_lt above
        rw [if_neg (Nat.not_lt.2 (Nat.le_of_lt above)), beyond, further]
        simp [Nat.ne_of_gt above]
  | cons first rest =>
      have inside := (tidy.vacant first (free_eq ▸ List.mem_cons_self)).1
      have id_eq : (world.spawn kind sector).1.index = first := by
        simp [spawn, free_eq]
      rw [shape_spawn_of_free kind sector free_eq, id_eq]
      by_cases here : index = first
      · subst here
        simp [shape_getElem?, inside]
      · have apart : first.toNat ≠ index.toNat := by
          intro same
          exact here (UInt32.toNat_inj.1 same).symm
        simp [apart, here]

theorem size_spawn : world.slots.size ≤ (world.spawn kind sector).2.slots.size := by
  unfold spawn
  dsimp only
  split <;> simp

theorem succeeds_spawn (tidy : world.Tidy) (small : world.slots.size < UInt32.size) :
    Succeeds world (world.spawn kind sector).2 := by
  intro index
  right
  constructor
  · rw [generation_spawn]
  · intro occupied
    simp [isOccupied_spawn kind sector tidy small, occupied]

/-- The identity of a new entity is that of a living one. -/
theorem isAlive_spawn (tidy : world.Tidy) (small : world.slots.size < UInt32.size) :
    (world.spawn kind sector).2.isAlive (world.spawn kind sector).1 = true := by
  rw [isAlive_iff_generation, generation_spawn, ← spawn_generation kind sector small]
  simp [isOccupied_spawn kind sector tidy small]

theorem Tidy.spawn (tidy : world.Tidy) (small : world.slots.size < UInt32.size) :
    (world.spawn kind sector).2.Tidy := by
  cases free_eq : world.free with
  | nil =>
      have none_free : (world.spawn kind sector).2.free = [] := by
        simp [World.spawn, free_eq]
      constructor
      · rw [none_free]
        exact List.nodup_nil
      · rw [none_free]
        exact List.forall_mem_nil _
  | cons first rest =>
      have id_eq : (world.spawn kind sector).1.index = first := by
        simp [World.spawn, free_eq]
      have rest_free : (world.spawn kind sector).2.free = rest := by
        simp [World.spawn, free_eq]
      obtain ⟨absent, nodup⟩ := List.nodup_cons.1 (free_eq ▸ tidy.nodup)
      constructor
      · rw [rest_free]
        exact nodup
      · intro index member
        rw [rest_free] at member
        obtain ⟨inside, empty⟩ := tidy.vacant index (free_eq ▸ List.mem_cons_of_mem _ member)
        have apart : index ≠ first := by
          rintro rfl
          exact absent member
        constructor
        · exact Nat.lt_of_lt_of_le inside (size_spawn kind sector)
        · simp [isOccupied_spawn kind sector tidy small, id_eq, apart, empty]

end Spawn

/-- The slot of a new entity is that of the free list, whatever else the world holds. -/
theorem spawn_congr {after : World} (slots_eq : after.slots = world.slots)
    (free_eq : after.free = world.free) (kind other : Word) (sector place : Option Word) :
    (after.spawn kind sector).1 = (world.spawn other place).1 := by
  unfold spawn
  rw [slots_eq, free_eq]
  cases world.free <;> rfl

/-- The effects that spawn an entity do so in the slots as they are. -/
theorem isAlive_apply (tidy : world.Tidy) (small : world.slots.size < UInt32.size)
    (source : Option EntityId) {effect : Effect} {kind : Word}
    (spawns : effect = .spawn kind ∨ effect = .spawnInto kind) :
    (world.apply source effect).2.isAlive
      (world.spawn kind (source.bind world.sectorOf?)).1 = true := by
  have carried : ∃ noted : World, noted.slots = world.slots ∧ noted.free = world.free ∧
      (world.apply source effect).2 = (noted.spawn kind (source.bind noted.sectorOf?)).2 := by
    refine ⟨{ world with effects := world.effects.push ⟨source, effect⟩ }, rfl, rfl, ?_⟩
    rcases spawns with rfl | rfl <;> rfl
  obtain ⟨noted, slots_eq, free_eq, apply_eq⟩ := carried
  have alike := alike_of_slots_eq slots_eq free_eq
  rw [apply_eq, ← spawn_congr slots_eq free_eq kind kind (source.bind noted.sectorOf?)]
  exact isAlive_spawn kind _ (alike.tidy tidy) (alike.size_eq ▸ small)

/-! ## Removed entities -/

/-- A removal takes no slot away. -/
theorem size_remove (world : World) (id : EntityId) :
    (world.remove id).slots.size = world.slots.size := by
  unfold remove
  split
  · exact Array.size_modify
  · rfl

section Remove

variable (alive : world.isAlive id = true)
include alive

theorem shape_remove (place : Nat) :
    (world.remove id).shape[place]? =
      if id.index.toNat = place then (world.shape[place]?).map fun slot => (slot.1 + 1, false)
      else world.shape[place]? := by
  rw [shape_getElem?, shape_getElem?]
  simp only [remove, alive, if_true, Array.getElem?_modify]
  split
  · cases world.slots[place]? <;> simp
  · rfl

/-- A vacated slot goes on to the next generation, and the other slots stay as they are. -/
theorem shape_remove_index (index : UInt32) :
    (world.remove id).shape[index.toNat]? =
      if index = id.index then some (id.generation + 1, false)
      else world.shape[index.toNat]? := by
  rw [shape_remove alive]
  by_cases here : index = id.index
  · subst here
    simp [isAlive_iff_shape.1 alive]
  · have apart : id.index.toNat ≠ index.toNat := by
      intro same
      exact here (UInt32.toNat_inj.1 same).symm
    simp [apart, here]

theorem generation_remove (index : UInt32) :
    (world.remove id).generation index =
      if index = id.index then id.generation + 1 else world.generation index := by
  unfold generation
  rw [shape_remove_index alive]
  split <;> rfl

theorem isOccupied_remove (index : UInt32) :
    (world.remove id).isOccupied index = (decide (index ≠ id.index) && world.isOccupied index) := by
  unfold isOccupied
  rw [shape_remove_index alive]
  by_cases here : index = id.index <;> simp [here]

theorem succeeds_remove (more : id.generation ≠ lastGeneration) :
    Succeeds world (world.remove id) := by
  have current := (isAlive_iff_generation.1 alive).2
  intro index
  rw [generation_remove alive, isOccupied_remove alive]
  by_cases here : index = id.index
  · subst here
    left
    rw [if_pos rfl, current]
    exact lt_add_one more
  · right
    simp [here]

theorem Tidy.remove (tidy : world.Tidy) : (world.remove id).Tidy := by
  have free_eq : (world.remove id).free = id.index :: world.free := by
    simp [World.remove, alive]
  have occupied := (isAlive_iff_generation.1 alive).1
  have inside : id.index.toNat < world.slots.size := by
    obtain ⟨entity, found⟩ := isAlive_iff.1 alive
    exact (Array.getElem?_eq_some_iff.1 found).1
  constructor
  · rw [free_eq, List.nodup_cons]
    refine ⟨?_, tidy.nodup⟩
    intro listed
    rw [(tidy.vacant _ listed).2] at occupied
    contradiction
  · intro index member
    rw [size_remove, isOccupied_remove alive]
    rw [free_eq] at member
    rcases List.mem_cons.1 member with rfl | listed
    · simp [inside]
    · obtain ⟨below, empty⟩ := tidy.vacant index listed
      simp [below, empty]

end Remove

/-- Nothing is removed under an identity that has lost its entity. -/
theorem remove_of_not_isAlive (gone : world.isAlive id = false) : world.remove id = world := by
  simp [remove, gone]

/-- A deletion is a removal as far as the slots are concerned. -/
theorem alike_remove_delete (world : World) (id : EntityId) :
    Alike (world.remove id) (world.delete id) := by
  unfold delete
  split
  · exact ⟨rfl, rfl⟩
  · rename_i gone
    rw [remove_of_not_isAlive (Bool.eq_false_iff.2 gone)]
    exact ⟨rfl, rfl⟩

theorem size_delete (world : World) (id : EntityId) :
    (world.delete id).slots.size = world.slots.size :=
  (alike_remove_delete world id).size_eq.trans (size_remove world id)

/-- No slot has been created yet. -/
structure Fresh (world : World) : Prop where
  slots : world.slots = #[]
  free : world.free = []

theorem fresh_new (sectorCount wallCount : Word) : (World.new sectorCount wallCount).Fresh :=
  ⟨rfl, rfl⟩

theorem Fresh.tidy (fresh : world.Fresh) : world.Tidy where
  nodup := by
    rw [fresh.free]
    exact List.nodup_nil
  vacant := by
    rw [fresh.free]
    exact List.forall_mem_nil _

theorem Fresh.generation_eq (fresh : world.Fresh) (index : UInt32) :
    world.generation index = 0 := by
  simp [generation, shape, fresh.slots]

/-- An identity that has lost its entity never gets one again. -/
theorem Knows.stays_gone {after : World} (knows : world.Knows id)
    (gone : world.isAlive id = false) (succeeds : Succeeds world after) :
    after.isAlive id = false := by
  have passed : id.generation < world.generation id.index := by
    rcases knows with passed | alive
    · exact passed
    · rw [gone] at alive
      contradiction
  apply Bool.eq_false_iff.2
  intro alive
  have current := (isAlive_iff_generation.1 alive).2
  rcases succeeds id.index with grows | ⟨same, _⟩
  · rw [current] at grows
    exact UInt32.lt_asymm passed grows
  · rw [same, current] at passed
    exact UInt32.lt_irrefl _ passed

/-! ## Worlds with room -/

/-- There can be more slots, and every slot can be vacated once more. -/
structure Roomy (world : World) : Prop where
  size : world.slots.size < UInt32.size
  more : ∀ slot ∈ world.slots, slot.generation ≠ lastGeneration

theorem Roomy.generation_ne (roomy : world.Roomy) (alive : world.isAlive id = true) :
    id.generation ≠ lastGeneration := by
  obtain ⟨entity, found⟩ := isAlive_iff.1 alive
  exact roomy.more _ (Array.mem_of_getElem? found)

/-- Every living entity is listed with its identity. -/
theorem mem_occupants_iff (small : world.slots.size < UInt32.size) {entity : Entity} :
    (id, entity) ∈ world.occupants ↔ world.entity? id = some entity := by
  rw [entity?_eq_some_iff, occupants, List.mem_filterMap]
  constructor
  · rintro ⟨⟨slot, index⟩, indexed, found⟩
    obtain ⟨occupant, occupied, same⟩ := Option.map_eq_some_iff.1 found
    cases same
    have slot_eq : world.slots[index]? = some slot := by
      simpa using List.mem_zipIdx_iff_getElem?.1 indexed
    have inside : index < world.slots.size := (Array.getElem?_eq_some_iff.1 slot_eq).1
    have place : (UInt32.ofNat index).toNat = index :=
      UInt32.toNat_ofNat_of_lt' (Nat.lt_trans inside small)
    rw [place, slot_eq, ← occupied]
  · intro found
    refine ⟨(⟨id.generation, some entity⟩, id.index.toNat), ?_, ?_⟩
    · apply List.mem_zipIdx_iff_getElem?.2
      simpa using found
    · simp

theorem isAlive_of_mem_occupants (small : world.slots.size < UInt32.size)
    {occupant : EntityId × Entity} (member : occupant ∈ world.occupants) :
    world.isAlive occupant.1 = true := by
  rw [isAlive, (mem_occupants_iff small).1 member]
  rfl

/-- A pass goes over living entities. -/
theorem isAlive_of_mem_tickOrder (small : world.slots.size < UInt32.size)
    (member : id ∈ world.tickOrder) : world.isAlive id = true := by
  have listed : ∃ occupant ∈ world.census, occupant.1 = id := by
    simp only [tickOrder, List.mem_append, List.mem_map, List.mem_filter] at member
    rcases member with (⟨occupant, ⟨listed, _⟩, rfl⟩ | ⟨occupant, ⟨listed, _⟩, rfl⟩) |
      ⟨occupant, ⟨listed, _⟩, rfl⟩
    all_goals exact ⟨occupant, listed, rfl⟩
  obtain ⟨occupant, listed, rfl⟩ := listed
  exact isAlive_of_mem_occupants small (List.mem_mergeSort.1 listed)

theorem Roomy.generation_ne_of_mem_tickOrder (roomy : world.Roomy) :
    ∀ id ∈ world.tickOrder, id.generation ≠ lastGeneration := by
  intro id member
  exact roomy.generation_ne (isAlive_of_mem_tickOrder roomy.size member)

end ActorScript.World
