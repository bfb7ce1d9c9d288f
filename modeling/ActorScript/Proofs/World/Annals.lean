import ActorScript.Proofs.World.Fields
import Mathlib.Data.List.Induction

/-!
# Annals

Beside a world runs its book of births and removals, which knows nothing of slots and
generations.  The book tells the world: who stands in it is alive, in the order in which the
entities were created, the empty slots are those on the free list, and the generation of a slot
counts its removals.
-/

namespace ActorScript.World

/-! ## Histories -/

/-- What can be done to the entities of a world. -/
inductive Operation where
  | spawn (kind : Word) (sector : Option Word)
  | delete (id : EntityId)
  | setStatus (id : EntityId) (status : Status)
  /-- An effect on behalf of an entity, which can create, remove or change one. -/
  | cause (source : Option EntityId) (effect : Effect)
deriving DecidableEq, Repr

/-- Carries out an operation. -/
def perform (world : World) : Operation → World
  | .spawn kind sector => (world.spawn kind sector).2
  | .delete id => world.delete id
  | .setStatus id status => world.setStatus id status
  | .cause source effect => (world.apply source effect).2

/-- What an operation is about. -/
inductive Notice where
  | birth (id : EntityId)
  | removal (id : EntityId)
  | neither
deriving DecidableEq, Repr

/-- Who is created or is to be removed, if anybody.  Whoever is to be removed need not be
there. -/
def notice (world : World) : Operation → Notice
  | .spawn kind sector => .birth (world.spawn kind sector).1
  | .delete id => .removal id
  | .setStatus _ _ => .neither
  | .cause source effect =>
      match effect with
      | .spawn kind | .spawnInto kind =>
          .birth (world.spawn kind (source.bind world.sectorOf?)).1
      | .changeStatus status =>
          match source with
          | some id => if status = removedStatus then .removal id else .neither
          | none => .neither
      | _ => .neither

/-- The book of a world, with the oldest entries first. -/
structure Annals where
  /-- The identities given out. -/
  issued : List EntityId := []
  /-- The identities that have lost their entity. -/
  removed : List EntityId := []
  /-- The identities of those who are there, in the order of their creation. -/
  standing : List EntityId := []
deriving DecidableEq, Repr

namespace Annals

/-- Enters a notice.  A removal of somebody who is not there changes nothing. -/
def enter (annals : Annals) : Notice → Annals
  | .birth id =>
      { annals with
        issued := annals.issued ++ [id]
        standing := annals.standing ++ [id] }
  | .removal id =>
      if id ∈ annals.standing then
        { annals with
          removed := annals.removed ++ [id]
          standing := annals.standing.erase id }
      else annals
  | .neither => annals

/-- How often a slot has been vacated. -/
def frees (annals : Annals) (slot : UInt32) : Nat :=
  annals.removed.countP (·.index = slot)

theorem enter_removal_of_mem {annals : Annals} {id : EntityId} (present : id ∈ annals.standing) :
    annals.enter (.removal id) =
      { annals with
        removed := annals.removed ++ [id]
        standing := annals.standing.erase id } :=
  if_pos present

theorem enter_removal_of_not_mem {annals : Annals} {id : EntityId}
    (absent : id ∉ annals.standing) : annals.enter (.removal id) = annals :=
  if_neg absent

/-- A removal vacates one slot. -/
theorem frees_enter_removal {annals : Annals} {id : EntityId} (present : id ∈ annals.standing)
    (slot : UInt32) :
    (annals.enter (.removal id)).frees slot =
      annals.frees slot + if id.index = slot then 1 else 0 := by
  rw [enter_removal_of_mem present]
  simp only [frees, List.countP_append, List.countP_singleton, decide_eq_true_eq]

theorem frees_le_enter (annals : Annals) (notice : Notice) (slot : UInt32) :
    annals.frees slot ≤ (annals.enter notice).frees slot := by
  cases notice with
  | birth _ | neither => exact Nat.le_refl _
  | removal id =>
      by_cases present : id ∈ annals.standing
      · rw [frees_enter_removal present]
        exact Nat.le_add_right _ _
      · have same := enter_removal_of_not_mem present
        exact Nat.le_of_eq (congrArg (·.frees slot) same.symm)

end Annals

/-- A world and its annals after a history. -/
def run (world : World) (history : List Operation) : World × Annals :=
  history.foldl
    (fun (world, annals) operation =>
      (world.perform operation, annals.enter (world.notice operation)))
    (world, {})

@[simp]
theorem run_append_singleton (world : World) (history : List Operation) (operation : Operation) :
    world.run (history ++ [operation]) =
      ((world.run history).1.perform operation,
        (world.run history).2.enter ((world.run history).1.notice operation)) := by
  simp [run]

variable {world : World} {id other : EntityId}

/-! ## Who is alive after a change -/

theorem isAlive_spawn_iff (tidy : world.Tidy) (small : world.slots.size < UInt32.size)
    (kind : Word) (sector : Option Word) :
    (world.spawn kind sector).2.isAlive id = true ↔
      world.isAlive id = true ∨ id = (world.spawn kind sector).1 := by
  constructor
  · intro alive
    obtain ⟨occupied, current⟩ := isAlive_iff_generation.1 alive
    rw [isOccupied_spawn kind sector tidy small, Bool.or_eq_true, decide_eq_true_eq] at occupied
    rcases occupied with here | before
    · exact .inr (eq_of_index_eq alive (isAlive_spawn kind sector tidy small) here)
    · rw [generation_spawn] at current
      exact .inl (isAlive_iff_generation.2 ⟨before, current⟩)
  · rintro (alive | rfl)
    · rw [isAlive, entity?_spawn tidy alive]
      exact alive
    · exact isAlive_spawn kind sector tidy small

theorem isAlive_remove_iff (alive : world.isAlive id = true) :
    (world.remove id).isAlive other = true ↔ world.isAlive other = true ∧ other ≠ id := by
  rw [isAlive_iff_generation, isOccupied_remove alive, generation_remove alive, Bool.and_eq_true,
    decide_eq_true_eq]
  constructor
  · rintro ⟨⟨elsewhere, occupied⟩, current⟩
    rw [if_neg elsewhere] at current
    refine ⟨isAlive_iff_generation.2 ⟨occupied, current⟩, ?_⟩
    rintro rfl
    exact elsewhere rfl
  · rintro ⟨still, apart⟩
    have elsewhere : other.index ≠ id.index := fun same => apart (eq_of_index_eq still alive same)
    rw [if_neg elsewhere]
    obtain ⟨occupied, current⟩ := isAlive_iff_generation.1 still
    exact ⟨⟨elsewhere, occupied⟩, current⟩

/-- A new entity has the next number. -/
theorem entity?_spawn_self (tidy : world.Tidy) (small : world.slots.size < UInt32.size)
    (kind : Word) (sector : Option Word) :
    (world.spawn kind sector).2.entity? (world.spawn kind sector).1 =
      some { kind, sector, serial := world.nextSerial } := by
  rw [entity?_eq_some_iff]
  cases free_eq : world.free with
  | nil =>
      have place : (UInt32.ofNat world.slots.size).toNat = world.slots.size :=
        UInt32.toNat_ofNat_of_lt' small
      simp [spawn, free_eq, place]
  | cons first rest =>
      have inside := (tidy.vacant first (free_eq ▸ List.mem_cons_self)).1
      simp [spawn, free_eq, Array.getElem_modify, inside]

theorem nextSerial_spawn (world : World) (kind : Word) (sector : Option Word) :
    (world.spawn kind sector).2.nextSerial = world.nextSerial + 1 := by
  unfold spawn
  dsimp only
  split <;> rfl

theorem nextSerial_remove (world : World) (id : EntityId) :
    (world.remove id).nextSerial = world.nextSerial := by
  unfold remove
  split <;> rfl

/-! ## The order of creation -/

/-- How many entities had been created before one. -/
def serialOf (world : World) (id : EntityId) : Nat :=
  ((world.entity? id).map (·.serial)).getD 0

theorem serialOf_congr {after : World} (same : after.entity? id = world.entity? id) :
    after.serialOf id = world.serialOf id := by
  rw [serialOf, serialOf, same]

theorem serialOf_modify {change : Entity → Entity}
    (serial : ∀ entity, (change entity).serial = entity.serial) (world : World)
    (id other : EntityId) : (world.modify id change).serialOf other = world.serialOf other := by
  unfold serialOf
  by_cases same : other = id
  · subst same
    rw [entity?_modify_self, Option.map_map]
    simp only [Function.comp_def, serial]
  · rw [entity?_modify_of_ne same]

/-- Those who are alive are listed, in the order of their creation. -/
structure Lists (standing : List EntityId) (world : World) : Prop where
  mem_iff : ∀ id, id ∈ standing ↔ world.isAlive id = true
  ordered : standing.Pairwise fun left right => world.serialOf left < world.serialOf right
  serial_lt : ∀ id ∈ standing, world.serialOf id < world.nextSerial

section Lists

variable {standing : List EntityId} (lists : Lists standing world)
include lists

theorem Lists.congr {after : World} (slots_eq : after.slots = world.slots)
    (next_eq : after.nextSerial = world.nextSerial) : Lists standing after := by
  have same := entity?_congr slots_eq
  have serial_eq : after.serialOf = world.serialOf := funext fun id => serialOf_congr (same id)
  refine ⟨fun id => ?_, ?_, ?_⟩
  · rw [isAlive, same]
    exact lists.mem_iff id
  · rw [serial_eq]
    exact lists.ordered
  · rw [serial_eq, next_eq]
    exact lists.serial_lt

theorem Lists.modify {change : Entity → Entity}
    (serial : ∀ entity, (change entity).serial = entity.serial) (id : EntityId) :
    Lists standing (world.modify id change) := by
  have serial_eq : (world.modify id change).serialOf = world.serialOf :=
    funext fun other => serialOf_modify serial world id other
  refine ⟨fun other => ?_, ?_, ?_⟩
  · rw [(alike_modify world id change).isAlive_eq]
    exact lists.mem_iff other
  · rw [serial_eq]
    exact lists.ordered
  · rw [serial_eq]
    exact lists.serial_lt

/-- The youngest comes last. -/
theorem Lists.spawn (tidy : world.Tidy) (small : world.slots.size < UInt32.size) (kind : Word)
    (sector : Option Word) :
    Lists (standing ++ [(world.spawn kind sector).1]) (world.spawn kind sector).2 := by
  have before : ∀ id ∈ standing, (world.spawn kind sector).2.serialOf id = world.serialOf id :=
    fun id listed => serialOf_congr (entity?_spawn tidy ((lists.mem_iff id).1 listed) kind sector)
  have youngest : (world.spawn kind sector).2.serialOf (world.spawn kind sector).1 =
      world.nextSerial := by
    rw [serialOf, entity?_spawn_self tidy small]
    rfl
  refine ⟨fun id => ?_, ?_, ?_⟩
  · rw [List.mem_append, List.mem_singleton, lists.mem_iff, isAlive_spawn_iff tidy small]
  · rw [List.pairwise_append]
    refine ⟨?_, List.pairwise_singleton _ _, ?_⟩
    · apply lists.ordered.imp_of_mem
      intro left right left_listed right_listed less
      rw [before left left_listed, before right right_listed]
      exact less
    · intro left listed right only
      rw [List.mem_singleton.1 only, before left listed, youngest]
      exact lists.serial_lt left listed
  · intro id listed
    rw [nextSerial_spawn]
    rcases List.mem_append.1 listed with earlier | only
    · rw [before id earlier]
      exact Nat.lt_succ_of_lt (lists.serial_lt id earlier)
    · rw [List.mem_singleton.1 only, youngest]
      exact Nat.lt_succ_self _

theorem Lists.nodup : standing.Nodup :=
  lists.ordered.imp fun less same => Nat.ne_of_lt less (congrArg _ same)

theorem Lists.remove (alive : world.isAlive id = true) :
    Lists (standing.erase id) (world.remove id) := by
  have mem_iff : ∀ other, other ∈ standing.erase id ↔ (world.remove id).isAlive other = true := by
    intro other
    rw [lists.nodup.mem_erase_iff, lists.mem_iff, isAlive_remove_iff alive, and_comm]
  have serial_eq : ∀ other ∈ standing.erase id,
      (world.remove id).serialOf other = world.serialOf other := by
    intro other listed
    obtain ⟨still, apart⟩ := (isAlive_remove_iff alive).1 ((mem_iff other).1 listed)
    apply serialOf_congr
    exact entity?_remove fun same => apart (eq_of_index_eq still alive same)
  refine ⟨mem_iff, ?_, ?_⟩
  · apply (lists.ordered.erase id).imp_of_mem
    intro left right left_listed right_listed less
    rw [serial_eq left left_listed, serial_eq right right_listed]
    exact less
  · intro other listed
    rw [serial_eq other listed, nextSerial_remove]
    exact lists.serial_lt other (List.mem_of_mem_erase listed)

end Lists

theorem mem_live_iff (small : world.slots.size < UInt32.size) :
    id ∈ world.live ↔ world.isAlive id = true := by
  rw [live, census, List.mem_map, isAlive, Option.isSome_iff_exists]
  constructor
  · rintro ⟨⟨_, entity⟩, listed, rfl⟩
    exact ⟨entity, (mem_occupants_iff small).1 (List.mem_mergeSort.1 listed)⟩
  · rintro ⟨entity, found⟩
    exact ⟨(id, entity), List.mem_mergeSort.2 ((mem_occupants_iff small).2 found), rfl⟩

theorem nodup_live (small : world.slots.size < UInt32.size) : world.live.Nodup := by
  have nodup := nodup_census small
  have indices : world.live.map (·.index) = world.census.map (·.1.index) := by
    rw [live, List.map_map]
    rfl
  rw [← indices] at nodup
  exact nodup.of_map

/-- The world lists those who are alive by their numbers. -/
theorem pairwise_live (small : world.slots.size < UInt32.size) :
    world.live.Pairwise fun left right => world.serialOf left ≤ world.serialOf right := by
  have sorted : world.census.Pairwise fun left right =>
      decide (left.2.serial ≤ right.2.serial) = true := by
    apply List.pairwise_mergeSort
    · intro first second third earlier later
      simp only [decide_eq_true_eq] at earlier later ⊢
      exact Nat.le_trans earlier later
    · intro left right
      simpa using Nat.le_total _ _
  have serial_eq : ∀ occupant ∈ world.census,
      world.serialOf occupant.1 = occupant.2.serial := by
    rintro ⟨id, entity⟩ listed
    rw [serialOf, (mem_occupants_iff small).1 (List.mem_mergeSort.1 listed)]
    rfl
  rw [live, List.pairwise_map]
  apply sorted.imp_of_mem
  intro left right left_listed right_listed less
  rw [serial_eq left left_listed, serial_eq right right_listed]
  exact of_decide_eq_true less

/-- A list of the living in the order of their creation is the one that the world gives. -/
theorem Lists.live_eq {standing : List EntityId} (lists : Lists standing world)
    (small : world.slots.size < UInt32.size) : world.live = standing := by
  have perm : world.live.Perm standing := by
    rw [List.perm_ext_iff_of_nodup (nodup_live small) lists.nodup]
    intro id
    rw [mem_live_iff small, lists.mem_iff]
  -- Both lists are sorted by the numbers, and no two of the living share one.
  apply List.Perm.eq_of_pairwise _ (pairwise_live small)
    (lists.ordered.imp fun less => Nat.le_of_lt less) perm
  intro left right left_listed right_listed below above
  have distinct : (standing.map world.serialOf).Nodup := by
    rw [List.Nodup, List.pairwise_map]
    exact lists.ordered.imp fun less => Nat.ne_of_lt less
  exact List.inj_on_of_nodup_map distinct (perm.mem_iff.1 left_listed) right_listed
    (Nat.le_antisymm below above)

/-! ## Empty slots -/

/-- The free list has every empty slot. -/
def ListsVacant (world : World) : Prop :=
  ∀ index : UInt32, index.toNat < world.slots.size → world.isOccupied index = false →
    index ∈ world.free

theorem ListsVacant.alike {after : World} (vacant : world.ListsVacant)
    (alike : Alike world after) : after.ListsVacant := by
  intro index inside empty
  rw [alike.free_eq]
  rw [alike.size_eq] at inside
  rw [alike.isOccupied_eq] at empty
  exact vacant index inside empty

theorem ListsVacant.spawn (vacant : world.ListsVacant) (tidy : world.Tidy)
    (small : world.slots.size < UInt32.size) (kind : Word) (sector : Option Word) :
    (world.spawn kind sector).2.ListsVacant := by
  intro index inside empty
  rw [isOccupied_spawn kind sector tidy small, Bool.or_eq_false_iff,
    decide_eq_false_iff_not] at empty
  obtain ⟨elsewhere, before⟩ := empty
  cases free_eq : world.free with
  | nil =>
      have place : (UInt32.ofNat world.slots.size).toNat = world.slots.size :=
        UInt32.toNat_ofNat_of_lt' small
      have apart : index.toNat ≠ world.slots.size := by
        intro same
        apply elsewhere
        simp only [World.spawn, free_eq]
        exact UInt32.toNat_inj.1 (same.trans place.symm)
      have listed := vacant index (by
        simp only [World.spawn, free_eq, Array.size_push] at inside
        exact Nat.lt_of_le_of_ne (Nat.le_of_lt_succ inside) apart) before
      rw [free_eq] at listed
      contradiction
  | cons first rest =>
      simp only [World.spawn, free_eq, Array.size_modify] at inside elsewhere ⊢
      have listed := vacant index inside before
      rw [free_eq, List.mem_cons] at listed
      exact listed.resolve_left elsewhere

theorem ListsVacant.remove (vacant : world.ListsVacant) (alive : world.isAlive id = true) :
    (world.remove id).ListsVacant := by
  intro index inside empty
  have free_eq : (world.remove id).free = id.index :: world.free := by
    simp [World.remove, alive]
  rw [size_remove] at inside
  rw [isOccupied_remove alive, Bool.and_eq_false_iff, decide_eq_false_iff_not, not_not] at empty
  rw [free_eq, List.mem_cons]
  exact empty.imp_right (vacant index inside)

/-! ## Annals and worlds -/

/-- The annals tell the world as it is. -/
structure Tells (annals : Annals) (world : World) : Prop where
  tidy : world.Tidy
  vacant : world.ListsVacant
  lists : Lists annals.standing world
  generation_eq : ∀ slot, world.generation slot = UInt32.ofNat (annals.frees slot)
  deletions : world.deletions.toList.Sublist annals.removed

theorem tells_new (sectorCount wallCount : Word) : Tells {} (World.new sectorCount wallCount) where
  tidy := (fresh_new sectorCount wallCount).tidy
  vacant index inside := absurd inside (Nat.not_lt_zero _)
  lists := by
    refine ⟨fun id => ?_, List.Pairwise.nil, List.forall_mem_nil _⟩
    simp [isAlive, entity?, slot?, World.new]
  generation_eq slot := (fresh_new sectorCount wallCount).generation_eq slot
  deletions := List.Sublist.refl _

section Tells

variable {annals : Annals} (tells : Tells annals world)
include tells

/-- The annals are about the slots, the numbers and the deletions only. -/
theorem Tells.congr {after : World} (slots_eq : after.slots = world.slots)
    (free_eq : after.free = world.free) (next_eq : after.nextSerial = world.nextSerial)
    (deletions : after.deletions.toList.Sublist annals.removed) : Tells annals after where
  tidy := (alike_of_slots_eq slots_eq free_eq).tidy tells.tidy
  vacant := tells.vacant.alike (alike_of_slots_eq slots_eq free_eq)
  lists := tells.lists.congr slots_eq next_eq
  generation_eq slot := by
    rw [(alike_of_slots_eq slots_eq free_eq).generation_eq]
    exact tells.generation_eq slot
  deletions := deletions

theorem Tells.modify {change : Entity → Entity}
    (serial : ∀ entity, (change entity).serial = entity.serial) (id : EntityId) :
    Tells annals (world.modify id change) where
  tidy := (alike_modify world id change).tidy tells.tidy
  vacant := tells.vacant.alike (alike_modify world id change)
  lists := tells.lists.modify serial id
  generation_eq slot := by
    rw [(alike_modify world id change).generation_eq]
    exact tells.generation_eq slot
  deletions := tells.deletions

theorem Tells.spawn (small : world.slots.size < UInt32.size) (kind : Word)
    (sector : Option Word) :
    Tells (annals.enter (.birth (world.spawn kind sector).1)) (world.spawn kind sector).2 where
  tidy := tells.tidy.spawn kind sector small
  vacant := tells.vacant.spawn tells.tidy small kind sector
  lists := tells.lists.spawn tells.tidy small kind sector
  generation_eq slot := by
    rw [generation_spawn]
    exact tells.generation_eq slot
  deletions := by
    rw [deletions_spawn]
    exact tells.deletions

/-- Where an entity is removed, its slot has been vacated once more. -/
theorem Tells.remove (id : EntityId) :
    Tells (annals.enter (.removal id)) (world.remove id) := by
  by_cases alive : world.isAlive id = true
  · have present := (tells.lists.mem_iff id).2 alive
    refine ⟨Tidy.remove alive tells.tidy, tells.vacant.remove alive, ?_, fun slot => ?_, ?_⟩
    · rw [Annals.enter_removal_of_mem present]
      exact tells.lists.remove alive
    · rw [generation_remove alive, Annals.frees_enter_removal present]
      by_cases here : slot = id.index
      · subst here
        rw [if_pos rfl, if_pos rfl, ← (isAlive_iff_generation.1 alive).2, tells.generation_eq,
          UInt32.ofNat_add]
        rfl
      · rw [if_neg here, if_neg (Ne.symm here), tells.generation_eq, Nat.add_zero]
    · rw [deletions_remove, Annals.enter_removal_of_mem present]
      exact tells.deletions.trans (List.sublist_append_left _ _)
  · have absent : id ∉ annals.standing := fun listed => alive ((tells.lists.mem_iff id).1 listed)
    rw [Annals.enter_removal_of_not_mem absent,
      remove_of_not_isAlive (Bool.eq_false_iff.2 alive)]
    exact tells

/-- A deletion is a removal that the world records itself. -/
theorem Tells.delete (id : EntityId) :
    Tells (annals.enter (.removal id)) (world.delete id) := by
  have removed := tells.remove id
  unfold World.delete
  split
  · rename_i alive
    refine removed.congr rfl rfl rfl ?_
    rw [Annals.enter_removal_of_mem ((tells.lists.mem_iff id).2 alive)]
    simp only [deletions_remove, Array.toList_push]
    exact tells.deletions.append (List.Sublist.refl _)
  · rename_i gone
    rw [remove_of_not_isAlive (Bool.eq_false_iff.2 gone)] at removed
    exact removed

end Tells

/-! ## Operations -/

/-- All that an operation can come to. -/
inductive Performs (world : World) : Notice → World → Prop
  | births (kind : Word) (sector : Option Word) :
      Performs world (.birth (world.spawn kind sector).1) (world.spawn kind sector).2
  | removes (id : EntityId) : Performs world (.removal id) (world.remove id)
  | deletes (id : EntityId) : Performs world (.removal id) (world.delete id)
  | changes (id : EntityId) {change : Entity → Entity}
      (serial : ∀ entity, (change entity).serial = entity.serial) :
      Performs world .neither (world.modify id change)
  | idle : Performs world .neither world

theorem spawn_recorded (world : World) (effects : Array EffectRecord) (kind : Word)
    (sector : Option Word) :
    ({ world with effects }.spawn kind sector).1 = (world.spawn kind sector).1 := by
  unfold spawn
  cases world.free <;> rfl

/-- An effect is recorded before it is carried out. -/
theorem performs (world : World) (operation : Operation) :
    ∃ recorded, (∃ effects, recorded = { world with effects }) ∧
      Performs recorded (world.notice operation) (world.perform operation) := by
  cases operation with
  | spawn kind sector => exact ⟨world, ⟨_, rfl⟩, .births kind sector⟩
  | delete id => exact ⟨world, ⟨_, rfl⟩, .deletes id⟩
  | setStatus id status => exact ⟨world, ⟨_, rfl⟩, .changes id fun _ => rfl⟩
  | cause source effect =>
      refine ⟨_, ⟨world.effects.push ⟨source, effect⟩, rfl⟩, ?_⟩
      cases effect with
      | spawn kind | spawnInto kind =>
          dsimp only [notice]
          rw [← spawn_recorded]
          exact .births kind (source.bind world.sectorOf?)
      | moveEntity target dx dy dz => exact .changes target fun _ => rfl
      | changeStatus status =>
          cases source with
          | none => exact .idle
          | some id =>
              by_cases leaves : status = removedStatus
              · simp only [notice, World.perform, apply, carryOut, if_pos leaves]
                exact .removes id
              · simp only [notice, World.perform, apply, carryOut, if_neg leaves]
                exact .changes id fun _ => rfl
      | _ => exact .idle

/-- No slot is ever taken away. -/
theorem size_perform (world : World) (operation : Operation) :
    world.slots.size ≤ (world.perform operation).slots.size := by
  obtain ⟨recorded, ⟨effects, recorded_eq⟩, performs⟩ := world.performs operation
  have size_eq : recorded.slots.size = world.slots.size := by
    rw [recorded_eq]
  rw [← size_eq]
  generalize world.notice operation = notice, world.perform operation = after at performs
  cases performs with
  | births kind sector => exact size_spawn kind sector
  | removes id => exact Nat.le_of_eq (size_remove recorded id).symm
  | deletes id => exact Nat.le_of_eq (size_delete recorded id).symm
  | changes id _ => exact Nat.le_of_eq (alike_modify recorded id _).size_eq.symm
  | idle => exact Nat.le_refl _

/-- Every operation keeps the annals true, as long as the slots can be told apart. -/
theorem Tells.perform {annals : Annals} (tells : Tells annals world) (operation : Operation)
    (small : (world.perform operation).slots.size < UInt32.size) :
    Tells (annals.enter (world.notice operation)) (world.perform operation) := by
  have enough := Nat.lt_of_le_of_lt (size_perform world operation) small
  obtain ⟨recorded, ⟨effects, recorded_eq⟩, performs⟩ := world.performs operation
  have told : Tells annals recorded := by
    rw [recorded_eq]
    exact tells.congr rfl rfl rfl tells.deletions
  have room : recorded.slots.size < UInt32.size := by
    rw [recorded_eq]
    exact enough
  generalize world.notice operation = notice, world.perform operation = after at performs
  cases performs with
  | births kind sector => exact told.spawn room kind sector
  | removes id => exact told.remove id
  | deletes id => exact told.delete id
  | changes id serial => exact told.modify serial id
  | idle => exact told

/-- The annals of a history tell the world that it has led to. -/
theorem tells_run (sectorCount wallCount : Word) (history : List Operation)
    (small : ((World.new sectorCount wallCount).run history).1.slots.size < UInt32.size) :
    Tells ((World.new sectorCount wallCount).run history).2
      ((World.new sectorCount wallCount).run history).1 := by
  induction history using List.reverseRecOn with
  | nil => exact tells_new sectorCount wallCount
  | append_singleton past operation ih =>
      rw [run_append_singleton] at small ⊢
      exact (ih (Nat.lt_of_le_of_lt (size_perform _ operation) small)).perform operation small

end ActorScript.World
