import ActorScript.Proofs.World.Annals

/-!
# Identities

As long as no slot is vacated as often as a generation can count, every identity is given out
once and for all.  Then an identity has an entity from its issue to its removal, whatever becomes
of the slot, and the world lists, finds and deletes by identities without mistaking one for
another.
-/

namespace ActorScript.World

variable {world : World} {annals : Annals} {id : EntityId}

/-- The world keeps its identities apart, as the annals tell. -/
structure Orderly (annals : Annals) (world : World) : Prop where
  /-- No identity is given out twice. -/
  issued : annals.issued.Nodup
  /-- The free list holds each slot once. -/
  free : world.free.Nodup
  /-- It holds exactly the empty slots. -/
  mem_free_iff : ∀ index : UInt32, index ∈ world.free ↔
    ∃ generation, world.slots[index.toNat]? = some ⟨generation, none⟩
  /-- An identity finds an entity from its issue to its removal. -/
  entity?_isSome_iff : ∀ id, (world.entity? id).isSome = true ↔
    id ∈ annals.issued ∧ id ∉ annals.removed
  /-- Those who are there are listed in the order of their issue. -/
  live_eq : world.live = annals.issued.filter (· ∉ annals.removed)
  /-- A living entity is found by its handle, if that is not negative. -/
  entityAt?_handle : ∀ id ∈ world.live, id.index.toNat ≤ Word.maximum →
    world.entityAt? id.handle = some id
  /-- No deletion is recorded twice. -/
  deletions : world.deletions.toList.Nodup

/-! ## Identities given out once -/

/-- No identity comes back: those given out have an entity or have been removed, which happens
once. -/
structure Unrepeated (annals : Annals) (world : World) : Prop where
  issued : annals.issued.Nodup
  knows : ∀ id ∈ annals.issued, world.Knows id
  removed : annals.removed.Nodup
  issued_of_removed : ∀ id ∈ annals.removed, id ∈ annals.issued
  standing_eq : annals.standing = annals.issued.filter (· ∉ annals.removed)

theorem unrepeated_new (sectorCount wallCount : Word) :
    Unrepeated {} (World.new sectorCount wallCount) where
  issued := List.nodup_nil
  knows := List.forall_mem_nil _
  removed := List.nodup_nil
  issued_of_removed := List.forall_mem_nil _
  standing_eq := rfl

theorem Unrepeated.later {after : World} (unrepeated : Unrepeated annals world)
    (succeeds : Succeeds world after) : Unrepeated annals after where
  issued := unrepeated.issued
  knows id listed := (unrepeated.knows id listed).later succeeds
  removed := unrepeated.removed
  issued_of_removed := unrepeated.issued_of_removed
  standing_eq := unrepeated.standing_eq

/-- A new identity has the generation of an empty slot, which none given out before has. -/
theorem Unrepeated.fresh (unrepeated : Unrepeated annals world) (tidy : world.Tidy)
    (small : world.slots.size < UInt32.size) (kind : Word) (sector : Option Word) :
    (world.spawn kind sector).1 ∉ annals.issued := by
  intro listed
  rcases unrepeated.knows _ listed with passed | alive
  · rw [← spawn_generation kind sector small] at passed
    exact UInt32.lt_irrefl _ passed
  · have occupied := (isAlive_iff_generation.1 alive).1
    rw [isOccupied_spawn_index tidy small] at occupied
    contradiction

theorem Unrepeated.spawn (unrepeated : Unrepeated annals world) (tidy : world.Tidy)
    (small : world.slots.size < UInt32.size) (kind : Word) (sector : Option Word) :
    Unrepeated (annals.enter (.birth (world.spawn kind sector).1))
      (world.spawn kind sector).2 := by
  have fresh := unrepeated.fresh tidy small kind sector
  have unremoved : (world.spawn kind sector).1 ∉ annals.removed :=
    fun listed => fresh (unrepeated.issued_of_removed _ listed)
  refine ⟨?_, ?_, unrepeated.removed, ?_, ?_⟩
  · exact unrepeated.issued.append (List.nodup_singleton _)
      (List.disjoint_singleton.2 fresh)
  · intro id listed
    rcases List.mem_append.1 listed with earlier | only
    · exact (unrepeated.knows id earlier).later (succeeds_spawn kind sector tidy small)
    · rw [List.mem_singleton.1 only]
      exact .inr (isAlive_spawn kind sector tidy small)
  · intro id listed
    exact List.mem_append_left _ (unrepeated.issued_of_removed id listed)
  · simp [Annals.enter, unrepeated.standing_eq, List.filter_append, unremoved]

/-- The generation of a slot that can be vacated once more is not the last. -/
theorem Tells.generation_ne (tells : Tells annals world) (alive : world.isAlive id = true)
    (few : (annals.enter (.removal id)).frees id.index < UInt32.size) :
    id.generation ≠ lastGeneration := by
  rw [Annals.frees_enter_removal ((tells.lists.mem_iff id).2 alive), if_pos rfl] at few
  have current := (isAlive_iff_generation.1 alive).2
  rw [tells.generation_eq] at current
  rintro last
  rw [last] at current
  have number := congrArg UInt32.toNat current
  rw [UInt32.toNat_ofNat_of_lt' (Nat.lt_of_succ_lt few)] at number
  rw [number] at few
  exact absurd few (by decide)

/-- Whoever is removed was there, and is not there again. -/
theorem Unrepeated.remove (unrepeated : Unrepeated annals world) (tells : Tells annals world)
    (few : (annals.enter (.removal id)).frees id.index < UInt32.size) :
    Unrepeated (annals.enter (.removal id)) (world.remove id) := by
  cases alive : world.isAlive id with
  | false =>
      have absent : id ∉ annals.standing := by
        rw [tells.lists.mem_iff, alive]
        decide
      rw [Annals.enter_removal_of_not_mem absent, remove_of_not_isAlive alive]
      exact unrepeated
  | true =>
      have present := (tells.lists.mem_iff id).2 alive
      have later := unrepeated.later (succeeds_remove alive (tells.generation_ne alive few))
      rw [Annals.enter_removal_of_mem present]
      rw [unrepeated.standing_eq, List.mem_filter, decide_eq_true_eq] at present
      refine ⟨later.issued, later.knows, ?_, ?_, ?_⟩
      · exact later.removed.append (List.nodup_singleton _) (List.disjoint_singleton.2 present.2)
      · intro other listed
        rcases List.mem_append.1 listed with earlier | only
        · exact later.issued_of_removed other earlier
        · rw [List.mem_singleton.1 only]
          exact present.1
      · rw [unrepeated.standing_eq, (unrepeated.issued.filter _).erase_eq_filter,
          List.filter_filter]
        apply List.filter_congr
        intro other _
        rw [Bool.eq_iff_iff]
        simp [and_comm]

theorem Unrepeated.perform (unrepeated : Unrepeated annals world) (tells : Tells annals world)
    (operation : Operation)
    (small : (world.perform operation).slots.size < UInt32.size)
    (few : ∀ slot, (annals.enter (world.notice operation)).frees slot < UInt32.size) :
    Unrepeated (annals.enter (world.notice operation)) (world.perform operation) := by
  have enough := Nat.lt_of_le_of_lt (size_perform world operation) small
  obtain ⟨recorded, ⟨effects, recorded_eq⟩, performs⟩ := world.performs operation
  have alike : Alike world recorded := by
    rw [recorded_eq]
    exact ⟨rfl, rfl⟩
  have told : Tells annals recorded := by
    rw [recorded_eq]
    exact tells.congr rfl rfl rfl tells.deletions
  have earlier := unrepeated.later alike.succeeds
  have room : recorded.slots.size < UInt32.size := alike.size_eq ▸ enough
  generalize world.notice operation = notice, world.perform operation = after at performs few
  cases performs with
  | births kind sector => exact earlier.spawn told.tidy room kind sector
  | removes id => exact earlier.remove told (few id.index)
  | deletes id =>
      have removed := earlier.remove told (few id.index)
      exact removed.later (alike_remove_delete recorded id).succeeds
  | changes id _ => exact earlier.later (alike_modify recorded id _).succeeds
  | idle => exact earlier

theorem unrepeated_run (sectorCount wallCount : Word) (history : List Operation)
    (small : ((World.new sectorCount wallCount).run history).1.slots.size < UInt32.size)
    (few : ∀ slot,
      ((World.new sectorCount wallCount).run history).2.frees slot < UInt32.size) :
    Unrepeated ((World.new sectorCount wallCount).run history).2
      ((World.new sectorCount wallCount).run history).1 := by
  induction history using List.reverseRecOn with
  | nil => exact unrepeated_new sectorCount wallCount
  | append_singleton past operation ih =>
      rw [run_append_singleton] at small few ⊢
      have enough := Nat.lt_of_le_of_lt (size_perform _ operation) small
      have fewer := fun slot => Nat.lt_of_le_of_lt (Annals.frees_le_enter _ _ slot) (few slot)
      exact (ih enough fewer).perform (tells_run sectorCount wallCount past enough) operation
        small few

/-! ## Looking up -/

/-- The handle of an entity is the number of its slot, as far as a word can tell it. -/
theorem offset?_handle (low : id.index.toNat ≤ Word.maximum) :
    id.handle.offset? = some id.index.toNat := by
  have handle_eq : id.handle = Word.ofOffset id.index.toNat := by
    rw [Word.ofOffset, ← UInt32.toInt32_ofNat', UInt32.ofNat_toNat]
    rfl
  rw [handle_eq]
  exact Word.offset?_ofOffset low

theorem entityAt?_handle_of_isAlive (alive : world.isAlive id = true)
    (low : id.index.toNat ≤ Word.maximum) : world.entityAt? id.handle = some id := by
  obtain ⟨entity, found⟩ := isAlive_iff.1 alive
  unfold entityAt?
  rw [offset?_handle low]
  simp [found]

theorem isOccupied_eq_false_iff {index : UInt32} (inside : index.toNat < world.slots.size) :
    world.isOccupied index = false ↔
      ∃ generation, world.slots[index.toNat]? = some ⟨generation, none⟩ := by
  rw [isOccupied, shape_getElem?, Array.getElem?_eq_getElem inside]
  cases world.slots[index.toNat] with
  | mk generation occupant => cases occupant <;> simp

/-- The free list is right about the empty slots. -/
theorem mem_free_iff_of_listsVacant (tidy : world.Tidy) (vacant : world.ListsVacant)
    (index : UInt32) :
    index ∈ world.free ↔ ∃ generation, world.slots[index.toNat]? = some ⟨generation, none⟩ := by
  constructor
  · intro listed
    obtain ⟨inside, empty⟩ := tidy.vacant index listed
    exact (isOccupied_eq_false_iff inside).1 empty
  · rintro ⟨generation, found⟩
    have inside := (Array.getElem?_eq_some_iff.1 found).1
    exact vacant index inside ((isOccupied_eq_false_iff inside).2 ⟨generation, found⟩)

/-- After any history that vacates no slot too often, the world keeps its identities apart. -/
theorem orderly_run (sectorCount wallCount : Word) (history : List Operation)
    (small : ((World.new sectorCount wallCount).run history).1.slots.size < UInt32.size)
    (few : ∀ slot,
      ((World.new sectorCount wallCount).run history).2.frees slot < UInt32.size) :
    Orderly ((World.new sectorCount wallCount).run history).2
      ((World.new sectorCount wallCount).run history).1 := by
  have tells := tells_run sectorCount wallCount history small
  have unrepeated := unrepeated_run sectorCount wallCount history small few
  generalize (World.new sectorCount wallCount).run history = result at *
  obtain ⟨world, annals⟩ := result
  have live_eq : world.live = annals.issued.filter (· ∉ annals.removed) :=
    (tells.lists.live_eq small).trans unrepeated.standing_eq
  refine ⟨unrepeated.issued, tells.tidy.nodup,
    mem_free_iff_of_listsVacant tells.tidy tells.vacant, fun id => ?_, live_eq, fun id listed => ?_,
    tells.deletions.nodup unrepeated.removed⟩
  · change world.isAlive id = true ↔ _
    rw [← tells.lists.mem_iff, unrepeated.standing_eq, List.mem_filter, decide_eq_true_eq]
  · exact entityAt?_handle_of_isAlive ((mem_live_iff small).1 listed)

/-- Of three entities all go, one of them on its own account, and two others take the slots that
were vacated last.  Two removals come too late. -/
def turnover : List Operation :=
  [.spawn 1 none, .spawn 2 none, .spawn 3 none, .delete ⟨1, 0⟩, .delete ⟨0, 0⟩, .delete ⟨1, 0⟩,
    .spawn 4 none, .cause (some ⟨2, 0⟩) (.changeStatus removedStatus), .spawn 5 none, .delete ⟨0, 0⟩]

/-- The second of the two newcomers has the slot of the one that left by itself, and each is found
by its handle. -/
theorem orderly_turnover :
    let world := ((World.new 1 0).run turnover).1
    world.live = [⟨0, 1⟩, ⟨2, 1⟩] ∧ world.entityAt? 2 = some ⟨2, 1⟩ ∧ 1 ∈ world.free ∧
      (world.entity? ⟨2, 0⟩).isSome = false := by
  have annals_eq : ((World.new 1 0).run turnover).2 =
      { issued := [⟨0, 0⟩, ⟨1, 0⟩, ⟨2, 0⟩, ⟨0, 1⟩, ⟨2, 1⟩]
        removed := [⟨1, 0⟩, ⟨0, 0⟩, ⟨2, 0⟩]
        standing := [⟨0, 1⟩, ⟨2, 1⟩] } := by
    decide +kernel
  have small : ((World.new 1 0).run turnover).1.slots.size < UInt32.size := by
    decide +kernel
  have few : ∀ slot, ((World.new 1 0).run turnover).2.frees slot < UInt32.size := by
    intro slot
    rw [annals_eq]
    exact Nat.lt_of_le_of_lt List.countP_le_length (by decide)
  have orderly := orderly_run 1 0 turnover small few
  rw [annals_eq] at orderly
  have live_eq : ((World.new 1 0).run turnover).1.live = [⟨0, 1⟩, ⟨2, 1⟩] := orderly.live_eq
  refine ⟨live_eq, ?_, ?_, ?_⟩
  · exact orderly.entityAt?_handle ⟨2, 1⟩ (by rw [live_eq]; decide) (by decide)
  · exact (orderly.mem_free_iff 1).2 ⟨1, by decide +kernel⟩
  · rw [← Bool.not_eq_true, orderly.entity?_isSome_iff]
    decide

end ActorScript.World
