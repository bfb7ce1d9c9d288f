import ActorScript.Proofs.World.Generations
import Mathlib.Data.List.Nodup

/-!
# Survivors

A change of the world is described by the slots that it has vacated, each of them once.
The occupants of the other slots live on, and an entity that was alive before is alive
afterwards exactly if its slot has not been vacated, whoever may have moved in since.
-/

namespace ActorScript.World

variable {world : World} {id : EntityId}

/-! ## Reachable worlds -/

/-- A world that has come about from an empty one. -/
inductive Reachable : World → Prop
  | new (sectorCount wallCount : Word) : Reachable (.new sectorCount wallCount)
  | spawn {world : World} (kind : Word) (sector : Option Word) (earlier : Reachable world) :
      Reachable (world.spawn kind sector).2
  | remove {world : World} (id : EntityId) (earlier : Reachable world) :
      Reachable (world.remove id)
  | modify {world : World} (id : EntityId) (change : Entity → Entity)
      (earlier : Reachable world) : Reachable (world.modify id change)
  /-- All else that happens to a world leaves its slots and the free list. -/
  | rest {world after : World} (earlier : Reachable world)
      (slots_eq : after.slots = world.slots) (free_eq : after.free = world.free) : Reachable after

/-- The slots of a reachable world are in order, as long as they can all be told apart. -/
theorem Reachable.tidy (reachable : world.Reachable) (small : world.slots.size < UInt32.size) :
    world.Tidy := by
  induction reachable with
  | new sectorCount wallCount => exact (fresh_new sectorCount wallCount).tidy
  | spawn kind sector _ ih =>
      have enough := Nat.lt_of_le_of_lt (size_spawn kind sector) small
      exact (ih enough).spawn kind sector enough
  | @remove world id _ ih =>
      rw [size_remove] at small
      cases alive : world.isAlive id with
      | true => exact Tidy.remove alive (ih small)
      | false =>
          rw [remove_of_not_isAlive alive]
          exact ih small
  | @modify world id change _ ih =>
      have alike := alike_modify world id change
      exact alike.tidy (ih (alike.size_eq ▸ small))
  | rest _ slots_eq free_eq ih =>
      have alike := alike_of_slots_eq slots_eq free_eq
      exact alike.tidy (ih (alike.size_eq ▸ small))

/-- Deleting an entity only removes it. -/
theorem Reachable.delete (reachable : world.Reachable) (id : EntityId) :
    (world.delete id).Reachable := by
  unfold World.delete
  split
  · exact .rest (.remove id reachable) rfl rfl
  · exact reachable

theorem Reachable.apply (reachable : world.Reachable) (source : Option EntityId)
    (effect : Effect) : (world.apply source effect).2.Reachable := by
  obtain ⟨noted, slots_eq, free_eq, possible⟩ := applied world source effect
  have noted_reachable : noted.Reachable := .rest reachable slots_eq free_eq
  generalize world.apply source effect = outcome at possible
  cases possible with
  | idle _ => exact noted_reachable
  | spawns kind sector => exact .spawn kind sector noted_reachable
  | changes _ id _ => exact .modify id _ noted_reachable
  | removes _ => exact .remove _ noted_reachable

/-! ## Vacated slots -/

theorem add_one_ne (generation : UInt32) : generation + 1 ≠ generation := by
  intro same
  have number := congrArg UInt32.toNat same
  have bound := generation.toNat_lt
  rw [UInt32.toNat_add] at number
  simp only [UInt32.reduceToNat] at number
  omega

/-- The listed slots have been vacated, each once, and the occupants of the others are still
there. -/
structure Vacates (vacated : List UInt32) (before after : World) : Prop where
  tidy : after.Tidy
  generation_eq : ∀ index, after.generation index =
    if index ∈ vacated then before.generation index + 1 else before.generation index
  stays : ∀ index, index ∉ vacated →
    before.isOccupied index = true → after.isOccupied index = true

theorem Vacates.refl (tidy : world.Tidy) : Vacates [] world world where
  tidy := tidy
  generation_eq _ := by rw [if_neg List.not_mem_nil]
  stays _ _ occupied := occupied

/-- What is vacated in two stretches, no slot in both, is vacated in all. -/
theorem Vacates.trans {before between after : World} {first second : List UInt32}
    (earlier : Vacates first before between) (later : Vacates second between after)
    (apart : ∀ index ∈ first, index ∉ second) : Vacates (first ++ second) before after where
  tidy := later.tidy
  generation_eq index := by
    rw [later.generation_eq, earlier.generation_eq]
    by_cases left : index ∈ first
    · rw [if_pos left, if_neg (apart index left), if_pos (List.mem_append_left _ left)]
    · rw [if_neg left]
      by_cases right : index ∈ second
      · rw [if_pos right, if_pos (List.mem_append_right _ right)]
      · have neither : index ∉ first ++ second := by
          rw [List.mem_append]
          exact fun either => either.elim left right
        rw [if_neg right, if_neg neither]
  stays index absent occupied := by
    rw [List.mem_append] at absent
    apply later.stays index fun right => absent (.inr right)
    exact earlier.stays index (fun left => absent (.inl left)) occupied

theorem Vacates.alike {before between after : World} {vacated : List UInt32}
    (earlier : Vacates vacated before between) (alike : Alike between after) :
    Vacates vacated before after where
  tidy := alike.tidy earlier.tidy
  generation_eq index := by
    rw [alike.generation_eq]
    exact earlier.generation_eq index
  stays index absent occupied := by
    rw [alike.isOccupied_eq]
    exact earlier.stays index absent occupied

/-- A new entity takes no occupied slot. -/
theorem Vacates.spawn {before between : World} {vacated : List UInt32}
    (earlier : Vacates vacated before between) (small : between.slots.size < UInt32.size)
    (kind : Word) (sector : Option Word) :
    Vacates vacated before (between.spawn kind sector).2 where
  tidy := earlier.tidy.spawn kind sector small
  generation_eq index := by
    rw [generation_spawn]
    exact earlier.generation_eq index
  stays index absent occupied := by
    rw [isOccupied_spawn kind sector earlier.tidy small, earlier.stays index absent occupied,
      Bool.or_true]

theorem vacates_remove (tidy : world.Tidy) (alive : world.isAlive id = true) :
    Vacates [id.index] world (world.remove id) where
  tidy := Tidy.remove alive tidy
  generation_eq index := by
    rw [generation_remove alive]
    by_cases here : index = id.index
    · subst here
      rw [if_pos rfl, if_pos (List.mem_singleton_self _), (isAlive_iff_generation.1 alive).2]
    · rw [if_neg here, if_neg fun listed => here (List.mem_singleton.1 listed)]
  stays index absent occupied := by
    have elsewhere : index ≠ id.index := fun here => absent (List.mem_singleton.2 here)
    rw [isOccupied_remove alive, occupied, decide_eq_true elsewhere]
    rfl

/-- A generation that has passed does not come back by vacating slots once. -/
theorem Vacates.isAlive_iff {before after : World} {vacated : List UInt32}
    (vacates : Vacates vacated before after) (alive : before.isAlive id = true) :
    after.isAlive id = true ↔ id.index ∉ vacated := by
  obtain ⟨occupied, current⟩ := isAlive_iff_generation.1 alive
  rw [isAlive_iff_generation, vacates.generation_eq]
  constructor
  · rintro ⟨_, same⟩ listed
    rw [if_pos listed, current] at same
    exact add_one_ne _ same
  · intro absent
    rw [if_neg absent]
    exact ⟨vacates.stays _ absent occupied, current⟩

/-- A new entity moves into an empty slot. -/
theorem isOccupied_spawn_index (tidy : world.Tidy) (small : world.slots.size < UInt32.size)
    (kind : Word) (sector : Option Word) :
    world.isOccupied (world.spawn kind sector).1.index = false := by
  cases free_eq : world.free with
  | nil =>
      have place : (UInt32.ofNat world.slots.size).toNat = world.slots.size :=
        UInt32.toNat_ofNat_of_lt' small
      have index_eq : (world.spawn kind sector).1.index = UInt32.ofNat world.slots.size := by
        simp [World.spawn, free_eq]
      rw [index_eq, isOccupied, place,
        List.getElem?_eq_none (Nat.le_of_eq (length_shape world))]
      rfl
  | cons first rest =>
      have index_eq : (world.spawn kind sector).1.index = first := by
        simp [World.spawn, free_eq]
      rw [index_eq]
      exact (tidy.vacant first (free_eq ▸ List.mem_cons_self)).2

/-- The identity of a new entity is none of those that were alive before, though it may be
in the slot of one of them. -/
theorem Vacates.spawn_ne {before after : World} {vacated : List UInt32}
    (vacates : Vacates vacated before after) (alive : before.isAlive id = true)
    (small : after.slots.size < UInt32.size) (kind : Word) (sector : Option Word) :
    (after.spawn kind sector).1 ≠ id := by
  rintro rfl
  obtain ⟨occupied, current⟩ := isAlive_iff_generation.1 alive
  have generation_eq := spawn_generation kind sector small
  rw [vacates.generation_eq] at generation_eq
  by_cases listed : (after.spawn kind sector).1.index ∈ vacated
  · rw [if_pos listed, current] at generation_eq
    exact add_one_ne _ generation_eq.symm
  · have still := vacates.stays _ listed occupied
    rw [isOccupied_spawn_index vacates.tidy small] at still
    contradiction

/-! ## The order of a tick -/

/-- No two entities are in one slot. -/
theorem nodup_census (small : world.slots.size < UInt32.size) :
    (world.census.map (·.1.index)).Nodup := by
  have nodup : (world.occupants.map (·.1.index)).Nodup := by
    rw [List.Nodup, List.pairwise_map, occupants, List.pairwise_filterMap,
      List.pairwise_iff_getElem]
    intro first second first_inside second_inside less left left_eq right right_eq same
    rw [List.length_zipIdx, Array.length_toList] at first_inside second_inside
    simp only [List.getElem_zipIdx, Nat.zero_add, Option.map_eq_some_iff] at left_eq right_eq
    obtain ⟨_, _, rfl⟩ := left_eq
    obtain ⟨_, _, rfl⟩ := right_eq
    have number := congrArg UInt32.toNat same
    rw [UInt32.toNat_ofNat_of_lt' (Nat.lt_trans first_inside small),
      UInt32.toNat_ofNat_of_lt' (Nat.lt_trans second_inside small)] at number
    exact Nat.ne_of_lt less number
  exact ((List.mergeSort_perm _ _).map _).nodup_iff.2 nodup

/-- The slots of the entities whose status is wanted, in the order of their creation. -/
def slotsWith (world : World) (wanted : Status → Bool) : List UInt32 :=
  (world.census.filter fun occupant => wanted occupant.2.status).map (·.1.index)

theorem nodup_slotsWith (small : world.slots.size < UInt32.size) (wanted : Status → Bool) :
    (world.slotsWith wanted).Nodup :=
  (List.filter_sublist.map _).nodup (nodup_census small)

/-- An entity has one status, so its slot is not listed for two that exclude each other. -/
theorem slotsWith_apart (small : world.slots.size < UInt32.size) {wanted other : Status → Bool}
    (excludes : ∀ status, wanted status = true → other status = false) :
    ∀ index ∈ world.slotsWith wanted, index ∉ world.slotsWith other := by
  intro index listed also
  obtain ⟨occupant, among, rfl⟩ := List.mem_map.1 listed
  obtain ⟨twin, twin_among, same⟩ := List.mem_map.1 also
  obtain ⟨member, status⟩ := List.mem_filter.1 among
  obtain ⟨twin_member, twin_status⟩ := List.mem_filter.1 twin_among
  cases List.inj_on_of_nodup_map (nodup_census small) twin_member member same
  rw [excludes _ status] at twin_status
  contradiction

/-- A pass ticks no slot twice. -/
theorem nodup_tickOrder (small : world.slots.size < UInt32.size) :
    (world.tickOrder.map (·.index)).Nodup := by
  have order_eq : world.tickOrder.map (·.index) =
      world.slotsWith (· = .active) ++ world.slotsWith (· = .standable) ++
        world.slotsWith fun status =>
          status ≠ .active ∧ status ≠ .standable ∧ status ≠ .dormant := by
    simp only [tickOrder, slotsWith, List.map_append, List.map_map]
    congr 2
    apply List.filter_congr
    intro occupant _
    cases occupant.2.status <;> rfl
  rw [order_eq, List.nodup_append', List.nodup_append']
  refine ⟨⟨nodup_slotsWith small _, nodup_slotsWith small _, ?_⟩, nodup_slotsWith small _, ?_⟩
  · apply slotsWith_apart small
    intro status
    cases status <;> simp
  · intro index listed
    rcases List.mem_append.1 listed with active | standable
    · apply slotsWith_apart small _ index active
      intro status
      cases status <;> simp
    · apply slotsWith_apart small _ index standable
      intro status
      cases status <;> simp

end ActorScript.World
