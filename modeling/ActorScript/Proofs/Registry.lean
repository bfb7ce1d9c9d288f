import ActorScript.Registry

/-!
# Retired identities

The watermark of a slot tells which of its occupants are retired.  Reads and writes leave
the watermarks alone, and forgetting an entity moves that of its slot behind the entity.
-/

namespace ActorScript.Registry

variable {registry : Registry}

@[simp]
theorem watermark_store (registry : Registry) (cell : Cell) (value : Word) (index : UInt32) :
    (registry.store cell value).watermark index = registry.watermark index := by
  unfold store
  split
  · rfl
  · rfl
  · split
    · split <;> rfl
    · rfl

@[simp]
theorem watermark_set (registry : Registry) (id : Word) (address : Address) (value : Word)
    (index : UInt32) :
    (registry.set id address value).watermark index = registry.watermark index := by
  unfold set
  split
  · rfl
  · split
    · rfl
    · split
      · rfl
      · exact watermark_store _ _ _ _

theorem watermark_forget (registry : Registry) (entity : EntityId) (index : UInt32) :
    (registry.forget entity).watermark index =
      if index = entity.index then
        max (registry.watermark entity.index) (generationAfter entity.generation)
      else registry.watermark index := by
  unfold forget watermark
  simp only [Std.HashMap.getD_insert, beq_iff_eq]
  by_cases here : index = entity.index
  · simp [here]
  · simp [here, Ne.symm here]

/-- Forgetting an entity whose generation is not the last moves the watermark of its slot
right behind it. -/
theorem watermark_forget_self {entity : EntityId}
    (more : entity.generation < entity.generation + 1)
    (current : registry.watermark entity.index = entity.generation) :
    (registry.forget entity).watermark entity.index = entity.generation + 1 := by
  have next : generationAfter entity.generation = entity.generation + 1 := by
    unfold generationAfter
    split
    · rename_i last
      rw [last] at more
      contradiction
    · rfl
  rw [watermark_forget, if_pos rfl, current, next]
  exact if_pos (UInt32.le_of_lt more)

/-- The cell of an actor variable is reached through every identity that is not retired,
whoever the player. -/
theorem isSome_resolve_iff {id : Word} {declared : Variable}
    (found : registry.declaration? id = some declared) (scope : declared.scope = .actor)
    (entity : EntityId) (player : Option PlayerId) :
    (registry.resolve id ⟨some entity, player⟩).isSome = true ↔
      registry.isRetired entity = false := by
  unfold declaration? at found
  unfold resolve
  split at found
  · contradiction
  · rename_i index _
    simp only [found, cellAt, scope]
    cases registry.isRetired entity <;> simp

end ActorScript.Registry
