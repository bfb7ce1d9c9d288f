import ActorScript.Proofs.Machine.Settle
import ActorScript.Proofs.World.Slots

/-!
# What scripts keep on entities

A condition on what scripts keep that every entity satisfies stays so whatever becomes
of the slots, as long as new entities and changed ones satisfy it.
-/

namespace ActorScript.World

variable {world : World} {Fine : ActorState → Prop}

/-- What scripts keep satisfies a condition, on every entity. -/
def AllStates (world : World) (Fine : ActorState → Prop) : Prop :=
  ∀ (index : Nat) (generation : UInt32) (entity : Entity),
    world.slots[index]? = some ⟨generation, some entity⟩ → Fine entity.state

theorem allStates_new (sectorCount wallCount : Word) :
    (World.new sectorCount wallCount).AllStates Fine := by
  intro index generation entity found
  simp [World.new] at found

/-- Only the slots matter. -/
theorem AllStates.congr {after : World} (all : world.AllStates Fine)
    (slots_eq : after.slots = world.slots) : after.AllStates Fine := by
  unfold AllStates
  rw [slots_eq]
  exact all

theorem AllStates.stateOf? {id : EntityId} {state : ActorState} (all : world.AllStates Fine)
    (found : world.stateOf? id = some state) : Fine state := by
  unfold World.stateOf? at found
  obtain ⟨entity, alive, rfl⟩ := Option.map_eq_some_iff.1 found
  exact all _ _ entity (entity?_eq_some_iff.1 alive)

/-- A change of one entity that keeps the condition. -/
theorem AllStates.modify {change : Entity → Entity} (all : world.AllStates Fine)
    (id : EntityId) (kept : ∀ entity, Fine entity.state → Fine (change entity).state) :
    (world.modify id change).AllStates Fine := by
  intro index generation entity found
  simp only [World.modify, Array.getElem?_modify] at found
  split at found
  · obtain ⟨⟨old, occupant⟩, before, slot_eq⟩ := Option.map_eq_some_iff.1 found
    split at slot_eq
    · obtain ⟨rfl, occupant_eq⟩ := Slot.mk.inj slot_eq
      obtain ⟨earlier, rfl, rfl⟩ := Option.map_eq_some_iff.1 occupant_eq
      exact kept earlier (all _ _ earlier before)
    · rw [slot_eq] at before
      exact all _ _ entity before
  · exact all _ _ entity found

theorem AllStates.modifyState {change : ActorState → ActorState} (all : world.AllStates Fine)
    (id : EntityId) (kept : ∀ state, Fine state → Fine (change state)) :
    (world.modifyState id change).AllStates Fine :=
  all.modify id fun entity => kept entity.state

/-- A new entity starts with all zeros. -/
theorem AllStates.spawn (all : world.AllStates Fine) (kind : Word) (sector : Option Word)
    (fresh : Fine {}) : (world.spawn kind sector).2.AllStates Fine := by
  intro index generation entity found
  unfold World.spawn at found
  dsimp only at found
  split at found
  · simp only [Array.getElem?_modify] at found
    split at found
    · obtain ⟨slot, _, slot_eq⟩ := Option.map_eq_some_iff.1 found
      cases slot_eq
      exact fresh
    · exact all _ _ entity found
  · rw [Array.getElem?_push] at found
    split at found
    · cases found
      exact fresh
    · exact all _ _ entity found

theorem AllStates.remove (all : world.AllStates Fine) (id : EntityId) :
    (world.remove id).AllStates Fine := by
  unfold World.remove
  split
  · intro index generation entity found
    simp only [Array.getElem?_modify] at found
    split at found
    · obtain ⟨slot, _, slot_eq⟩ := Option.map_eq_some_iff.1 found
      have vacated := (Slot.mk.inj slot_eq).2
      contradiction
    · exact all _ _ entity found
  · exact all

theorem AllStates.delete (all : world.AllStates Fine) (id : EntityId) :
    (world.delete id).AllStates Fine := by
  unfold World.delete
  split
  · exact all.remove id
  · exact all

theorem AllStates.apply (all : world.AllStates Fine) (source : Option EntityId)
    (effect : Effect) (fresh : Fine {}) : (world.apply source effect).2.AllStates Fine := by
  obtain ⟨before, slots_eq, _, possible⟩ := applied world source effect
  have noted : before.AllStates Fine := all.congr slots_eq
  generalize world.apply source effect = outcome at possible
  cases possible with
  | idle _ => exact noted
  | spawns kind sector => exact noted.spawn kind sector fresh
  | changes _ id state =>
      apply noted.modify id
      intro entity fine
      rw [state]
      exact fine
  | removes _ => exact noted.remove _

theorem AllStates.writeField (all : world.AllStates Fine) (ref : FieldRef) (field value : Word) :
    (world.writeField ref field value).AllStates Fine := by
  have counted : world.countFieldCall.AllStates Fine := all
  unfold World.writeField World.setField
  split
  · exact counted.modify _ fun _ fine => fine
  · exact counted
  · split <;> exact counted
  · split <;> exact counted
  · exact counted

/-! ## What is left to do after a frame -/

/-- After a frame at most the counters of its entity change. -/
theorem AllStates.settle {machine : Machine World} (all : machine.world.AllStates Fine)
    (id : EntityId) (occasion : Occasion)
    (counted : ∀ (state : ActorState) count, Fine state → Fine { state with count })
    (rested : ∀ (state : ActorState) sleepTimer, Fine state → Fine { state with sleepTimer }) :
    (machine.settle id occasion).world.AllStates Fine := by
  apply Machine.kept_settle (fun world => world.AllStates Fine) all
  intro world after settling earlier
  cases settling with
  | count => exact earlier.modifyState id fun state => counted state _
  | tire => exact earlier.modifyState id fun state => rested state _
  | sleep => exact earlier.modify id fun _ fine => fine
  | move | check => exact earlier

theorem AllStates.conclude {machine : Machine World} (all : machine.world.AllStates Fine)
    (id : EntityId) (outcome : FrameOutcome) :
    (machine.conclude id outcome).world.AllStates Fine := by
  have released : (machine.world.releasePlayers id).AllStates Fine := all
  cases outcome with
  | normal => exact all
  | delete => exact released.delete id
  | deleteQuiet => exact all

end ActorScript.World
