import ActorScript.Machine.Entry
import ActorScript.World.Field
import Mathlib.Logic.Relation

/-!
# After a frame

What is left to do after a frame that ended normally comes down to a few changes of the
world, none of which touches more than the entity of the frame and what is recorded.
-/

namespace ActorScript.Machine

/-- One change of a world after a frame of an entity that ended normally. -/
inductive Settling (id : EntityId) : World → World → Prop
  | count {world : World} :
      Settling id world
        (world.modifyState id fun state => { state with count := state.count + 1 })
  | move {world : World} : Settling id world { world with motions := world.motions + 1 }
  | tire {world : World} :
      Settling id world
        (world.modifyState id fun state => { state with sleepTimer := state.sleepTimer - 1 })
  | sleep {world : World} : Settling id world (world.setStatus id .dormant)
  | check {world : World} : Settling id world (world.checkStandable id)

/-- Whatever is left to do after a frame, it is done by the changes listed. -/
theorem settling_settle (machine : Machine World) (id : EntityId) (occasion : Occasion) :
    Relation.ReflTransGen (Settling id) machine.world (machine.settle id occasion).world := by
  have moved : Relation.ReflTransGen (Settling id) machine.world
      (Host.advanceMotion machine.world id) :=
    (Relation.ReflTransGen.single .count).tail .move
  unfold settle
  dsimp only
  generalize Host.advanceMotion machine.world id = world at moved ⊢
  cases Host.statusOf? world id with
  | none => exact moved
  | some status =>
      cases status with
      | active =>
          dsimp only
          split
          · unfold countSleep
            split
            · exact moved
            · split
              · exact moved.tail .tire
              · split
                · exact moved.tail .sleep
                · exact moved
          · exact moved
      | standable =>
          cases occasion with
          | tick => exact moved.tail .check
          | load => exact moved
      | dormant => exact moved
      | other _ => exact moved

/-- What every such change keeps holds of the world afterwards. -/
theorem kept_settle (Kept : World → Prop) {machine : Machine World} {id : EntityId}
    {occasion : Occasion} (before : Kept machine.world)
    (kept : ∀ {world after : World}, Settling id world after → Kept world → Kept after) :
    Kept (machine.settle id occasion).world := by
  have changes := settling_settle machine id occasion
  generalize (machine.settle id occasion).world = after at changes ⊢
  induction changes with
  | refl => exact before
  | tail _ change ih => exact kept change ih

end ActorScript.Machine
