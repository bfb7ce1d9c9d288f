import ActorScript.Proofs.Machine.Liveness
import ActorScript.Proofs.World.Survival

/-!
# The worlds of a session

Whatever scripts and hosts do to a world comes down to spawning, removing and changing
entities and to changes that touch no slot, so a session never leaves the worlds that can
be reached from an empty one.
-/

namespace ActorScript

theorem World.Reachable.writeField {world : World} (reachable : world.Reachable)
    (ref : FieldRef) (field value : Word) : (world.writeField ref field value).Reachable := by
  have counted : world.countFieldCall.Reachable := .rest reachable rfl rfl
  unfold World.writeField setField
  split
  · exact .modify _ _ counted
  · exact .rest counted rfl rfl
  · split
    · exact .rest counted rfl rfl
    · exact counted
  · split
    · exact .rest counted rfl rfl
    · exact counted
  · exact .rest counted rfl rfl

/-- A frame keeps the world among the reachable ones. -/
theorem Execution.keeps_reachable (session : Session) :
    Keeps session fun execution : Execution World => execution.world.Reachable := by
  apply Keeps.of_machine fun machine : Machine World => machine.world.Reachable
  intro instruction before after change start
  cases change with
  | adjust change _ =>
      rw [world_modifyActor]
      split
      · exact start
      · exact .modify _ _ start
  | read ref field _ => exact .rest start rfl rfl
  | store ref field _ value _ => exact start.writeField ref field value
  | cause _ effect =>
      rw [world_cause_inMemory]
      exact start.apply _ effect
  | _ => exact start

namespace Machine

open Execution

variable {session : Session} {machine : Machine World}

theorem reachable_conclude (reachable : machine.world.Reachable) (id : EntityId)
    (outcome : FrameOutcome) : (machine.conclude id outcome).world.Reachable := by
  cases outcome with
  | normal => exact reachable
  | deleteQuiet => exact reachable
  | delete =>
      have released : (machine.world.releasePlayers id).Reachable := .rest reachable rfl rfl
      exact released.delete id

theorem reachable_settle (reachable : machine.world.Reachable) (id : EntityId)
    (occasion : Occasion) : (machine.settle id occasion).world.Reachable := by
  apply kept_settle World.Reachable reachable
  intro world after settling earlier
  cases settling with
  | count | tire | sleep => exact .modify _ _ earlier
  | move | check => exact .rest earlier rfl rfl

section Calls

variable (limited : session.config.maxSteps ≠ 0)
include limited

/-- Every call keeps the world among the reachable ones, also when it fails. -/
theorem reachable_single {call : Call} (single : call ≠ .all)
    (reachable : machine.world.Reachable) :
    (machine.call session call).2.world.Reachable := by
  apply kept_single (fun middle : Machine World => middle.world.Reachable) single reachable
  · intro start starts
    have start_reachable : start.world.Reachable := by
      obtain ⟨world, address, extra, cursor, rfl, same, _, _⟩ := starts.eq_begin single
      rcases same with rfl | ⟨_, _, _, _, rfl⟩
      · exact reachable
      · exact .modify _ _ reachable
    obtain ⟨moments, run⟩ := exists_run limited .frame start
    exact (run.kept (keeps_reachable session) start_reachable).2
  · intro after id occasion _ ended
    exact reachable_settle ended id occasion
  · intro after id outcome _ _ ended
    exact reachable_conclude ended id outcome

/-- What a host does keeps the world among the reachable ones. -/
theorem reachable_act (action : Action) (reachable : machine.world.Reachable) :
    (machine.act session action).world.Reachable := by
  cases action with
  | spawn kind sector => exact .spawn kind sector reachable
  | addPlayer => exact .rest reachable rfl rfl
  | setVar id address value => exact reachable
  | call call =>
      apply kept_call (fun middle : Machine World => middle.world.Reachable) _ reachable
      exact fun single reached => reachable_single limited single reached

/-- The worlds of a session that starts with an empty world are reachable. -/
theorem reachable_after (sectorCount wallCount : Word) (history : List Action) :
    (after session (World.new sectorCount wallCount) history).world.Reachable := by
  induction history using List.reverseRecOn with
  | nil => exact .new sectorCount wallCount
  | append_singleton past action ih =>
      rw [after_append_singleton]
      exact reachable_act limited action ih

end Calls

end Machine

end ActorScript
