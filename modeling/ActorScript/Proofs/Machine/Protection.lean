import ActorScript.Proofs.Machine.Reachable
import ActorScript.Proofs.Registry.ReadOnly
import ActorScript.Proofs.World.Fields
import Mathlib

/-!
# Protected data

Many instructions write variables and fields.  Each of their writes goes through the registry,
which ignores those to read-only variables, or is made only when the field is declared for
writing.  What scripts may not write stays intact in every frame, and so in every sequence of
calls.
-/

namespace ActorScript

/-- What scripts may not write is intact: the read-only variables, and the fields of an earlier
world that are not declared for writing. -/
structure Machine.Intact (session : Session) (before : World) (machine : Machine World) : Prop where
  pristine : machine.registry.Pristine session.program.vars
  fields : machine.world.slots.size < UInt32.size → before.Intact machine.world

namespace Execution

variable {session : Session} {instruction : Instruction} {before : World}

/-- The data are intact in a frame whose entity, if it has one, was there before. -/
structure Spared (session : Session) (before : World) (execution : Execution World) : Prop where
  there : ∀ id, execution.entity = some id → before.isAlive id = true
  intact : execution.toMachine.Intact session before

/-- A write to a variable is the only change of the registry. -/
theorem pristine_change {execution after : Execution World}
    (change : Change session instruction execution after)
    (pristine : execution.registry.Pristine session.program.vars) :
    after.registry.Pristine session.program.vars := by
  cases change with
  | write id address value => exact pristine.set id address value
  | adjust change _ =>
      rw [registry_modifyActor]
      exact pristine
  | cause _ effect =>
      rw [registry_cause]
      exact pristine
  | _ => exact pristine

/-- A write to a field is the only change of fields, apart from those of entities that come
or go. -/
theorem intact_change {execution after : Execution World}
    (change : Change session instruction execution after)
    (there : ∀ id, execution.entity = some id → before.isAlive id = true)
    (small : after.world.slots.size < UInt32.size) (intact : before.Intact execution.world) :
    before.Intact after.world := by
  have enough := Nat.lt_of_le_of_lt (size_change change) small
  cases change with
  | adjust change _ =>
      rw [world_modifyActor]
      split
      · exact intact
      · exact intact.sameFields (World.sameFields_modifyState _ _ _)
  | read ref field _ => exact intact.sameFields (World.sameFields_recorded _ _ _ _ _ _)
  | store ref field _ value writable => exact intact.writeField writable value
  | cause _ effect =>
      rw [world_cause_inMemory]
      exact intact.apply enough there effect
  | _ => exact intact

/-- A frame writes nothing that is protected. -/
theorem keeps_spared (session : Session) (before : World) :
    Keeps session (Spared session before) where
  countStep start := ⟨start.there, start.intact⟩
  moveTo _ start := ⟨start.there, start.intact⟩
  enter _ start := ⟨start.there, start.intact⟩
  leave start := ⟨start.there, start.intact⟩
  requestDelete {execution} start := by
    refine ⟨?_, start.intact⟩
    rw [(keeps_entity session execution.entity).requestDelete rfl]
    exact start.there
  change {_ execution after} change start := by
    refine ⟨?_, pristine_change change start.intact.pristine, fun small => ?_⟩
    · rw [(keeps_entity session execution.entity).change change rfl]
      exact start.there
    · apply intact_change change start.there small
      exact start.intact.fields (Nat.lt_of_le_of_lt (size_change change) small)

end Execution

namespace Machine

open Execution

variable {session : Session} {machine : Machine World} {before : World}

theorem Intact.settle (intact : machine.Intact session before) (id : EntityId)
    (occasion : Occasion) : (machine.settle id occasion).Intact session before where
  pristine := by
    rw [registry_settle]
    exact intact.pristine
  fields small := by
    rw [(alike_settle machine id occasion).size_eq] at small
    apply kept_settle before.Intact (intact.fields small)
    intro world after settling earlier
    cases settling with
    | count | tire => exact earlier.sameFields (World.sameFields_modifyState _ _ _)
    | sleep => exact earlier.sameFields (World.sameFields_modify _ _ fun _ => rfl)
    | move | check => exact earlier.sameFields (World.sameFields_recorded _ _ _ _ _ _)

/-- What is left to do for an entity that was there before. -/
theorem Intact.conclude (intact : machine.Intact session before) {id : EntityId}
    (there : before.isAlive id = true) (outcome : FrameOutcome) :
    (machine.conclude id outcome).Intact session before := by
  cases outcome with
  | normal => exact intact
  | deleteQuiet => exact ⟨intact.pristine.forget id, intact.fields⟩
  | delete =>
      refine ⟨intact.pristine.forget id, fun small => ?_⟩
      rw [size_conclude] at small
      have released := (intact.fields small).sameFields
        (World.sameFields_releasePlayers machine.world id)
      exact released.delete there

/-! ## Calls -/

section Calls

variable (limited : session.config.maxSteps ≠ 0)
include limited

/-- A call for a single entity or event writes nothing that is protected, if its entity was
there before. -/
theorem intact_single {call : Call} (single : call ≠ .all)
    (there : ∀ id, call.owner? = some id → machine.world.isAlive id = true →
      before.isAlive id = true)
    (intact : machine.Intact session before) :
    (machine.call session call).2.Intact session before := by
  apply kept_single (Intact session before) single intact
  · intro start starts
    have spared : start.Spared session before := by
      obtain ⟨world, address, extra, cursor, rfl, same, owned, _⟩ := starts.eq_begin single
      refine ⟨fun id own => there id (owned id own).2 (owned id own).1, intact.pristine, ?_⟩
      rcases same with rfl | ⟨id, change, _, _, rfl⟩
      · exact intact.fields
      · intro small
        have alike := World.alike_modifyState machine.world id change
        have earlier := intact.fields (alike.size_eq ▸ small)
        exact earlier.sameFields (World.sameFields_modifyState _ _ _)
    obtain ⟨moments, run⟩ := exists_run limited .frame start
    exact (run.kept (keeps_spared session before) spared).2.intact
  · intro after id occasion _ ended
    exact ended.settle id occasion
  · intro after id outcome own alive ended
    exact ended.conclude (there id own alive) outcome

/-- A pass over entities that were all there before, also when it is cut short. -/
theorem intact_pass {ids : List EntityId} {answer : Answer World Unit}
    (passes : Passes session ids machine answer)
    (there : ∀ id ∈ ids, before.isAlive id = true) (intact : machine.Intact session before) :
    answer.2.Intact session before := by
  apply passes.kept (Intact session before) intact
  intro middle id listed ended
  apply intact_single limited (by simp) _ ended
  rintro _ ⟨⟩ _
  exact there id listed

theorem size_le_call (machine : Machine World) (call : Call) :
    machine.world.slots.size ≤ (machine.call session call).2.world.slots.size := by
  apply kept_call fun middle : Machine World => machine.world.slots.size ≤ middle.world.slots.size
  · exact fun single grown => Nat.le_trans grown (size_call _ _ limited single)
  · exact Nat.le_refl _

/-- A machine between calls in a session with the given world: no read-only variable has been
written, and the declarations of fields are as they were. -/
structure Guarded (session : Session) (world : World) (machine : Machine World) : Prop where
  reachable : machine.world.Reachable
  pristine : machine.registry.Pristine session.program.vars
  access_eq : machine.world.access = world.access

/-- Every call writes nothing that is protected, whether it succeeds or fails. -/
theorem intact_call {world : World} (guarded : machine.Guarded session world) (call : Call)
    (small : (machine.call session call).2.world.slots.size < UInt32.size) :
    (machine.call session call).2.Intact session machine.world := by
  have enough := Nat.lt_of_le_of_lt (size_le_call limited machine call) small
  have start : machine.Intact session machine.world :=
    ⟨guarded.pristine, fun _ => .refl (guarded.reachable.tidy enough)⟩
  by_cases single : call = .all
  · subst single
    apply intact_pass limited (passes_runEach _ _ _) _ start
    exact fun id listed => World.isAlive_of_mem_tickOrder enough listed
  · exact intact_single limited single (fun _ _ alive => alive) start

theorem Guarded.call {world : World} (guarded : machine.Guarded session world) (call : Call)
    (small : (machine.call session call).2.world.slots.size < UInt32.size) :
    (machine.call session call).2.Guarded session world where
  reachable := reachable_act limited (.call call) guarded.reachable
  pristine := (intact_call limited guarded call small).pristine
  access_eq := ((intact_call limited guarded call small).fields small).access_eq.trans
    guarded.access_eq

/-! ## Sequences of calls -/

/-- The machine after some calls, from the start of a session. -/
def afterCalls (session : Session) (world : World) (calls : List Call) : Machine World :=
  after session world (calls.map .call)

omit limited in
@[simp]
theorem afterCalls_append_singleton (session : Session) (world : World) (calls : List Call)
    (call : Call) :
    afterCalls session world (calls ++ [call]) =
      ((afterCalls session world calls).call session call).2 := by
  simp [afterCalls, act]

/-- What has a field is there before some calls that follow others, and after each of them.
It does not do to look at the ends alone: when the generations of a slot have run out, they
start again, and a new entity has the identity of one that is long gone. -/
def Outlives (session : Session) (world : World) (earlier later : List Call)
    (ref : FieldRef) : Prop :=
  ∀ done, done <+: later → (afterCalls session world (earlier ++ done)).world.Hosts ref

section Sequences

variable {world : World} (reachable : world.Reachable)
include reachable

theorem guarded_afterCalls (calls : List Call)
    (small : (afterCalls session world calls).world.slots.size < UInt32.size) :
    (afterCalls session world calls).Guarded session world := by
  induction calls using List.reverseRecOn with
  | nil => exact ⟨reachable, Registry.pristine_new _ _, rfl⟩
  | append_singleton past call ih =>
      rw [afterCalls_append_singleton] at small ⊢
      have grown := size_le_call limited (afterCalls session world past) call
      exact (ih (Nat.lt_of_le_of_lt grown small)).call limited call small

/-- A field that may not be written keeps its value as long as there is something that has
it. -/
theorem field?_afterCalls (earlier later : List Call)
    (small : (afterCalls session world (earlier ++ later)).world.slots.size < UInt32.size)
    {ref : FieldRef} {field : Word} (unwritable : world.access ref.target field ≠ .readWrite)
    (outlives : Outlives session world earlier later ref) :
    (afterCalls session world (earlier ++ later)).world.field? ref field =
      (afterCalls session world earlier).world.field? ref field := by
  induction later using List.reverseRecOn with
  | nil => rw [List.append_nil]
  | append_singleton past call ih =>
      have there := outlives past (List.prefix_append _ _)
      have still := outlives (past ++ [call]) List.prefix_rfl
      rw [← List.append_assoc, afterCalls_append_singleton] at small still ⊢
      have grown := size_le_call limited (afterCalls session world (earlier ++ past)) call
      have enough := Nat.lt_of_le_of_lt grown small
      have guarded := guarded_afterCalls limited reachable (earlier ++ past) enough
      have intact := (intact_call limited guarded call small).fields small
      have kept := intact.field?_eq ref field (guarded.access_eq ▸ unwritable) there still
      exact kept.trans (ih enough fun done early => outlives done (early.trans ⟨_, rfl⟩))

/-- Scripts write nothing that is protected.  After any calls in any reachable world, whether
they succeed or fail, a read-only variable has its initial value at every address that leads
to a cell; and a field that is not declared for writing has kept its value since any earlier
point, unless its entity has been lost since. -/
theorem protected_afterCalls (earlier later : List Call)
    (small : (afterCalls session world (earlier ++ later)).world.slots.size < UInt32.size) :
    let before := afterCalls session world earlier
    let machine := afterCalls session world (earlier ++ later)
    (∀ id index declared, id.offset? = some index →
      session.program.vars[index]? = some declared → declared.readOnly = true →
        ∀ address, (machine.registry.resolve id address).isSome = true →
          machine.registry.get id address = declared.initial) ∧
      ∀ ref field, world.access ref.target field ≠ .readWrite →
        Outlives session world earlier later ref →
          machine.world.field? ref field = before.world.field? ref field := by
  intro before machine
  constructor
  · intro id index declared named found readOnly address resolves
    have guarded := guarded_afterCalls limited reachable (earlier ++ later) small
    exact guarded.pristine.get_eq named found readOnly resolves
  · intro ref field unwritable outlives
    exact field?_afterCalls limited reachable earlier later small unwritable outlives

end Sequences

end Calls

/-- A script that writes a read-only variable and another one, and the value of the latter to
two fields of its entity. -/
def meddling : Session where
  program := {
    code := #[0x40, 0, 3, 0x40, 1, 5, 0x61, -1, 2, 0, 1, 0x61, -1, 3, 0, 1, 0x07]
    vars := #[{ name := "limit", scope := .global, initial := 7, readOnly := true },
      { name := "count", scope := .global }]
    actors := Table.empty.insert 1 { tick := some 0 } }
  config := { maxSteps := 8 }

/-- A world with one actor, with a field that is set but may only be read and one that may be
written. -/
def sealedWorld : World :=
  ((((World.new 1 0).spawn 1 (some 0)).2.declareField .actor 2 .readOnly).declareField
    .actor 3 .readWrite).setField (.actor ⟨0, 0⟩) 2 9

/-- Of the four writes of the script, two count and two do not. -/
theorem protected_meddling :
    let machine := afterCalls meddling sealedWorld [.tick ⟨0, 0⟩]
    machine.registry.get 1 {} = 5 ∧ machine.world.field? (.actor ⟨0, 0⟩) 3 = some 5 ∧
      machine.registry.get 0 {} = 7 ∧ machine.world.field? (.actor ⟨0, 0⟩) 2 = some 9 := by
  have reachable : sealedWorld.Reachable :=
    .modify _ _ (.rest (.spawn 1 (some 0) (.new 1 0)) rfl rfl)
  have limited : meddling.config.maxSteps ≠ 0 := by
    decide
  have size_eq : (afterCalls meddling sealedWorld [.tick ⟨0, 0⟩]).world.slots.size = 1 := by
    cbv
  have small :
      (afterCalls meddling sealedWorld [.tick ⟨0, 0⟩]).world.slots.size < UInt32.size := by
    rw [size_eq]
    decide
  have outlives : Outlives meddling sealedWorld [] [.tick ⟨0, 0⟩] (.actor ⟨0, 0⟩) := by
    intro done early
    have inits_eq : [Call.tick ⟨0, 0⟩].inits = [[], [.tick ⟨0, 0⟩]] := rfl
    have listed := (List.mem_inits done _).2 early
    rw [inits_eq, List.mem_cons, List.mem_singleton] at listed
    rcases listed with rfl | rfl
    · cbv
    · cbv
  have unwritable : sealedWorld.access .actor 2 ≠ .readWrite := by
    have declared : sealedWorld.access .actor 2 = .readOnly := by
      cbv
    rw [declared]
    decide
  have resolves :
      ((afterCalls meddling sealedWorld [.tick ⟨0, 0⟩]).registry.resolve 0 {}).isSome = true := by
    cbv
  have start : (afterCalls meddling sealedWorld []).world.field? (.actor ⟨0, 0⟩) 2 = some 9 := by
    cbv
  obtain ⟨initial, kept⟩ := protected_afterCalls limited reachable [] [.tick ⟨0, 0⟩] small
  refine ⟨by cbv, by cbv, ?_, ?_⟩
  · exact initial 0 0 _ (by decide) rfl rfl {} resolves
  · exact (kept (.actor ⟨0, 0⟩) 2 unwritable outlives).trans start

end Machine

end ActorScript
