import ActorScript.Proofs.Machine.Accounts
import ActorScript.Proofs.Machine.Entry
import ActorScript.Proofs.Machine.Settle
import Mathlib.Data.List.Induction
import Mathlib.Data.List.Infix

/-!
# Who is alive

Whatever a host does, the world and the registry agree between its calls: an identity
that has been given out is that of a living entity exactly when the registry does not
treat it as retired.
-/

namespace ActorScript.Machine

open Execution

variable {session : Session} {machine : Machine World}

/-! ## After a frame -/

/-- What is left to do after a frame that ended normally touches no slot. -/
theorem alike_settle (machine : Machine World) (id : EntityId) (occasion : Occasion) :
    World.Alike machine.world (machine.settle id occasion).world := by
  apply kept_settle (World.Alike machine.world) ⟨rfl, rfl⟩
  intro world after settling earlier
  cases settling with
  | count | tire | sleep => exact earlier.trans (World.alike_modify _ _ _)
  | move | check => exact earlier.trans ⟨rfl, rfl⟩

theorem registry_settle (machine : Machine World) (id : EntityId) (occasion : Occasion) :
    (machine.settle id occasion).registry = machine.registry := by
  unfold settle
  dsimp only
  split <;> rfl

theorem Agrees.settle (agrees : machine.Agrees) (id : EntityId) (occasion : Occasion) :
    (machine.settle id occasion).Agrees := by
  have alike := alike_settle machine id occasion
  constructor
  · exact alike.tidy agrees.tidy
  · intro index
    rw [registry_settle, alike.generation_eq]
    exact agrees.watermark index

/-- Deleting an entity vacates its slot. -/
theorem delete_eq {world : World} {id : EntityId} (alive : world.isAlive id = true) :
    ∃ deletions, world.delete id = { world.remove id with deletions } := by
  unfold World.delete
  rw [if_pos alive]
  exact ⟨_, rfl⟩

theorem alike_releasePlayers (world : World) (id : EntityId) :
    World.Alike world (world.releasePlayers id) :=
  ⟨rfl, rfl⟩

theorem alike_delete {id : EntityId} (alive : machine.world.isAlive id = true) :
    World.Alike (machine.world.remove id) (machine.conclude id .delete).world := by
  have still : (machine.world.releasePlayers id).isAlive id = true := by
    rw [(alike_releasePlayers machine.world id).isAlive_eq]
    exact alive
  obtain ⟨deletions, delete_eq⟩ := delete_eq still
  change World.Alike _ ((machine.world.releasePlayers id).delete id)
  rw [delete_eq]
  unfold World.remove
  rw [if_pos still, if_pos alive]
  exact ⟨rfl, rfl⟩

/-- The deletion of a living entity is accounted for at once. -/
theorem Agrees.delete (agrees : machine.Agrees) {id : EntityId}
    (alive : machine.world.isAlive id = true) (more : id.generation ≠ World.lastGeneration) :
    (machine.conclude id .delete).Agrees := by
  have alike := alike_delete alive
  have current := (World.isAlive_iff_generation.1 alive).2
  constructor
  · exact alike.tidy (World.Tidy.remove alive agrees.tidy)
  · intro index
    rw [alike.generation_eq, World.generation_remove alive]
    unfold conclude
    by_cases here : index = id.index
    · subst here
      rw [if_pos rfl, Registry.watermark_forget_self (World.lt_add_one more)]
      rw [agrees.watermark, current]
    · rw [if_neg here, Registry.watermark_forget, if_neg here]
      exact agrees.watermark index

/-- Whatever a frame has done, what is left to do afterwards settles the accounts. -/
theorem agrees_of_accounted {after : Execution World} (accounted : after.Accounted)
    (noisy : after.frame.termination ≠ .deletedQuiet) : after.toMachine.Agrees where
  tidy := accounted.tidy
  watermark index := accounted.elsewhere index fun quiet => absurd quiet noisy

theorem agrees_conclude {after : Execution World} {id : EntityId} (accounted : after.Accounted)
    (own : after.entity = some id) :
    (after.toMachine.conclude id after.frame.termination.outcome).Agrees := by
  have more := accounted.more id own
  cases ending : after.frame.termination with
  | running =>
      exact agrees_of_accounted accounted (by simp [ending])
  | deleted =>
      have noisy : after.frame.termination ≠ .deletedQuiet := by simp [ending]
      exact (agrees_of_accounted accounted noisy).delete (accounted.alive noisy id own) more
  | deletedQuiet =>
      obtain ⟨same, same_own, current, next⟩ := accounted.removed ending
      cases own.symm.trans same_own
      constructor
      · exact accounted.tidy
      · intro index
        by_cases here : index = id.index
        · subst here
          exact (Registry.watermark_forget_self (World.lt_add_one more) current).trans next.symm
        · have kept := accounted.elsewhere index fun _ other other_own => by
            cases own.symm.trans other_own
            exact here
          calc
            (after.registry.forget id).watermark index = after.registry.watermark index := by
              rw [Registry.watermark_forget, if_neg here]
            _ = after.world.generation index := kept

/-- Concluding a frame vacates no slot but that of its entity, and none too often. -/
theorem succeeds_conclude {after : Execution World} {id : EntityId} (accounted : after.Accounted)
    (own : after.entity = some id) :
    World.Succeeds after.world
      (after.toMachine.conclude id after.frame.termination.outcome).world := by
  cases ending : after.frame.termination with
  | running => exact .refl _
  | deletedQuiet => exact .refl _
  | deleted =>
      have noisy : after.frame.termination ≠ .deletedQuiet := by simp [ending]
      have alive := accounted.alive noisy id own
      have removed := World.succeeds_remove alive (accounted.more id own)
      have alike : World.Alike (after.world.remove id) _ := alike_delete alive
      exact removed.trans alike.succeeds

theorem size_conclude (machine : Machine World) (id : EntityId) (outcome : FrameOutcome) :
    (machine.conclude id outcome).world.slots.size = machine.world.slots.size := by
  cases outcome with
  | normal => rfl
  | delete => exact World.size_delete (machine.world.releasePlayers id) id
  | deleteQuiet => rfl

/-! ## Single calls -/

/-- The world and the registry still agree, and the world has been lived on. -/
structure Continues (before after : Machine World) : Prop where
  agrees : after.Agrees
  succeeds : World.Succeeds before.world after.world

theorem Continues.trans {before between after : Machine World} (first : Continues before between)
    (second : Continues between after) : Continues before after :=
  ⟨second.agrees, first.succeeds.trans second.succeeds⟩

/-- The owner of a call can be removed without its generation running out. -/
def Call.HasMore (machine : Machine World) (call : Call) : Prop :=
  ∀ id, call.owner? = some id → machine.world.isAlive id = true →
    id.generation ≠ World.lastGeneration

section Frame

variable {call : Call} {start : Execution World} (single : call ≠ .all)
  (starts : Starts session machine call start)
include single starts

theorem alike_of_starts : World.Alike machine.world start.world := by
  obtain ⟨world, address, extra, cursor, rfl, same, _, _⟩ := starts.eq_begin single
  rcases same with rfl | ⟨id, change, _, _, rfl⟩
  · exact ⟨rfl, rfl⟩
  · exact World.alike_modifyState _ _ _

theorem registry_of_starts : start.registry = machine.registry := by
  obtain ⟨world, address, extra, cursor, rfl, _⟩ := starts.eq_begin single
  rfl

/-- A frame starts with its accounts right. -/
theorem accounted_of_starts (agrees : machine.Agrees) (more : Call.HasMore machine call) :
    start.Accounted := by
  have alike := alike_of_starts single starts
  have registry_eq := registry_of_starts single starts
  obtain ⟨world, address, extra, cursor, rfl, _, owned, _⟩ := starts.eq_begin single
  constructor
  · exact alike.tidy agrees.tidy
  · intro id own
    exact more id (owned id own).2 (owned id own).1
  · intro index _
    rw [registry_eq, alike.generation_eq]
    exact agrees.watermark index
  · intro _ id own
    rw [alike.isAlive_eq]
    exact (owned id own).1
  · intro quiet
    contradiction

end Frame

/-- What a frame of a single call leads to at its end. -/
structure Ended (machine : Machine World) (start after : Execution World) : Prop where
  accounted : after.Accounted
  succeeds : World.Succeeds machine.world after.world
  same : after.entity = start.entity

/-- What is left to do after a frame adds no slot and takes none away. -/
theorem size_of_finishes {start : Execution World} {answer : Answer World Unit}
    (finishes : Finishes session start answer) :
    answer.2.world.slots.size = (start.runBlock session).2.world.slots.size := by
  cases finishes with
  | fails block => rw [block]
  | @settles after id occasion block _ =>
      rw [block]
      exact (alike_settle after.toMachine id occasion).size_eq
  | @concludes after id block _ =>
      rw [block]
      exact size_conclude after.toMachine id _
  | departs block _ => rw [block]

/-- What is left to do after a frame settles its accounts. -/
theorem settled_of_finishes (limited : session.config.maxSteps ≠ 0) {start : Execution World}
    (ended : Ended machine start (start.runBlock session).2) {answer : Answer World Unit}
    (finishes : Finishes session start answer) :
    answer.2.Agrees ∧ World.Succeeds (start.runBlock session).2.world answer.2.world := by
  cases finishes with
  | @fails after error block =>
      obtain ⟨moments, run⟩ := exists_run limited .frame start
      rw [block] at ended run ⊢
      have running : after.frame.termination = .running := run.isRunning_of_error rfl
      constructor
      · apply agrees_of_accounted ended.accounted
        rw [running]
        decide
      · exact .refl _
  | @settles after id occasion block running =>
      rw [block] at ended ⊢
      constructor
      · apply Agrees.settle
        apply agrees_of_accounted ended.accounted
        rw [running]
        decide
      · exact (alike_settle after.toMachine id occasion).succeeds
  | @concludes after id block own =>
      rw [block] at ended ⊢
      have owned := ended.same.trans own
      constructor
      · exact agrees_conclude ended.accounted owned
      · exact succeeds_conclude ended.accounted owned
  | @departs after block unowned =>
      rw [block] at ended ⊢
      constructor
      · apply agrees_of_accounted ended.accounted
        intro quiet
        obtain ⟨id, own, _⟩ := ended.accounted.removed quiet
        rw [ended.same, unowned] at own
        contradiction
      · exact .refl _

section Frame

variable {call : Call} {start : Execution World} (limited : session.config.maxSteps ≠ 0)
  (single : call ≠ .all) (starts : Starts session machine call start)
include limited single starts

/-- The accounts are right at the end of a frame, as long as there is room for new
entities. -/
theorem ended_of_block (agrees : machine.Agrees) (more : Call.HasMore machine call)
    (small : (start.runBlock session).2.world.slots.size < UInt32.size) :
    Ended machine start (start.runBlock session).2 := by
  obtain ⟨moments, run⟩ := exists_run limited .frame start
  have accounted := accounted_of_starts single starts agrees more
  have succeeds := (alike_of_starts single starts).succeeds
  have finish := (run.kept (keeps_accounted session machine.world)
    fun _ => ⟨accounted, succeeds⟩).2 small
  constructor
  · exact finish.1
  · exact finish.2
  · exact (run.kept (keeps_entity session start.entity) rfl).2

theorem size_of_starts :
    machine.world.slots.size ≤ (start.runBlock session).2.world.slots.size := by
  obtain ⟨moments, run⟩ := exists_run limited .frame start
  apply (run.kept (keeps_size session machine.world.slots.size) _).2
  exact Nat.le_of_eq (alike_of_starts single starts).size_eq.symm

end Frame

/-- No call takes a slot away. -/
theorem size_call (machine : Machine World) (call : Call) (limited : session.config.maxSteps ≠ 0)
    (single : call ≠ .all) :
    machine.world.slots.size ≤ (machine.call session call).2.world.slots.size := by
  have possible : Conducts session machine call _ := conducts single
  generalize machine.call session call = answer at possible
  cases possible with
  | idle => exact Nat.le_refl _
  | unanimated _ => exact Nat.le_refl _
  | @outside id _ _ => exact Nat.le_of_eq (size_conclude machine id .delete).symm
  | runs starts finishes =>
      rw [size_of_finishes finishes]
      exact size_of_starts limited single starts

/-- A call for a single entity or event leaves world and registry in agreement. -/
theorem continues_call {call : Call} (limited : session.config.maxSteps ≠ 0)
    (single : call ≠ .all) (agrees : machine.Agrees) (more : Call.HasMore machine call)
    (small : (machine.call session call).2.world.slots.size < UInt32.size) :
    Continues machine (machine.call session call).2 := by
  have possible : Conducts session machine call _ := conducts single
  generalize machine.call session call = answer at possible small
  cases possible with
  | idle => exact ⟨agrees, .refl _⟩
  | unanimated _ => exact ⟨agrees, .refl _⟩
  | @outside id own alive =>
      have last := more id own alive
      constructor
      · exact agrees.delete alive last
      · exact (World.succeeds_remove alive last).trans (alike_delete alive).succeeds
  | @runs start starts finishes =>
      rw [size_of_finishes finishes] at small
      have ended := ended_of_block limited single starts agrees more small
      obtain ⟨after, succeeds⟩ := settled_of_finishes limited ended finishes
      exact ⟨after, ended.succeeds.trans succeeds⟩

/-- What a single call has spawned is known to the world after the call. -/
theorem knows_of_meets {call : Call} (limited : session.config.maxSteps ≠ 0)
    (single : call ≠ .all) (agrees : machine.Agrees) (more : Call.HasMore machine call)
    (small : (machine.call session call).2.world.slots.size < UInt32.size)
    {moment : Moment World} (meets : Meets session machine call moment) {id : EntityId}
    (spawned : moment.execution.spawned? session = some id) :
    (machine.call session call).2.world.Knows id := by
  obtain ⟨start, moments, starts, run, member⟩ := meets
  have finishes := finishes_of_starts single starts
  rw [size_of_finishes finishes] at small
  have accounted := accounted_of_starts single starts agrees more
  have ended := ended_of_block limited single starts agrees more small
  have knows := knows_of_spawned? run accounted small member spawned
  exact knows.later (settled_of_finishes limited ended finishes).2

/-! ## Passes -/

/-- Of an entity whose generation is not the last, a tick can always be accounted for. -/
theorem hasMore_tick {id : EntityId} (last : id.generation ≠ World.lastGeneration)
    (machine : Machine World) : Call.HasMore machine (.tick id) := by
  rintro _ ⟨⟩ _
  exact last

section Passes

variable {ids : List EntityId} {answer : Answer World Unit} (limited : session.config.maxSteps ≠ 0)
include limited

theorem size_pass (passes : Passes session ids machine answer) :
    machine.world.slots.size ≤ answer.2.world.slots.size := by
  apply passes.kept (fun middle => machine.world.slots.size ≤ middle.world.slots.size)
    (Nat.le_refl _)
  intro middle id _ grown
  exact Nat.le_trans grown (size_call middle (.tick id) limited (by simp))

/-- A pass leaves world and registry in agreement, also when it is cut short. -/
theorem continues_pass (passes : Passes session ids machine answer) (agrees : machine.Agrees)
    (more : ∀ id ∈ ids, id.generation ≠ World.lastGeneration)
    (small : answer.2.world.slots.size < UInt32.size) : Continues machine answer.2 := by
  induction passes with
  | done => exact ⟨agrees, .refl _⟩
  | @fails machine after id rest error failed =>
      have last := hasMore_tick (more id List.mem_cons_self) machine
      have ticks := continues_call limited (by simp) agrees last
      rw [failed] at ticks
      exact ticks small
  | @next machine middle id rest answer ticked later ih =>
      have last := hasMore_tick (more id List.mem_cons_self) machine
      have ticks := continues_call limited (by simp) agrees last
      rw [ticked] at ticks
      have ticks := ticks (Nat.lt_of_le_of_lt (size_pass limited later) small)
      apply ticks.trans
      apply ih ticks.agrees _ small
      intro other member
      exact more other (List.mem_cons_of_mem _ member)

/-- What the first tick of a pass has spawned is known to the world after the pass. -/
theorem knows_of_first {id : EntityId} {rest : List EntityId}
    (passes : Passes session (id :: rest) machine answer) (agrees : machine.Agrees)
    (more : ∀ other ∈ id :: rest, other.generation ≠ World.lastGeneration)
    (small : answer.2.world.slots.size < UInt32.size) {moment : Moment World}
    (meets : Meets session machine (.tick id) moment) {spawned : EntityId}
    (spawns : moment.execution.spawned? session = some spawned) :
    answer.2.world.Knows spawned := by
  have last := hasMore_tick (more id List.mem_cons_self) machine
  have known := fun enough =>
    knows_of_meets limited (by simp) agrees last enough meets spawns
  have ticks := continues_call limited (by simp) agrees last
  cases passes with
  | fails failed =>
      rw [failed] at known
      exact known small
  | next ticked later =>
      rw [ticked] at known ticks
      have enough := Nat.lt_of_le_of_lt (size_pass limited later) small
      have behind : ∀ other ∈ rest, other.generation ≠ World.lastGeneration :=
        fun other member => more other (List.mem_cons_of_mem _ member)
      have succeeds := (continues_pass limited later (ticks enough).agrees behind small).succeeds
      exact (known enough).later succeeds

end Passes

/-! ## Actions -/

/-- An action of the host gives out an identity, itself or by a script. -/
inductive Issues (session : Session) (machine : Machine World) : Action → EntityId → Prop
  | spawn (kind : Word) (sector : Option Word) :
      Issues session machine (.spawn kind sector) (machine.world.spawn kind sector).1
  | script {call : Call} {moment : Moment World} {id : EntityId}
      (meets : Meets session machine call moment)
      (spawned : moment.execution.spawned? session = some id) :
      Issues session machine (.call call) id

section Actions

variable (limited : session.config.maxSteps ≠ 0) (roomy : machine.world.Roomy)
  (agrees : machine.Agrees)
include limited roomy agrees

/-- Every action of the host leaves world and registry in agreement. -/
theorem continues_act (action : Action)
    (small : (machine.act session action).world.slots.size < UInt32.size) :
    Continues machine (machine.act session action) := by
  cases action with
  | spawn kind sector =>
      constructor
      · constructor
        · exact agrees.tidy.spawn kind sector roomy.size
        · intro index
          exact (agrees.watermark index).trans
            (congrFun (World.generation_spawn kind sector) index).symm
      · exact World.succeeds_spawn kind sector agrees.tidy roomy.size
  | addPlayer =>
      have alike : World.Alike machine.world machine.world.addPlayer.2 := ⟨rfl, rfl⟩
      exact ⟨⟨alike.tidy agrees.tidy, agrees.watermark⟩, alike.succeeds⟩
  | setVar id address value =>
      constructor
      · constructor
        · exact agrees.tidy
        · intro index
          exact (Registry.watermark_set machine.registry id address value index).trans
            (agrees.watermark index)
      · exact .refl _
  | call call =>
      by_cases single : call = .all
      · subst single
        have passes : Passes session machine.world.tickOrder machine (machine.call session .all) :=
          passes_runEach _ _ _
        have more := roomy.generation_ne_of_mem_tickOrder
        exact continues_pass limited passes agrees more small
      · apply continues_call limited single agrees _ small
        intro id _ alive
        exact roomy.generation_ne alive

/-- An identity that an action has given out is known to the world after the action. -/
theorem knows_of_issues {action : Action} {id : EntityId}
    (small : (machine.act session action).world.slots.size < UInt32.size)
    (issues : Issues session machine action id) :
    (machine.act session action).world.Knows id := by
  cases issues with
  | spawn kind sector => exact Or.inr (World.isAlive_spawn kind sector agrees.tidy roomy.size)
  | @script call moment _ meets spawned =>
      by_cases single : call = .all
      · subst single
        obtain ⟨start, moments, starts, run, member⟩ := meets
        cases starts with
        | @all _ middle before rest ticked _ order pass starts =>
            change machine.world.tickOrder = before ++ ticked :: rest at order
            have more := roomy.generation_ne_of_mem_tickOrder
            rw [order] at more
            have answer_eq : machine.call session .all =
                discard (runEach session (ticked :: rest) #[] middle) := by
              rw [← discard_runEach_append pass, ← order]
              rfl
            change (machine.call session .all).2.world.slots.size < UInt32.size at small
            change (machine.call session .all).2.world.Knows id
            have earlier := @passes_runEach World _ session before #[] machine
            have later := @passes_runEach World _ session (ticked :: rest) #[] middle
            rw [pass] at earlier
            rw [answer_eq] at small ⊢
            have enough := Nat.lt_of_le_of_lt (size_pass limited later) small
            have reached := continues_pass limited earlier agrees
              (fun other listed => more other (List.mem_append_left _ listed)) enough
            exact knows_of_first limited later reached.agrees
              (fun other listed => more other (List.mem_append_right _ listed)) small
              ⟨start, moments, starts, run, member⟩ spawned
      · apply knows_of_meets limited single agrees _ small meets spawned
        intro owner _ alive
        exact roomy.generation_ne alive

end Actions

/-! ## Histories -/

/-- Of the identities that have been given out, the registry treats exactly those as retired
that have lost their entity. -/
theorem Agrees.isAlive_iff (agrees : machine.Agrees) {id : EntityId}
    (knows : machine.world.Knows id) :
    machine.world.isAlive id = true ↔ machine.registry.isRetired id = false := by
  unfold Registry.isRetired
  rw [agrees.watermark, decide_eq_false_iff_not]
  constructor
  · intro alive passed
    rw [(World.isAlive_iff_generation.1 alive).2] at passed
    exact UInt32.lt_irrefl _ passed
  · intro current
    rcases knows with passed | alive
    · exact absurd passed current
    · exact alive

theorem agrees_new {world : World} (fresh : world.Fresh) : (Machine.new session world).Agrees where
  tidy := fresh.tidy
  watermark index := by
    have start : (Machine.new session world).registry.watermark index = 0 := by
      simp [Machine.new, Registry.new, Registry.watermark]
    exact start.trans (fresh.generation_eq index).symm

/-- There is room at every point of a history. -/
def RoomyThroughout (session : Session) (world : World) (history : List Action) : Prop :=
  ∀ past, past <+: history → (after session world past).world.Roomy

theorem RoomyThroughout.earlier {world : World} {past history : List Action}
    (roomy : RoomyThroughout session world history) (early : past <+: history) :
    RoomyThroughout session world past :=
  fun _ earlier => roomy _ (earlier.trans early)

section Histories

variable {world : World} {history : List Action} (limited : session.config.maxSteps ≠ 0)
  (fresh : world.Fresh) (roomy : RoomyThroughout session world history)
include limited fresh roomy

/-- Between the actions of a host, the world and the registry agree. -/
theorem agrees_after : (after session world history).Agrees := by
  induction history using List.reverseRecOn with
  | nil => exact agrees_new fresh
  | append_singleton past action ih =>
      have early : past <+: past ++ [action] := List.prefix_append _ _
      have agrees := ih (roomy.earlier early)
      have small := (roomy _ List.prefix_rfl).size
      rw [after_append_singleton] at small ⊢
      exact (continues_act limited (roomy past early) agrees action small).agrees

/-- What comes later in a history succeeds what came earlier. -/
theorem succeeds_after {past : List Action} (early : past <+: history) :
    World.Succeeds (after session world past).world (after session world history).world := by
  induction history using List.reverseRecOn with
  | nil =>
      rw [List.prefix_nil.1 early]
      exact .refl _
  | append_singleton middle action ih =>
      rcases List.prefix_concat_iff.1 early with rfl | earlier
      · exact .refl _
      · have before : middle <+: middle ++ [action] := List.prefix_append _ _
        have agrees := agrees_after limited fresh (roomy.earlier before)
        have small := (roomy _ List.prefix_rfl).size
        rw [after_append_singleton] at small ⊢
        have continues := continues_act limited (roomy middle before) agrees action small
        exact (ih (roomy.earlier before) earlier).trans continues.succeeds

/-- An identity that has been given out stays known to the world. -/
theorem knows_after {past : List Action} {action : Action} {id : EntityId}
    (early : past ++ [action] <+: history)
    (issues : Issues session (after session world past) action id) :
    (after session world history).world.Knows id := by
  have before : past <+: past ++ [action] := List.prefix_append _ _
  have agrees := agrees_after limited fresh (roomy.earlier (before.trans early))
  have small := (roomy _ early).size
  have succeeds := succeeds_after limited fresh roomy early
  rw [after_append_singleton] at small succeeds
  have knows := knows_of_issues limited (roomy past (before.trans early)) agrees small issues
  exact knows.later succeeds

/-- In a session, an identity that has been given out is that of a living entity exactly
when the registry does not treat it as retired, so that actor variables are found under it;
and once its entity is gone, it stays so. -/
theorem isAlive_iff_resolves {past : List Action} {action : Action} {id : EntityId}
    (early : past ++ [action] <+: history)
    (issues : Issues session (after session world past) action id) :
    let machine := after session world history
    (machine.world.isAlive id = true ↔ machine.registry.isRetired id = false) ∧
      (∀ var declared player, machine.registry.declaration? var = some declared →
        declared.scope = .actor →
          (machine.world.isAlive id = true ↔
            (machine.registry.resolve var ⟨some id, player⟩).isSome = true)) ∧
      ∀ middle, past ++ [action] <+: middle → middle <+: history →
        (after session world middle).world.isAlive id = false →
          machine.world.isAlive id = false := by
  intro machine
  have knows := knows_after limited fresh roomy early issues
  have alive_iff := (agrees_after limited fresh roomy).isAlive_iff knows
  refine ⟨alive_iff, ?_, ?_⟩
  · intro var declared player found scope
    rw [Registry.isSome_resolve_iff found scope]
    exact alive_iff
  · intro middle earlier later gone
    have known := knows_after limited fresh (roomy.earlier later) earlier issues
    exact known.stays_gone gone (succeeds_after limited fresh roomy later)

end Histories

/-- Actors with a variable of their own that delete themselves at their first tick. -/
def deleting : Session where
  program := {
    code := #[0x0C]
    vars := #[{ name := "life", scope := .actor }]
    actors := Table.empty.insert 1 { tick := some 0 } }
  config := { maxSteps := 8 }

/-- An entity that deletes itself, and another in its place. -/
def reusing : List Action :=
  [.spawn 1 (some 0), .call (.tick ⟨0, 0⟩), .spawn 1 (some 0)]

theorem roomy_reusing : RoomyThroughout deleting (World.new 1 0) reusing := by
  have every : ∀ past ∈ reusing.inits,
      (after deleting (World.new 1 0) past).world.slots.size < UInt32.size ∧
        (after deleting (World.new 1 0) past).world.slots.all
          (fun slot => slot.generation != World.lastGeneration) = true := by
    decide +kernel
  intro past early
  obtain ⟨size, more⟩ := every past ((List.mem_inits past reusing).2 early)
  refine ⟨size, ?_⟩
  intro slot member
  simpa using Array.all_eq_true_iff_forall_mem.1 more slot member

/-- The first entity of `reusing` is gone for good, though its slot has been taken again. -/
theorem isAlive_reusing :
    let machine := after deleting (World.new 1 0) reusing
    machine.world.isAlive ⟨0, 1⟩ = true ∧ machine.world.isAlive ⟨0, 0⟩ = false ∧
      (machine.world.isAlive ⟨0, 0⟩ = true ↔ machine.registry.isRetired ⟨0, 0⟩ = false) ∧
      (machine.world.isAlive ⟨0, 0⟩ = true ↔
        (machine.registry.resolve 0 ⟨some ⟨0, 0⟩, none⟩).isSome = true) := by
  have early : [] ++ [.spawn 1 (some 0)] <+: reusing := ⟨_, rfl⟩
  have issues : Issues deleting (after deleting (World.new 1 0) [])
      (.spawn 1 (some 0)) ⟨0, 0⟩ := .spawn 1 (some 0)
  obtain ⟨retired, resolves, _⟩ :=
    isAlive_iff_resolves (by decide) (World.fresh_new 1 0) roomy_reusing early issues
  refine ⟨by decide +kernel, by decide +kernel, retired, ?_⟩
  exact resolves 0 { name := "life", scope := .actor } none (by decide +kernel) rfl

end ActorScript.Machine
