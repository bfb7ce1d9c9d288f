import ActorScript.Machine.Entry
import ActorScript.Proofs.Machine.Run
import ActorScript.Proofs.World.Slots

/-!
# Calls and histories

A host works on the machine by calls, which run frames, and by a few actions of its
own.  A history is a list of such actions from the start of a session.  `Starts` tells
which frames a call runs, `Meets` at which moments of theirs the machine arrives, and
`Conducts` what a call for a single entity can come to.
-/

namespace ActorScript

/-- A call of the machine from outside. -/
inductive Call where
  | load (id : EntityId) (player : Option PlayerId) (extra : Word)
  | tick (id : EntityId)
  | event (event : Word) (entity : Option EntityId) (player : Option PlayerId) (extra : Word)
  /-- A pass over all entities. -/
  | all
deriving DecidableEq, Repr

/-- The entity on whose behalf a call runs a frame, if it is alive. -/
def Call.owner? : Call → Option EntityId
  | .load id _ _ | .tick id => some id
  | .event _ entity _ _ => entity
  | .all => none

/-- What a host does in a session. -/
inductive Action where
  | spawn (kind : Word) (sector : Option Word)
  | addPlayer
  | setVar (id : Word) (address : Address) (value : Word)
  | call (call : Call)
deriving DecidableEq, Repr

namespace Machine

variable {W : Type} [Host W]

/-- Leaves out what a call answers when it succeeds. -/
def discard {α : Type} (answer : Answer W α) : Answer W Unit :=
  (answer.1.map fun _ => (), answer.2)

/-- Carries out a call. -/
def call (session : Session) (machine : Machine W) : Call → Answer W Unit
  | .load id player extra => discard (machine.runLoad session id player extra)
  | .tick id => discard (machine.runTick session id)
  | .event event entity player extra =>
      discard (machine.dispatchEvent session event entity player extra)
  | .all => discard (machine.runAll session)

variable {session : Session} {machine : Machine W}

omit [Host W] in
@[simp]
theorem discard_ok {α : Type} (answer : α) (machine : Machine W) :
    discard (.ok answer, machine) = (.ok (), machine) :=
  rfl

omit [Host W] in
@[simp]
theorem discard_error {α : Type} (error : RuntimeError) (machine : Machine W) :
    discard ((.error error, machine) : Answer W α) = (.error error, machine) :=
  rfl

/-! ## Histories of the world in memory -/

/-- The machine after an action of the host. -/
def act (session : Session) (machine : Machine World) : Action → Machine World
  | .spawn kind sector => { machine with world := (machine.world.spawn kind sector).2 }
  | .addPlayer => { machine with world := machine.world.addPlayer.2 }
  | .setVar id address value =>
      { machine with registry := machine.registry.set id address value }
  | .call call => (machine.call session call).2

/-- The machine after a history, from the start of a session. -/
def after (session : Session) (world : World) (history : List Action) : Machine World :=
  history.foldl (act session) (Machine.new session world)

@[simp]
theorem after_nil (session : Session) (world : World) :
    after session world [] = Machine.new session world :=
  rfl

@[simp]
theorem after_append_singleton (session : Session) (world : World) (history : List Action)
    (action : Action) :
    after session world (history ++ [action]) =
      (after session world history).act session action := by
  simp [after]

/-! ## The frames of a call -/

/-- A call starts a frame, in the state given. -/
inductive Starts (session : Session) : Machine W → Call → Execution W → Prop
  | tick {machine : Machine W} {id : EntityId} {start : Nat} {world : W}
      (script : (machine.scriptsOf? session id).bind (·.tick) = some start)
      (inside : (Host.sectorOf? machine.world id).isNone = false)
      (animated : advanceAnimation session machine.world id = .ok world) :
      Starts session machine (.tick id)
        (begin { machine with world }
          ⟨some id, (Host.nearestPlayer? machine.world id).map (·.1)⟩
          (((Host.nearestPlayer? machine.world id).map (·.2)).getD 0) start)
  | load {machine : Machine W} {id : EntityId} {player : Option PlayerId} {extra : Word}
      {start : Nat}
      (script : (machine.scriptsOf? session id).bind (·.load) = some start)
      (inside : (Host.sectorOf? machine.world id).isNone = false) :
      Starts session machine (.load id player extra)
        (machine.begin ⟨some id, player⟩ extra start)
  | event {machine : Machine W} {event : Word} {entity : Option EntityId}
      {player : Option PlayerId} {extra : Word} {start : Nat} (valid : ¬ event < 0)
      (handler : session.program.events.get? event = some start) :
      Starts session machine (.event event entity player extra)
        (machine.begin ⟨entity.filter (Host.isAlive machine.world), player⟩ extra start)
  | all {machine middle : Machine W} {before rest : List EntityId} {id : EntityId}
      {start : Execution W}
      (order : Host.tickOrder machine.world = before ++ id :: rest)
      (pass : discard (runEach session before #[] machine) = (.ok (), middle))
      (starts : Starts session middle (.tick id) start) :
      Starts session machine .all start

/-- In a call the machine arrives at a moment. -/
def Meets (session : Session) (machine : Machine W) (call : Call) (moment : Moment W) : Prop :=
  ∃ start moments, Starts session machine call start ∧
    Execution.Run session .frame start moments (start.runBlock session) ∧ moment ∈ moments

theorem meets_all {middle : Machine W} {before rest : List EntityId} {id : EntityId}
    {moment : Moment W} (order : Host.tickOrder machine.world = before ++ id :: rest)
    (pass : discard (runEach session before #[] machine) = (.ok (), middle))
    (meets : Meets session middle (.tick id) moment) : Meets session machine .all moment := by
  obtain ⟨start, moments, starts, run, member⟩ := meets
  exact ⟨start, moments, .all order pass starts, run, member⟩

/-- An entity has the scripts of its kind as long as it is alive. -/
theorem scriptsOf?_eq_some_iff {id : EntityId} {scripts : Scripts} :
    machine.scriptsOf? session id = some scripts ↔
      Host.isAlive machine.world id = true ∧ ∃ kind,
        Host.kindOf? machine.world id = some kind ∧
          session.program.actors.get? kind = some scripts := by
  unfold scriptsOf?
  split
  · rename_i alive
    rw [Option.bind_eq_some_iff]
    exact ⟨fun found => ⟨alive, found⟩, fun found => found.2⟩
  · rename_i gone
    simp [gone]

/-- The scripts of an entity stand in the tables of the program. -/
theorem mem_entries_of_scriptsOf? {id : EntityId} {scripts : Scripts} {start : Nat}
    (found : machine.scriptsOf? session id = some scripts)
    (script : start ∈ scripts.offsets) : start ∈ session.program.entries := by
  obtain ⟨_, kind, _, scripts_eq⟩ := scriptsOf?_eq_some_iff.1 found
  apply List.mem_append_left
  exact List.mem_flatMap.2 ⟨scripts, Table.mem_values_of_get? scripts_eq, script⟩

/-- Going on with an action leaves the action, and touches no other entity. -/
theorem advanceAnimation_eq_ok {world animated : W} {id : EntityId}
    (advanced : advanceAnimation session world id = .ok animated) :
    animated = world ∨ ∃ change, (∀ state, (change state).action = state.action) ∧
      animated = Host.modifyState world id change := by
  unfold advanceAnimation at advanced
  split at advanced
  · cases advanced
    exact Or.inl rfl
  · split at advanced
    · cases advanced
      exact Or.inl rfl
    · split at advanced
      · cases advanced
      · cases advanced
        refine Or.inr ⟨_, ?_, rfl⟩
        intro state
        unfold Machine.animated
        dsimp only
        split <;> split <;> rfl

/-- How a frame of a single call starts: at an entry of the program, for an entity that is
alive, in the world as it was but for the animation of the entity. -/
theorem Starts.eq_begin {call : Call} {start : Execution W}
    (starts : Starts session machine call start) (single : call ≠ .all) :
    ∃ world address extra cursor, start = begin { machine with world } address extra cursor ∧
      (world = machine.world ∨ ∃ id change, call.owner? = some id ∧
        (∀ state, (change state).action = state.action) ∧
          world = Host.modifyState machine.world id change) ∧
      (∀ id, address.entity = some id →
        Host.isAlive machine.world id = true ∧ call.owner? = some id) ∧
      cursor ∈ session.program.entries := by
  cases starts with
  | @tick _ id start world script inside animated =>
      obtain ⟨scripts, found, tick_eq⟩ := Option.bind_eq_some_iff.1 script
      refine ⟨world, _, _, start, rfl, ?_, ?_, ?_⟩
      · refine (advanceAnimation_eq_ok animated).imp_right ?_
        rintro ⟨change, same⟩
        exact ⟨id, change, rfl, same⟩
      · rintro _ ⟨⟩
        exact ⟨(scriptsOf?_eq_some_iff.1 found).1, rfl⟩
      · apply mem_entries_of_scriptsOf? found
        simp [Scripts.offsets, tick_eq]
  | @load _ id player extra start script inside =>
      obtain ⟨scripts, found, load_eq⟩ := Option.bind_eq_some_iff.1 script
      refine ⟨machine.world, _, _, start, rfl, Or.inl rfl, ?_, ?_⟩
      · rintro _ ⟨⟩
        exact ⟨(scriptsOf?_eq_some_iff.1 found).1, rfl⟩
      · apply mem_entries_of_scriptsOf? found
        simp [Scripts.offsets, load_eq]
  | @event _ event entity player extra start valid handler =>
      refine ⟨machine.world, _, _, start, rfl, Or.inl rfl, ?_, ?_⟩
      · intro id own
        exact (Option.filter_eq_some_iff.1 own).symm
      · apply List.mem_append_right
        exact Table.mem_values_of_get? handler
  | all _ _ _ => exact absurd rfl single

/-! ## What a call comes to -/

/-- All that a frame can leave to be done. -/
inductive Finishes (session : Session) (start : Execution W) : Answer W Unit → Prop
  | fails {after : Execution W} {error : RuntimeError}
      (block : start.runBlock session = (.error error, after)) :
      Finishes session start (.error error, after.toMachine)
  | settles {after : Execution W} {id : EntityId} {occasion : Occasion}
      (block : start.runBlock session = (.ok (), after))
      (running : after.frame.termination = .running) (own : start.entity = some id) :
      Finishes session start (.ok (), after.toMachine.settle id occasion)
  | concludes {after : Execution W} {id : EntityId}
      (block : start.runBlock session = (.ok (), after)) (own : start.entity = some id) :
      Finishes session start
        (.ok (), after.toMachine.conclude id after.frame.termination.outcome)
  | departs {after : Execution W} (block : start.runBlock session = (.ok (), after))
      (unowned : start.entity = none) :
      Finishes session start (.ok (), after.toMachine)

/-- All that a call for a single entity or event can come to. -/
inductive Conducts (session : Session) (machine : Machine W) (call : Call) : Answer W Unit → Prop
  | idle : Conducts session machine call (.ok (), machine)
  /-- An entity outside the world is deleted. -/
  | outside {id : EntityId} (own : call.owner? = some id)
      (alive : Host.isAlive machine.world id = true) :
      Conducts session machine call (.ok (), machine.conclude id .delete)
  | unanimated {id : EntityId} {error : RuntimeError}
      (failed : advanceAnimation session machine.world id = .error error) :
      Conducts session machine call (.error error, machine)
  | runs {start : Execution W} (starts : Starts session machine call start)
      (finishes : Finishes session start (machine.call session call)) :
      Conducts session machine call (machine.call session call)

theorem finishes_runScript (machine : Machine W) (id : EntityId) (player : Option PlayerId)
    (extra : Word) (start : Nat) (occasion : Occasion) :
    Finishes session (machine.begin ⟨some id, player⟩ extra start)
      (discard (runScript session machine id player extra start occasion)) := by
  unfold runScript
  split
  · rename_i block
    exact .fails block
  · rename_i after block
    cases ending : after.frame.termination with
    | running => exact .settles block ending rfl
    | deleted =>
        have concluded := Finishes.concludes block rfl
        rw [ending] at concluded
        exact concluded
    | deletedQuiet =>
        have concluded := Finishes.concludes block rfl
        rw [ending] at concluded
        exact concluded

/-- A single call ends as its frame does. -/
theorem finishes_of_starts {call : Call} {start : Execution W} (single : call ≠ .all)
    (starts : Starts session machine call start) :
    Finishes session start (machine.call session call) := by
  cases starts with
  | @tick _ id start world script inside animated =>
      have call_eq : machine.call session (.tick id) =
          discard (runScript session { machine with world } id
            ((Host.nearestPlayer? machine.world id).map (·.1))
            (((Host.nearestPlayer? machine.world id).map (·.2)).getD 0) start .tick) := by
        simp [Machine.call, runTick, script, inside, animated]
      rw [call_eq]
      exact finishes_runScript _ _ _ _ _ _
  | @load _ id player extra start script inside =>
      have call_eq : machine.call session (.load id player extra) =
          discard (runScript session machine id player extra start .load) := by
        simp [Machine.call, runLoad, script, inside]
      rw [call_eq]
      exact finishes_runScript _ _ _ _ _ _
  | @event _ event entity player extra start valid handler =>
      unfold Machine.call dispatchEvent
      simp only [valid, if_false, handler]
      split
      · rename_i block
        exact .fails block
      · rename_i block
        split
        · rename_i unowned
          exact .departs block unowned
        · rename_i own
          exact .concludes block own
  | all _ _ _ => exact absurd rfl single

/-- A call for a single entity or event comes to one of the things listed. -/
theorem conducts {call : Call} (single : call ≠ .all) :
    Conducts session machine call (machine.call session call) := by
  have runs : ∀ {start}, Starts session machine call start →
      Conducts session machine call (machine.call session call) :=
    fun starts => .runs starts (finishes_of_starts single starts)
  cases call with
  | tick id =>
      cases script : (machine.scriptsOf? session id).bind (·.tick) with
      | none =>
          have call_eq : machine.call session (.tick id) = (.ok (), machine) := by
            simp [Machine.call, runTick, script]
          rw [call_eq]
          exact .idle
      | some start =>
          obtain ⟨scripts, found, _⟩ := Option.bind_eq_some_iff.1 script
          cases inside : (Host.sectorOf? machine.world id).isNone with
          | true =>
              have call_eq :
                  machine.call session (.tick id) = (.ok (), machine.conclude id .delete) := by
                simp [Machine.call, runTick, script, inside]
              rw [call_eq]
              exact .outside rfl ((scriptsOf?_eq_some_iff.1 found).1)
          | false =>
              cases animated : advanceAnimation session machine.world id with
              | error error =>
                  have call_eq : machine.call session (.tick id) = (.error error, machine) := by
                    simp [Machine.call, runTick, script, inside, animated]
                  rw [call_eq]
                  exact .unanimated animated
              | ok world => exact runs (.tick script inside animated)
  | load id player extra =>
      cases script : (machine.scriptsOf? session id).bind (·.load) with
      | none =>
          have call_eq : machine.call session (.load id player extra) = (.ok (), machine) := by
            simp [Machine.call, runLoad, script]
          rw [call_eq]
          exact .idle
      | some start =>
          obtain ⟨scripts, found, _⟩ := Option.bind_eq_some_iff.1 script
          cases inside : (Host.sectorOf? machine.world id).isNone with
          | true =>
              have call_eq : machine.call session (.load id player extra) =
                  (.ok (), machine.conclude id .delete) := by
                simp [Machine.call, runLoad, script, inside]
              rw [call_eq]
              exact .outside rfl ((scriptsOf?_eq_some_iff.1 found).1)
          | false => exact runs (.load script inside)
  | event event entity player extra =>
      have idle : machine.call session (.event event entity player extra) = (.ok (), machine) →
          Conducts session machine (.event event entity player extra)
            (machine.call session (.event event entity player extra)) := by
        intro call_eq
        rw [call_eq]
        exact .idle
      by_cases negative : event < 0
      · exact idle (by simp [Machine.call, dispatchEvent, negative])
      · cases handler : session.program.events.get? event with
        | none => exact idle (by simp [Machine.call, dispatchEvent, negative, handler])
        | some start => exact runs (.event negative handler)
  | all => exact absurd rfl single

/-- A condition that every frame of a call for a single entity or event leads to, and that is
kept by what is left to do afterwards, holds after the call. -/
theorem kept_single (Kept : Machine W → Prop) {call : Call} (single : call ≠ .all)
    (before : Kept machine)
    (frame : ∀ {start : Execution W}, Starts session machine call start →
      Kept (start.runBlock session).2.toMachine)
    (settle : ∀ {after : Machine W} (id : EntityId) (occasion : Occasion),
      call.owner? = some id → Kept after → Kept (after.settle id occasion))
    (conclude : ∀ {after : Machine W} (id : EntityId) (outcome : FrameOutcome),
      call.owner? = some id → Host.isAlive machine.world id = true → Kept after →
        Kept (after.conclude id outcome)) :
    Kept (machine.call session call).2 := by
  have possible : Conducts session machine call _ := conducts single
  generalize machine.call session call = answer at possible
  cases possible with
  | idle => exact before
  | outside own alive => exact conclude _ .delete own alive before
  | unanimated _ => exact before
  | runs starts finishes =>
      have finish := frame starts
      generalize machine.call session call = answer at finishes
      cases finishes with
      | fails block =>
          rw [block] at finish
          exact finish
      | settles block _ own =>
          rw [block] at finish
          obtain ⟨_, _, _, _, rfl, _, owned, _⟩ := starts.eq_begin single
          exact settle _ _ (owned _ own).2 finish
      | concludes block own =>
          rw [block] at finish
          obtain ⟨_, _, _, _, rfl, _, owned, _⟩ := starts.eq_begin single
          exact conclude _ _ (owned _ own).2 (owned _ own).1 finish
      | departs block _ =>
          rw [block] at finish
          exact finish

/-! ## Passes -/

/-- Entities are ticked one after the other, up to the first error. -/
inductive Passes (session : Session) : List EntityId → Machine W → Answer W Unit → Prop
  | done {machine : Machine W} : Passes session [] machine (.ok (), machine)
  | fails {machine after : Machine W} {id : EntityId} {rest : List EntityId} {error : RuntimeError}
      (failed : machine.call session (.tick id) = (.error error, after)) :
      Passes session (id :: rest) machine (.error error, after)
  | next {machine middle : Machine W} {id : EntityId} {rest : List EntityId}
      {answer : Answer W Unit} (ticked : machine.call session (.tick id) = (.ok (), middle))
      (later : Passes session rest middle answer) :
      Passes session (id :: rest) machine answer

/-- A condition that each tick keeps holds after a pass, also when it is cut short. -/
theorem Passes.kept {ids : List EntityId} {answer : Answer W Unit}
    (passes : Passes session ids machine answer) (Kept : Machine W → Prop) (before : Kept machine)
    (tick : ∀ {middle : Machine W}, ∀ id ∈ ids, Kept middle →
      Kept (middle.call session (.tick id)).2) : Kept answer.2 := by
  induction passes with
  | done => exact before
  | @fails machine after id rest error failed =>
      have ticked := tick id List.mem_cons_self before
      rw [failed] at ticked
      exact ticked
  | @next machine middle id rest answer ticked later ih =>
      have first := tick id List.mem_cons_self before
      rw [ticked] at first
      exact ih first fun other listed => tick other (List.mem_cons_of_mem _ listed)

theorem passes_runEach (ids : List EntityId) (report : PassReport) (machine : Machine W) :
    Passes session ids machine (discard (runEach session ids report machine)) := by
  induction ids generalizing report machine with
  | nil => exact .done
  | cons id rest ih =>
      unfold runEach
      split
      · rename_i failed
        exact .fails (by simp [Machine.call, failed])
      · rename_i ticked
        exact .next (by simp [Machine.call, ticked]) (ih _ _)
      · rename_i ticked
        exact .next (by simp [Machine.call, ticked]) (ih _ _)

/-- A condition that every call for a single entity or event keeps is kept by every call. -/
theorem kept_call (Kept : Machine W → Prop)
    (single : ∀ {middle : Machine W} {call : Call}, call ≠ .all → Kept middle →
      Kept (middle.call session call).2)
    (before : Kept machine) (call : Call) : Kept (machine.call session call).2 := by
  by_cases whole : call = .all
  · subst whole
    apply (passes_runEach (Host.tickOrder machine.world) #[] machine).kept Kept before
    exact fun id _ ended => single (by simp) ended
  · exact single whole before

/-- The report plays no part in what a pass does. -/
theorem discard_runEach (ids : List EntityId) (report other : PassReport) (machine : Machine W) :
    discard (runEach session ids report machine) = discard (runEach session ids other machine) := by
  induction ids generalizing report other machine with
  | nil => rfl
  | cons id rest ih =>
      unfold runEach
      split
      · rfl
      · exact ih _ _ _
      · exact ih _ _ _

/-- A pass goes on behind the first entity as a pass of its own. -/
theorem discard_runEach_cons {middle : Machine W} {id : EntityId}
    (ticked : machine.call session (.tick id) = (.ok (), middle)) (rest : List EntityId) :
    discard (runEach session (id :: rest) #[] machine) =
      discard (runEach session rest #[] middle) := by
  have ticked : discard (machine.runTick session id) = (.ok (), middle) := ticked
  simp only [runEach]
  split
  · rename_i failed
    rw [failed] at ticked
    cases ticked
  · rename_i succeeded
    rw [succeeded] at ticked
    cases ticked
    rfl
  · rename_i succeeded
    rw [succeeded] at ticked
    cases ticked
    exact discard_runEach _ _ _ _

/-- A pass can be cut in two. -/
theorem discard_runEach_append {middle : Machine W} {before : List EntityId}
    (pass : discard (runEach session before #[] machine) = (.ok (), middle))
    (rest : List EntityId) :
    discard (runEach session (before ++ rest) #[] machine) =
      discard (runEach session rest #[] middle) := by
  induction before generalizing machine with
  | nil =>
      cases pass
      rfl
  | cons id behind ih =>
      cases ticked : machine.call session (.tick id) with
      | mk result between =>
          cases result with
          | ok _ =>
              rw [discard_runEach_cons ticked] at pass
              rw [List.cons_append, discard_runEach_cons ticked]
              exact ih pass
          | error error =>
              have passes := @passes_runEach W _ session (id :: behind) #[] machine
              rw [pass] at passes
              cases passes with
              | next succeeded _ =>
                  rw [ticked] at succeeded
                  cases succeeded

end Machine

end ActorScript
