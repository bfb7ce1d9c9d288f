import ActorScript.Proofs.Verify.Attempts
import Mathlib

/-!
# Verified programs at run time

A run of a verified program stays at the instructions that the verifier has reached
until it escapes behind an `endSwitch`.  So nothing can fail but a division by zero, and
no unknown opcode is met, in any history without escapes.
-/

namespace ActorScript

namespace Execution

variable {session : Session}

/-! ## Runs -/

section Nested

variable {execution start : Execution World} {kind nesting : Nesting}
  {goOn : Outcome World Unit → Outcome World Flow} {result : Outcome World Unit}

/-- Where a nested run lets the machine go on, the nested run has succeeded. -/
theorem tracked_of_goOn {middle : Execution World}
    (attempt_eq : attempt session execution = .nested kind start goOn)
    (proceeds : ∀ after, Concluded session kind (.ok (), after) →
      ∃ middle, goOn (.ok (), after) = (.ok .proceed, middle) ∧ middle.Tracked session)
    (concluded : Concluded session kind result)
    (goOn_eq : goOn result = (.ok .proceed, middle)) : middle.Tracked session := by
  obtain ⟨result, after⟩ := result
  cases result with
  | ok _ =>
      obtain ⟨same, same_eq, tracked⟩ := proceeds after concluded
      rw [same_eq] at goOn_eq
      cases goOn_eq
      exact tracked
  | error error =>
      rw [(goOn_of_nested attempt_eq).2] at goOn_eq
      cases goOn_eq

/-- The error of a nested run is the error of the run around it. -/
theorem concluded_of_goOn {after : Execution World} {error : RuntimeError}
    (attempt_eq : attempt session execution = .nested kind start goOn)
    (concluded : Concluded session kind result)
    (goOn_eq : goOn result = (.error error, after)) :
    Concluded session nesting (.error error, after) := by
  obtain ⟨result, inside⟩ := result
  cases result with
  | ok _ =>
      obtain ⟨cursor, same_eq⟩ := (goOn_of_nested attempt_eq).1 inside
      rw [same_eq] at goOn_eq
      cases goOn_eq
  | error other =>
      rw [(goOn_of_nested attempt_eq).2] at goOn_eq
      cases goOn_eq
      exact ⟨concluded.states, concluded.error, fun _ succeeded => (by cases succeeded)⟩

end Nested

/-- A run without escapes stays among the reached instructions and fails only by a
division. -/
theorem Run.tracked (verified : session.program.Verified) {execution : Execution World}
    {nesting : Nesting} {moments : List (Moment World)} {outcome : Outcome World Unit}
    (run : Run session nesting execution moments outcome) (start : execution.Tracked session)
    (held : ∀ moment ∈ moments, moment.execution.Tracked session → ¬ moment.Escapes session) :
    (∀ moment ∈ moments, moment.execution.Tracked session) ∧
      Concluded session nesting outcome := by
  induction run with
  | ends attempt_eq =>
      have stays := stays_attempt verified start (held _ (List.mem_singleton_self _) start)
      rw [attempt_eq] at stays
      cases stays with
      | ends concluded => exact ⟨List.forall_mem_singleton.2 start, concluded⟩
  | fails attempt_eq =>
      have stays := stays_attempt verified start (held _ (List.mem_singleton_self _) start)
      rw [attempt_eq] at stays
      cases stays with
      | fails concluded => exact ⟨List.forall_mem_singleton.2 start, concluded⟩
  | proceeds attempt_eq later ih =>
      obtain ⟨here, behind⟩ := List.forall_mem_cons.1 held
      have stays := stays_attempt verified start (here start)
      rw [attempt_eq] at stays
      cases stays with
      | proceeds tracked =>
          obtain ⟨rest, concluded⟩ := ih tracked behind
          exact ⟨List.forall_mem_cons.2 ⟨start, rest⟩, concluded⟩
  | returns attempt_eq nested goOn_eq later innerIh laterIh =>
      obtain ⟨here, behind⟩ := List.forall_mem_cons.1 held
      obtain ⟨inside, behind⟩ := List.forall_mem_append.1 behind
      have stays := stays_attempt verified start (here start)
      rw [attempt_eq] at stays
      cases stays with
      | nests tracked proceeds =>
          obtain ⟨inner, concluded⟩ := innerIh tracked inside
          have middle := tracked_of_goOn attempt_eq proceeds concluded goOn_eq
          obtain ⟨rest, concluded⟩ := laterIh middle behind
          exact ⟨List.forall_mem_cons.2 ⟨start, List.forall_mem_append.2 ⟨inner, rest⟩⟩,
            concluded⟩
  | failsInside attempt_eq nested goOn_eq ih =>
      obtain ⟨here, inside⟩ := List.forall_mem_cons.1 held
      have stays := stays_attempt verified start (here start)
      rw [attempt_eq] at stays
      cases stays with
      | nests tracked _ =>
          obtain ⟨inner, concluded⟩ := ih tracked inside
          exact ⟨List.forall_mem_cons.2 ⟨start, inner⟩,
            concluded_of_goOn attempt_eq concluded goOn_eq⟩

end Execution

namespace Machine

open Execution

variable {session : Session} {machine : Machine World}

/-! ## Calls -/

/-- What a call leaves behind and what it may fail with. -/
structure Safe (session : Session) (answer : Answer World Unit) : Prop where
  states : answer.2.world.AllStates session.program.Animates
  error : ∀ error, answer.1 = .error error → error.isDivision = true

/-- No run of a call escapes as long as it stays among the reached instructions. -/
def Held (session : Session) (machine : Machine World) (call : Call) : Prop :=
  ∀ moment, Meets session machine call moment → moment.execution.Tracked session →
    ¬ moment.Escapes session

section Calls

variable (verified : session.program.Verified)
include verified

/-- Every frame of a verified program starts at a reached instruction. -/
theorem tracked_of_starts {call : Call} {start : Execution World} (single : call ≠ .all)
    (states : machine.world.AllStates session.program.Animates)
    (starts : Starts session machine call start) : start.Tracked session := by
  obtain ⟨world, address, extra, cursor, rfl, same, _, entry⟩ := starts.eq_begin single
  constructor
  · intro _
    exact verified.reaches_entry entry
  · rcases same with rfl | ⟨id, change, _, kept, rfl⟩
    · exact states
    · apply states.modifyState
      intro state fine
      rw [Program.Animates, kept]
      exact fine

theorem concluded_of_starts (limited : session.config.maxSteps ≠ 0) {call : Call}
    {start : Execution World} (single : call ≠ .all)
    (states : machine.world.AllStates session.program.Animates)
    (held : Held session machine call) (starts : Starts session machine call start) :
    Concluded session .frame (start.runBlock session) := by
  have tracked := tracked_of_starts verified single states starts
  obtain ⟨moments, run⟩ := exists_run limited .frame start
  apply (run.tracked verified tracked _).2
  intro moment member
  exact held moment ⟨start, moments, starts, run, member⟩

/-- A call for one entity or event is safe when its run does not escape. -/
theorem safe_single (limited : session.config.maxSteps ≠ 0) {call : Call}
    (single : call ≠ .all) (states : machine.world.AllStates session.program.Animates)
    (held : Held session machine call) : Safe session (machine.call session call) := by
  have possible := @conducts World _ session machine call single
  generalize machine.call session call = answer at possible
  cases possible with
  | idle => exact ⟨states, fun _ failed => (by cases failed)⟩
  | outside _ _ => exact ⟨states.conclude _ _, fun _ failed => (by cases failed)⟩
  | @unanimated id error failed =>
      exfalso
      unfold advanceAnimation at failed
      split at failed
      · cases failed
      · rename_i state found
        split at failed
        · cases failed
        · rename_i acting
          have recorded := (states.stateOf? found).resolve_left acting
          split at failed
          · rename_i missing
            rw [missing] at recorded
            contradiction
          · cases failed
  | runs starts finishes =>
      have concluded := concluded_of_starts verified limited single states held starts
      generalize machine.call session call = answer at finishes
      cases finishes with
      | fails block =>
          rw [block] at concluded
          exact ⟨concluded.states, concluded.error⟩
      | settles block _ =>
          rw [block] at concluded
          refine ⟨?_, fun _ failed => (by cases failed)⟩
          exact concluded.states.settle _ _ (fun _ _ fine => fine) (fun _ _ fine => fine)
      | concludes block _ =>
          rw [block] at concluded
          exact ⟨concluded.states.conclude _ _, fun _ failed => (by cases failed)⟩
      | departs block _ =>
          rw [block] at concluded
          exact ⟨concluded.states, fun _ failed => (by cases failed)⟩

/-- A pass is safe when no run of its ticks escapes. -/
theorem safe_passes (limited : session.config.maxSteps ≠ 0) {ids : List EntityId}
    {answer : Answer World Unit} (passes : Passes session ids machine answer)
    (states : machine.world.AllStates session.program.Animates)
    (held : ∀ before id rest middle, ids = before ++ id :: rest →
      discard (runEach session before #[] machine) = (.ok (), middle) →
      Held session middle (.tick id)) :
    Safe session answer := by
  induction passes with
  | done => exact ⟨states, fun _ failed => (by cases failed)⟩
  | fails failed =>
      have safe := safe_single verified limited Call.noConfusion states
        (held [] _ _ _ rfl rfl)
      rw [failed] at safe
      exact safe
  | @next machine middle id rest answer ticked later ih =>
      have safe := safe_single verified limited Call.noConfusion states
        (held [] _ _ _ rfl rfl)
      rw [ticked] at safe
      apply ih safe.states
      intro before other behind between split pass
      apply held (id :: before) other behind between
      · rw [split]
        rfl
      · rw [discard_runEach_cons ticked]
        exact pass

/-- In front of each tick of a pass without escapes, every entity can go on with its
action. -/
theorem states_within_pass (limited : session.config.maxSteps ≠ 0) {middle : Machine World}
    {before rest : List EntityId} {id : EntityId}
    (states : machine.world.AllStates session.program.Animates)
    (held : Held session machine .all) (order : machine.world.tickOrder = before ++ id :: rest)
    (pass : discard (runEach session before #[] machine) = (.ok (), middle)) :
    middle.world.AllStates session.program.Animates := by
  have passes := @passes_runEach World _ session before #[] machine
  have safe := safe_passes verified limited passes states ?_
  · rw [pass] at safe
    exact safe.states
  · intro earlier other behind between split earlierPass moment meets
    apply held moment (meets_all _ earlierPass meets)
    · exact behind ++ id :: rest
    · rw [split, List.append_assoc, List.cons_append] at order
      exact order

/-- A moment of a call without escapes stands at a reached instruction. -/
theorem tracked_of_meets (limited : session.config.maxSteps ≠ 0) {call : Call}
    {moment : Moment World}
    (states : machine.world.AllStates session.program.Animates)
    (held : Held session machine call) (meets : Meets session machine call moment) :
    moment.execution.Tracked session := by
  obtain ⟨start, moments, starts, run, member⟩ := meets
  have tracked : start.Tracked session := by
    by_cases whole : call = .all
    · subst whole
      cases starts with
      | all order pass starts =>
          have middle := states_within_pass verified limited states held order pass
          exact tracked_of_starts verified Call.noConfusion middle starts
    · exact tracked_of_starts verified whole states starts
  apply (run.tracked verified tracked _).1 moment member
  intro other among
  exact held other ⟨start, moments, starts, run, among⟩

/-- A call is safe when none of its runs escapes. -/
theorem safe_call (limited : session.config.maxSteps ≠ 0) {call : Call}
    (states : machine.world.AllStates session.program.Animates)
    (held : Held session machine call) : Safe session (machine.call session call) := by
  by_cases pass : call = .all
  · subst pass
    apply safe_passes verified limited (passes_runEach _ #[] machine) states
    intro before id rest middle order pass moment meets
    exact held moment (meets_all order pass meets)
  · exact safe_single verified limited pass states held

/-! ## Histories -/

/-- No run of any call in a history escapes as long as it stays among the reached
instructions. -/
def Withheld (session : Session) (world : World) (history : List Action) : Prop :=
  ∀ past call, past ++ [.call call] <+: history → Held session (after session world past) call

theorem states_act (limited : session.config.maxSteps ≠ 0) (action : Action)
    (states : machine.world.AllStates session.program.Animates)
    (held : ∀ call, action = .call call → Held session machine call) :
    (machine.act session action).world.AllStates session.program.Animates := by
  cases action with
  | spawn kind sector => exact states.spawn kind sector (Or.inl rfl)
  | addPlayer => exact states
  | setVar _ _ _ => exact states
  | call call => exact (safe_call verified limited states (held call rfl)).states

/-- After a history without escapes every entity can go on with its action. -/
theorem states_after (limited : session.config.maxSteps ≠ 0) {world : World}
    {history : List Action} (atRest : world.AllStates fun state => state.action = 0)
    (held : Withheld session world history) :
    (after session world history).world.AllStates session.program.Animates := by
  induction history using List.reverseRecOn with
  | nil =>
      intro index generation entity found
      exact Or.inl (atRest index generation entity found)
  | append_singleton past action ih =>
      rw [after_append_singleton]
      apply states_act verified limited
      · apply ih
        intro earlier call early
        exact held earlier call (early.trans (List.prefix_append _ _))
      · rintro call rfl
        exact held past call List.prefix_rfl

/-- The last call of a history without escapes fails at most by a division and meets no
unknown opcode. -/
theorem call_of_withheld (limited : session.config.maxSteps ≠ 0) {world : World}
    {history : List Action} {call : Call}
    (atRest : world.AllStates fun state => state.action = 0)
    (held : Withheld session world (history ++ [.call call])) :
    (∀ error, ((after session world history).call session call).1 = .error error →
      error.isDivision = true) ∧
      ∀ moment, Meets session (after session world history) call moment →
        ¬ moment.execution.MeetsUnknown session := by
  have states : (after session world history).world.AllStates session.program.Animates := by
    apply states_after verified limited atRest
    intro earlier other early
    exact held earlier other (early.trans (List.prefix_append _ _))
  have here := held history call List.prefix_rfl
  constructor
  · exact (safe_call verified limited states here).error
  · rintro moment meets ⟨ready, offset, word, unknown⟩
    have tracked := tracked_of_meets verified limited states here meets
    simp only [isReady, Bool.and_eq_true] at ready
    have reached := tracked.cursor (Frame.isRunning_iff.1 ready.1)
    obtain ⟨instruction, decoded⟩ := Program.Verified.exists_decode reached
    rw [unknown] at decoded
    contradiction

/-- In a session of a verified program, every call fails at most by a division and meets
no unknown opcode, as long as no run of this or an earlier call has escaped. -/
theorem call_of_verified (limited : session.config.maxSteps ≠ 0) {world : World}
    {history : List Action} {call : Call}
    (atRest : world.AllStates fun state => state.action = 0)
    (unescaped : ∀ past other, past ++ [.call other] <+: history ++ [.call call] →
      ∀ moment, Meets session (after session world past) other moment →
        ¬ moment.Escapes session) :
    (∀ error, ((after session world history).call session call).1 = .error error →
      error.isDivision = true) ∧
      ∀ moment, Meets session (after session world history) call moment →
        ¬ moment.execution.MeetsUnknown session := by
  apply call_of_withheld verified limited atRest
  intro past other early moment meets _
  exact unescaped past other early moment meets

/-- No history of a verified program escapes whose reached `endSwitch` instructions all
have a reached instruction behind them. -/
theorem call_of_followed (limited : session.config.maxSteps ≠ 0) {world : World}
    {history : List Action} {call : Call}
    (atRest : world.AllStates fun state => state.action = 0)
    (followed : ∀ offset instruction, session.program.Reaches offset →
      Instruction.decode session.program.code offset = .ok instruction →
      instruction.opcode = .endSwitch → session.program.Reaches instruction.next) :
    (∀ error, ((after session world history).call session call).1 = .error error →
      error.isDivision = true) ∧
      ∀ moment, Meets session (after session world history) call moment →
        ¬ moment.execution.MeetsUnknown session := by
  apply call_of_withheld verified limited atRest
  rintro past other early moment meets tracked ⟨_, instruction, found, ends, unreached⟩
  have decoded := (attempted?_eq_some_iff.1 found).2
  have reached := tracked.cursor (isRunning_of_attempted? found)
  exact unreached (followed _ instruction reached decoded ends)

end Calls

/-! ## An escape -/

/-- `{` with `endswitch` behind it, and nothing behind that. -/
def escaping : Program where
  code := #[1, 6]
  actors := Table.empty.insert 1 { tick := some 0 }

/-- Verification alone does not keep a run inside the stream: the brace run of `escaping`
ends behind the last word, and the frame goes on there. -/
theorem not_forall_call_of_verified :
    ¬ ∀ (session : Session) (world : World) (history : List Action) (call : Call),
      session.program.Verified → session.config.maxSteps ≠ 0 →
      (world.AllStates fun state => state.action = 0) →
      (∀ error, ((after session world history).call session call).1 = .error error →
        error.isDivision = true) ∧
        ∀ moment, Meets session (after session world history) call moment →
          ¬ moment.execution.MeetsUnknown session := by
  intro sound
  have safe := sound { program := escaping, config := { maxSteps := 8 } } (World.new 1 0)
    [.spawn 1 (some 0)] (.tick ⟨0, 0⟩) (by cbv) (by decide) (World.allStates_new 1 0)
  have failed := safe.1 (.cursorOutOfRange 2 2) rfl
  contradiction

/-- `{` with a division of a variable by zero behind it. -/
def dividing : Program where
  code := #[1, 0x48, 0, 0, 2, 7]
  vars := #[{ name := "quotient", scope := .global }]
  actors := Table.empty.insert 1 { tick := some 0 }

/-- A verified program can fail, but not otherwise than by its division. -/
theorem call_of_dividing :
    let session : Session := { program := dividing, config := { maxSteps := 8 } }
    let machine := after session (World.new 1 0) [.spawn 1 (some 0)]
    (machine.call session (.tick ⟨0, 0⟩)).1 = .error (.divisionByZero 1) ∧
      (∀ error, (machine.call session (.tick ⟨0, 0⟩)).1 = .error error →
        error.isDivision = true) ∧
      ∀ moment, Meets session machine (.tick ⟨0, 0⟩) moment →
        ¬ moment.execution.MeetsUnknown session := by
  refine ⟨rfl, ?_⟩
  apply call_of_verified (by cbv) (by decide) (World.allStates_new 1 0)
  rintro past other _ moment _ ⟨_, instruction, found, ends, _⟩
  have decoded := (attempted?_eq_some_iff.1 found).2
  have word_eq := (Instruction.decode_eq_ok_iff.1 decoded).2.1
  rw [ends] at word_eq
  have absent : Opcode.endSwitch.word ∉ dividing.code := by decide +kernel
  exact absent (Array.mem_of_getElem? word_eq)

end Machine

end ActorScript
