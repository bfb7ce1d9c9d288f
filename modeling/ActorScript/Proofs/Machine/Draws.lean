import ActorScript.Proofs.Machine.Entry
import ActorScript.Proofs.Random
import Mathlib.Data.List.Induction

/-!
# Draws in a session

Scripts draw through `Random.draw`, which bounds a loop that has no bound.  A draw from a prompt
stream is that of the loop and leaves a prompt stream, and nothing else touches the streams.  So
it is enough to assume that the two streams are prompt with which a session starts.
-/

namespace ActorScript

variable {W : Type}

/-- Both streams of a machine are prompt. -/
structure Machine.Prompt (machine : Machine W) : Prop where
  random : machine.random.Prompt
  displayRandom : machine.displayRandom.Prompt

namespace Execution

variable [Host W] {session : Session}

/-- Only draws change the streams. -/
theorem prompt_change {instruction : Instruction} {before after : Execution W}
    (change : Change session instruction before after) (prompt : before.toMachine.Prompt) :
    after.toMachine.Prompt := by
  cases change with
  | draw bits fits => exact ⟨(prompt.random.draws_iff fits).2, prompt.displayRandom⟩
  | drawDisplay bits fits => exact ⟨prompt.random, (prompt.displayRandom.draws_iff fits).2⟩
  | adjust change _ =>
      unfold modifyActor
      split
      · exact prompt
      · exact ⟨prompt.random, prompt.displayRandom⟩
  | cause _ effect =>
      unfold cause carryOut
      split
      · exact ⟨prompt.random, prompt.displayRandom⟩
      · exact ⟨prompt.random, prompt.displayRandom⟩
  | _ => exact ⟨prompt.random, prompt.displayRandom⟩

/-- A frame keeps its streams prompt. -/
theorem keeps_prompt (session : Session) :
    Keeps session fun execution : Execution W => execution.toMachine.Prompt :=
  .of_machine Machine.Prompt prompt_change

end Execution

namespace Machine

open Execution

section Calls

variable [Host W] {session : Session} {machine : Machine W}

theorem Prompt.settle (prompt : machine.Prompt) (id : EntityId) (occasion : Occasion) :
    (machine.settle id occasion).Prompt := by
  unfold Machine.settle
  dsimp only
  split <;> exact ⟨prompt.random, prompt.displayRandom⟩

theorem Prompt.conclude (prompt : machine.Prompt) (id : EntityId) (outcome : FrameOutcome) :
    (machine.conclude id outcome).Prompt := by
  cases outcome <;> exact ⟨prompt.random, prompt.displayRandom⟩

theorem Prompt.starts (prompt : machine.Prompt) {call : Call} (single : call ≠ .all)
    {start : Execution W} (starts : Starts session machine call start) :
    start.toMachine.Prompt := by
  obtain ⟨world, address, extra, cursor, rfl, _⟩ := starts.eq_begin single
  exact ⟨prompt.random, prompt.displayRandom⟩

/-- Whether a block comes to an end or not, it leaves its streams prompt. -/
theorem prompt_runBlock {start : Execution W} (prompt : start.toMachine.Prompt) :
    (start.runBlock session).2.toMachine.Prompt := by
  rcases runBlock_cases session .frame start with endless | ⟨moments, run⟩
  · rw [endless]
    exact prompt
  · exact (run.kept (keeps_prompt session) prompt).2

theorem prompt_single {call : Call} (single : call ≠ .all) (prompt : machine.Prompt) :
    (machine.call session call).2.Prompt := by
  apply kept_single Prompt single prompt
  · exact fun starts => prompt_runBlock (prompt.starts single starts)
  · exact fun id occasion _ ended => ended.settle id occasion
  · exact fun id outcome _ _ ended => ended.conclude id outcome

theorem prompt_call (prompt : machine.Prompt) (call : Call) :
    (machine.call session call).2.Prompt :=
  kept_call Prompt prompt_single prompt call

/-- At every moment of a call the streams are prompt. -/
theorem prompt_of_meets (prompt : machine.Prompt) {call : Call} {moment : Moment W}
    (meets : Meets session machine call moment) : moment.execution.toMachine.Prompt := by
  obtain ⟨start, moments, starts, run, member⟩ := meets
  have starting : start.toMachine.Prompt := by
    by_cases single : call = .all
    · subst single
      cases starts with
      | @all _ middle before _ id _ _ pass starts =>
          have passes := @passes_runEach W _ session before #[] machine
          have earlier := passes.kept Prompt prompt fun id _ ended => prompt_single (by simp) ended
          rw [pass] at earlier
          exact earlier.starts (by simp) starts
    · exact prompt.starts single starts
  exact (run.kept (keeps_prompt session) starting).1 moment member

end Calls

variable {session : Session} {world : World}

theorem prompt_after (prompt : (Machine.new session world).Prompt) (history : List Action) :
    (after session world history).Prompt := by
  induction history using List.reverseRecOn with
  | nil => exact prompt
  | append_singleton past action ih =>
      rw [after_append_singleton]
      cases action with
      | spawn kind sector => exact ⟨ih.random, ih.displayRandom⟩
      | addPlayer => exact ⟨ih.random, ih.displayRandom⟩
      | setVar id address value => exact ⟨ih.random, ih.displayRandom⟩
      | call call => exact prompt_call ih call

/-- If the two streams are prompt with which a session starts, then every draw that a script makes
in any call after any history is that of the loop without a bound. -/
theorem draws_iff_of_meets (prompt : (Machine.new session world).Prompt) (history : List Action)
    {call : Call} {moment : Moment World}
    (meets : Meets session (after session world history) call moment) {bits : UInt64}
    (fits : bits ≤ 63) (outcome : Nat × Random) :
    ((∃ count, Random.Draws bits count moment.execution.random outcome) ↔
        moment.execution.random.draw bits = outcome) ∧
      ((∃ count, Random.Draws bits count moment.execution.displayRandom outcome) ↔
        moment.execution.displayRandom.draw bits = outcome) := by
  have streams := prompt_of_meets (prompt_after prompt history) meets
  constructor
  · exact (streams.random.draws_iff fits).1 outcome
  · exact (streams.displayRandom.draws_iff fits).1 outcome

end Machine

end ActorScript
