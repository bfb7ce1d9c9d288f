import ActorScript.Machine.Entry
import ActorScript.Proofs.Machine.Agreement
import ActorScript.World.Field
import Mathlib.Tactic.IntervalCases

/-!
# The display does not matter to the game

Two machines that differ in their display streams, and in the values of variables that only
rolls for the display mention, run every frame alike: their runs attempt the same instructions,
and every call has the same answer.
-/

namespace ActorScript

variable {W : Type}

/-! ## Runs -/

namespace Execution

/-- Two attempts have the same outcome, or start nested runs that agree and go on alike. -/
inductive AlikeAttempts (apart : Set Word) : Attempt W → Attempt W → Prop
  | settled {first second : Outcome W Flow} (alike : Alike apart first second) :
      AlikeAttempts apart (.settled first) (.settled second)
  | nested {nesting : Nesting} {first second : Execution W}
      {goOn onward : Outcome W Unit → Outcome W Flow} (agree : AgreeBut apart first second)
      (alike : ∀ {left right : Outcome W Unit}, Alike apart left right →
        Alike apart (goOn left) (onward right)) :
      AlikeAttempts apart (.nested nesting first goOn) (.nested nesting second onward)

variable {apart : Set Word}

theorem alike_resume {first second : Outcome W Unit} (alike : Alike apart first second) :
    Alike apart (resume first) (resume second) := by
  obtain ⟨result, after, behind, rfl, rfl, agree⟩ := alike.exists_eq
  cases result with
  | ok _ => exact ⟨rfl, agree⟩
  | error error => exact ⟨rfl, agree⟩

theorem alike_resumeAt (cursor : Nat) {first second : Outcome W Unit}
    (alike : Alike apart first second) :
    Alike apart (resumeAt cursor first) (resumeAt cursor second) := by
  obtain ⟨result, after, behind, rfl, rfl, agree⟩ := alike.exists_eq
  cases result with
  | ok _ => exact ⟨rfl, agree.moveTo cursor⟩
  | error error => exact ⟨rfl, agree⟩

namespace AgreeBut

variable [Host W] {first second : Execution W} (agree : AgreeBut apart first second)
  (session : Session)
include agree

omit [Host W] in
theorem invoke (nesting : Nesting) (start : Nat) {goOn : Outcome W Unit → Outcome W Flow}
    (alike : ∀ {left right : Outcome W Unit}, Alike apart left right →
      Alike apart (goOn left) (goOn right)) :
    AlikeAttempts apart (invoke session nesting start goOn first)
      (invoke session nesting start goOn second) := by
  unfold Execution.invoke
  rw [agree.frame_eq]
  split
  · exact .settled (alike ⟨rfl, agree.requestDelete⟩)
  · exact .nested (agree.enter start) fun inner => alike ⟨inner.result_eq, inner.agree.leave⟩

theorem execute {instruction : Instruction} (keeps : instruction.KeepsApart apart) :
    AlikeAttempts apart (execute session instruction first)
      (execute session instruction second) := by
  unfold Execution.execute
  split
  · rw [agree.frame_eq]
    exact agree.invoke session _ _ alike_resume
  · exact .settled ⟨rfl, agree⟩
  · exact .settled ⟨rfl, agree⟩
  · exact .settled ⟨rfl, agree.moveTo _⟩
  · unfold callState
    rw [agree.frame_eq]
    split
    · exact .settled ⟨rfl, agree⟩
    · exact agree.invoke session _ _ (alike_resumeAt _)
  · rename_i opcode_eq
    have scrutinee : instruction.operand 0 ∉ apart := keeps.of_var opcode_eq nofun (by decide)
    unfold switch
    rw [agree.var_eq scrutinee]
    split
    · exact .settled ⟨rfl, agree⟩
    · split
      · exact .settled ⟨rfl, agree.moveTo _⟩
      · split
        · exact .settled ⟨rfl, agree⟩
        · exact agree.invoke session _ _ (alike_resumeAt _)
  · exact .settled (alike_resume (agree.perform keeps session))

variable (keeps : session.program.KeepsApart apart)
include keeps

theorem attempt : AlikeAttempts apart (attempt session first) (attempt session second) := by
  unfold Execution.attempt
  rw [agree.frame_eq]
  split
  · exact .settled ⟨rfl, agree⟩
  · split
    · exact .settled ⟨rfl, agree.requestDelete⟩
    · have counted := agree.countStep
      unfold fetch
      rw [counted.frame_eq]
      dsimp only
      split
      · exact .settled ⟨rfl, counted⟩
      · split
        · exact .settled ⟨rfl, counted.requestDelete⟩
        · exact .settled ⟨rfl, counted⟩
        · rename_i instruction decoded
          exact (counted.moveTo _).execute session (keeps _ _ decoded)

/-- At every height the two runs answer alike, or neither answers. -/
theorem runFor (height : Nat) :
    Option.Rel (Alike apart) (runFor session height first) (runFor session height second) := by
  induction height generalizing first second with
  | zero => exact .none
  | succ height ih =>
      have stepped : Option.Rel (Alike apart)
          (stepWith session (Execution.runFor session height) first)
          (stepWith session (Execution.runFor session height) second) := by
        have attempted := agree.attempt session keeps
        unfold stepWith
        generalize Execution.attempt session first = left at attempted ⊢
        generalize Execution.attempt session second = right at attempted ⊢
        cases attempted with
        | settled alike => exact .some alike
        | @nested _ start other _ _ inner alike =>
            have run := ih inner
            dsimp only
            generalize Execution.runFor session height start = left at run ⊢
            generalize Execution.runFor session height other = right at run ⊢
            cases run with
            | none => exact .none
            | some nested => exact .some (alike nested)
      unfold Execution.runFor
      generalize stepWith session (Execution.runFor session height) first = left at stepped ⊢
      generalize stepWith session (Execution.runFor session height) second = right at stepped ⊢
      cases stepped with
      | none => exact .none
      | some alike =>
          obtain ⟨result, after, behind, rfl, rfl, agree⟩ := alike.exists_eq
          rcases result with error | flow
          · exact .some ⟨rfl, agree⟩
          · cases flow with
            | proceed => exact ih agree
            | done => exact .some ⟨rfl, agree⟩

theorem runBlock : Alike apart (runBlock session first) (runBlock session second) := by
  have run := agree.runFor session keeps (first.height session)
  unfold Execution.runBlock
  have height_eq : second.height session = first.height session := by
    rw [height, height, agree.frame_eq]
  rw [height_eq]
  generalize Execution.runFor session (first.height session) first = left at run ⊢
  generalize Execution.runFor session (first.height session) second = right at run ⊢
  cases run with
  | some alike => exact alike
  | none => exact ⟨rfl, agree.requestDelete⟩

end AgreeBut

end Execution

/-! ## Entry points -/

namespace Machine

/-- Two calls have the same answer, and leave machines that agree. -/
structure SameAnswer (apart : Set Word) {α : Type} (first second : Answer W α) : Prop where
  result_eq : second.1 = first.1
  agree : AgreeBut apart first.2 second.2

theorem SameAnswer.exists_eq {apart : Set Word} {α : Type} {first second : Answer W α}
    (same : SameAnswer apart first second) :
    ∃ result after behind, first = (result, after) ∧ second = (result, behind) ∧
      AgreeBut apart after behind := by
  obtain ⟨result, after⟩ := first
  obtain ⟨other, behind⟩ := second
  obtain ⟨rfl, agree⟩ := same
  exact ⟨_, after, behind, rfl, rfl, agree⟩

namespace AgreeBut

variable {apart : Set Word} {first second : Machine W} (agree : AgreeBut apart first second)
include agree

theorem withWorld (world : W) :
    AgreeBut apart { first with world } { second with world } :=
  ⟨rfl, agree.random_eq, agree.registry⟩

variable [Host W]

theorem conclude (id : EntityId) (outcome : FrameOutcome) :
    AgreeBut apart (first.conclude id outcome) (second.conclude id outcome) := by
  unfold Machine.conclude
  rw [agree.world_eq]
  cases outcome with
  | normal => exact agree
  | delete => exact ⟨rfl, agree.random_eq, agree.registry.forget id⟩
  | deleteQuiet => exact ⟨rfl, agree.random_eq, agree.registry.forget id⟩

theorem settle (id : EntityId) (occasion : Occasion) :
    AgreeBut apart (first.settle id occasion) (second.settle id occasion) := by
  unfold Machine.settle
  rw [agree.world_eq]
  dsimp only
  split
  · exact agree.withWorld _
  · exact agree.withWorld _
  · exact agree.withWorld _

theorem scriptsOf?_eq (session : Session) (id : EntityId) :
    second.scriptsOf? session id = first.scriptsOf? session id := by
  rw [scriptsOf?, scriptsOf?, agree.world_eq]

variable (session : Session) (keeps : session.program.KeepsApart apart)
include keeps

theorem runBlock (address : Address) (extra : Word) (start : Nat) :
    Execution.Alike apart ((first.begin address extra start).runBlock session)
      ((second.begin address extra start).runBlock session) := by
  have started : Execution.AgreeBut apart (first.begin address extra start)
      (second.begin address extra start) := ⟨agree, rfl⟩
  exact started.runBlock session keeps

theorem runScript (id : EntityId) (player : Option PlayerId) (extra : Word) (start : Nat)
    (occasion : Occasion) :
    SameAnswer apart (first.runScript session id player extra start occasion)
      (second.runScript session id player extra start occasion) := by
  obtain ⟨result, after, behind, first_eq, second_eq, agree⟩ :=
    (agree.runBlock session keeps ⟨some id, player⟩ extra start).exists_eq
  unfold Machine.runScript
  rw [first_eq, second_eq]
  cases result with
  | error error => exact ⟨rfl, agree.machine⟩
  | ok _ =>
      dsimp only
      rw [agree.frame_eq]
      split
      · exact ⟨rfl, agree.machine.settle id occasion⟩
      · exact ⟨rfl, agree.machine.conclude id _⟩
      · exact ⟨rfl, agree.machine.conclude id _⟩

theorem runTick (id : EntityId) :
    SameAnswer apart (first.runTick session id) (second.runTick session id) := by
  unfold Machine.runTick
  rw [agree.scriptsOf?_eq session id, agree.world_eq]
  split
  · exact ⟨rfl, agree⟩
  · split
    · exact ⟨rfl, agree.conclude id .delete⟩
    · dsimp only
      split
      · exact ⟨rfl, agree⟩
      · exact (agree.withWorld _).runScript session keeps _ _ _ _ _

theorem runLoad (id : EntityId) (player : Option PlayerId) (extra : Word) :
    SameAnswer apart (first.runLoad session id player extra)
      (second.runLoad session id player extra) := by
  unfold Machine.runLoad
  rw [agree.scriptsOf?_eq session id, agree.world_eq]
  split
  · exact ⟨rfl, agree⟩
  · split
    · exact ⟨rfl, agree.conclude id .delete⟩
    · exact agree.runScript session keeps _ _ _ _ _

theorem dispatchEvent (event : Word) (entity : Option EntityId) (player : Option PlayerId)
    (extra : Word) :
    SameAnswer apart (first.dispatchEvent session event entity player extra)
      (second.dispatchEvent session event entity player extra) := by
  unfold Machine.dispatchEvent
  rw [agree.world_eq]
  split
  · exact ⟨rfl, agree⟩
  · split
    · exact ⟨rfl, agree⟩
    · rename_i start _
      obtain ⟨result, after, behind, first_eq, second_eq, agree⟩ :=
        (agree.runBlock session keeps ⟨entity.filter (Host.isAlive first.world), player⟩ extra
          start).exists_eq
      dsimp only
      rw [first_eq, second_eq]
      cases result with
      | error error => exact ⟨rfl, agree.machine⟩
      | ok _ =>
          dsimp only
          rw [agree.frame_eq]
          split
          · exact ⟨rfl, agree.machine⟩
          · exact ⟨rfl, agree.machine.conclude _ _⟩

theorem runEach (order : List EntityId) (report : PassReport) :
    SameAnswer apart (runEach session order report first)
      (runEach session order report second) := by
  induction order generalizing report first second with
  | nil => exact ⟨rfl, agree⟩
  | cons id rest ih =>
      obtain ⟨result, after, behind, first_eq, second_eq, agree⟩ :=
        (agree.runTick session keeps id).exists_eq
      unfold Machine.runEach
      rw [first_eq, second_eq]
      rcases result with error | outcome
      · exact ⟨rfl, agree⟩
      · cases outcome with
        | none => exact ih agree report
        | some outcome => exact ih agree _

theorem runAll : SameAnswer apart (first.runAll session) (second.runAll session) := by
  unfold Machine.runAll
  rw [agree.world_eq]
  exact agree.runEach session keeps _ _

end AgreeBut

/-- Two calls look the same to the game: they have the same answer and leave the same world, the
same random stream and the same values of all variables but some.  So does whatever follows. -/
structure SameGame (apart : Set Word) {α : Type} (first second : Answer W α) : Prop where
  result_eq : second.1 = first.1
  world_eq : second.2.world = first.2.world
  random_eq : second.2.random = first.2.random
  get_eq : ∀ id, id ∉ apart → ∀ address,
    second.2.registry.get id address = first.2.registry.get id address
  agree : first.2.AgreeBut apart second.2

theorem SameAnswer.sameGame {apart : Set Word} {α : Type} {first second : Answer W α}
    (same : SameAnswer apart first second) : SameGame apart first second where
  result_eq := same.result_eq
  world_eq := same.agree.world_eq
  random_eq := same.agree.random_eq
  get_eq _ outside address := same.agree.registry.get_eq outside address
  agree := same.agree

/-- Where the rolls for the display go into variables that no other instruction mentions, neither
the display stream nor these variables matter to the game. -/
theorem sameGame_of_keepsApart [Host W] {session : Session} {apart : Set Word}
    (keeps : session.program.KeepsApart apart) {first second : Machine W}
    (agree : first.AgreeBut apart second) :
    (∀ id player extra, SameGame apart (first.runLoad session id player extra)
      (second.runLoad session id player extra)) ∧
    (∀ id, SameGame apart (first.runTick session id) (second.runTick session id)) ∧
    (∀ event entity player extra,
      SameGame apart (first.dispatchEvent session event entity player extra)
        (second.dispatchEvent session event entity player extra)) ∧
    SameGame apart (first.runAll session) (second.runAll session) :=
  ⟨fun id player extra => (agree.runLoad session keeps id player extra).sameGame,
    fun id => (agree.runTick session keeps id).sameGame,
    fun event entity player extra =>
      (agree.dispatchEvent session keeps event entity player extra).sameGame,
    (agree.runAll session keeps).sameGame⟩

/-- A script that rolls for the display and then counts. -/
def flickering : Session where
  program :=
    { code := #[0x54, 0, 0x42, 1, 1, 7]
      vars := #[{ name := "flicker", scope := .global }, { name := "count", scope := .global }]
      actors := Table.empty.insert 1 { tick := some 0 } }
  config := { maxSteps := 8 }

/-- The machine with one actor. -/
def unlit : Machine World :=
  Machine.new flickering ((World.new 1 0).spawn 1 (some 0)).2

/-- The machine with one actor, a value on display and a seed of the display stream. -/
def shown (value : Word) (seed : UInt64) : Machine World :=
  { unlit with
    registry := unlit.registry.set 0 {} value
    displayRandom := .ofSeed seed }

theorem keepsApart_flickering : flickering.program.KeepsApart {0} := by
  intro offset instruction decoded
  have inside : offset < 6 := Instruction.offset_lt_size decoded
  have quiet {instruction : Instruction} (plain : instruction.opcode ≠ .displayRandom)
      (none_named : instruction.opcode.operands = []) : instruction.KeepsApart {0} := by
    refine ⟨fun roll => absurd roll plain, fun _ id mentions => ?_⟩
    obtain ⟨kind, index, listed, _⟩ := mentions
    rw [none_named] at listed
    contradiction
  interval_cases offset
  · have read : Instruction.decode flickering.program.code 0 = .ok ⟨.displayRandom, 0, #[0]⟩ := by
      cbv
    cases decoded.symm.trans read
    exact ⟨fun _ => rfl, fun plain => absurd rfl plain⟩
  · have unreadable : Instruction.decode flickering.program.code 1 =
        .error (.unknownOpcode 1 0) := by
      cbv
    rw [unreadable] at decoded
    contradiction
  · have read : Instruction.decode flickering.program.code 2 =
        .ok ⟨.assign .add .literal, 2, #[1, 1]⟩ := by
      cbv
    cases decoded.symm.trans read
    refine ⟨fun roll => absurd roll (by decide), fun _ id mentions => ?_⟩
    obtain ⟨kind, index, listed, rfl, identifies⟩ := mentions
    have operands_eq : (Opcode.assign .add .literal).operands.zipIdx =
        [(.var, 0), (.literal, 1)] := rfl
    rw [operands_eq, List.mem_cons, List.mem_singleton] at listed
    rcases listed with ⟨⟨⟩⟩ | ⟨⟨⟩⟩
    · rw [Set.mem_singleton_iff]
      decide
    · contradiction
  · have read : Instruction.decode flickering.program.code 3 = .ok ⟨.leftBrace, 3, #[]⟩ := by
      cbv
    cases decoded.symm.trans read
    exact quiet (by decide) rfl
  · have read : Instruction.decode flickering.program.code 4 = .ok ⟨.leftBrace, 4, #[]⟩ := by
      cbv
    cases decoded.symm.trans read
    exact quiet (by decide) rfl
  · have read : Instruction.decode flickering.program.code 5 = .ok ⟨.finish .actor, 5, #[]⟩ := by
      cbv
    cases decoded.symm.trans read
    exact quiet (by decide) rfl

/-- The actor counts alike whatever is shown. -/
theorem sameGame_flickering :
    (shown 1 5).displayRandom ≠ (shown 2 6).displayRandom ∧
      SameGame {0} ((shown 1 5).runTick flickering ⟨0, 0⟩)
        ((shown 2 6).runTick flickering ⟨0, 0⟩) := by
  have agree : (shown 1 5).AgreeBut {0} (shown 2 6) :=
    ⟨rfl, rfl, (Registry.AgreeBut.refl {0} unlit.registry).set (Or.inr rfl) {}⟩
  exact ⟨by decide, (sameGame_of_keepsApart keepsApart_flickering agree).2.1 ⟨0, 0⟩⟩

end Machine

end ActorScript
