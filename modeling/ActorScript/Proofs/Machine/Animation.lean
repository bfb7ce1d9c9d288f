import ActorScript.Machine.Entry
import ActorScript.Proofs.World.Fields
import Mathlib.Algebra.Order.Group.Unbundled.Abs
import Mathlib.Algebra.Order.Ring.Abs

/-!
# The course of an action

Each call that goes on with an action counts the clock of its entity up, and goes one
animation step further when the clock has passed the delay of the action.  The steps
therefore come at equal distances, and the frame runs through the frames of the action in
turn.
-/

namespace ActorScript

/-! ## Counting in turns -/

/-- A count that does not complete its turn. -/
theorem ediv_emod_succ_of_lt {count turn : Int} (within : count % turn + 1 < turn)
    (nonneg : 0 ≤ count % turn) :
    (count + 1) / turn = count / turn ∧ (count + 1) % turn = count % turn + 1 := by
  rw [Int.ediv_emod_unique (by omega)]
  have parts := Int.emod_add_mul_ediv count turn
  exact ⟨by omega, by omega, within⟩

/-- A count that completes its turn. -/
theorem ediv_emod_succ_of_eq {count turn : Int} (complete : count % turn + 1 = turn)
    (pos : 0 < turn) :
    (count + 1) / turn = count / turn + 1 ∧ (count + 1) % turn = 0 := by
  rw [Int.ediv_emod_unique pos]
  have parts := Int.emod_add_mul_ediv count turn
  refine ⟨?_, le_refl _, pos⟩
  rw [mul_add, mul_one]
  omega

namespace Word

theorem toInt_add_of_le {left right : Word} (lower : -2 ^ 31 ≤ left.toInt + right.toInt)
    (upper : left.toInt + right.toInt ≤ 2 ^ 31 - 1) :
    (left + right).toInt = left.toInt + right.toInt := by
  rw [Int32.toInt_add]
  exact Int.bmod_eq_of_le (by omega) (by omega)

theorem toInt_mul_of_abs_le {left right : Word}
    (small : |left.toInt * right.toInt| ≤ 2 ^ 31 - 1) :
    (left * right).toInt = left.toInt * right.toInt := by
  obtain ⟨lower, upper⟩ := abs_le.1 small
  rw [Int32.toInt_mul]
  exact Int.bmod_eq_of_le (by omega) (by omega)

end Word

namespace Machine

/-! ## One call -/

/-- The number of calls from one animation step to the next. -/
def period (tics delay : Word) : Int :=
  delay.toInt / tics.toInt + 1

/-- An action with figures for which neither the clock nor the frame leaves the range of a
word. -/
structure Paced (tics frames increment delay : Word) : Prop where
  tics_pos : 1 ≤ tics.toInt
  frames_pos : 1 ≤ frames.toInt
  delay_nonneg : 0 ≤ delay.toInt
  reach_le : |frames.toInt * increment.toInt| ≤ 2 ^ 31 - 1
  clock_le : delay.toInt + tics.toInt ≤ 2 ^ 31 - 1

/-- The frame that is shown in place of one that an animation step has come to. -/
def wrapped (frames increment frame : Word) : Word :=
  if frame.toInt.natAbs ≥ (frames * increment).toInt.natAbs then 0 else frame

section Call

variable {tics frames increment delay : Word} {state later : ActorState} {calls : Nat}

theorem animated_of_le (waiting : ¬ state.animationClock + tics > delay) :
    animated tics frames increment delay state =
      { state with
        animationClock := state.animationClock + tics
        actionFrame := wrapped frames increment state.actionFrame } := by
  unfold animated wrapped
  simp only [if_neg waiting]
  split <;> rfl

theorem animated_of_gt (passed : state.animationClock + tics > delay) :
    animated tics frames increment delay state =
      { state with
        actionCount := state.actionCount + 1
        animationClock := 0
        actionFrame := wrapped frames increment (state.actionFrame + increment) } := by
  unfold animated wrapped
  simp only [if_pos passed]
  split <;> rfl

theorem animated_action : (animated tics frames increment delay state).action = state.action := by
  by_cases passed : state.animationClock + tics > delay
  · rw [animated_of_gt passed]
  · rw [animated_of_le passed]

theorem Paced.period_pos (paced : Paced tics frames increment delay) : 0 < period tics delay := by
  have quotient := Int.ediv_nonneg paced.delay_nonneg (Int.le_trans (by omega) paced.tics_pos)
  unfold period
  omega

/-- A frame as far from the first as the frames of the action reach. -/
theorem Paced.abs_le (paced : Paced tics frames increment delay) {number : Int}
    (nonneg : 0 ≤ number) (le : number ≤ frames.toInt) :
    |number * increment.toInt| ≤ 2 ^ 31 - 1 := by
  calc
    |number * increment.toInt| = number * |increment.toInt| := by
      rw [abs_mul, abs_of_nonneg nonneg]
    _ ≤ frames.toInt * |increment.toInt| := Int.mul_le_mul_of_nonneg_right le (abs_nonneg _)
    _ = |frames.toInt * increment.toInt| := by
      rw [abs_mul, abs_of_nonneg (nonneg.trans le)]
    _ ≤ 2 ^ 31 - 1 := paced.reach_le

/-- The frame behind the last is the first again. -/
theorem Paced.toInt_wrapped (paced : Paced tics frames increment delay) {frame : Word}
    {number : Int} (frame_eq : frame.toInt = number * increment.toInt) (nonneg : 0 ≤ number)
    (le : number ≤ frames.toInt) :
    (wrapped frames increment frame).toInt = number % frames.toInt * increment.toInt := by
  have test : frame.toInt.natAbs ≥ (frames * increment).toInt.natAbs ↔
      frames.toInt.natAbs * increment.toInt.natAbs ≤ number.natAbs * increment.toInt.natAbs := by
    rw [frame_eq, Word.toInt_mul_of_abs_le paced.reach_le, Int.natAbs_mul, Int.natAbs_mul]
  have number_abs := Int.natAbs_of_nonneg nonneg
  have frames_abs := Int.natAbs_of_nonneg (nonneg.trans le)
  unfold wrapped
  rcases Int.lt_or_eq_of_le le with inside | behind
  · rw [Int.emod_eq_of_lt nonneg inside, ← frame_eq]
    by_cases still : increment.toInt.natAbs = 0
    · -- An action whose frames are all the same has no last frame.
      have frame_zero : frame.toInt = 0 := by
        rw [frame_eq, Int.natAbs_eq_zero.1 still, mul_zero]
      split
      · rw [frame_zero]
        rfl
      · rfl
    · have within : ¬ frame.toInt.natAbs ≥ (frames * increment).toInt.natAbs := by
        rw [test, Nat.mul_le_mul_right_iff (Nat.pos_of_ne_zero still)]
        omega
      rw [if_neg within]
  · rw [if_pos (test.2 (by rw [behind])), behind, Int.emod_self, Int.zero_mul]
    rfl

/-- Two states with the same action that have gone equally far with it. -/
structure SameCourse (left right : ActorState) : Prop where
  action : left.action = right.action
  count : left.actionCount = right.actionCount
  frame : left.actionFrame = right.actionFrame
  clock : left.animationClock = right.animationClock

theorem SameCourse.trans {left middle right : ActorState} (first : SameCourse left middle)
    (second : SameCourse middle right) : SameCourse left right where
  action := first.action.trans second.action
  count := first.count.trans second.count
  frame := first.frame.trans second.frame
  clock := first.clock.trans second.clock

/-- The state of an entity that has gone on with an action from its start, by a number of calls.
The steps are counted in a word, which may wrap around. -/
structure OnCourse (tics frames increment delay : Word) (calls : Nat) (state : ActorState) :
    Prop where
  count : state.actionCount = Int32.ofInt (calls / period tics delay)
  frame : state.actionFrame.toInt =
    calls / period tics delay % frames.toInt * increment.toInt
  clock : state.animationClock.toInt = calls % period tics delay * tics.toInt

theorem OnCourse.congr (course : OnCourse tics frames increment delay calls state)
    (same : SameCourse later state) : OnCourse tics frames increment delay calls later where
  count := same.count ▸ course.count
  frame := same.frame ▸ course.frame
  clock := same.clock ▸ course.clock

theorem onCourse_zero (clock : state.animationClock = 0) (count : state.actionCount = 0)
    (frame : state.actionFrame = 0) : OnCourse tics frames increment delay 0 state where
  count := by
    rw [count, Nat.cast_zero, Int.zero_ediv]
    rfl
  frame := by
    rw [frame, Nat.cast_zero, Int.zero_ediv, Int.zero_emod, Int.zero_mul]
    rfl
  clock := by
    rw [clock, Nat.cast_zero, Int.zero_emod, Int.zero_mul]
    rfl

/-- The clock does not leave the range of a word. -/
theorem OnCourse.toInt_clock_add (paced : Paced tics frames increment delay)
    (course : OnCourse tics frames increment delay calls state) :
    (state.animationClock + tics).toInt = (calls % period tics delay + 1) * tics.toInt := by
  have tics_pos : 0 < tics.toInt := paced.tics_pos
  have clock_le : calls % period tics delay * tics.toInt ≤ delay.toInt := by
    have below := Int.emod_lt_of_pos calls paced.period_pos
    rw [← Int.le_ediv_iff_mul_le tics_pos]
    unfold period at below ⊢
    omega
  have clock_nonneg :=
    Int.mul_nonneg (Int.emod_nonneg calls paced.period_pos.ne') tics_pos.le
  have limit := paced.clock_le
  rw [Word.toInt_add_of_le, course.clock, Int.add_mul, Int.one_mul]
  · rw [course.clock]
    omega
  · rw [course.clock]
    omega

/-- The clock passes the delay with the last call of a period. -/
theorem OnCourse.clock_gt_iff (paced : Paced tics frames increment delay)
    (course : OnCourse tics frames increment delay calls state) :
    state.animationClock + tics > delay ↔
      calls % period tics delay + 1 = period tics delay := by
  have tics_pos : 0 < tics.toInt := paced.tics_pos
  have below := Int.emod_lt_of_pos calls paced.period_pos
  rw [gt_iff_lt, Int32.lt_iff_toInt_lt, course.toInt_clock_add paced,
    ← Int.ediv_lt_iff_lt_mul tics_pos]
  unfold period at below ⊢
  omega

/-- The frame does not leave the range of a word. -/
theorem OnCourse.toInt_frame_add (paced : Paced tics frames increment delay)
    (course : OnCourse tics frames increment delay calls state) :
    (state.actionFrame + increment).toInt =
      (calls / period tics delay % frames.toInt + 1) * increment.toInt := by
  have frames_pos : 0 < frames.toInt := paced.frames_pos
  have nonneg := Int.emod_nonneg (calls / period tics delay) frames_pos.ne'
  have below := Int.emod_lt_of_pos (calls / period tics delay) frames_pos
  have small := abs_le.1 (paced.abs_le (Int.add_nonneg nonneg Int.one_nonneg) below)
  rw [Int.add_mul, Int.one_mul] at small ⊢
  rw [Word.toInt_add_of_le, course.frame]
  · rw [course.frame]
    omega
  · rw [course.frame]
    omega

/-- One more call.  Either the clock goes on, or it starts again and the frame goes on. -/
theorem OnCourse.succ (paced : Paced tics frames increment delay)
    (course : OnCourse tics frames increment delay calls state) :
    OnCourse tics frames increment delay (calls + 1)
      (animated tics frames increment delay state) := by
  have frames_pos : 0 < frames.toInt := paced.frames_pos
  have phase_nonneg := Int.emod_nonneg calls paced.period_pos.ne'
  have phase_lt := Int.emod_lt_of_pos calls paced.period_pos
  have number_nonneg := Int.emod_nonneg (calls / period tics delay) frames_pos.ne'
  have number_lt := Int.emod_lt_of_pos (calls / period tics delay) frames_pos
  rcases Int.lt_or_eq_of_le (Int.add_one_le_of_lt phase_lt) with waits | steps
  · obtain ⟨quotient, remainder⟩ := ediv_emod_succ_of_lt waits phase_nonneg
    rw [animated_of_le (mt (course.clock_gt_iff paced).1 waits.ne)]
    constructor
    case count =>
      rw [Nat.cast_succ, quotient]
      exact course.count
    case frame =>
      have kept := paced.toInt_wrapped course.frame number_nonneg number_lt.le
      rw [Int.emod_emod] at kept
      rw [Nat.cast_succ, quotient]
      exact kept
    case clock =>
      rw [Nat.cast_succ, remainder]
      exact course.toInt_clock_add paced
  · obtain ⟨quotient, remainder⟩ := ediv_emod_succ_of_eq steps paced.period_pos
    rw [animated_of_gt ((course.clock_gt_iff paced).2 steps)]
    constructor
    case count =>
      rw [Nat.cast_succ, quotient, Int32.ofInt_add, ← course.count]
      rfl
    case frame =>
      have turned := paced.toInt_wrapped (course.toInt_frame_add paced)
        (Int.add_nonneg number_nonneg Int.one_nonneg) number_lt
      rw [Int.emod_add_emod] at turned
      rw [Nat.cast_succ, quotient]
      exact turned
    case clock =>
      rw [Nat.cast_succ, remainder, Int.zero_mul]
      rfl

end Call

/-! ## Many calls -/

variable {session : Session} {world after : World} {id : EntityId} {calls : Nat}
  {fresh : ActorState} {frames increment delay : Word}

/-- A number of calls that go on with the action of an entity.  Behind each of them anything may
happen to the world that leaves the action and how far the entity has gone with it. -/
inductive Advances (session : Session) (id : EntityId) (world : World) : Nat → World → Prop where
  | start : Advances session id world 0 world
  | call {calls : Nat} {middle advanced after : World}
      (earlier : Advances session id world calls middle)
      (advanced_eq : advanceAnimation session middle id = .ok advanced)
      (kept : ∀ state, advanced.stateOf? id = some state →
        ∃ later, after.stateOf? id = some later ∧ SameCourse later state) :
      Advances session id world (calls + 1) after

/-- A call behind which nothing happens. -/
theorem Advances.again {advanced : World} (earlier : Advances session id world calls after)
    (advanced_eq : advanceAnimation session after id = .ok advanced) :
    Advances session id world (calls + 1) advanced :=
  .call earlier advanced_eq fun state found => ⟨state, found, rfl, rfl, rfl, rfl⟩

/-- An entity at the start of an action with a record inside the stream. -/
structure Begins (session : Session) (world : World) (id : EntityId) (fresh : ActorState)
    (frames increment delay : Word) : Prop where
  found : world.stateOf? id = some fresh
  record : ∃ first views, recordAt session.program.code .action fresh.action =
    some #[first, frames, views, increment, delay]
  paced : Paced session.config.ticsPerFrame frames increment delay
  clock : fresh.animationClock = 0
  count : fresh.actionCount = 0
  frame : fresh.actionFrame = 0

/-- A call for an entity that still has the action it started with. -/
theorem Begins.advanceAnimation_eq {middle : World} {state : ActorState}
    (begins : Begins session world id fresh frames increment delay) (chosen : fresh.action ≠ 0)
    (found : middle.stateOf? id = some state) (action_eq : state.action = fresh.action) :
    advanceAnimation session middle id = .ok (middle.modifyState id
      (animated session.config.ticsPerFrame frames increment delay)) := by
  obtain ⟨first, views, record⟩ := begins.record
  unfold advanceAnimation
  change Host.stateOf? middle id = some state at found
  simp only [found, action_eq, if_neg chosen, record]
  rfl

/-- A call for an entity without an action. -/
theorem advanceAnimation_of_no_action {state : ActorState}
    (found : world.stateOf? id = some state) (idle : state.action = 0) :
    advanceAnimation session world id = .ok world := by
  unfold advanceAnimation
  change Host.stateOf? world id = some state at found
  simp only [found, if_pos idle]

/-- Without an action the calls do nothing. -/
theorem sameCourse_of_no_action (found : world.stateOf? id = some fresh)
    (idle : fresh.action = 0) (advances : Advances session id world calls after) :
    ∃ state, after.stateOf? id = some state ∧ SameCourse state fresh := by
  induction advances with
  | start => exact ⟨fresh, found, rfl, rfl, rfl, rfl⟩
  | call _ advanced_eq kept earlier =>
      obtain ⟨state, reached, same⟩ := earlier
      rw [advanceAnimation_of_no_action reached (same.action.trans idle)] at advanced_eq
      cases advanced_eq
      obtain ⟨later, reached, still⟩ := kept state reached
      exact ⟨later, reached, still.trans same⟩

/-- The calls keep an entity with an action on its course. -/
theorem exists_onCourse (begins : Begins session world id fresh frames increment delay)
    (chosen : fresh.action ≠ 0) (advances : Advances session id world calls after) :
    ∃ state, after.stateOf? id = some state ∧ state.action = fresh.action ∧
      OnCourse session.config.ticsPerFrame frames increment delay calls state := by
  induction advances with
  | start =>
      exact ⟨fresh, begins.found, rfl, onCourse_zero begins.clock begins.count begins.frame⟩
  | call _ advanced_eq kept earlier =>
      obtain ⟨state, found, action_eq, course⟩ := earlier
      rw [begins.advanceAnimation_eq chosen found action_eq] at advanced_eq
      cases advanced_eq
      obtain ⟨later, reached, same⟩ := kept _ (by
        rw [World.stateOf?_modifyState_self, found, Option.map_some])
      refine ⟨later, reached, ?_, (course.succ begins.paced).congr same⟩
      rw [same.action, animated_action, action_eq]

/-- Any number of calls succeeds. -/
theorem exists_advances (begins : Begins session world id fresh frames increment delay)
    (chosen : fresh.action ≠ 0) (calls : Nat) : ∃ after, Advances session id world calls after := by
  induction calls with
  | zero => exact ⟨world, .start⟩
  | succ calls earlier =>
      obtain ⟨after, advances⟩ := earlier
      obtain ⟨state, found, action_eq, _⟩ := exists_onCourse begins chosen advances
      exact ⟨_, advances.again (begins.advanceAnimation_eq chosen found action_eq)⟩

/-- The closed form of an action.  An entity starts an action with a record inside the stream
and at an offset other than zero.  After any number of calls that go on with the action, there
have been as many animation steps as periods are over, the frame has gone on by one increment
for each step of the round that is not over, and the clock by some tics for each call of the
period that is not over.  The next call succeeds. -/
theorem onCourse_of_advances (begins : Begins session world id fresh frames increment delay)
    (chosen : fresh.action ≠ 0) (advances : Advances session id world calls after) :
    (∃ state, after.stateOf? id = some state ∧
      OnCourse session.config.ticsPerFrame frames increment delay calls state) ∧
    ∃ next, advanceAnimation session after id = .ok next := by
  obtain ⟨state, found, action_eq, course⟩ := exists_onCourse begins chosen advances
  exact ⟨⟨state, found, course⟩, _, begins.advanceAnimation_eq chosen found action_eq⟩

/-- An action of two frames, the second before the first, whose steps are two calls apart. -/
def striding : Session where
  program := { code := #[7, 0, 2, 1, -2, 3] }
  config := { ticsPerFrame := 2 }

/-- An entity at the start of the action at an offset. -/
def starting (action : Word) : World :=
  ((World.new 1 0).spawn 1 (some 0)).2.modifyState ⟨0, 0⟩ fun state => { state with action }

/-- The seventh call is the first of the fourth period, in which the second frame is shown for
the second time. -/
theorem onCourse_striding :
    ∃ after state, Advances striding ⟨0, 0⟩ (starting 1) 7 after ∧
      after.stateOf? ⟨0, 0⟩ = some state ∧ state.actionCount = 3 ∧
      state.actionFrame.toInt = -2 ∧ state.animationClock.toInt = 2 := by
  have begins : Begins striding (starting 1) ⟨0, 0⟩ { action := 1 } 2 (-2) 3 :=
    { found := rfl
      record := ⟨0, 1, by decide⟩
      paced := by constructor <;> decide
      clock := rfl
      count := rfl
      frame := rfl }
  obtain ⟨after, advances⟩ := exists_advances begins (by decide) 7
  obtain ⟨⟨state, found, course⟩, _⟩ := onCourse_of_advances begins (by decide) advances
  refine ⟨after, state, advances, found, ?_, ?_, ?_⟩
  · exact course.count.trans (by decide)
  · exact course.frame.trans (by decide)
  · exact course.clock.trans (by decide)

/-- An action at the start of the stream, which an entity cannot have. -/
def leading : Session where
  program := { code := #[0, 3, 1, 1, 0, 7] }

/-- The closed form does not hold of a record at offset zero, since an action of zero is none. -/
theorem not_forall_onCourse :
    ¬ ∀ session world id fresh frames increment delay calls after,
      Begins session world id fresh frames increment delay →
      Advances session id world calls after →
      ∃ state, after.stateOf? id = some state ∧
        OnCourse session.config.ticsPerFrame frames increment delay calls state := by
  intro follow
  have begins : Begins leading (starting 0) ⟨0, 0⟩ {} 3 1 0 :=
    { found := rfl
      record := ⟨0, 1, by decide⟩
      paced := by constructor <;> decide
      clock := rfl
      count := rfl
      frame := rfl }
  have advances : Advances leading ⟨0, 0⟩ (starting 0) 1 (starting 0) := .again .start rfl
  obtain ⟨state, found, course⟩ := follow _ _ _ _ _ _ _ _ _ begins advances
  obtain ⟨still, again, same⟩ := sameCourse_of_no_action begins.found rfl advances
  cases again.symm.trans found
  have counted : (0 : Word) = Int32.ofInt (1 / period 4 0) := same.count.symm.trans course.count
  revert counted
  decide

end Machine

end ActorScript
