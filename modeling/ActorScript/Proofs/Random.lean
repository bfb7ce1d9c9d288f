import ActorScript.Random
import Mathlib.Algebra.Ring.Nat
import Mathlib.Logic.Relation

/-!
# Draws

A draw rejects numbers of its stream until it meets one that it accepts.  `Draws` describes that
loop without a bound.  `Random.draw` rejects at most `maxRejections` numbers; that no draw comes to
the bound is an assumption on its stream, `Prompt`.  From a prompt stream all draws, one behind the
other, are those of the loop.
-/

namespace ActorScript.Random

variable {bits : UInt64} {random behind : Random} {count : Nat} {outcome : Nat × Random}

/-- A draw of some bits accepts the next number of the stream. -/
def Accepts (bits : UInt64) (random : Random) : Prop :=
  (random.next.1 >>> (63 - bits)) &&& 1 = 0

/-- The loop of a draw: how many numbers are rejected, and the value and the stream that it comes
to in the end.  A stream whose numbers are all rejected has no such outcome. -/
inductive Draws (bits : UInt64) : Nat → Random → Nat × Random → Prop
  | accepts {random : Random} (accepted : random.Accepts bits) :
      Draws bits 0 random ((random.next.1 >>> (64 - bits)).toNat, random.next.2)
  | rejects {random : Random} {count : Nat} {outcome : Nat × Random}
      (rejected : ¬ random.Accepts bits) (later : Draws bits count random.next.2 outcome) :
      Draws bits (count + 1) random outcome

/-- A stream is what another one comes to after some numbers. -/
def Follows : Random → Random → Prop :=
  Relation.ReflTransGen fun random rest => rest = random.next.2

/-- No draw of at most 63 bits from a stream, now or later, comes to reject more than
`maxRejections` numbers. -/
def Prompt (random : Random) : Prop :=
  ∀ rest bits, random.Follows rest → bits ≤ 63 →
    ∃ count outcome, count ≤ maxRejections ∧ Draws bits count rest outcome

/-- The loop of a draw has one outcome. -/
theorem Draws.unique {other : Nat} {outcome' : Nat × Random}
    (draws : Draws bits count random outcome) (again : Draws bits other random outcome') :
    count = other ∧ outcome = outcome' := by
  induction draws generalizing other with
  | accepts accepted =>
      cases again with
      | accepts _ => exact ⟨rfl, rfl⟩
      | rejects rejected _ => exact absurd accepted rejected
  | rejects rejected _ ih =>
      cases again with
      | accepts accepted => exact absurd accepted rejected
      | rejects _ later =>
          obtain ⟨rfl, rfl⟩ := ih later
          exact ⟨rfl, rfl⟩

/-- The streams that a draw leaves behind follow the one that it has drawn from. -/
theorem Draws.follows (draws : Draws bits count random outcome) : random.Follows outcome.2 := by
  induction draws with
  | accepts _ => exact Relation.ReflTransGen.single rfl
  | rejects _ _ ih => exact Relation.ReflTransGen.head rfl ih

theorem nextWithout_of_accepts (accepted : random.Accepts bits) (tries : Nat) :
    random.nextWithout (63 - bits) tries = random.next := by
  cases tries with
  | zero => rfl
  | succ tries => exact if_pos accepted

theorem nextWithout_of_rejected (rejected : ¬ random.Accepts bits) (tries : Nat) :
    random.nextWithout (63 - bits) (tries + 1) =
      random.next.2.nextWithout (63 - bits) tries :=
  if_neg rejected

/-- With enough tries the number is the one that the loop accepts. -/
theorem Draws.nextWithout_eq (draws : Draws bits count random outcome) {tries : Nat}
    (enough : count ≤ tries) :
    (((random.nextWithout (63 - bits) tries).1 >>> (64 - bits)).toNat,
      (random.nextWithout (63 - bits) tries).2) = outcome := by
  induction draws generalizing tries with
  | accepts accepted => rw [nextWithout_of_accepts accepted]
  | rejects rejected _ ih =>
      obtain ⟨fewer, rfl⟩ := Nat.exists_eq_add_of_lt enough
      rw [nextWithout_of_rejected rejected]
      exact ih (Nat.le_add_right _ _)

/-- A draw is that of the loop, as long as this rejects no more than `maxRejections` numbers. -/
theorem Draws.draw_eq (draws : Draws bits count random outcome) (few : count ≤ maxRejections) :
    random.draw bits = outcome :=
  draws.nextWithout_eq few

/-- What follows a prompt stream is prompt. -/
theorem Prompt.of_follows (prompt : random.Prompt) (follows : random.Follows behind) :
    behind.Prompt :=
  fun rest bits later => prompt rest bits (follows.trans later)

/-- The assumption can be met: the stream of zeros accepts every number. -/
theorem prompt_zero : Prompt ⟨0, 0, 0, 0⟩ := by
  intro rest bits follows _
  have still : rest = ⟨0, 0, 0, 0⟩ := by
    induction follows with
    | refl => rfl
    | tail _ step ih =>
        rw [step, ih]
        decide
  subst still
  have number_eq : next ⟨0, 0, 0, 0⟩ = (0, ⟨0, 0, 0, 0⟩) := by
    decide
  have accepted : Accepts bits ⟨0, 0, 0, 0⟩ := by
    simp [Accepts, number_eq]
  exact ⟨0, _, Nat.zero_le _, .accepts accepted⟩

/-- From a prompt stream the loop draws what `Random.draw` does, and nothing else, and the stream
that is left behind is prompt again. -/
theorem Prompt.draws_iff (prompt : random.Prompt) (fits : bits ≤ 63) :
    (∀ outcome, (∃ count, Draws bits count random outcome) ↔ random.draw bits = outcome) ∧
      (random.draw bits).2.Prompt := by
  obtain ⟨count, drawn, few, draws⟩ := prompt random bits Relation.ReflTransGen.refl fits
  have draw_eq := draws.draw_eq few
  constructor
  · intro outcome
    constructor
    · rintro ⟨_, again⟩
      rw [draw_eq]
      exact (draws.unique again).2
    · rintro rfl
      rw [draw_eq]
      exact ⟨count, draws⟩
  · rw [draw_eq]
    exact prompt.of_follows draws.follows

/-- A draw is below the number of values that its bits can have. -/
theorem draw_lt (positive : 0 < bits) (fits : bits ≤ 63) (random : Random) :
    (random.draw bits).1 < 2 ^ bits.toNat := by
  have amount : (64 - bits).toNat = 64 - bits.toNat := by
    rw [UInt64.toNat_sub_of_le _ _ (UInt64.le_iff_toNat_le.2 _)]
    · rfl
    · exact Nat.le_trans (UInt64.le_iff_toNat_le.1 fits) (by decide)
  have low : 0 < bits.toNat := UInt64.lt_iff_toNat_lt.1 positive
  have high : bits.toNat ≤ 63 := UInt64.le_iff_toNat_le.1 fits
  unfold draw
  dsimp only
  rw [UInt64.toNat_shiftRight, amount, Nat.mod_eq_of_lt (by omega), Nat.shiftRight_eq_div_pow]
  apply Nat.div_lt_of_lt_mul
  rw [← Nat.pow_add, Nat.sub_add_cancel (by omega)]
  exact UInt64.toNat_lt _

end ActorScript.Random
