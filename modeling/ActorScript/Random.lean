/-!
# Random numbers

A generator of 64-bit numbers with 256 bits of state, seeded from 64 bits by a
smaller generator.  Draws from a range of `2 ^ k` values use the top bits of a
number and reject those numbers whose next bit is set.
-/

namespace ActorScript

/-- The state of a random stream. -/
structure Random where
  first : UInt64
  second : UInt64
  third : UInt64
  fourth : UInt64
deriving DecidableEq, Repr

namespace Random

/-- The bits of a number, moved left around its end. -/
def rotateLeft (value amount : UInt64) : UInt64 :=
  (value <<< amount) ||| (value >>> (64 - amount))

/-- The next state of the seeding generator. -/
def advanceSeed (state : UInt64) : UInt64 :=
  state * 6364136223846793005 + 11634580027462260723

/-- The number that a state of the seeding generator gives. -/
def seedOutput (state : UInt64) : UInt32 :=
  let mixed := (((state >>> 18) ^^^ state) >>> 27).toUInt32
  let amount := (state >>> 59).toUInt32
  (mixed >>> amount) ||| (mixed <<< (32 - amount))

/-- Two numbers of the seeding generator, the first in the low half, and the
state after them. -/
def seedWord (state : UInt64) : UInt64 × UInt64 :=
  let low := advanceSeed state
  let high := advanceSeed low
  ((seedOutput low).toUInt64 ||| ((seedOutput high).toUInt64 <<< 32), high)

/-- The stream of a seed. -/
def ofSeed (seed : UInt64) : Random :=
  let (first, state) := seedWord seed
  let (second, state) := seedWord state
  let (third, state) := seedWord state
  let (fourth, _) := seedWord state
  ⟨first, second, third, fourth⟩

/-- The next number of a stream. -/
def next (random : Random) : UInt64 × Random :=
  let result := rotateLeft (random.first + random.fourth) 23 + random.first
  let shifted := random.second <<< 17
  let third := random.third ^^^ random.first
  let fourth := random.fourth ^^^ random.second
  let second := random.second ^^^ third
  let first := random.first ^^^ fourth
  (result, ⟨first, second, third ^^^ shifted, rotateLeft fourth 45⟩)

/-- The most numbers that one draw rejects.  The loop of a draw has no such
bound: that it makes no difference is an assumption on the stream, which
`Random.Prompt` states. -/
def maxRejections : Nat := 0x10000

/-- The next number whose given bit is not set. -/
def nextWithout (random : Random) (bit : UInt64) : Nat → UInt64 × Random
  | 0 => random.next
  | tries + 1 =>
      let (number, rest) := random.next
      if (number >>> bit) &&& 1 = 0 then (number, rest) else rest.nextWithout bit tries

/-- A draw from `2 ^ bits` values: the top bits of a number whose next bit is
not set. -/
def draw (bits : UInt64) (random : Random) : Nat × Random :=
  let (number, rest) := random.nextWithout (63 - bits) maxRejections
  ((number >>> (64 - bits)).toNat, rest)

end Random

end ActorScript
