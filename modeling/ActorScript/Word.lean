/-!
# Words and offsets

The instruction stream, the variables and the registers of an entity all hold
words: 32-bit two's-complement integers whose arithmetic wraps around.  A word
names an offset of the stream when it is not negative; offsets themselves are
natural numbers, so an offset too large for a word can still be spoken of.
-/

namespace ActorScript

/-- A 32-bit two's-complement integer with wrapping arithmetic. -/
abbrev Word := Int32

namespace Word

/-- The offset named by a word.  A negative word names none. -/
def offset? (word : Word) : Option Nat :=
  word.toInt.toNat?

/-- The word that names an offset, reduced modulo `2 ^ 32`. -/
def ofOffset (offset : Nat) : Word :=
  Int32.ofNat offset

/-- The largest value of a word. -/
def maximum : Nat := 0x7FFFFFFF

theorem offset?_eq_some_iff {word : Word} {offset : Nat} :
    word.offset? = some offset ↔ word.toInt = offset := by
  exact Int.mem_toNat?

/-- Reading back a small offset gives the offset. -/
theorem offset?_ofOffset {offset : Nat} (small : offset ≤ maximum) :
    (ofOffset offset).offset? = some offset := by
  rw [offset?_eq_some_iff, ofOffset, Int32.toInt_ofNat_of_lt]
  simp [maximum] at small
  omega

/-- The word that names an offset is given back by the offset. -/
theorem ofOffset_of_offset? {word : Word} {offset : Nat} (named : word.offset? = some offset) :
    ofOffset offset = word := by
  rw [offset?_eq_some_iff] at named
  calc
    ofOffset offset = Int32.ofInt (offset : Int) := rfl
    _ = Int32.ofInt word.toInt := by rw [named]
    _ = word := Int32.ofInt_toInt word

/-- Every offset that a word names is small. -/
theorem le_maximum_of_offset? {word : Word} {offset : Nat} (named : word.offset? = some offset) :
    offset ≤ maximum := by
  rw [offset?_eq_some_iff] at named
  have below := word.toInt_lt
  simp only [maximum]
  omega

theorem ofOffset_add (left right : Nat) :
    ofOffset (left + right) = ofOffset left + ofOffset right :=
  Int32.ofNat_add left right

/-- The lower-case digits of a natural number in base sixteen. -/
def hexDigits (value : Nat) : String :=
  String.ofList (Nat.toDigits 16 value)

/-- The bits of a word in base sixteen, without leading zeros. -/
def hex (word : Word) : String :=
  "0x" ++ hexDigits word.toUInt32.toNat

end Word

end ActorScript
