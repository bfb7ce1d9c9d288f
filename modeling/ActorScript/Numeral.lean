import ActorScript.Word

/-!
# Numerals

The texts of words in assembly.  A numeral is decimal, or it starts with `0x`
and gives the bits of the word in base sixteen; a minus sign in front negates
it.  The value has to be that of a word.
-/

namespace ActorScript.Numeral

/-- The value of a digit in bases up to sixteen. -/
def digitValue (char : Char) : Option Nat :=
  if '0' ≤ char ∧ char ≤ '9' then some (char.toNat - '0'.toNat)
  else if 'a' ≤ char ∧ char ≤ 'f' then some (char.toNat - 'a'.toNat + 10)
  else if 'A' ≤ char ∧ char ≤ 'F' then some (char.toNat - 'A'.toNat + 10)
  else none

/-- Appends digits to a number in the given base. -/
def appendDigits (base : Nat) : Nat → List Char → Option Nat
  | value, [] => some value
  | value, char :: rest =>
      match digitValue char with
      | none => none
      | some digit =>
          if digit < base then appendDigits base (value * base + digit) rest else none

/-- The number that one or more digits denote in the given base. -/
def ofDigits (base : Nat) (digits : List Char) : Option Nat :=
  if digits.isEmpty then none else appendDigits base 0 digits

/-- The bits of a word in base sixteen.  A plus sign may stand in front. -/
def ofHex (digits : List Char) : Option Int :=
  let unsigned := match digits with
    | '+' :: rest => rest
    | digits => digits
  match ofDigits 16 unsigned with
  | none => none
  | some bits => if bits ≤ 0xFFFFFFFF then some (Int32.ofNat bits).toInt else none

/-- The value of a numeral without a sign. -/
def magnitude : List Char → Option Int
  | '0' :: 'x' :: digits => ofHex digits
  | '0' :: 'X' :: digits => ofHex digits
  | digits => (ofDigits 10 digits).map Int.ofNat

/-- The word with an integer value, when there is one. -/
def wordOfInt (value : Int) : Option Word :=
  if -0x80000000 ≤ value ∧ value ≤ 0x7FFFFFFF then some (Int32.ofInt value) else none

/-- The word that a numeral denotes. -/
def read (numeral : List Char) : Option Word :=
  match numeral with
  | '-' :: digits => (magnitude digits).bind fun value => wordOfInt (-value)
  | digits => (magnitude digits).bind wordOfInt

/-- A text that starts, behind a minus sign or at once, with a decimal digit. -/
def looksNumeric (text : List Char) : Bool :=
  match text with
  | '-' :: char :: _ => char.isDigit
  | char :: _ => char.isDigit
  | [] => false

/-- The decimal numeral of a word. -/
def print (word : Word) : String :=
  toString word.toInt

end ActorScript.Numeral
