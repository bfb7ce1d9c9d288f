import ActorScript.Proofs.Assembly.Token
import Mathlib.Data.Nat.Digits.Defs

/-!
# The syntax of numbers

Which words of a line are numbers.  A numeral is decimal and denotes its value, or it is marked as
one in base sixteen and denotes the word with these bits; a minus sign in front negates the value.
That is what the reader takes, but for one thing: behind the mark of base sixteen it lets a plus
sign pass.
-/

namespace ActorScript

namespace Numeral

/-! ## Numerals -/

/-- A character is a digit in a base, in lower case or in upper case. -/
def IsDigit (base : Nat) (char : Char) (digit : Nat) : Prop :=
  digit < base ∧ char.toLower = Nat.digitChar digit

/-- One or more digits denote a number, the most significant one first. -/
def Denotes (base : Nat) (text : List Char) (value : Nat) : Prop :=
  text ≠ [] ∧ ∃ digits, List.Forall₂ (IsDigit base) text digits ∧
    value = Nat.ofDigits base digits.reverse

/-- Digits in base sixteen denote the bits of a word, and so its value. -/
def DenotesBits (text : List Char) (value : Int) : Prop :=
  ∃ bits, Denotes 16 text bits ∧ bits < 2 ^ 32 ∧ value = (Int32.ofNat bits).toInt

/-- The numerals without a sign, and their values. -/
inductive Magnitude : List Char → Int → Prop
  | decimal {digits : List Char} {value : Nat} (denotes : Denotes 10 digits value) :
      Magnitude digits value
  | bits {mark : Char} {digits : List Char} {value : Int} (marked : mark = 'x' ∨ mark = 'X')
      (denotes : DenotesBits digits value) : Magnitude ('0' :: mark :: digits) value

/-- The texts that a plus sign behind the mark of base sixteen makes of such numerals. -/
inductive PlusMagnitude : List Char → Int → Prop
  | bits {mark : Char} {digits : List Char} {value : Int} (marked : mark = 'x' ∨ mark = 'X')
      (denotes : DenotesBits digits value) : PlusMagnitude ('0' :: mark :: '+' :: digits) value

/-- Numerals with a minus sign or none, and the words of their values. -/
inductive Signed (unsigned : List Char → Int → Prop) : List Char → Word → Prop
  | plain {numeral : List Char} {word : Word} (magnitude : unsigned numeral word.toInt) :
      Signed unsigned numeral word
  | minus {numeral : List Char} {word : Word} (magnitude : unsigned numeral (-word.toInt)) :
      Signed unsigned ('-' :: numeral) word

/-! ## Digits -/

theorem digitValue_eq_some_iff {char : Char} {digit : Nat} :
    digitValue char = some digit ↔ IsDigit 16 char digit := by
  by_cases ascii : char.toNat < 128
  · -- Among the ASCII characters both sides can be compared one by one.
    have bounded : ∀ code < 128, ∀ digit ∈ digitValue (Char.ofNat code), digit < 16 := by
      decide +kernel
    have agree : ∀ code < 128, ∀ digit < 16, digitValue (Char.ofNat code) = some digit ↔
        (Char.ofNat code).toLower = Nat.digitChar digit := by
      decide +kernel
    rw [← Char.ofNat_toNat char]
    constructor
    · intro found
      have small := bounded _ ascii digit found
      exact ⟨small, (agree _ ascii digit small).1 found⟩
    · rintro ⟨small, same⟩
      exact (agree _ ascii digit small).2 same
  · have beyond : ∀ last : Char, last.toNat < 128 → ¬ char ≤ last := by
      intro last low below
      have order : char.toNat ≤ last.toNat := below
      omega
    have unknown : digitValue char = none := by
      simp [digitValue, beyond '9' (by decide), beyond 'f' (by decide), beyond 'F' (by decide)]
    have lower : char.toLower = char := by
      unfold Char.toLower
      split
      · rename_i upper
        exact absurd upper.2 (beyond 'Z' (by decide))
      · rfl
    have letters : ∀ digit < 16, (Nat.digitChar digit).toNat < 128 := by decide
    rw [unknown]
    refine ⟨fun found => by contradiction, ?_⟩
    rintro ⟨small, same⟩
    have low := letters digit small
    rw [← same, lower] at low
    exact absurd low ascii

theorem appendDigits_eq_some_iff {base value result : Nat} {text : List Char} (small : base ≤ 16) :
    appendDigits base value text = some result ↔
      ∃ digits, List.Forall₂ (IsDigit base) text digits ∧
        result = Nat.ofDigits base digits.reverse + base ^ digits.length * value := by
  induction text generalizing value with
  | nil => simp [appendDigits, eq_comm]
  | cons char rest ih =>
      simp only [appendDigits, List.forall₂_cons_left_iff]
      constructor
      · intro read
        split at read
        · contradiction
        · rename_i digit found
          split at read
          · rename_i below
            obtain ⟨digits, later, rfl⟩ := ih.1 read
            have here := digitValue_eq_some_iff.1 found
            refine ⟨digit :: digits, ⟨digit, digits, ⟨below, here.2⟩, later, rfl⟩, ?_⟩
            rw [Nat.ofDigits_reverse_cons, List.length_cons]
            ring
          · contradiction
      · rintro ⟨_, ⟨digit, digits, here, later, rfl⟩, rfl⟩
        have found := digitValue_eq_some_iff.2 ⟨here.1.trans_le small, here.2⟩
        simp only [found, if_pos here.1]
        refine ih.2 ⟨digits, later, ?_⟩
        rw [Nat.ofDigits_reverse_cons, List.length_cons]
        ring

theorem ofDigits_eq_some_iff {base value : Nat} {text : List Char} (small : base ≤ 16) :
    ofDigits base text = some value ↔ Denotes base text value := by
  unfold ofDigits Denotes
  cases text with
  | nil => simp
  | cons char rest =>
      simp only [List.isEmpty_cons, Bool.false_eq_true, if_false, appendDigits_eq_some_iff small,
        Nat.mul_zero, Nat.add_zero, ne_eq, reduceCtorEq, not_false_eq_true, true_and]

/-- Every character of a numeral is a digit. -/
theorem Denotes.exists_digit {base value : Nat} {text : List Char} {char : Char}
    (denotes : Denotes base text value) (member : char ∈ text) :
    ∃ digit, IsDigit base char digit := by
  obtain ⟨-, digits, each, -⟩ := denotes
  induction each with
  | nil => contradiction
  | cons here _ ih =>
      rcases List.mem_cons.1 member with rfl | later
      · exact ⟨_, here⟩
      · exact ih later

/-! ## Values -/

theorem wordOfInt_eq_some_iff {value : Int} {word : Word} :
    wordOfInt value = some word ↔ word.toInt = value := by
  constructor
  · intro read
    unfold wordOfInt at read
    split at read
    · rename_i range
      cases read
      exact Int32.toInt_ofInt_of_le range.1 (by omega)
    · contradiction
  · rintro rfl
    exact wordOfInt_toInt word

/-- No digit is a sign or the mark of base sixteen. -/
theorem not_isDigit_ten {char : Char} (other : char ∈ ['-', '+', 'x', 'X']) (digit : Nat) :
    ¬ IsDigit 10 char digit := by
  rintro ⟨small, same⟩
  simp only [List.mem_cons, List.not_mem_nil, or_false] at other
  revert digit
  rcases other with rfl | rfl | rfl | rfl <;> decide

theorem not_isDigit_sixteen {char : Char} (sign : char ∈ ['-', '+']) (digit : Nat) :
    ¬ IsDigit 16 char digit := by
  rintro ⟨small, same⟩
  simp only [List.mem_cons, List.not_mem_nil, or_false] at sign
  revert digit
  rcases sign with rfl | rfl <;> decide

/-- The value of the word with the bits that digits in base sixteen stand for. -/
def ofBits (digits : List Char) : Option Int :=
  (ofDigits 16 digits).bind fun bits =>
    if bits ≤ 0xFFFFFFFF then some (Int32.ofNat bits).toInt else none

theorem ofBits_eq_some_iff {digits : List Char} {value : Int} :
    ofBits digits = some value ↔ DenotesBits digits value := by
  unfold ofBits
  rw [Option.bind_eq_some_iff]
  constructor
  · rintro ⟨bits, found, read⟩
    split at read
    · rename_i small
      cases read
      exact ⟨bits, (ofDigits_eq_some_iff le_rfl).1 found, by omega, rfl⟩
    · contradiction
  · rintro ⟨bits, denotes, small, rfl⟩
    exact ⟨bits, (ofDigits_eq_some_iff le_rfl).2 denotes, if_pos (by omega)⟩

theorem ofHex_plus (rest : List Char) : ofHex ('+' :: rest) = ofBits rest := by
  cases read : ofDigits 16 rest <;> simp [ofHex, ofBits, read]

theorem ofHex_of_ne_plus {digits : List Char} (bare : ∀ rest, digits ≠ '+' :: rest) :
    ofHex digits = ofBits digits := by
  unfold ofHex
  split
  · exact absurd rfl (bare _)
  · cases read : ofDigits 16 digits <;> simp [ofBits, read]

theorem ofHex_eq_some_iff {digits : List Char} {value : Int} :
    ofHex digits = some value ↔
      DenotesBits digits value ∨ ∃ rest, digits = '+' :: rest ∧ DenotesBits rest value := by
  by_cases plus : ∃ rest, digits = '+' :: rest
  · obtain ⟨rest, rfl⟩ := plus
    have unmarked : ¬ DenotesBits ('+' :: rest) value := by
      rintro ⟨_, denotes, _⟩
      obtain ⟨digit, here⟩ := denotes.exists_digit List.mem_cons_self
      exact not_isDigit_sixteen (by simp) digit here
    rw [ofHex_plus, ofBits_eq_some_iff, or_iff_right unmarked]
    simp
  · rw [ofHex_of_ne_plus fun rest same => plus ⟨rest, same⟩, ofBits_eq_some_iff, or_iff_left]
    rintro ⟨rest, same, _⟩
    exact plus ⟨rest, same⟩

theorem magnitude_eq_some_iff {text : List Char} {value : Int} :
    magnitude text = some value ↔ Magnitude text value ∨ PlusMagnitude text value := by
  -- A marked numeral is none in base ten, for its mark is no digit there.
  have marked {mark : Char} (mark_eq : mark = 'x' ∨ mark = 'X') (digits : List Char) :
      ofHex digits = some value ↔ Magnitude ('0' :: mark :: digits) value ∨
        PlusMagnitude ('0' :: mark :: digits) value := by
    rw [ofHex_eq_some_iff]
    constructor
    · rintro (denotes | ⟨rest, rfl, denotes⟩)
      · exact Or.inl (.bits mark_eq denotes)
      · exact Or.inr (.bits mark_eq denotes)
    · rintro (magnitude | magnitude)
      · cases magnitude with
        | decimal denotes =>
            obtain ⟨digit, here⟩ := denotes.exists_digit
              (List.mem_cons_of_mem _ List.mem_cons_self : mark ∈ _)
            exact absurd here (not_isDigit_ten (by simp [mark_eq]) digit)
        | bits _ denotes => exact Or.inl denotes
      · cases magnitude with
        | bits _ denotes => exact Or.inr ⟨_, rfl, denotes⟩
  unfold magnitude
  split
  · exact marked (Or.inl rfl) _
  · exact marked (Or.inr rfl) _
  · rename_i lower upper
    simp only [Option.map_eq_some_iff, ofDigits_eq_some_iff (show 10 ≤ 16 by decide)]
    constructor
    · rintro ⟨value, denotes, rfl⟩
      exact Or.inl (.decimal denotes)
    · rintro (magnitude | magnitude)
      · cases magnitude with
        | decimal denotes => exact ⟨_, denotes, rfl⟩
        | bits mark_eq _ =>
            rcases mark_eq with rfl | rfl
            · exact absurd rfl (lower _)
            · exact absurd rfl (upper _)
      · cases magnitude with
        | bits mark_eq _ =>
            rcases mark_eq with rfl | rfl
            · exact absurd rfl (lower _)
            · exact absurd rfl (upper _)

/-! ## Signs -/

/-- No magnitude starts with a minus sign. -/
theorem not_magnitude_minus {text : List Char} {value : Int} :
    magnitude ('-' :: text) ≠ some value := by
  intro read
  have decimal : (ofDigits 10 ('-' :: text)).map Int.ofNat = some value := read
  obtain ⟨_, found, _⟩ := Option.map_eq_some_iff.1 decimal
  obtain ⟨digit, here⟩ :=
    ((ofDigits_eq_some_iff (by decide)).1 found).exists_digit List.mem_cons_self
  exact not_isDigit_ten (by simp) digit here

theorem signed_iff {unsigned : List Char → Int → Prop} {text : List Char} {word : Word} :
    Signed unsigned text word ↔
      unsigned text word.toInt ∨ ∃ rest, text = '-' :: rest ∧ unsigned rest (-word.toInt) := by
  constructor
  · intro signed
    cases signed with
    | plain magnitude => exact Or.inl magnitude
    | minus magnitude => exact Or.inr ⟨_, rfl, magnitude⟩
  · rintro (magnitude | ⟨rest, rfl, magnitude⟩)
    · exact .plain magnitude
    · exact .minus magnitude

/-- The reader takes the numerals, and those with a plus sign behind the mark. -/
theorem read_eq_some_iff {text : List Char} {word : Word} :
    read text = some word ↔ Signed Magnitude text word ∨ Signed PlusMagnitude text word := by
  have either : Signed Magnitude text word ∨ Signed PlusMagnitude text word ↔
      magnitude text = some word.toInt ∨
        ∃ rest, text = '-' :: rest ∧ magnitude rest = some (-word.toInt) := by
    simp only [signed_iff, magnitude_eq_some_iff, and_or_left, exists_or]
    exact or_or_or_comm
  rw [either]
  unfold read
  split
  · rename_i rest
    have negated (value : Int) : wordOfInt (-value) = some word ↔ value = -word.toInt := by
      rw [wordOfInt_eq_some_iff]
      omega
    simp only [Option.bind_eq_some_iff, negated, exists_eq_right, not_magnitude_minus, false_or,
      List.cons.injEq, true_and, exists_eq_left']
  · rename_i bare
    have positive (value : Int) : wordOfInt value = some word ↔ value = word.toInt := by
      rw [wordOfInt_eq_some_iff, eq_comm]
    simp only [Option.bind_eq_some_iff, positive, exists_eq_right]
    rw [or_iff_left]
    rintro ⟨rest, rfl, _⟩
    exact bare rest rfl

theorem not_magnitude_of_plus {text : List Char} {value other : Int}
    (plus : PlusMagnitude text value) : ¬ Magnitude text other := by
  cases plus with
  | @bits mark digits _ mark_eq _ =>
      intro magnitude
      cases magnitude with
      | decimal denotes =>
          obtain ⟨digit, here⟩ := denotes.exists_digit
            (List.mem_cons_of_mem _ List.mem_cons_self : mark ∈ _)
          exact not_isDigit_ten (by simp [mark_eq]) digit here
      | bits _ denotes =>
          obtain ⟨_, denotes, _⟩ := denotes
          obtain ⟨digit, here⟩ := denotes.exists_digit List.mem_cons_self
          exact not_isDigit_sixteen (by simp) digit here

/-- No text is a numeral both with and without a plus sign. -/
theorem not_signed_of_plus {text : List Char} {word other : Word}
    (plus : Signed PlusMagnitude text word) : ¬ Signed Magnitude text other := by
  intro signed
  cases plus with
  | plain plus =>
      cases signed with
      | plain magnitude => exact not_magnitude_of_plus plus magnitude
      | minus => cases plus
  | minus plus =>
      cases signed with
      | plain magnitude => exact not_magnitude_minus (magnitude_eq_some_iff.2 (Or.inl magnitude))
      | minus magnitude => exact not_magnitude_of_plus plus magnitude

end Numeral

namespace Assembly

/-! ## Words of a line -/

/-- A word that neither its first character nor its last one marks as something else than a number
or a name. -/
structure IsBare (word : List Char) : Prop where
  ink : ∀ char ∈ word, isInk char = true
  first : ∀ rest, word ≠ '@' :: rest ∧ word ≠ '.' :: rest
  last : word.getLast? ≠ some ':'

/-- A digit stands at the start of a word, or behind a minus sign there. -/
def StartsNumeric (word : List Char) : Prop :=
  ∃ first rest, first.isDigit = true ∧ (word = first :: rest ∨ word = '-' :: first :: rest)

/-- A word is a number exactly when it is a numeral, and is refused as one when it starts like a
numeral. -/
structure FollowsGrammar (word : List Char) : Prop where
  number : ∀ value, Token.ofLine word = .ok [.number value] ↔
    Numeral.Signed Numeral.Magnitude word value
  invalid : StartsNumeric word → (¬ ∃ value, Numeral.Signed Numeral.Magnitude word value) →
    Token.ofLine word = .error (.invalidNumber (String.ofList word))

variable {word : List Char}

theorem looksNumeric_eq_true_iff :
    Numeral.looksNumeric word = true ↔ StartsNumeric word := by
  unfold Numeral.looksNumeric StartsNumeric
  split
  · rename_i char rest
    constructor
    · intro digit
      exact ⟨char, rest, digit, Or.inr rfl⟩
    · rintro ⟨first, others, digit, same | same⟩
      · cases same
        contradiction
      · cases same
        exact digit
  · rename_i char rest unsigned
    constructor
    · intro digit
      exact ⟨char, rest, digit, Or.inl rfl⟩
    · rintro ⟨first, others, digit, same | same⟩
      · cases same
        exact digit
      · cases same
        exact absurd rfl (unsigned first others rfl)
  · simp

theorem isDigit_of_isDigit_ten {char : Char} {digit : Nat}
    (decimal : Numeral.IsDigit 10 char digit) : char.isDigit = true := by
  have small := decimal.1
  have found := Numeral.digitValue_eq_some_iff.2 ⟨by omega, decimal.2⟩
  unfold Numeral.digitValue at found
  split at found
  · rename_i range
    exact Char.isDigit_iff_toNat.2 range
  · -- Letters are worth ten and more.
    split at found
    · have value_eq := Option.some.inj found
      omega
    · split at found
      · have value_eq := Option.some.inj found
        omega
      · contradiction

theorem StartsNumeric.ne_nil (numeric : StartsNumeric word) : word ≠ [] := by
  rintro rfl
  simp [StartsNumeric] at numeric

/-- What has a magnitude starts with a digit. -/
theorem exists_isDigit_of_magnitude {text : List Char} {value : Int}
    (read : Numeral.magnitude text = some value) :
    ∃ first rest, first.isDigit = true ∧ text = first :: rest := by
  rcases Numeral.magnitude_eq_some_iff.1 read with plain | plus
  · cases plain with
    | decimal denotes =>
        obtain ⟨first, rest, rfl⟩ := List.exists_cons_of_ne_nil denotes.1
        obtain ⟨digit, here⟩ := denotes.exists_digit List.mem_cons_self
        exact ⟨first, rest, isDigit_of_isDigit_ten here, rfl⟩
    | bits => exact ⟨'0', _, by decide, rfl⟩
  · cases plus with
    | bits => exact ⟨'0', _, by decide, rfl⟩

/-- A numeral starts with a digit, behind its sign. -/
theorem startsNumeric_of_read {value : Word} (read : Numeral.read word = some value) :
    StartsNumeric word := by
  unfold Numeral.read at read
  split at read
  · obtain ⟨magnitude, found, _⟩ := Option.bind_eq_some_iff.1 read
    obtain ⟨first, rest, digit, rfl⟩ := exists_isDigit_of_magnitude found
    exact ⟨first, rest, digit, Or.inr rfl⟩
  · obtain ⟨magnitude, found, _⟩ := Option.bind_eq_some_iff.1 read
    obtain ⟨first, rest, digit, rfl⟩ := exists_isDigit_of_magnitude found
    exact ⟨first, rest, digit, Or.inl rfl⟩

/-- A line that is a single word has the token of this word, if it has one. -/
theorem ofLine_of_isBare (bare : IsBare word) (present : word ≠ []) :
    Token.ofLine word = (Token.ofWord word).map fun token => [token] := by
  have solid (char : Char) (member : char ∈ word) : Text.isBlank char = false ∧ char ≠ ';' := by
    simpa [isInk] using bare.ink char member
  have whole : Token.withoutComment word = word := by
    apply List.takeWhile_eq_self_iff.2
    intro char member
    exact bne_iff_ne.2 (solid char member).2
  rw [Token.ofLine, whole, Text.words_of_forall present fun char member => (solid char member).1,
    List.mapM_cons]
  cases Token.ofWord word <;> rfl

theorem ofWord_of_startsNumeric (bare : IsBare word) (numeric : StartsNumeric word) :
    Token.ofWord word = match Numeral.read word with
      | some value => .ok (.number value)
      | none => .error (.invalidNumber (String.ofList word)) := by
  have looks := looksNumeric_eq_true_iff.2 numeric
  rw [Token.ofWord_eq_ofPlainWord numeric.ne_nil, Token.ofPlainWord]
  · exact (if_neg bare.last).trans (if_pos looks)
  · rintro char rest rfl
    refine ⟨?_, ?_, fun same => (bare.first rest).1 (by rw [same]),
      fun same => (bare.first rest).2 (by rw [same])⟩ <;>
    · rintro rfl
      contradiction

theorem ofWord_ne_number (bare : IsBare word) (other : ¬ StartsNumeric word) (value : Word) :
    Token.ofWord word ≠ .ok (.number value) := by
  unfold Token.ofWord
  split
  · exact fun read => by cases read
  · exact fun read => by cases read
  · exact absurd rfl (bare.first _).1
  · exact absurd rfl (bare.first _).2
  · rw [← looksNumeric_eq_true_iff] at other
    rw [Token.ofPlainWord, if_neg bare.last, if_neg other]
    intro read
    obtain ⟨name, _, ident_eq⟩ := map_eq_ok_iff.1 read
    cases ident_eq

/-- A bare word is a number exactly when it is read as one. -/
theorem ofLine_eq_number_iff (bare : IsBare word) {value : Word} :
    Token.ofLine word = .ok [.number value] ↔ Numeral.read word = some value := by
  by_cases numeric : StartsNumeric word
  · rw [ofLine_of_isBare bare numeric.ne_nil, ofWord_of_startsNumeric bare numeric]
    cases Numeral.read word <;> simp [Except.map]
  · constructor
    · intro lexed
      by_cases present : word = []
      · subst present
        cases lexed
      · rw [ofLine_of_isBare bare present] at lexed
        obtain ⟨token, read, tokens_eq⟩ := map_eq_ok_iff.1 lexed
        obtain rfl := (List.cons.inj tokens_eq).1
        exact absurd read (ofWord_ne_number bare numeric value)
    · intro read
      exact absurd (startsNumeric_of_read read) numeric

/-- A bare word that starts like a numeral and is none is refused. -/
theorem ofLine_eq_invalidNumber (bare : IsBare word) (numeric : StartsNumeric word)
    (unread : Numeral.read word = none) :
    Token.ofLine word = .error (.invalidNumber (String.ofList word)) := by
  rw [ofLine_of_isBare bare numeric.ne_nil, ofWord_of_startsNumeric bare numeric, unread]
  rfl

/-! ## What a number is -/

/-- A bare word is a number exactly when it is a numeral, or one that a plus sign stands in behind
the mark of base sixteen, and any other that starts like a numeral is refused.  So the reader
follows the grammar of numerals exactly on the words without such a plus sign. -/
theorem followsGrammar_iff (bare : IsBare word) :
    (∀ value, Token.ofLine word = .ok [.number value] ↔
      Numeral.Signed Numeral.Magnitude word value ∨
        Numeral.Signed Numeral.PlusMagnitude word value) ∧
    (StartsNumeric word → (∀ value, ¬ Numeral.Signed Numeral.Magnitude word value ∧
        ¬ Numeral.Signed Numeral.PlusMagnitude word value) →
      Token.ofLine word = .error (.invalidNumber (String.ofList word))) ∧
    (FollowsGrammar word ↔ ∀ value, ¬ Numeral.Signed Numeral.PlusMagnitude word value) := by
  have number (value : Word) : Token.ofLine word = .ok [.number value] ↔
      Numeral.Signed Numeral.Magnitude word value ∨
        Numeral.Signed Numeral.PlusMagnitude word value := by
    rw [ofLine_eq_number_iff bare, Numeral.read_eq_some_iff]
  have invalid (numeric : StartsNumeric word)
      (neither : ∀ value, ¬ Numeral.Signed Numeral.Magnitude word value ∧
        ¬ Numeral.Signed Numeral.PlusMagnitude word value) :
      Token.ofLine word = .error (.invalidNumber (String.ofList word)) := by
    apply ofLine_eq_invalidNumber bare numeric
    rw [Option.eq_none_iff_forall_ne_some]
    intro value read
    exact (Numeral.read_eq_some_iff.1 read).elim (neither value).1 (neither value).2
  refine ⟨number, invalid, ?_, ?_⟩
  · intro follows value plus
    have read := (number value).2 (Or.inr plus)
    exact Numeral.not_signed_of_plus plus ((follows.number value).1 read)
  · intro bare
    constructor
    · intro value
      rw [number, or_iff_left (bare value)]
    · intro numeric none
      exact invalid numeric fun value => ⟨fun signed => none ⟨value, signed⟩, bare value⟩

/-- A negated numeral for the bits of the least word but one. -/
def negated : List Char :=
  ['-', '0', 'X', '8', '0', '0', '0', '0', '0', '0', '1']

/-- It is the greatest word. -/
theorem followsGrammar_negated :
    IsBare negated ∧ FollowsGrammar negated ∧
      Token.ofLine negated = .ok [.number 0x7FFFFFFF] := by
  have bare : IsBare negated := by
    refine ⟨List.all_eq_true.1 (by decide), ?_, by decide⟩
    exact fun rest => ⟨by simp [negated], by simp [negated]⟩
  have follows : FollowsGrammar negated := by
    refine (followsGrammar_iff bare).2.2.2 ?_
    intro value plus
    cases plus with
    | plain magnitude => cases magnitude
    | minus magnitude => cases magnitude
  have digits : Numeral.Denotes 16 ['8', '0', '0', '0', '0', '0', '0', '1'] 0x80000001 :=
    (Numeral.ofDigits_eq_some_iff le_rfl).1 (by decide)
  refine ⟨bare, follows, ((followsGrammar_iff bare).1 _).2 (Or.inl (.minus ?_))⟩
  exact .bits (Or.inr rfl) ⟨_, digits, by decide, by decide⟩

/-- The reader does not follow the grammar everywhere: a plus sign may stand behind the mark of
base sixteen. -/
theorem not_forall_followsGrammar : ¬ ∀ word : List Char, IsBare word → FollowsGrammar word := by
  intro follow
  have bare : IsBare ['0', 'x', '+', '1'] :=
    ⟨List.all_eq_true.1 (by decide), fun rest => ⟨by simp, by simp⟩, by decide⟩
  have digit : Numeral.Denotes 16 ['1'] 1 := (Numeral.ofDigits_eq_some_iff le_rfl).1 (by decide)
  have plus : Numeral.Signed Numeral.PlusMagnitude ['0', 'x', '+', '1'] 1 :=
    .plain (.bits (Or.inl rfl) ⟨1, digit, by decide, by decide⟩)
  have read : Token.ofLine ['0', 'x', '+', '1'] = .ok [.number 1] := by decide
  exact Numeral.not_signed_of_plus plus (((follow _ bare).number 1).1 read)

end Assembly

end ActorScript
