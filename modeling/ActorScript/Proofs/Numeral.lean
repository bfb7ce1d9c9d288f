import ActorScript.Numeral

/-!
# Reading back numerals

The decimal numeral that is printed for a word is read as that word.
-/

namespace ActorScript.Numeral

/-! ## Digits -/

theorem digitValue_of_isDigit {char : Char} (digit : char.isDigit = true) :
    digitValue char = some (char.toNat - '0'.toNat) ∧ char.toNat - '0'.toNat < 10 := by
  have range := Char.isDigit_iff_toNat.1 digit
  have low : '0' ≤ char := range.1
  have high : char ≤ '9' := range.2
  constructor
  · rw [digitValue, if_pos ⟨low, high⟩]
  · have bound : char.toNat ≤ 57 := range.2
    change char.toNat - 48 < 10
    omega

theorem appendDigits_of_isDigit {digits : List Char}
    (decimal : ∀ char ∈ digits, char.isDigit = true) (value : Nat) :
    appendDigits 10 value digits = some (Nat.ofDigitChars 10 digits value) := by
  induction digits generalizing value with
  | nil => simp [appendDigits]
  | cons char rest ih =>
      obtain ⟨digit, later⟩ := List.forall_mem_cons.1 decimal
      obtain ⟨value_eq, small⟩ := digitValue_of_isDigit digit
      simp only [appendDigits, value_eq, small, if_true]
      rw [ih later, Nat.ofDigitChars_cons, Nat.mul_comm]

theorem isDigit_of_mem {value : Nat} {char : Char} (member : char ∈ Nat.toDigits 10 value) :
    char.isDigit = true :=
  Nat.isDigit_of_mem_toDigits (by decide) (by decide) member

theorem exists_toDigits_eq_cons (value : Nat) :
    ∃ first rest, Nat.toDigits 10 value = first :: rest ∧ first.isDigit = true := by
  cases digits_eq : Nat.toDigits 10 value with
  | nil => exact absurd digits_eq Nat.toDigits_ne_nil
  | cons first rest =>
      refine ⟨first, rest, rfl, ?_⟩
      apply isDigit_of_mem
      rw [digits_eq]
      exact List.mem_cons_self

theorem ofDigits_toDigits (value : Nat) : ofDigits 10 (Nat.toDigits 10 value) = some value := by
  unfold ofDigits
  rw [if_neg (by simp), appendDigits_of_isDigit fun _ => isDigit_of_mem,
    Nat.ofDigitChars_ten_toDigits]

/-- No decimal numeral is taken for one in base sixteen. -/
theorem magnitude_toDigits (value : Nat) :
    magnitude (Nat.toDigits 10 value) = some (Int.ofNat value) := by
  have decimal : ∀ char ∈ Nat.toDigits 10 value, char.isDigit = true := fun _ => isDigit_of_mem
  have read := ofDigits_toDigits value
  generalize Nat.toDigits 10 value = digits at decimal read
  unfold magnitude
  split
  · have letter := decimal 'x' (by simp)
    contradiction
  · have letter := decimal 'X' (by simp)
    contradiction
  · rw [read]
    rfl

/-! ## Words -/

theorem wordOfInt_toInt (word : Word) : wordOfInt word.toInt = some word := by
  have low : -0x80000000 ≤ word.toInt := word.le_toInt
  have high : word.toInt < 0x80000000 := word.toInt_lt
  rw [wordOfInt, if_pos ⟨low, Int.le_of_lt_add_one high⟩, Int32.ofInt_toInt]

/-- A numeral that starts with a digit has no sign. -/
theorem read_of_isDigit {first : Char} {rest : List Char} (digit : first.isDigit = true) :
    read (first :: rest) = (magnitude (first :: rest)).bind wordOfInt := by
  unfold read
  split
  · rename_i same
    cases same
    contradiction
  · rfl

theorem read_minus (digits : List Char) :
    read ('-' :: digits) = (magnitude digits).bind fun value => wordOfInt (-value) :=
  rfl

theorem toList_print_of_nonneg {word : Word} {value : Nat} (value_eq : word.toInt = value) :
    (print word).toList = Nat.toDigits 10 value := by
  rw [print, value_eq]
  exact Nat.toList_repr

theorem toList_print_of_neg {word : Word} {value : Nat} (value_eq : word.toInt = .negSucc value) :
    (print word).toList = '-' :: Nat.toDigits 10 (value + 1) := by
  have text_eq : print word = "-" ++ Nat.repr (value + 1) := by
    rw [print, value_eq]
    rfl
  rw [text_eq, String.toList_append, Nat.toList_repr]
  rfl

theorem read_print_of_nonneg {word : Word} {value : Nat} (value_eq : word.toInt = value) :
    read (print word).toList = some word := by
  rw [toList_print_of_nonneg value_eq]
  obtain ⟨first, rest, digits_eq, digit⟩ := exists_toDigits_eq_cons value
  rw [digits_eq, read_of_isDigit digit, ← digits_eq, magnitude_toDigits, Option.bind_some]
  change wordOfInt value = some word
  rw [← value_eq]
  exact wordOfInt_toInt word

theorem read_print_of_neg {word : Word} {value : Nat} (value_eq : word.toInt = .negSucc value) :
    read (print word).toList = some word := by
  rw [toList_print_of_neg value_eq]
  rw [read_minus, magnitude_toDigits, Option.bind_some]
  change wordOfInt (.negSucc value) = some word
  rw [← value_eq]
  exact wordOfInt_toInt word

/-- The numeral of a word is read as the word. -/
theorem read_print (word : Word) : read (print word).toList = some word := by
  cases value_eq : word.toInt with
  | ofNat value => exact read_print_of_nonneg value_eq
  | negSucc value => exact read_print_of_neg value_eq

/-- The numeral of an offset is that of the word that names the offset. -/
theorem print_ofOffset {offset : Nat} (small : offset ≤ Word.maximum) :
    print (Word.ofOffset offset) = toString offset := by
  have value_eq := Word.offset?_eq_some_iff.1 (Word.offset?_ofOffset small)
  rw [print, value_eq]
  rfl

/-- Numerals in base ten consist of digits, behind a minus sign at most. -/
theorem mem_print {word : Word} {char : Char} (member : char ∈ (print word).toList) :
    char = '-' ∨ char.isDigit = true := by
  cases value_eq : word.toInt with
  | ofNat value =>
      rw [toList_print_of_nonneg value_eq] at member
      exact Or.inr (isDigit_of_mem member)
  | negSucc value =>
      rw [toList_print_of_neg value_eq] at member
      rcases List.mem_cons.1 member with rfl | digit
      · exact Or.inl rfl
      · exact Or.inr (isDigit_of_mem digit)

theorem looksNumeric_print (word : Word) : looksNumeric (print word).toList = true := by
  cases value_eq : word.toInt with
  | ofNat value =>
      obtain ⟨first, rest, digits_eq, digit⟩ := exists_toDigits_eq_cons value
      rw [toList_print_of_nonneg value_eq, digits_eq]
      unfold looksNumeric
      split
      · rename_i same
        cases same
        contradiction
      · rename_i same
        cases same
        exact digit
      · contradiction
  | negSucc value =>
      obtain ⟨first, rest, digits_eq, digit⟩ := exists_toDigits_eq_cons (value + 1)
      rw [toList_print_of_neg value_eq, digits_eq]
      exact digit

end ActorScript.Numeral
