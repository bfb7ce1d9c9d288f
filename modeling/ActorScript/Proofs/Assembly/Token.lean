import ActorScript.Assembly.Token
import ActorScript.Proofs.Except
import ActorScript.Proofs.Numeral
import ActorScript.Proofs.Text
import Mathlib.Data.List.TakeWhile

/-!
# Texts and their tokens

Names and numerals are single words, and each word of a listing is read as the token that
it was written for.  `Lexes` puts the words of a line together.
-/

namespace ActorScript.Assembly

/-! ## Characters -/

/-- A character that can stand inside a word, and does not start a comment. -/
def isInk (char : Char) : Bool :=
  !Text.isBlank char && char != ';'

/-- A text that is one word. -/
structure IsSolid (text : List Char) : Prop where
  present : text ≠ []
  ink : ∀ char ∈ text, isInk char = true

theorem isSolid_singleton {char : Char} (ink : isInk char = true) : IsSolid [char] where
  present := List.cons_ne_nil _ _
  ink other member := by
    rw [List.mem_singleton.1 member]
    exact ink

theorem IsSolid.append {front back : List Char} (first : IsSolid front) (second : IsSolid back) :
    IsSolid (front ++ back) where
  present := List.append_ne_nil_of_left_ne_nil first.present _
  ink char member := by
    rcases List.mem_append.1 member with here | behind
    · exact first.ink char here
    · exact second.ink char behind

/-- The code points of ASCII letters. -/
theorem isAlpha_iff_toNat {char : Char} :
    char.isAlpha = true ↔ (65 ≤ char.toNat ∧ char.toNat ≤ 90) ∨
      (97 ≤ char.toNat ∧ char.toNat ≤ 122) := by
  have ranges : char.isAlpha = (decide (65 ≤ char.val ∧ char.val ≤ 90) ||
      decide (97 ≤ char.val) && decide (char.val ≤ 122)) := rfl
  rw [ranges]
  simp only [Bool.or_eq_true, Bool.and_eq_true, decide_eq_true_eq, UInt32.le_iff_toNat_le,
    Char.toNat_val]
  rfl

theorem isInk_of_isAlphanum {char : Char} (letter : char.isAlphanum = true) :
    isInk char = true := by
  have inside : char ≠ ';' := by
    rintro rfl
    contradiction
  have code : (48 ≤ char.toNat ∧ char.toNat ≤ 57) ∨ (65 ≤ char.toNat ∧ char.toNat ≤ 90) ∨
      (97 ≤ char.toNat ∧ char.toNat ≤ 122) := by
    rcases Bool.or_eq_true _ _ ▸ letter with alpha | digit
    · exact Or.inr (isAlpha_iff_toNat.1 alpha)
    · exact Or.inl (Char.isDigit_iff_toNat.1 digit)
  simp only [isInk, Text.isBlank, Bool.and_eq_true, Bool.not_eq_true', bne_iff_ne, ne_eq, inside,
    not_false_eq_true, and_true, Bool.or_eq_false_iff, Bool.and_eq_false_imp, decide_eq_true_eq,
    decide_eq_false_iff_not, beq_eq_false_iff_ne]
  omega

theorem isInk_of_continuesName {char : Char} (continues : continuesName char = true) :
    isInk char = true := by
  rcases Bool.or_eq_true _ _ ▸ continues with letter | underscore
  · exact isInk_of_isAlphanum letter
  · rw [beq_iff_eq.1 underscore]
    decide

theorem continuesName_of_startsName {char : Char} (starts : startsName char = true) :
    continuesName char = true := by
  simp only [startsName, continuesName, Char.isAlphanum, Bool.or_eq_true] at starts ⊢
  exact starts.imp_left Or.inl

theorem isInk_of_isDigit {char : Char} (digit : char.isDigit = true) : isInk char = true := by
  apply isInk_of_isAlphanum
  simp [Char.isAlphanum, digit]

/-! ## Names -/

theorem isIdentifier_iff {name : List Char} :
    isIdentifier name = true ↔
      ∃ first rest, name = first :: rest ∧ startsName first = true ∧
        ∀ char ∈ rest, continuesName char = true := by
  cases name with
  | nil => simp [isIdentifier]
  | cons first rest =>
      simp only [isIdentifier, Bool.and_eq_true, List.all_eq_true]
      constructor
      · rintro ⟨starts, continues⟩
        exact ⟨first, rest, rfl, starts, continues⟩
      · rintro ⟨_, _, ⟨⟩, starts, continues⟩
        exact ⟨starts, continues⟩

theorem continuesName_of_mem {name : List Char} (identifier : isIdentifier name = true)
    {char : Char} (member : char ∈ name) : continuesName char = true := by
  obtain ⟨first, rest, rfl, starts, continues⟩ := isIdentifier_iff.1 identifier
  rcases List.mem_cons.1 member with rfl | later
  · exact continuesName_of_startsName starts
  · exact continues char later

theorem isSolid_of_isIdentifier {name : List Char} (identifier : isIdentifier name = true) :
    IsSolid name where
  present := by
    rintro rfl
    contradiction
  ink _ member := isInk_of_continuesName (continuesName_of_mem identifier member)

/-- An offset makes a name behind a letter. -/
theorem isIdentifier_offset (offset : Nat) :
    isIdentifier ('L' :: (toString offset).toList) = true := by
  apply isIdentifier_iff.2
  refine ⟨'L', _, rfl, by decide, ?_⟩
  intro char member
  have digit := Numeral.isDigit_of_mem ((Nat.toList_repr (n := offset)) ▸ member)
  simp [continuesName, Char.isAlphanum, digit]

namespace Token

theorem nameIn_of_isIdentifier {word name : List Char} (identifier : isIdentifier name = true) :
    nameIn word name = .ok (String.ofList name) :=
  if_pos identifier

/-! ## Words -/

theorem looksNumeric_of_startsName {first : Char} (starts : startsName first = true)
    (rest : List Char) : Numeral.looksNumeric (first :: rest) = false := by
  have letter : first.isDigit = false := by
    apply Bool.eq_false_iff.2
    intro digit
    have range := Char.isDigit_iff_toNat.1 digit
    simp only [startsName, Bool.or_eq_true, isAlpha_iff_toNat, beq_iff_eq] at starts
    simp at range
    rcases starts with (upper | lower) | rfl
    · omega
    · omega
    · contradiction
  unfold Numeral.looksNumeric
  split
  · rename_i same
    cases same
    contradiction
  · rename_i same
    cases same
    exact letter
  · rfl

/-- A word that is neither a brace nor marked in front. -/
theorem ofWord_eq_ofPlainWord {word : List Char} (present : word ≠ [])
    (first : ∀ char rest, word = char :: rest →
      char ≠ '\x7b' ∧ char ≠ '\x7d' ∧ char ≠ '@' ∧ char ≠ '.') :
    ofWord word = ofPlainWord word := by
  unfold ofWord
  split
  · exact absurd rfl (first _ _ rfl).1
  · exact absurd rfl (first _ _ rfl).2.1
  · exact absurd rfl (first _ _ rfl).2.2.1
  · exact absurd rfl (first _ _ rfl).2.2.2
  · rfl

theorem plain_of_startsName {name : List Char} (identifier : isIdentifier name = true)
    (behind : List Char) : ∀ char rest, name ++ behind = char :: rest →
      char ≠ '\x7b' ∧ char ≠ '\x7d' ∧ char ≠ '@' ∧ char ≠ '.' := by
  obtain ⟨first, later, rfl, starts, _⟩ := isIdentifier_iff.1 identifier
  rintro char rest ⟨⟩
  refine ⟨?_, ?_, ?_, ?_⟩ <;>
    · rintro rfl
      contradiction

/-- A name is an identifier as it stands. -/
theorem ofWord_identifier {name : List Char} (identifier : isIdentifier name = true) :
    ofWord name = .ok (ident (String.ofList name)) := by
  have plain := plain_of_startsName identifier []
  rw [List.append_nil] at plain
  rw [ofWord_eq_ofPlainWord (isSolid_of_isIdentifier identifier).present plain]
  have last : ¬ name.getLast? = some ':' := by
    intro colon
    have continues := continuesName_of_mem identifier (List.mem_of_getLast? colon)
    contradiction
  obtain ⟨first, rest, rfl, starts, _⟩ := isIdentifier_iff.1 identifier
  rw [ofPlainWord, if_neg last, looksNumeric_of_startsName starts,
    nameIn_of_isIdentifier identifier]
  rfl

/-- A name defines a label with a colon behind it. -/
theorem ofWord_labelDef {name : List Char} (identifier : isIdentifier name = true) :
    ofWord (name ++ [':']) = .ok (labelDef (String.ofList name)) := by
  rw [ofWord_eq_ofPlainWord (by simp) (plain_of_startsName identifier [':'])]
  rw [ofPlainWord, if_pos (by simp), List.dropLast_concat, nameIn_of_isIdentifier identifier]
  rfl

/-- A name refers to a label with an at sign in front. -/
theorem ofWord_labelRef {name : List Char} (identifier : isIdentifier name = true) :
    ofWord ('@' :: name) = .ok (labelRef (String.ofList name)) := by
  have named : ofWord ('@' :: name) = (nameIn ('@' :: name) name).map labelRef := rfl
  rw [named, nameIn_of_isIdentifier identifier]
  rfl

/-- A numeral is the number that it is read as. -/
theorem ofWord_number {word : List Char} {value : Word}
    (numeric : Numeral.looksNumeric word = true) (read : Numeral.read word = some value)
    (digits : ∀ char ∈ word, char = '-' ∨ char.isDigit = true) :
    ofWord word = .ok (number value) := by
  have present : word ≠ [] := by
    rintro rfl
    contradiction
  have plain : ∀ char ∈ word,
      char ≠ '\x7b' ∧ char ≠ '\x7d' ∧ char ≠ '@' ∧ char ≠ '.' ∧ char ≠ ':' := by
    intro char member
    rcases digits char member with rfl | digit
    · decide
    · refine ⟨?_, ?_, ?_, ?_, ?_⟩ <;>
        · rintro rfl
          contradiction
  have last : ¬ word.getLast? = some ':' := by
    intro colon
    exact (plain ':' (List.mem_of_getLast? colon)).2.2.2.2 rfl
  rw [ofWord_eq_ofPlainWord present, ofPlainWord, if_neg last, if_pos numeric, read]
  rintro char rest rfl
  obtain ⟨left, right, at_sign, point, _⟩ := plain char List.mem_cons_self
  exact ⟨left, right, at_sign, point⟩

theorem ofWord_print (word : Word) :
    ofWord (Numeral.print word).toList = .ok (number word) :=
  ofWord_number (Numeral.looksNumeric_print word) (Numeral.read_print word)
    fun _ => Numeral.mem_print

theorem isSolid_print (word : Word) : IsSolid (Numeral.print word).toList where
  present := by
    intro empty
    have numeric := Numeral.looksNumeric_print word
    rw [empty] at numeric
    contradiction
  ink char member := by
    rcases Numeral.mem_print member with rfl | digit
    · decide
    · exact isInk_of_isDigit digit

/-! ## Lines of words -/

/-- A text is the single word of a token. -/
structure Spells (text : String) (token : Token) : Prop where
  solid : IsSolid text.toList
  read : ofWord text.toList = .ok token

theorem spells_print (word : Word) : Spells (Numeral.print word) (number word) :=
  ⟨isSolid_print word, ofWord_print word⟩

theorem spells_identifier {name : String} (identifier : isIdentifier name.toList = true) :
    Spells name (ident name) := by
  refine ⟨isSolid_of_isIdentifier identifier, ?_⟩
  rw [ofWord_identifier identifier, String.ofList_toList]

/-- A directive in front of its arguments. -/
theorem spells_directive {name : String} (identifier : isIdentifier name.toList = true)
    (lower : name.toLower = name) : Spells ("." ++ name) (.directive name) := by
  have text_eq : ("." ++ name).toList = '.' :: name.toList := by simp
  have point : IsSolid ['.'] := isSolid_singleton (by decide)
  constructor
  · rw [text_eq]
    exact point.append (isSolid_of_isIdentifier identifier)
  · have read : ofWord ('.' :: name.toList) =
        (nameIn ('.' :: name.toList) name.toList).map fun name => directive name.toLower := rfl
    rw [text_eq, read, nameIn_of_isIdentifier identifier, String.ofList_toList]
    exact congrArg (fun name => Except.ok (Token.directive name)) lower

/-- A line without comment and line break consists of the words of its tokens. -/
structure Lexes (line : List Char) (tokens : List Token) : Prop where
  plain : ∀ char ∈ line, char ≠ ';' ∧ char ≠ '\n'
  words : (Text.words line).mapM ofWord = .ok tokens

theorem Lexes.ofLine {line : List Char} {tokens : List Token} (lexes : Lexes line tokens) :
    Token.ofLine line = .ok tokens := by
  have whole : withoutComment line = line := by
    apply List.takeWhile_eq_self_iff.2
    intro char member
    exact bne_iff_ne.2 (lexes.plain char member).1
  rw [Token.ofLine, whole]
  exact lexes.words

theorem lexes_nil : Lexes [] [] where
  plain := List.forall_mem_nil _
  words := rfl

theorem Spells.lexes {text : String} {token : Token} (spells : Spells text token) :
    Lexes text.toList [token] where
  plain char member := by
    have ink := spells.solid.ink char member
    constructor
    · rintro rfl
      contradiction
    · rintro rfl
      contradiction
  words := by
    have blankless : ∀ char ∈ text.toList, Text.isBlank char = false := by
      intro char member
      have ink := spells.solid.ink char member
      simp only [isInk, Bool.and_eq_true, Bool.not_eq_true'] at ink
      exact ink.1
    rw [Text.words_of_forall spells.solid.present blankless, List.mapM_cons, spells.read]
    rfl

theorem Lexes.append {front back : List Char} {first second : List Token}
    (one : Lexes front first) (other : Lexes back second) :
    Lexes (front ++ ' ' :: back) (first ++ second) where
  plain char member := by
    rcases List.mem_append.1 member with here | behind
    · exact one.plain char here
    · rcases List.mem_cons.1 behind with rfl | there
      · decide
      · exact other.plain char there
  words := by
    rw [Text.words_append_cons (by decide), List.mapM_append, one.words, other.words]
    rfl

/-- Words with single spaces between them. -/
theorem lexes_intercalate {texts : List String} {tokens : List Token}
    (spells : List.Forall₂ Spells texts tokens) : Lexes (" ".intercalate texts).toList tokens := by
  induction spells with
  | nil => exact lexes_nil
  | @cons text token texts tokens here later ih =>
      cases later with
      | nil =>
          rw [String.intercalate_singleton]
          exact here.lexes
      | cons next behind =>
          rw [String.intercalate_cons_cons, String.append_assoc, String.toList_append,
            String.toList_append]
          exact here.lexes.append ih

end Token

end ActorScript.Assembly
