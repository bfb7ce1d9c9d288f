import ActorScript.Numeral

/-!
# JSON tokens

Cuts JSON texts into tokens and finds the end of a value among them.  A text
keeps the escaped surrogates that have no partner, because a value that nobody
looks at may contain them; `decode` refuses them.
-/

namespace ActorScript.Json

/-- A token of a JSON text. -/
inductive Token where
  | openObject
  | closeObject
  | openArray
  | closeArray
  | colon
  | comma
  /-- One of the words for true, false and null. -/
  | keyword
  /-- A number, with its value if it is an integer other than minus zero. -/
  | number (integer : Option Int)
  /-- A text, as code points, with escaped surrogates apart. -/
  | text (codes : List Nat)
deriving DecidableEq, Repr

/-! ## Texts -/

/-- The characters that a backslash and one more character stand for. -/
def shortEscape? : Char → Option Char
  | '"' => some '"'
  | '\\' => some '\\'
  | '/' => some '/'
  | 'b' => some '\x08'
  | 'f' => some '\x0c'
  | 'n' => some '\n'
  | 'r' => some '\r'
  | 't' => some '\t'
  | _ => none

/-- Reads a text from behind its opening quote to behind its closing one.  The
codes read so far come last first. -/
def scanText (codes : List Nat) : List Char → Option (List Nat × List Char)
  | '"' :: rest => some (codes.reverse, rest)
  | '\\' :: 'u' :: first :: second :: third :: fourth :: rest =>
      match Numeral.ofDigits 16 [first, second, third, fourth] with
      | none => none
      | some code => scanText (code :: codes) rest
  | '\\' :: char :: rest =>
      match shortEscape? char with
      | none => none
      | some plain => scanText (plain.toNat :: codes) rest
  | char :: rest =>
      if char = '\\' ∨ char.toNat < 0x20 then none else scanText (char.toNat :: codes) rest
  | [] => none

/-- A code is the first half of a pair of surrogates. -/
def isHighSurrogate (code : Nat) : Bool :=
  0xD800 ≤ code && code < 0xDC00

/-- A code is the second half of a pair of surrogates. -/
def isLowSurrogate (code : Nat) : Bool :=
  0xDC00 ≤ code && code < 0xE000

/-- The code point that two surrogates stand for. -/
def pairedCode (high low : Nat) : Nat :=
  0x10000 + 0x400 * (high - 0xD800) + (low - 0xDC00)

/-- The characters of a text whose surrogates come in pairs, after those found
so far, which come last first. -/
def decodeBehind (chars : List Char) : List Nat → Option (List Char)
  | [] => some chars.reverse
  | high :: low :: rest =>
      if isHighSurrogate high then
        if isLowSurrogate low then decodeBehind (Char.ofNat (pairedCode high low) :: chars) rest
        else none
      else if isLowSurrogate high then none
      else decodeBehind (Char.ofNat high :: chars) (low :: rest)
  | [code] =>
      if isHighSurrogate code || isLowSurrogate code then none
      else some (Char.ofNat code :: chars).reverse

/-- The text with the given codes, if its surrogates come in pairs. -/
def decode (codes : List Nat) : Option String :=
  (decodeBehind [] codes).map String.ofList

/-! ## Numbers -/

/-- The rest behind at least one digit. -/
def skipDigits : List Char → Option (List Char)
  | char :: rest => if char.isDigit then some (rest.dropWhile Char.isDigit) else none
  | [] => none

/-- Reads the digits in front of the point.  A zero stands alone. -/
def scanNatural : List Char → Option (List Char × List Char)
  | '0' :: rest => some (['0'], rest)
  | char :: rest =>
      if char.isDigit then some (char :: rest.takeWhile Char.isDigit, rest.dropWhile Char.isDigit)
      else none
  | [] => none

/-- The rest behind an exponent, of which the letter is missing. -/
def skipExponent : List Char → Option (List Char)
  | '+' :: rest => skipDigits rest
  | '-' :: rest => skipDigits rest
  | rest => skipDigits rest

/-- The rest behind the fraction and the exponent of a number, and whether the
number goes without both. -/
def skipFraction : List Char → Option (Bool × List Char)
  | '.' :: rest =>
      match skipDigits rest with
      | some ('e' :: rest) | some ('E' :: rest) => (skipExponent rest).map (false, ·)
      | some rest => some (false, rest)
      | none => none
  | 'e' :: rest => (skipExponent rest).map (false, ·)
  | 'E' :: rest => (skipExponent rest).map (false, ·)
  | rest => some (true, rest)

/-- The integer with the given sign and digits.  Minus zero is none. -/
def integerOf (negative : Bool) (digits : List Char) : Option Int :=
  match Numeral.ofDigits 10 digits with
  | none => none
  | some value =>
      if negative then if value = 0 then none else some (-value) else some value

/-- Reads a number behind its sign. -/
def scanMagnitude (negative : Bool) (chars : List Char) : Option (Token × List Char) :=
  match scanNatural chars with
  | none => none
  | some (digits, rest) =>
      (skipFraction rest).map fun (whole, rest) =>
        (.number (if whole then integerOf negative digits else none), rest)

/-! ## All tokens -/

/-- The characters that may stand between tokens. -/
def isSpace (char : Char) : Bool :=
  char == ' ' || char == '\n' || char == '\t' || char == '\r'

/-- Reads the token that starts with the given character. -/
def scanToken (char : Char) (rest : List Char) : Option (Token × List Char) :=
  match char, rest with
  | '\x7b', rest => some (.openObject, rest)
  | '\x7d', rest => some (.closeObject, rest)
  | '[', rest => some (.openArray, rest)
  | ']', rest => some (.closeArray, rest)
  | ':', rest => some (.colon, rest)
  | ',', rest => some (.comma, rest)
  | 'n', 'u' :: 'l' :: 'l' :: rest => some (.keyword, rest)
  | 't', 'r' :: 'u' :: 'e' :: rest => some (.keyword, rest)
  | 'f', 'a' :: 'l' :: 's' :: 'e' :: rest => some (.keyword, rest)
  | '"', rest => (scanText [] rest).map fun (codes, rest) => (.text codes, rest)
  | '-', rest => scanMagnitude true rest
  | char, rest => scanMagnitude false (char :: rest)

/-! ## What is left behind a token -/

theorem scanText_length {codes : List Nat} {chars : List Char} {found : List Nat}
    {rest : List Char} (scanned : scanText codes chars = some (found, rest)) :
    rest.length < chars.length := by
  fun_induction scanText codes chars <;> simp_all <;> omega

theorem skipDigits_length {chars rest : List Char} (skipped : skipDigits chars = some rest) :
    rest.length < chars.length := by
  cases chars with
  | nil => simp [skipDigits] at skipped
  | cons char tail =>
      have shorter := (List.dropWhile_sublist Char.isDigit (l := tail)).length_le
      rw [skipDigits] at skipped
      split at skipped
      · cases skipped
        exact Nat.lt_succ_of_le shorter
      · contradiction

theorem scanNatural_length {chars digits rest : List Char}
    (scanned : scanNatural chars = some (digits, rest)) : rest.length < chars.length := by
  unfold scanNatural at scanned
  split at scanned
  · simp_all
  · rename_i tail _
    have shorter := (List.dropWhile_sublist Char.isDigit (l := tail)).length_le
    split at scanned
    · cases scanned
      exact Nat.lt_succ_of_le shorter
    · contradiction
  · contradiction

theorem skipExponent_length {chars rest : List Char} (skipped : skipExponent chars = some rest) :
    rest.length < chars.length := by
  unfold skipExponent at skipped
  split at skipped
  · have := skipDigits_length skipped
    simp
    omega
  · have := skipDigits_length skipped
    simp
    omega
  · exact skipDigits_length skipped

theorem skipFraction_length {chars rest : List Char} {whole : Bool}
    (skipped : skipFraction chars = some (whole, rest)) : rest.length ≤ chars.length := by
  have exponent {behind : List Char} (taken : (skipExponent behind).map (false, ·) =
      some (whole, rest)) : rest.length < behind.length := by
    obtain ⟨_, found, equal⟩ := Option.map_eq_some_iff.1 taken
    cases equal
    exact skipExponent_length found
  unfold skipFraction at skipped
  split at skipped
  · split at skipped
    case h_1 digits =>
      have shorter := skipDigits_length digits
      have := exponent skipped
      simp only [List.length_cons] at shorter ⊢
      omega
    case h_2 digits =>
      have shorter := skipDigits_length digits
      have := exponent skipped
      simp only [List.length_cons] at shorter ⊢
      omega
    case h_3 digits =>
      have := skipDigits_length digits
      simp_all
      omega
    case h_4 => simp at skipped
  · have := exponent skipped
    simp
    omega
  · have := exponent skipped
    simp
    omega
  · simp_all

theorem scanMagnitude_length {negative : Bool} {chars rest : List Char} {token : Token}
    (scanned : scanMagnitude negative chars = some (token, rest)) :
    rest.length < chars.length := by
  unfold scanMagnitude at scanned
  split at scanned
  · simp at scanned
  · rename_i natural
    obtain ⟨⟨_, _⟩, fraction, equal⟩ := Option.map_eq_some_iff.1 scanned
    have := scanNatural_length natural
    have := skipFraction_length fraction
    simp_all
    omega

/-- A token takes at least its first character. -/
theorem scanToken_length {char : Char} {chars rest : List Char} {token : Token}
    (scanned : scanToken char chars = some (token, rest)) : rest.length ≤ chars.length := by
  unfold scanToken at scanned
  split at scanned
  case h_10 =>
    obtain ⟨⟨_, _⟩, text, equal⟩ := Option.map_eq_some_iff.1 scanned
    have := scanText_length text
    simp_all
    omega
  case h_11 => exact Nat.le_of_lt (scanMagnitude_length scanned)
  case h_12 => exact Nat.le_of_lt_succ (scanMagnitude_length scanned)
  all_goals simp_all
  all_goals omega

/-- Reads tokens to the end, after those read so far. -/
def scan (tokens : Array Token) : List Char → Option (Array Token)
  | [] => some tokens
  | char :: rest =>
      if isSpace char then scan tokens rest
      else
        match _ : scanToken char rest with
        | none => none
        | some (token, after) => scan (tokens.push token) after
termination_by chars => chars.length
decreasing_by
  · simp
  · have := scanToken_length (by assumption)
    simp
    omega

/-- The tokens of a text. -/
def tokensOf (text : String) : Option (List Token) :=
  (scan #[] text.toList).map Array.toList

/-! ## Values -/

/-- What encloses a value. -/
inductive Enclosure where
  | array
  | object
deriving DecidableEq, Repr

/-- What has to come next inside a value. -/
inductive Awaited where
  | value
  /-- The first item of an array, or its end. -/
  | itemOrEnd
  /-- The name of the first member of an object, or its end. -/
  | nameOrEnd
  | name
  | colon
  /-- A comma, or the end of what encloses the value. -/
  | commaOrEnd
deriving DecidableEq, Repr

/-- What comes next after the start of a value, and what encloses it then. -/
def startValue (enclosing : List Enclosure) : Token → Option (Awaited × List Enclosure)
  | .openArray => some (.itemOrEnd, .array :: enclosing)
  | .openObject => some (.nameOrEnd, .object :: enclosing)
  | .keyword | .number _ | .text _ => some (.commaOrEnd, enclosing)
  | .closeArray | .closeObject | .colon | .comma => none

/-- What comes next after a token, and what encloses it then. -/
def advance (enclosing : List Enclosure) : Awaited → Token → Option (Awaited × List Enclosure)
  | .value, token => startValue enclosing token
  | .itemOrEnd, .closeArray => some (.commaOrEnd, enclosing.tail)
  | .itemOrEnd, token => startValue enclosing token
  | .nameOrEnd, .closeObject => some (.commaOrEnd, enclosing.tail)
  | .nameOrEnd, .text _ => some (.colon, enclosing)
  | .name, .text _ => some (.colon, enclosing)
  | .colon, .colon => some (.value, enclosing)
  | .commaOrEnd, .comma =>
      match enclosing with
      | .array :: _ => some (.value, enclosing)
      | .object :: _ => some (.name, enclosing)
      | [] => none
  | .commaOrEnd, .closeArray =>
      match enclosing with
      | .array :: outer => some (.commaOrEnd, outer)
      | _ => none
  | .commaOrEnd, .closeObject =>
      match enclosing with
      | .object :: outer => some (.commaOrEnd, outer)
      | _ => none
  | _, _ => none

/-- The tokens behind the value that is being read. -/
def behindFrom (awaited : Awaited) (enclosing : List Enclosure) :
    List Token → Option (List Token)
  | [] => none
  | token :: rest =>
      match advance enclosing awaited token with
      | none => none
      | some (.commaOrEnd, []) => some rest
      | some (next, outer) => behindFrom next outer rest

/-- The tokens behind a value of any kind at the start. -/
def behindValue (tokens : List Token) : Option (List Token) :=
  behindFrom .value [] tokens

theorem behindFrom_length {awaited : Awaited} {enclosing : List Enclosure}
    {tokens rest : List Token} (skipped : behindFrom awaited enclosing tokens = some rest) :
    rest.length < tokens.length := by
  fun_induction behindFrom awaited enclosing tokens <;> simp_all
  omega

end ActorScript.Json
