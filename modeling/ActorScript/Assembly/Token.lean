import ActorScript.Assembly.Problem
import ActorScript.Numeral
import ActorScript.Text.Split

/-!
# Tokens of assembly text

A line is cut at its first semicolon, behind which a comment stands, and then
into words.  Every word is one token.
-/

namespace ActorScript.Assembly

/-- A token of a line. -/
inductive Token where
  /-- A bare word: a mnemonic, a brace, a name or a keyword. -/
  | ident (name : String)
  | number (value : Word)
  /-- The definition of a label, written `name:`. -/
  | labelDef (name : String)
  /-- The use of a label, written `@name`. -/
  | labelRef (name : String)
  /-- The start of a directive, written `.name`.  The name is in lower case. -/
  | directive (name : String)
deriving DecidableEq, Repr

/-- A character that may start a name. -/
def startsName (char : Char) : Bool :=
  char.isAlpha || char == '_'

/-- A character that may stand in a name. -/
def continuesName (char : Char) : Bool :=
  char.isAlphanum || char == '_'

/-- A text that can name a label, a variable or a directive. -/
def isIdentifier : List Char → Bool
  | [] => false
  | first :: rest => startsName first && rest.all continuesName

/-- The word for the entity of the frame itself, in any case. -/
def isSelf (name : String) : Bool :=
  name.toLower == "self"

namespace Token

/-- A token as it is written in complaints. -/
def text : Token → String
  | ident name => name
  | number value => Numeral.print value
  | labelDef name => name ++ ":"
  | labelRef name => "@" ++ name
  | directive name => "." ++ name

/-- A name, or the complaint about the word that it stands in. -/
def nameIn (word name : List Char) : Except Problem String :=
  if isIdentifier name then .ok (String.ofList name)
  else .error (.unexpectedToken (String.ofList word))

/-- The token that a word without a mark in front is. -/
def ofPlainWord (word : List Char) : Except Problem Token :=
  if word.getLast? = some ':' then
    (nameIn word word.dropLast).map labelDef
  else if Numeral.looksNumeric word then
    match Numeral.read word with
    | some value => .ok (number value)
    | none => .error (.invalidNumber (String.ofList word))
  else (nameIn word word).map ident

/-- The token that a word is. -/
def ofWord (word : List Char) : Except Problem Token :=
  match word with
  | ['\x7b'] | ['\x7d'] => .ok (ident (String.ofList word))
  | '@' :: name => (nameIn word name).map labelRef
  | '.' :: name => (nameIn word name).map fun name => directive name.toLower
  | word => ofPlainWord word

/-- A line without the comment at its end. -/
def withoutComment (line : List Char) : List Char :=
  line.takeWhile (· != ';')

/-- The tokens of a line. -/
def ofLine (line : List Char) : Except Problem (List Token) :=
  (Text.words (withoutComment line)).mapM ofWord

end Token

end ActorScript.Assembly
