/-!
# JSON values

The values that reports are made of, and their compact text: no blanks, and
members in the order of their names.
-/

namespace ActorScript

/-- A value of a report. -/
inductive Json where
  | null
  | integer (value : Int)
  | text (content : String)
  | array (items : List Json)
  | object (members : List (String × Json))

namespace Json

/-- The object with the given members, in the order of their names. -/
def ofMembers (members : List (String × Json)) : Json :=
  object (members.mergeSort fun left right => left.1 ≤ right.1)

/-- The object that gives words to names. -/
def ofWords (words : List (String × Int32)) : Json :=
  ofMembers (words.map fun (name, word) => (name, integer word.toInt))

/-- A digit in base sixteen. -/
def hexDigit (value : Nat) : Char :=
  Nat.digitChar value

/-- A character inside quotes.  Quotes, backslashes and control characters are
escaped; all others stand for themselves. -/
def escaped (char : Char) : List Char :=
  match char with
  | '"' => ['\\', '"']
  | '\\' => ['\\', '\\']
  | '\n' => ['\\', 'n']
  | '\r' => ['\\', 'r']
  | '\t' => ['\\', 't']
  | '\x08' => ['\\', 'b']
  | '\x0c' => ['\\', 'f']
  | char =>
      if char.toNat < 0x20 then
        ['\\', 'u', '0', '0', hexDigit (char.toNat / 16), hexDigit (char.toNat % 16)]
      else [char]

/-- A text in quotes. -/
def quote (content : String) : String :=
  "\"" ++ String.ofList (content.toList.flatMap escaped) ++ "\""

/-- Texts with commas between them. -/
def commas (texts : List String) : String :=
  ",".intercalate texts

mutual

/-- The compact text of a value. -/
def render : Json → String
  | .null => "null"
  | .integer value => toString value
  | .text content => quote content
  | .array items => "[" ++ commas (renderItems items) ++ "]"
  | .object members => "\x7b" ++ commas (renderMembers members) ++ "\x7d"

/-- The texts of the items of an array. -/
def renderItems : List Json → List String
  | [] => []
  | item :: rest => render item :: renderItems rest

/-- The texts of the members of an object. -/
def renderMembers : List (String × Json) → List String
  | [] => []
  | (name, value) :: rest => (quote name ++ ":" ++ render value) :: renderMembers rest

end

end Json

end ActorScript
