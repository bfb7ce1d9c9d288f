/-!
# Splitting text

Cutting a list of characters at separators, and the blank characters that
separate words.  The pieces of `splitWhen` and the separators between them
make up the whole list; `words` drops the empty pieces.
-/

namespace ActorScript.Text

/-- The white space of Unicode. -/
def isBlank (char : Char) : Bool :=
  let code := char.toNat
  (0x09 ≤ code && code ≤ 0x0D) || code == 0x20 || code == 0x85 || code == 0xA0 ||
    code == 0x1680 || (0x2000 ≤ code && code ≤ 0x200A) || code == 0x2028 ||
    code == 0x2029 || code == 0x202F || code == 0x205F || code == 0x3000

/-- Puts a character in front of the first piece. -/
def pushFirst (char : Char) : List (List Char) → List (List Char)
  | [] => [[char]]
  | piece :: rest => (char :: piece) :: rest

/-- The pieces between the separators, the empty ones included. -/
def splitWhen (separates : Char → Bool) (text : List Char) : List (List Char) :=
  text.foldr (fun char pieces =>
    if separates char then [] :: pieces else pushFirst char pieces) [[]]

/-- The lines of a text. -/
def lines (text : List Char) : List (List Char) :=
  splitWhen (· == '\n') text

/-- The words of a line, which blanks separate. -/
def words (line : List Char) : List (List Char) :=
  (splitWhen isBlank line).filter fun word => !word.isEmpty

@[simp]
theorem splitWhen_nil (separates : Char → Bool) : splitWhen separates [] = [[]] :=
  rfl

theorem splitWhen_cons (separates : Char → Bool) (char : Char) (text : List Char) :
    splitWhen separates (char :: text) =
      if separates char then [] :: splitWhen separates text
      else pushFirst char (splitWhen separates text) :=
  rfl

end ActorScript.Text
