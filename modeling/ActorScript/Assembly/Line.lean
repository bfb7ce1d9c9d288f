import ActorScript.Opcode
import ActorScript.Assembly.Token
import ActorScript.Program

/-!
# Lines of assembly text

A line is an optional label followed by an instruction, a directive or
nothing.  The operands of an instruction are checked against the operands of
its opcode; labels and names of variables stay symbols.

    label:
        mnemonic operand...
    .var NAME global|actor|player [default N] [readonly] [zero]
    .actor KIND [tick TARGET] [load TARGET]
    .event ID TARGET
    .data WORD...

A `switch` is written `switch VAR END DEFAULT [LITERAL TARGET]...`, and the
number of its cases is counted.
-/

namespace ActorScript.Assembly

/-- A word that may not be known before every line has been read. -/
inductive Argument where
  | number (value : Word)
  | label (name : String)
  /-- The name of a variable. -/
  | name (name : String)
  /-- The handle of the frame's own entity. -/
  | self
deriving DecidableEq, Repr

/-- What a line says. -/
inductive Item where
  /-- An opcode and its operand words, the case count of a `switch` included. -/
  | instruction (opcode : Opcode) (arguments : List Argument)
  /-- Words as they are. -/
  | data (words : List Argument)
  | declare (declared : Variable)
  | actor (kind : Word) (tick load : Option Argument)
  | event (id : Word) (target : Argument)
deriving DecidableEq, Repr

/-- The number of words that an item takes up in the stream. -/
def Item.length : Item → Nat
  | instruction _ arguments => arguments.length + 1
  | data words => words.length
  | declare _ | actor _ _ _ | event _ _ => 0

/-- A line of assembly text. -/
structure Line where
  label : Option String := none
  item : Option Item := none
deriving DecidableEq, Repr

namespace Line

/-- The complaint about a token. -/
def unexpected {α : Type} (token : Token) : Except Problem α :=
  .error (.unexpectedToken token.text)

/-- A token in the place of an operand. -/
def argument (kind : OperandKind) (token : Token) : Except Problem Argument :=
  match token with
  | .number value => .ok (.number value)
  | .labelRef name =>
      match kind with
      | .target | .record _ => .ok (.label name)
      | _ => unexpected token
  | .ident name =>
      match kind with
      | .handle => if isSelf name then .ok .self else .ok (.name name)
      | .var => .ok (.name name)
      | _ => unexpected token
  | _ => unexpected token

/-- The operands of an opcode, one token each. -/
def arguments (kinds : List OperandKind) (tokens : List Token) :
    Except Problem (List Argument) :=
  (kinds.zip tokens).mapM fun (kind, token) => argument kind token

/-- The cases of a `switch`, a value and a target each. -/
def cases : List Token → Except Problem (List Argument)
  | value :: target :: rest => do
      let value ← argument .literal value
      let target ← argument .target target
      let rest ← cases rest
      return value :: target :: rest
  | _ => .ok []

/-- A `switch` with its arguments. -/
def switch (tokens : List Token) : Except Problem Item :=
  match tokens with
  | scrutinee :: finish :: fallback :: table =>
      if table.length % 2 = 0 then do
        let scrutinee ← argument .var scrutinee
        let finish ← argument .target finish
        let fallback ← argument .target fallback
        let table ← cases table
        return .instruction .switch
          (scrutinee :: finish :: .number (Word.ofOffset (table.length / 2)) :: fallback :: table)
      else .error (.missingArgument Opcode.switch.mnemonic (tokens.length + 1))
  | _ => .error (.missingArgument Opcode.switch.mnemonic 3)

/-- An instruction with its arguments. -/
def instruction (opcode : Opcode) (tokens : List Token) : Except Problem Item :=
  match opcode with
  | .switch => switch tokens
  | opcode =>
      let arity := opcode.operands.length
      if tokens.length < arity then .error (.missingArgument opcode.mnemonic arity)
      else
        match tokens.drop arity with
        | extra :: _ => unexpected extra
        | [] => (arguments opcode.operands tokens).map (.instruction opcode)

/-- The number that a directive needs in the place of a token. -/
def number (directive : String) (expected : Nat) : Option Token → Except Problem Word
  | some (.number value) => .ok value
  | some token => .error (.invalidNumber token.text)
  | none => .error (.missingArgument directive expected)

/-- The options behind the name and the scope of a variable.  The last number
is that of all arguments of the directive. -/
def options (declared : Variable) (count : Nat) : List Token → Except Problem Variable
  | [] => .ok declared
  | .ident option :: rest =>
      match option.toLower, rest with
      | "default", value :: rest => do
          let initial ← number ".var" (count + 1) (some value)
          options { declared with initial } count rest
      | "default", [] => .error (.missingArgument ".var" (count + 1))
      | "readonly", rest => options { declared with readOnly := true } count rest
      | "zero", rest => options { declared with zeroWhenInvalid := true } count rest
      | _, _ => unexpected (.ident option)
  | token :: _ => unexpected token

/-- The name of a declared variable. -/
def variableName : Token → Except Problem String
  | .ident name =>
      if name.utf8ByteSize > Image.maxNameLength then .error (.nameTooLong name.utf8ByteSize)
      else if isSelf name then unexpected (.ident name)
      else .ok name
  | token => unexpected token

/-- The scope of a declared variable, in any case. -/
def scope (token : Token) : Except Problem Scope :=
  match token with
  | .ident name =>
      match Scope.ofName? name.toLower with
      | some scope => .ok scope
      | none => .error (.unknownScope name)
  | token => .error (.unknownScope token.text)

/-- The declaration of a variable. -/
def declaration (tokens : List Token) : Except Problem Item :=
  match tokens with
  | [] => .error (.missingArgument ".var" 2)
  | [name] => do
      let _ ← variableName name
      .error (.missingArgument ".var" 2)
  | name :: scopeName :: rest => do
      let name ← variableName name
      let scope ← scope scopeName
      let declared ← options { name, scope } tokens.length rest
      return .declare declared

/-- The scripts of an actor kind; of two for one slot the later stays.  The
last number is that of all arguments of the directive. -/
def scripts (count : Nat) (tick load : Option Argument) :
    List Token → Except Problem (Option Argument × Option Argument)
  | [] => .ok (tick, load)
  | .ident slot :: rest =>
      match slot.toLower, rest with
      | "tick", target :: rest => do
          let target ← argument .target target
          scripts count (some target) load rest
      | "load", target :: rest => do
          let target ← argument .target target
          scripts count tick (some target) rest
      | "tick", [] | "load", [] => .error (.missingArgument ".actor" (count + 1))
      | _, _ => unexpected (.ident slot)
  | token :: _ => unexpected token

/-- The scripts of an actor kind. -/
def actor (tokens : List Token) : Except Problem Item := do
  let kind ← number ".actor" 1 tokens.head?
  let (tick, load) ← scripts tokens.length none none tokens.tail
  return .actor kind tick load

/-- The handler of an event. -/
def event (tokens : List Token) : Except Problem Item := do
  let id ← number ".event" 2 tokens.head?
  match tokens.tail with
  | [] => .error (.missingArgument ".event" 2)
  | [target] => (argument .target target).map (.event id)
  | _ :: extra :: _ => unexpected extra

/-- A directive with its arguments. -/
def directive (name : String) (tokens : List Token) : Except Problem Item :=
  match name with
  | "var" => declaration tokens
  | "actor" => actor tokens
  | "event" => event tokens
  | "data" => (tokens.mapM (argument .target)).map .data
  | _ => .error (.unknownDirective name)

/-- What stands on a line behind its label. -/
def content (tokens : List Token) : Except Problem (Option Item) :=
  match tokens with
  | [] => .ok none
  | .directive name :: rest => (directive name rest).map some
  | .ident name :: rest =>
      match Opcode.ofMnemonic? name with
      | none => .error (.unknownOpcode name)
      | some opcode => (instruction opcode rest).map some
  | token :: _ => unexpected token

/-- The line that tokens make up. -/
def ofTokens (tokens : List Token) : Except Problem Line :=
  match tokens with
  | .labelDef label :: rest => (content rest).map fun item => ⟨some label, item⟩
  | tokens => (content tokens).map fun item => ⟨none, item⟩

/-- Reads a line. -/
def read (line : List Char) : Except Problem Line := do
  let tokens ← Token.ofLine line
  ofTokens tokens

end Line

end ActorScript.Assembly
