import ActorScript.Word

/-!
# Opcodes

An instruction is one opcode word followed by operand words.  This module
names the operations, gives each its word, its mnemonic and the meaning of its
operands, and sorts out which of them test a condition and which of them end a
run.  `Opcode.ofWord?` reads a word back and `Opcode.ofMnemonic?` a name, the
latter without regard to the case of ASCII letters.

Operations that differ only in a parameter share a constructor: a condition is
`branch test`, an update of a variable is `assign operation source`, and the
four endings at which enclosing runs stop as well are `finish ending`.
-/

namespace ActorScript

/-- The layouts of the data records embedded in the instruction stream. -/
inductive RecordKind where
  /-- First frame, frame count, view count, increment and delay. -/
  | action
  /-- Action record, move record and movement flags. -/
  | ai
  /-- Horizontal and vertical velocity. -/
  | move
deriving DecidableEq, Repr

namespace RecordKind

/-- The number of words in a record. -/
def length : RecordKind → Nat
  | action => 5
  | ai => 3
  | move => 2

/-- The name of a layout in diagnostics. -/
def name : RecordKind → String
  | action => "action"
  | ai => "ai"
  | move => "move"

end RecordKind

/-- What an operand word means. -/
inductive OperandKind where
  /-- The word itself. -/
  | literal
  /-- The identifier of a variable. -/
  | var
  /-- The offset of an instruction. -/
  | target
  /-- The offset of a data record, or zero for none. -/
  | record (kind : RecordKind)
  /-- The identifier of a variable that holds a handle, or `selfHandle`. -/
  | handle
  /-- A field of an entity, a player, a sector, a wall or the user settings. -/
  | field
deriving DecidableEq, Repr

/-- The handle operand that stands for the frame's own entity, player or sector. -/
def selfHandle : Word := -1

/-- The endings at which every enclosing brace run stops as well. -/
inductive Ending where
  | actor
  | state
  | event
  | breakOut
deriving DecidableEq, Repr

/-- Where the second argument of a comparison or an update comes from. -/
inductive Source where
  | literal
  | var
deriving DecidableEq, Repr

/-- The relations that a variable can be tested for. -/
inductive Relation where
  | equal
  | notEqual
  | greater
  | less
  /-- Some bit is set in both words. -/
  | sharesBits
deriving DecidableEq, Repr

/-- The conditions of the branching instructions. -/
inductive Test where
  | random
  | count
  | actionCount
  | action
  | ai
  | move
  | playerNearer
  | playerFarther
  | compare (relation : Relation) (source : Source)
  | canSee
  | canSeeTarget
  | canShootTarget
  | hitWeapon
  | squished
  | dead
  | probe
deriving DecidableEq, Repr

/-- The kind of the operand that a source takes its word from. -/
def Source.operand : Source → OperandKind
  | literal => .literal
  | var => .var

/-- The operands of a test, in front of the target of the failed branch. -/
def Test.operands : Test → List OperandKind
  | random | count | actionCount | playerNearer | playerFarther => [.literal]
  | action => [.record .action]
  | ai => [.record .ai]
  | move => [.record .move]
  | compare _ source => [.var, source.operand]
  | canSee | canSeeTarget | canShootTarget | hitWeapon | squished | dead => []
  | probe => [.literal, .literal]

/-- The ways to compute the new value of a variable from two words. -/
inductive Update where
  | set
  | add
  | sub
  | mul
  | div
  | mod
  | and
  | or
  | xor
deriving DecidableEq, Repr

/-- The things whose fields a script can read and write. -/
inductive FieldTarget where
  | actor
  | player
  | sector
  | wall
  | userDef
deriving DecidableEq, Repr

/-- The operations of the instruction set. -/
inductive Opcode where
  /-- Runs a nested block up to its ending. -/
  | leftBrace
  /-- Closes the innermost block. -/
  | rightBrace
  /-- Reached by falling through, jumps past the alternative body. -/
  | elseMarker
  /-- Calls the subroutine at the target. -/
  | callState
  /-- Chooses among the bodies of a table by the value of a variable. -/
  | switch
  /-- Ends the body of a switch case. -/
  | endSwitch
  /-- Ends a script, a subroutine or a handler, or breaks out of one. -/
  | finish (ending : Ending)
  | nullOp
  /-- Requests the deletion of the frame's entity. -/
  | killIt
  /-- Continues with the next instruction when the test holds, else at the target. -/
  | branch (test : Test)
  | setAi
  | setAction
  | setMove
  | setCount
  | resetCount
  | resetActionCount
  | sleepTime
  | assign (operation : Update) (source : Source)
  /-- Draws a share of its second argument. -/
  | assignRandom (source : Source)
  /-- Draws from the stream that only the display depends on. -/
  | displayRandom
  | getActorVariable
  | setActorVariable
  | getField (target : FieldTarget)
  | setField (target : FieldTarget)
  | spawn
  | spawnInto
  | shoot
  | sound
  | globalSound
  | stopSound
  | damage
  | hitRadius
  | moveEntity
  | changeStatus
  | giveItem
  | debug
deriving DecidableEq, Repr

namespace Opcode

/-- Every opcode, in the order of their words. -/
def all : List Opcode :=
  [leftBrace, rightBrace, elseMarker, callState, switch, endSwitch,
   finish .actor, finish .state, finish .event, finish .breakOut, nullOp, killIt,
   branch .random, branch .count, branch .actionCount, branch .action, branch .ai,
   branch .move, branch .playerNearer, branch .playerFarther,
   branch (.compare .equal .literal), branch (.compare .notEqual .literal),
   branch (.compare .greater .literal), branch (.compare .less .literal),
   branch (.compare .sharesBits .literal),
   branch (.compare .equal .var), branch (.compare .notEqual .var),
   branch (.compare .greater .var), branch (.compare .less .var),
   branch (.compare .sharesBits .var),
   branch .canSee, branch .canSeeTarget, branch .canShootTarget, branch .hitWeapon,
   branch .squished, branch .dead, branch .probe,
   setAi, setAction, setMove, setCount, resetCount, resetActionCount, sleepTime,
   assign .set .literal, assign .set .var, assign .add .literal, assign .add .var,
   assign .sub .literal, assign .sub .var, assign .mul .literal, assign .mul .var,
   assign .div .literal, assign .div .var, assign .mod .literal, assign .mod .var,
   assign .and .literal, assign .and .var, assign .or .literal, assign .or .var,
   assign .xor .literal, assign .xor .var, assignRandom .literal,
   assignRandom .var, displayRandom,
   getActorVariable, setActorVariable,
   getField .actor, setField .actor, getField .player, setField .player,
   getField .sector, setField .sector, getField .wall, setField .wall,
   getField .userDef, setField .userDef,
   spawn, spawnInto, shoot, sound, globalSound, stopSound, damage, hitRadius,
   moveEntity, changeStatus, giveItem, debug]

/-- The word that stands for an opcode in the instruction stream. -/
def word : Opcode → Word
  | leftBrace => 0x01
  | rightBrace => 0x02
  | elseMarker => 0x03
  | callState => 0x04
  | switch => 0x05
  | endSwitch => 0x06
  | finish .actor => 0x07
  | finish .state => 0x08
  | finish .event => 0x09
  | finish .breakOut => 0x0A
  | nullOp => 0x0B
  | killIt => 0x0C
  | branch .random => 0x10
  | branch .count => 0x11
  | branch .actionCount => 0x12
  | branch .action => 0x13
  | branch .ai => 0x14
  | branch .move => 0x15
  | branch .playerNearer => 0x16
  | branch .playerFarther => 0x17
  | branch (.compare .equal .literal) => 0x18
  | branch (.compare .notEqual .literal) => 0x19
  | branch (.compare .greater .literal) => 0x1A
  | branch (.compare .less .literal) => 0x1B
  | branch (.compare .sharesBits .literal) => 0x1C
  | branch (.compare .equal .var) => 0x1D
  | branch (.compare .notEqual .var) => 0x1E
  | branch (.compare .greater .var) => 0x1F
  | branch (.compare .less .var) => 0x20
  | branch (.compare .sharesBits .var) => 0x21
  | branch .canSee => 0x22
  | branch .canSeeTarget => 0x23
  | branch .canShootTarget => 0x24
  | branch .hitWeapon => 0x25
  | branch .squished => 0x26
  | branch .dead => 0x27
  | branch .probe => 0x28
  | setAi => 0x30
  | setAction => 0x31
  | setMove => 0x32
  | setCount => 0x33
  | resetCount => 0x34
  | resetActionCount => 0x35
  | sleepTime => 0x36
  | assign .set .literal => 0x40
  | assign .set .var => 0x41
  | assign .add .literal => 0x42
  | assign .add .var => 0x43
  | assign .sub .literal => 0x44
  | assign .sub .var => 0x45
  | assign .mul .literal => 0x46
  | assign .mul .var => 0x47
  | assign .div .literal => 0x48
  | assign .div .var => 0x49
  | assign .mod .literal => 0x4A
  | assign .mod .var => 0x4B
  | assign .and .literal => 0x4C
  | assign .and .var => 0x4D
  | assign .or .literal => 0x4E
  | assign .or .var => 0x4F
  | assign .xor .literal => 0x50
  | assign .xor .var => 0x51
  | assignRandom .literal => 0x52
  | assignRandom .var => 0x53
  | displayRandom => 0x54
  | getActorVariable => 0x58
  | setActorVariable => 0x59
  | getField .actor => 0x60
  | setField .actor => 0x61
  | getField .player => 0x62
  | setField .player => 0x63
  | getField .sector => 0x64
  | setField .sector => 0x65
  | getField .wall => 0x66
  | setField .wall => 0x67
  | getField .userDef => 0x68
  | setField .userDef => 0x69
  | spawn => 0x70
  | spawnInto => 0x71
  | shoot => 0x72
  | sound => 0x73
  | globalSound => 0x74
  | stopSound => 0x75
  | damage => 0x76
  | hitRadius => 0x77
  | moveEntity => 0x78
  | changeStatus => 0x79
  | giveItem => 0x7A
  | debug => 0x7B

/-- The opcode that a word stands for, if any. -/
def ofWord? (word : Word) : Option Opcode :=
  all.find? fun opcode => opcode.word == word

/-- The name of an opcode in assembly text. -/
def mnemonic : Opcode → String
  | leftBrace => "\x7b"
  | rightBrace => "\x7d"
  | elseMarker => "else"
  | callState => "state"
  | switch => "switch"
  | endSwitch => "endswitch"
  | finish .actor => "enda"
  | finish .state => "ends"
  | finish .event => "endevent"
  | finish .breakOut => "break"
  | nullOp => "nullop"
  | killIt => "killit"
  | branch .random => "ifrnd"
  | branch .count => "ifcount"
  | branch .actionCount => "ifactioncount"
  | branch .action => "ifaction"
  | branch .ai => "ifai"
  | branch .move => "ifmove"
  | branch .playerNearer => "ifpdistl"
  | branch .playerFarther => "ifpdistg"
  | branch (.compare .equal .literal) => "ifvare"
  | branch (.compare .notEqual .literal) => "ifvarn"
  | branch (.compare .greater .literal) => "ifvarg"
  | branch (.compare .less .literal) => "ifvarl"
  | branch (.compare .sharesBits .literal) => "ifvarand"
  | branch (.compare .equal .var) => "ifvarvare"
  | branch (.compare .notEqual .var) => "ifvarvarn"
  | branch (.compare .greater .var) => "ifvarvarg"
  | branch (.compare .less .var) => "ifvarvarl"
  | branch (.compare .sharesBits .var) => "ifvarvarand"
  | branch .canSee => "ifcansee"
  | branch .canSeeTarget => "ifcanseetarget"
  | branch .canShootTarget => "ifcanshoottarget"
  | branch .hitWeapon => "ifhitweapon"
  | branch .squished => "ifsquished"
  | branch .dead => "ifdead"
  | branch .probe => "ifprobe"
  | setAi => "ai"
  | setAction => "action"
  | setMove => "move"
  | setCount => "count"
  | resetCount => "resetcount"
  | resetActionCount => "resetactioncount"
  | sleepTime => "sleeptime"
  | assign .set .literal => "setvar"
  | assign .set .var => "setvarvar"
  | assign .add .literal => "addvar"
  | assign .add .var => "addvarvar"
  | assign .sub .literal => "subvar"
  | assign .sub .var => "subvarvar"
  | assign .mul .literal => "mulvar"
  | assign .mul .var => "mulvarvar"
  | assign .div .literal => "divvar"
  | assign .div .var => "divvarvar"
  | assign .mod .literal => "modvar"
  | assign .mod .var => "modvarvar"
  | assign .and .literal => "andvar"
  | assign .and .var => "andvarvar"
  | assign .or .literal => "orvar"
  | assign .or .var => "orvarvar"
  | assign .xor .literal => "xorvar"
  | assign .xor .var => "xorvarvar"
  | assignRandom .literal => "randvar"
  | assignRandom .var => "randvarvar"
  | displayRandom => "displayrand"
  | getActorVariable => "getactorvar"
  | setActorVariable => "setactorvar"
  | getField .actor => "getactor"
  | setField .actor => "setactor"
  | getField .player => "getplayer"
  | setField .player => "setplayer"
  | getField .sector => "getsector"
  | setField .sector => "setsector"
  | getField .wall => "getwall"
  | setField .wall => "setwall"
  | getField .userDef => "getuserdef"
  | setField .userDef => "setuserdef"
  | spawn => "spawn"
  | spawnInto => "espawn"
  | shoot => "shoot"
  | sound => "sound"
  | globalSound => "globalsound"
  | stopSound => "stopsound"
  | damage => "damage"
  | hitRadius => "hitradius"
  | moveEntity => "moveentity"
  | changeStatus => "changestat"
  | giveItem => "giveitem"
  | debug => "debug"

/-- The opcode named by a mnemonic.  ASCII letters match in either case; every
mnemonic is written in lower case. -/
def ofMnemonic? (name : String) : Option Opcode :=
  let lower := name.toLower
  all.find? fun opcode => opcode.mnemonic == lower

/-- What the operands of an opcode mean.  Those of `switch` are only its fixed
header: a variable, the offset after the table, the number of cases and the
default; the cases follow. -/
def operands : Opcode → List OperandKind
  | leftBrace | rightBrace | endSwitch | finish _ | nullOp | killIt
  | resetCount | resetActionCount => []
  | elseMarker | callState => [.target]
  | switch => [.var, .target, .literal, .target]
  | branch test => test.operands ++ [.target]
  | setAi => [.record .ai]
  | setAction => [.record .action]
  | setMove => [.record .move, .literal]
  | setCount | sleepTime => [.literal]
  | assign _ source | assignRandom source => [.var, source.operand]
  | displayRandom => [.var]
  | getActorVariable | setActorVariable => [.var, .var, .var]
  | getField _ | setField _ => [.handle, .field, .literal, .var]
  | spawn | shoot | sound | globalSound | stopSound | changeStatus | debug => [.literal]
  | spawnInto => [.literal, .var]
  | damage => [.handle, .literal]
  | hitRadius => [.literal, .literal, .literal, .literal, .literal]
  | moveEntity => [.handle, .var, .var, .var]
  | giveItem => [.literal, .literal]

/-- The number of operand words in front of the cases of a `switch`. -/
def switchHeader : Nat := 4

/-- An opcode that ends the current run. -/
def isTerminal : Opcode → Bool
  | rightBrace | endSwitch | finish _ => true
  | _ => false

/-- A terminal that leaves the cursor on itself, so that every enclosing brace
run reads it again and ends as well. -/
def isSticky : Opcode → Bool
  | finish _ => true
  | _ => false

/-- An opcode whose last operand is the target of a failed test. -/
def isConditional : Opcode → Bool
  | branch _ => true
  | _ => false

theorem mem_all (opcode : Opcode) : opcode ∈ all := by
  cases opcode with
  | finish ending => cases ending <;> decide
  | branch test =>
      cases test with
      | compare relation source => cases relation <;> cases source <;> decide
      | _ => decide
  | assign operation source => cases operation <;> cases source <;> decide
  | assignRandom source => cases source <;> decide
  | getField target => cases target <;> decide
  | setField target => cases target <;> decide
  | _ => decide

/-- Distinct opcodes have distinct words. -/
theorem word_injective {first second : Opcode} (same : first.word = second.word) :
    first = second := by
  have distinct : ∀ left ∈ all, ∀ right ∈ all, left.word = right.word → left = right := by
    decide +kernel
  exact distinct first (mem_all first) second (mem_all second) same

theorem ofWord?_eq_some_iff {word : Word} {opcode : Opcode} :
    ofWord? word = some opcode ↔ word = opcode.word := by
  constructor
  · intro found
    have same : opcode.word = word := by simpa using List.find?_some found
    exact same.symm
  · rintro rfl
    cases found : ofWord? opcode.word with
    | none =>
        have absent := List.find?_eq_none.1 found opcode (mem_all opcode)
        simp at absent
    | some other =>
        have same : other.word = opcode.word := by simpa using List.find?_some found
        rw [word_injective same]

@[simp]
theorem ofWord?_word (opcode : Opcode) : ofWord? opcode.word = some opcode :=
  ofWord?_eq_some_iff.2 rfl

/-- The complaint about a word that stands for no opcode. -/
structure InvalidWord where
  word : Word
deriving DecidableEq, Repr

/-- The text of the complaint. -/
def InvalidWord.message (error : InvalidWord) : String :=
  "invalid opcode: " ++ error.word.hex

/-- The opcode that a word stands for, or the complaint that there is none. -/
def ofWord (word : Word) : Except InvalidWord Opcode :=
  match ofWord? word with
  | some opcode => .ok opcode
  | none => .error ⟨word⟩

end Opcode

end ActorScript
