import ActorScript.Flow
import ActorScript.Image.Format

/-!
# Findings

What verification can find wrong with a program.  A finding about one
instruction carries the offset of the instruction.
-/

namespace ActorScript.Verify

/-- The largest number of words in a stream. -/
def maxWords : Nat := 0x100000

/-- The largest number of variables. -/
def maxVariables : Nat := 0x10000

/-- The largest number of cases in one `switch`. -/
def maxCases : Nat := 4096

/-- An entry offset, named by the table that it stands in. -/
inductive Entry where
  | tick (kind : Word)
  | load (kind : Word)
  | event (id : Word)
deriving DecidableEq, Repr

/-- The text of an entry in findings. -/
def Entry.text : Entry → String
  | .tick kind => s!"tick script of actor {kind}"
  | .load kind => s!"load script of actor {kind}"
  | .event id => s!"handler of event {id}"

/-- What can be wrong with a program. -/
inductive Finding where
  | entryOutOfRange (entry : Entry) (offset : Nat)
  | invalidEventId (id : Word)
  /-- No instruction can be read where control flow leads. -/
  | unreadable (fault : Instruction.Fault)
  /-- A target lies outside the stream. -/
  | danglingTarget (offset : Nat) (target : Word)
  /-- Execution falls through past the last word. -/
  | runsOffEnd (offset : Nat)
  /-- A target is an operand word of the instruction at `within`. -/
  | misalignedTarget (offset target within : Nat)
  | recordOutOfRange (source : Nat) (offset : Word) (kind : RecordKind)
  | recordOverlapsCode (source : Nat) (offset : Word) (kind : RecordKind)
  | unknownVariable (offset : Nat) (id : Word)
  /-- A variable of another entity is addressed but is not an actor variable. -/
  | notActorScoped (offset : Nat) (id : Word)
  | duplicateVariable (name : String)
  | programTooLarge (size : Nat)
  | tooManyVariables (count : Nat)
  | nameTooLong (id length : Nat)
  | switchTooLarge (offset count : Nat)
deriving DecidableEq, Repr

/-- The text of a finding. -/
def Finding.message : Finding → String
  | .entryOutOfRange entry offset =>
      s!"{entry.text} starts at offset {offset}, outside the stream"
  | .invalidEventId id => s!"event id {id} is negative"
  | .unreadable fault => fault.message
  | .danglingTarget offset target =>
      s!"jump target {target} at offset {offset} is outside the stream"
  | .runsOffEnd offset => s!"instruction at offset {offset} runs off the end of the stream"
  | .misalignedTarget offset target within =>
      s!"jump target {target} at offset {offset} lands inside the instruction at {within}"
  | .recordOutOfRange source offset kind =>
      s!"{kind.name} record at {offset} referenced from offset {source} is outside the stream"
  | .recordOverlapsCode source offset kind =>
      s!"{kind.name} record at {offset} referenced from offset {source} overlaps code"
  | .unknownVariable offset id => s!"unknown variable {id} at offset {offset}"
  | .notActorScoped offset id =>
      s!"variable {id} used as an actor variable at offset {offset} is not actor-scoped"
  | .duplicateVariable name => "variable `" ++ name ++ "` is declared more than once"
  | .programTooLarge size => s!"program too large: {size} words (max {maxWords})"
  | .tooManyVariables count => s!"too many variables: {count} (max {maxVariables})"
  | .nameTooLong id length =>
      s!"name of variable {id} is {length} bytes (max {Image.maxNameLength})"
  | .switchTooLarge offset count =>
      s!"switch at offset {offset} has {count} cases (max {maxCases})"

end ActorScript.Verify
