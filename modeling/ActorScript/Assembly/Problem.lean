import ActorScript.Image.Format

/-!
# Complaints about assembly text

What can be wrong with a line of assembly text, and the line where it is.
-/

namespace ActorScript.Assembly

/-- What can be wrong with a line. -/
inductive Problem where
  /-- No operation has this mnemonic. -/
  | unknownOpcode (token : String)
  | unknownDirective (token : String)
  /-- An operation or a directive has too few arguments. -/
  | missingArgument (name : String) (expected : Nat)
  | invalidNumber (token : String)
  | unexpectedToken (token : String)
  | unknownLabel (label : String)
  | duplicateLabel (label : String)
  | unknownVariable (name : String)
  | duplicateVariable (name : String)
  /-- The name of a variable has too many bytes for an image. -/
  | nameTooLong (length : Nat)
  | unknownScope (token : String)
  | duplicateActor (kind : Word)
  | duplicateEvent (id : Word)
  /-- An entry offset is negative. -/
  | invalidOffset (value : Word)
deriving DecidableEq, Repr

/-- The text of a problem, without the line where it is. -/
def Problem.message : Problem → String
  | .unknownOpcode token => s!"unknown opcode '{token}'"
  | .unknownDirective token => s!"unknown directive '.{token}'"
  | .missingArgument name expected => s!"{name} expects {expected} argument(s)"
  | .invalidNumber token => s!"invalid number '{token}'"
  | .unexpectedToken token => s!"unexpected token '{token}'"
  | .unknownLabel label => s!"unknown label '{label}'"
  | .duplicateLabel label => s!"label '{label}' is already defined"
  | .unknownVariable name => s!"unknown variable '{name}'"
  | .duplicateVariable name => s!"variable '{name}' is already declared"
  | .nameTooLong length =>
      s!"variable name is {length} bytes (max {Image.maxNameLength})"
  | .unknownScope token => s!"unknown scope '{token}'"
  | .duplicateActor kind => s!"actor {kind} is already declared"
  | .duplicateEvent id => s!"event {id} is already declared"
  | .invalidOffset value => s!"invalid entry offset {value}"

/-- A problem and the number of the line where it is, counted from one. -/
structure Complaint where
  line : Nat
  problem : Problem
deriving DecidableEq, Repr

/-- The text of a complaint. -/
def Complaint.message (complaint : Complaint) : String :=
  s!"line {complaint.line}: " ++ complaint.problem.message

/-- Says on which line a problem is. -/
def onLine {α : Type} (line : Nat) : Except Problem α → Except Complaint α
  | .ok value => .ok value
  | .error problem => .error ⟨line, problem⟩

end ActorScript.Assembly
