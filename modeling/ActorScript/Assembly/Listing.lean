import ActorScript.Assembly.Token
import ActorScript.Program
import ActorScript.Trace
import Std.Data.HashSet

/-!
# Listings

A listing is the assembly text of a program.  The words that control flow
reaches from the entry offsets are written as instructions and all others as
data.  Every offset that something refers to and that starts a line carries a
label named after it.

Control flow can reach into the middle of an instruction, which then has a
second reading.  Of two overlapping instructions the one that starts first is
written.
-/

namespace ActorScript.Assembly.Listing

/-- The largest number of words on a line of data. -/
def dataWidth : Nat := 8

/-- Picks the instructions at ascending offsets that do not overlap, given the
offset behind the last one picked. -/
def pick (code : Array Word) : (edge : Nat) → List Nat → Array Instruction → Array Instruction
  | _, [], picked => picked
  | edge, start :: rest, picked =>
      if start < edge then pick code edge rest picked
      else
        match Instruction.decode code start with
        | .ok instruction => pick code instruction.next rest (picked.push instruction)
        | .error _ => pick code edge rest picked

/-- The instructions that are written as such, in the order of their offsets. -/
def layout (code : Array Word) (trace : Trace) : List Instruction :=
  (pick code 0 trace.starts.keys #[]).toList

/-- The targets and records that the operands of an instruction name. -/
def references (instruction : Instruction) : List Word :=
  (instruction.opcode.operands.zipIdx.filterMap fun
    | (.target, index) | (.record _, index) => some (instruction.operand index)
    | _ => none) ++ instruction.cases.map (·.2)

/-- The offsets of the operand words of instructions. -/
def interior (layout : List Instruction) : Std.HashSet Nat :=
  layout.foldl (fun offsets instruction =>
    offsets.insertMany (List.range' (instruction.offset + 1) instruction.operands.size)) {}

/-- The offsets that carry a label: those that something refers to, inside the
stream, and not inside an instruction that is written as such. -/
def labels (program : Program) (trace : Trace) (layout : List Instruction) :
    Std.HashSet Nat :=
  let references :=
    program.entryPoints.map Word.ofOffset ++ layout.flatMap references ++
      (trace.records.map (·.offset)).toList
  let inner := interior layout
  references.foldl (fun offsets word =>
    match inStream? program.code word with
    | none => offsets
    | some offset => if inner.contains offset then offsets else offsets.insert offset) {}

/-- A part of the stream that is written on one line. -/
inductive Row where
  | instruction (instruction : Instruction)
  | data (offset : Nat) (words : Array Word)

/-- The offset behind a line of data that has reached `offset` and may take up
`room` more words.  It ends where the stream ends or another line has to start. -/
def dataEnd (size : Nat) (stops : Nat → Bool) : (room offset : Nat) → Nat
  | 0, offset => offset
  | room + 1, offset =>
      if offset < size && !stops offset then dataEnd size stops room (offset + 1) else offset

theorem le_dataEnd (size : Nat) (stops : Nat → Bool) (room offset : Nat) :
    offset ≤ dataEnd size stops room offset := by
  induction room generalizing offset with
  | zero => exact Nat.le_refl _
  | succ room ih =>
      rw [dataEnd]
      split
      · exact Nat.le_trans (Nat.le_succ offset) (ih (offset + 1))
      · exact Nat.le_refl _

/-- The rows from an offset on, behind those that are there already. -/
def rowsFrom (code : Array Word) (starts labels : Std.HashSet Nat) (offset : Nat)
    (rows : Array Row) : Array Row :=
  if offset < code.size then
    let reading := if starts.contains offset then Instruction.decode code offset
      else .error (.outOfRange offset)
    match reading with
    | .ok instruction =>
        rowsFrom code starts labels (offset + instruction.length)
          (rows.push (.instruction instruction))
    | .error _ =>
        let stop := dataEnd code.size (fun next => starts.contains next || labels.contains next)
          (dataWidth - 1) (offset + 1)
        rowsFrom code starts labels stop (rows.push (.data offset (code.extract offset stop)))
  else rows
termination_by code.size - offset
decreasing_by
  · simp only [Instruction.length]
    omega
  · have := le_dataEnd code.size (fun next => starts.contains next || labels.contains next)
      (dataWidth - 1) (offset + 1)
    omega

/-- A target, by its label where it has one. -/
def target (labels : Std.HashSet Nat) (word : Word) : String :=
  match word.offset? with
  | none => Numeral.print word
  | some offset =>
      if labels.contains offset then s!"@L{offset}" else Numeral.print word

/-- A target for which zero means none. -/
def optionalTarget (labels : Std.HashSet Nat) (word : Word) : String :=
  if word = 0 then "0" else target labels word

/-- The entry offset of a script or a handler. -/
def entry (labels : Std.HashSet Nat) (offset : Nat) : String :=
  if labels.contains offset then s!"@L{offset}" else toString offset

/-- The name by which text can refer to a variable: an identifier that no
earlier variable has. -/
def nameOf? (program : Program) (id : Nat) : Option String :=
  match program.vars[id]? with
  | none => none
  | some declared =>
      if isIdentifier declared.name.toList && !isSelf declared.name &&
          program.varId? declared.name == some id then
        some declared.name
      else none

/-- A variable, by its name where it has one. -/
def variableText (program : Program) (word : Word) : String :=
  match word.offset?.bind (nameOf? program) with
  | some name => name
  | none => Numeral.print word

/-- An operand word of the given kind. -/
def operandText (program : Program) (labels : Std.HashSet Nat) (kind : OperandKind)
    (word : Word) : String :=
  match kind with
  | .literal | .field => Numeral.print word
  | .var => variableText program word
  | .handle => if word = selfHandle then "self" else variableText program word
  | .target => target labels word
  | .record _ => optionalTarget labels word

/-- The operands of an instruction.  The case count of a `switch` is left out,
and its default is an optional target. -/
def operandTexts (program : Program) (labels : Std.HashSet Nat) (instruction : Instruction) :
    List String :=
  match instruction.opcode with
  | .switch =>
      [variableText program (instruction.operand 0), target labels (instruction.operand 1),
       optionalTarget labels (instruction.operand 3)] ++
      instruction.cases.flatMap fun (value, goal) => [Numeral.print value, target labels goal]
  | opcode =>
      opcode.operands.zipIdx.map fun (kind, index) =>
        operandText program labels kind (instruction.operand index)

/-- The line of a row. -/
def rowText (program : Program) (labels : Std.HashSet Nat) : Row → String
  | .instruction instruction =>
      "    " ++ " ".intercalate
        (instruction.opcode.mnemonic :: operandTexts program labels instruction)
  | .data _ words => "    .data " ++ " ".intercalate (words.map Numeral.print).toList

/-- The offset of the first word of a row. -/
def Row.offset : Row → Nat
  | .instruction written => written.offset
  | .data start _ => start

/-- The lines of a row: its label, if it carries one, and its words. -/
def rowLines (program : Program) (labels : Std.HashSet Nat) (row : Row) : List String :=
  if labels.contains row.offset then [s!"L{row.offset}:", rowText program labels row]
  else [rowText program labels row]

/-- The line that declares a variable. -/
def variableLine (declared : Variable) : String :=
  s!".var {declared.name} {declared.scope.name}" ++
    (if declared.initial = 0 then "" else " default " ++ Numeral.print declared.initial) ++
    (if declared.readOnly then " readonly" else "") ++
    (if declared.zeroWhenInvalid then " zero" else "")

/-- One script of an actor kind, behind the word for its slot. -/
def scriptText (labels : Std.HashSet Nat) (slot : String) : Option Nat → String
  | none => ""
  | some offset => s!" {slot} " ++ entry labels offset

/-- The line that gives the scripts of an actor kind. -/
def actorLine (labels : Std.HashSet Nat) (kind : Word) (scripts : Scripts) : String :=
  ".actor " ++ Numeral.print kind ++ scriptText labels "tick" scripts.tick ++
    scriptText labels "load" scripts.load

/-- The line that gives the handler of an event. -/
def eventLine (labels : Std.HashSet Nat) (id : Word) (offset : Nat) : String :=
  ".event " ++ Numeral.print id ++ " " ++ entry labels offset

/-- The lines of the tables. -/
def header (program : Program) (labels : Std.HashSet Nat) : List String :=
  program.vars.toList.map variableLine ++
    program.actors.toList.map (fun (kind, scripts) => actorLine labels kind scripts) ++
    program.events.toList.map (fun (id, offset) => eventLine labels id offset)

/-- The lines of a listing.  A blank line separates the tables, if there are
any, from the code. -/
def lines (program : Program) : List String :=
  let code := program.code
  let trace := trace code (program.entryPoints.filter (· < code.size))
  let layout := layout code trace
  let labels := labels program trace layout
  let starts := Std.HashSet.ofList (layout.map (·.offset))
  let header := header program labels
  header ++ (if header.isEmpty then [] else [""]) ++
    (rowsFrom code starts labels 0 #[]).toList.flatMap (rowLines program labels)

end Listing

/-- The assembly text of a program. -/
def disassemble (program : Program) : String :=
  "\n".intercalate (Listing.lines program) ++ "\n"

end ActorScript.Assembly
