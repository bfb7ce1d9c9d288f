import ActorScript.Assembly.Line
import Std.Data.HashMap

/-!
# Assembling

Assembly text is read line by line.  A first pass over the lines collects the
labels, each with the number of words in front of it, and the variables; a
second pass turns every symbol into a word.  The first complaint ends the
attempt: about the form of a line, then about repeated definitions, then about
unknown symbols, then about repeated table entries.
-/

namespace ActorScript.Assembly

/-- A line and its number, counted from one. -/
structure Numbered where
  number : Nat
  line : Line
deriving DecidableEq, Repr

/-- Reads the lines of a text. -/
def readLines (text : List Char) : Except Complaint (List Numbered) :=
  (Text.lines text).zipIdx.mapM fun (line, index) =>
    onLine (index + 1) ((Line.read line).map fun line => ⟨index + 1, line⟩)

/-- The symbols defined by lines. -/
structure Symbols where
  /-- The labels, each with the offset that it stands for. -/
  labels : Std.HashMap String Nat := {}
  vars : Array Variable := #[]
  /-- The number of words that the lines take up. -/
  offset : Nat := 0

namespace Symbols

/-- The identifier of a variable. -/
def varId? (symbols : Symbols) (name : String) : Option Nat :=
  symbols.vars.findIdx? fun declared => declared.name == name

/-- Adds a label for the current offset. -/
def addLabel (symbols : Symbols) (label : Option String) : Except Problem Symbols :=
  match label with
  | none => .ok symbols
  | some label =>
      if symbols.labels.contains label then .error (.duplicateLabel label)
      else .ok { symbols with labels := symbols.labels.insert label symbols.offset }

/-- Adds a declared variable, or moves on by the words of another item. -/
def addItem (symbols : Symbols) (item : Option Item) : Except Problem Symbols :=
  match item with
  | none => .ok symbols
  | some (.declare declared) =>
      if (symbols.varId? declared.name).isSome then .error (.duplicateVariable declared.name)
      else .ok { symbols with vars := symbols.vars.push declared }
  | some item => .ok { symbols with offset := symbols.offset + item.length }

/-- Adds what a line defines. -/
def addLine (symbols : Symbols) (numbered : Numbered) : Except Complaint Symbols :=
  onLine numbered.number do
    let symbols ← symbols.addLabel numbered.line.label
    symbols.addItem numbered.line.item

/-- The symbols that lines define. -/
def ofLines (lines : List Numbered) : Except Complaint Symbols :=
  lines.foldlM addLine {}

/-- The word that an argument stands for. -/
def resolve (symbols : Symbols) (argument : Argument) : Except Problem Word :=
  match argument with
  | .number value => .ok value
  | .self => .ok selfHandle
  | .label name =>
      match symbols.labels[name]? with
      | some offset => .ok (Word.ofOffset offset)
      | none => .error (.unknownLabel name)
  | .name name =>
      match symbols.varId? name with
      | some id => .ok (Word.ofOffset id)
      | none => .error (.unknownVariable name)

/-- The entry offset that an argument stands for. -/
def resolveEntry (symbols : Symbols) (argument : Argument) : Except Problem Nat := do
  let value ← symbols.resolve argument
  match value.offset? with
  | some offset => return offset
  | none => throw (.invalidOffset value)

/-- The entry offset of a script, if there is one. -/
def resolveScript (symbols : Symbols) : Option Argument → Except Problem (Option Nat)
  | none => .ok none
  | some argument => (symbols.resolveEntry argument).map some

end Symbols

/-- What a line adds to a program besides its variables. -/
inductive Emission where
  | words (words : List Word)
  | scripts (kind : Word) (scripts : Scripts)
  | handler (id : Word) (offset : Nat)
deriving DecidableEq, Repr

namespace Emission

/-- What an item adds to a program. -/
def ofItem (symbols : Symbols) (item : Item) : Except Problem Emission :=
  match item with
  | .instruction opcode arguments => do
      let operands ← arguments.mapM symbols.resolve
      return .words (opcode.word :: operands)
  | .data arguments => do
      let operands ← arguments.mapM symbols.resolve
      return .words operands
  | .declare _ => return .words []
  | .actor kind tick load => do
      let tick ← symbols.resolveScript tick
      let load ← symbols.resolveScript load
      return .scripts kind { tick, load }
  | .event id target => do
      let offset ← symbols.resolveEntry target
      return .handler id offset

/-- What a line adds to a program, with the number of the line. -/
def ofLine (symbols : Symbols) (numbered : Numbered) : Except Complaint (Nat × Emission) :=
  match numbered.line.item with
  | none => .ok (numbered.number, .words [])
  | some item =>
      onLine numbered.number ((ofItem symbols item).map fun added => (numbered.number, added))

/-- The words that a line adds to the stream. -/
def code : Emission → List Word
  | words added => added
  | scripts _ _ | handler _ _ => []

/-- Adds the scripts of an actor kind, which must not have any yet. -/
def addScripts (table : Table Scripts) (added : Nat × Emission) :
    Except Complaint (Table Scripts) :=
  match added.2 with
  | scripts kind entry =>
      if table.contains kind then .error ⟨added.1, .duplicateActor kind⟩
      else .ok (table.insert kind entry)
  | words _ | handler _ _ => .ok table

/-- Adds the handler of an event, which must not have one yet. -/
def addHandler (table : Table Nat) (added : Nat × Emission) :
    Except Complaint (Table Nat) :=
  match added.2 with
  | handler id offset =>
      if table.contains id then .error ⟨added.1, .duplicateEvent id⟩
      else .ok (table.insert id offset)
  | words _ | scripts _ _ => .ok table

end Emission

/-- The program that lines describe. -/
def ofLines (lines : List Numbered) : Except Complaint Program := do
  let symbols ← Symbols.ofLines lines
  let added ← lines.mapM (Emission.ofLine symbols)
  let actors ← added.foldlM Emission.addScripts {}
  let events ← added.foldlM Emission.addHandler {}
  return {
    code := (added.flatMap fun (_, emission) => emission.code).toArray
    vars := symbols.vars
    actors
    events }

/-- The program that a text describes, or the first complaint about it. -/
def assemble (text : String) : Except Complaint Program := do
  let lines ← readLines text.toList
  ofLines lines

end ActorScript.Assembly
