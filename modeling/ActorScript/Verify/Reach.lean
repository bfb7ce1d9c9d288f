import ActorScript.Program
import ActorScript.Trace
import ActorScript.Verify.Finding

/-!
# Limits and control flow

The sizes of a program have to stay within their limits, every entry offset
has to lie inside the stream, and so does everything that control flow reaches
from there.
-/

namespace ActorScript.Verify

/-- The variables whose names do not fit an image. -/
def longNames (program : Program) : List Finding :=
  program.vars.toList.zipIdx.filterMap fun (declared, id) =>
    let length := declared.name.utf8ByteSize
    if length > Image.maxNameLength then some (.nameTooLong id length) else none

/-- What is too large about a program. -/
def limitFindings (program : Program) : List Finding :=
  (if program.code.size > maxWords then [.programTooLarge program.code.size] else []) ++
    (if program.vars.size > maxVariables then [.tooManyVariables program.vars.size] else []) ++
    longNames program

/-- The entries of one actor kind. -/
def actorEntries (kind : Word) (scripts : Scripts) : List (Entry × Nat) :=
  scripts.tick.toList.map (fun offset => (.tick kind, offset)) ++
    scripts.load.toList.map (fun offset => (.load kind, offset))

/-- Every entry of a program, in the order of the tables. -/
def entries (program : Program) : List (Entry × Nat) :=
  program.actors.toList.flatMap (fun (kind, scripts) => actorEntries kind scripts) ++
    program.events.toList.map fun (id, offset) => (.event id, offset)

/-- What is wrong with the entries of a program. -/
def entryFindings (program : Program) : List Finding :=
  (program.events.toList.filterMap fun (id, _) =>
    if id < 0 then some (.invalidEventId id) else none) ++
  (entries program).filterMap fun (entry, offset) =>
    if offset < program.code.size then none else some (.entryOutOfRange entry offset)

/-- The entry offsets inside the stream, ascending and each once. -/
def roots (program : Program) : List Nat :=
  program.entryPoints.filter (· < program.code.size)

/-- What control flow reaches from the entry offsets inside the stream. -/
def reached (program : Program) : Trace :=
  trace program.code (roots program)

/-- The finding about a target outside the stream.  The fall-through behind
the last word is told apart from a jump by its value. -/
def strayFinding (size : Nat) (trace : Trace) (offset : Nat) (target : Word) : Finding :=
  match trace.starts[offset]? with
  | some length =>
      if offset + length = size ∧ target = Word.ofOffset size then .runsOffEnd offset
      else .danglingTarget offset target
  | none => .danglingTarget offset target

/-- What is wrong with where control flow leads. -/
def flowFindings (size : Nat) (trace : Trace) : List Finding :=
  trace.faults.toList.map .unreadable ++
    trace.dangling.toList.map fun (offset, target) => strayFinding size trace offset target

end ActorScript.Verify
