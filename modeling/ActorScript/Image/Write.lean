import ActorScript.Image.Format

/-!
# Writing program images

`write` puts a program into an image and fails when a name, a count or an
offset does not fit its field.
-/

namespace ActorScript.Image

/-- The number of entries of a part. -/
def writeCount (part : Part) (count : Nat) : Except WriteError (List UInt8) :=
  if count ≤ maxCount then .ok (Bytes.ofNat 4 count) else .error (.partTooLarge part count)

/-- An entry offset, which has to fit a word. -/
def writeOffset (offset : Nat) : Except WriteError (List UInt8) :=
  if offset ≤ Word.maximum then .ok (Bytes.ofWord (Word.ofOffset offset))
  else .error (.offsetTooLarge offset)

/-- The offset of a script, or the word for a missing one. -/
def writeScript : Option Nat → Except WriteError (List UInt8)
  | none => .ok (Bytes.ofWord (-1))
  | some offset => writeOffset offset

/-- A declared variable; its index is for the complaint about its name. -/
def writeVariable (declared : Variable) (index : Nat) : Except WriteError (List UInt8) :=
  let name := declared.name.toUTF8.toList
  let length := declared.name.utf8ByteSize
  if length ≤ maxNameLength then
    .ok (declared.scope.code :: declared.flags ::
      (Bytes.ofWord declared.initial ++ (Bytes.ofNat 2 length ++ name)))
  else .error (.nameTooLong index length)

/-- The scripts of an actor kind. -/
def writeActor (entry : Word × Scripts) : Except WriteError (List UInt8) := do
  let tick ← writeScript entry.2.tick
  let load ← writeScript entry.2.load
  return Bytes.ofWord entry.1 ++ (tick ++ load)

/-- The handler of an event. -/
def writeEvent (entry : Word × Nat) : Except WriteError (List UInt8) := do
  let offset ← writeOffset entry.2
  return Bytes.ofWord entry.1 ++ offset

/-- A part: the number of its entries and then the entries. -/
def writePart {α : Type} (part : Part) (entries : List α)
    (writeEntry : α → Except WriteError (List UInt8)) : Except WriteError (List UInt8) := do
  let count ← writeCount part entries.length
  let written ← entries.mapM writeEntry
  return count ++ written.flatten

/-- Everything in an image in front of its seal. -/
def writeBody (program : Program) : Except WriteError (List UInt8) := do
  let declarations ← writePart .declarations program.vars.toList.zipIdx fun (declared, index) =>
    writeVariable declared index
  let actors ← writePart .actors program.actors.toList writeActor
  let events ← writePart .events program.events.toList writeEvent
  let code ← writePart .code program.code.toList fun word => .ok (Bytes.ofWord word)
  return magic ++ (declarations ++ (actors ++ (events ++ code)))

/-- The image of a program, sealed with a digest. -/
def writeWith (digest : List UInt8 → List UInt8) (program : Program) :
    Except WriteError (List UInt8) := do
  let body ← writeBody program
  return body ++ digest body

/-- The image of a program. -/
def write (program : Program) : Except WriteError (List UInt8) :=
  writeWith Blake3.digest program

/-- The digest of the image of a program, seal included, in base sixteen. -/
def digest (program : Program) : Except WriteError String := do
  let image ← write program
  return Bytes.hex (Blake3.digest image)

end ActorScript.Image
