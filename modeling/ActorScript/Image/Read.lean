import ActorScript.Image.Format

/-!
# Reading program images

`read` checks the magic bytes and the seal of an image and then reads its
parts in order.  A field is read at a cursor, which knows its position for the
sake of complaints.
-/

namespace ActorScript.Image

/-- A place in an image: the number of bytes in front of it and the rest. -/
structure Cursor where
  position : Nat
  rest : List UInt8

/-- Reads something at a cursor and moves the cursor behind it. -/
abbrev Reader (α : Type) := StateT Cursor (Except ReadError) α

namespace Reader

/-- The position of the cursor. -/
def position : Reader Nat :=
  fun cursor => .ok (cursor.position, cursor)

/-- The next bytes. -/
def take (count : Nat) : Reader (List UInt8) := fun cursor =>
  let bytes := cursor.rest.take count
  if bytes.length = count then
    .ok (bytes, ⟨cursor.position + count, cursor.rest.drop count⟩)
  else .error (.unexpectedEnd cursor.position)

/-- A number of the given width in bytes. -/
def number (width : Nat) : Reader Nat := do
  let bytes ← take width
  return Bytes.toNat bytes

/-- A word. -/
def word : Reader Word := do
  let bytes ← take 4
  return Bytes.toWord bytes

/-- The given number of items, behind those that are there already. -/
def repeatItem {α : Type} (item : Reader α) : Nat → Array α → Reader (Array α)
  | 0, items => pure items
  | count + 1, items => do
      let next ← item
      repeatItem item count (items.push next)

/-- The offset of a script, or none for the word that stands for a missing one. -/
def script : Reader (Option Nat) := do
  let start ← position
  let value ← word
  if value = -1 then return none
  match value.offset? with
  | some offset => return some offset
  | none => throw (.invalidOffset start value)

/-- A declared variable. -/
def declaration : Reader Variable := do
  let code ← number 1
  let scope ← scopeOfCode (UInt8.ofNat code)
  let flags ← number 1
  let initial ← word
  let length ← number 2
  let start ← position
  let bytes ← take length
  match String.fromUTF8? bytes.toByteArray with
  | none => throw (.invalidName start)
  | some name => withFlags { name, scope, initial } (UInt8.ofNat flags)

/-- The scripts of an actor kind. -/
def actor : Reader (Word × Scripts) := do
  let kind ← word
  let tick ← script
  let load ← script
  return (kind, { tick, load })

/-- The handler of an event, which cannot be missing. -/
def event : Reader (Word × Nat) := do
  let key ← word
  let start ← position
  match ← script with
  | some offset => return (key, offset)
  | none => throw (.invalidOffset start (-1))

/-- The given number of entries of a table, in addition to those it has. -/
def entries {α : Type} (part : Part) (entry : Reader (Word × α)) :
    Nat → Table α → Reader (Table α)
  | 0, table => pure table
  | count + 1, table => do
      let (key, value) ← entry
      if table.contains key then throw (.duplicateKey part key)
      entries part entry count (table.insert key value)

/-- The parts of an image between its magic bytes and its seal. -/
def program : Reader Program := do
  let vars ← repeatItem declaration (← number 4) #[]
  let actors ← entries .actors actor (← number 4) {}
  let events ← entries .events event (← number 4) {}
  let code ← repeatItem word (← number 4) #[]
  return { code, vars, actors, events }

end Reader

/-- Reads the parts of an image, which have to fill it up to its seal. -/
def readBody (body : List UInt8) : Except ReadError Program := do
  let (program, cursor) ← Reader.program.run ⟨magic.length, body.drop magic.length⟩
  if cursor.rest.isEmpty then return program
  throw (.trailingBytes cursor.rest.length)

/-- The program in an image that is sealed with a digest. -/
def readWith (digest : List UInt8 → List UInt8) (image : List UInt8) :
    Except ReadError Program :=
  let length := image.length
  if length ≥ magic.length ∧ image.take magic.length ≠ magic then .error .badMagic
  else if length < magic.length + sealLength then .error (.unexpectedEnd length)
  else
    let body := image.take (length - sealLength)
    if digest body = image.drop (length - sealLength) then readBody body
    else .error .checksumMismatch

/-- The program in an image. -/
def read (image : List UInt8) : Except ReadError Program :=
  readWith Blake3.digest image

end ActorScript.Image
