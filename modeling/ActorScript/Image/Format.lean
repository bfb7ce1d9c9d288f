import ActorScript.Blake3
import ActorScript.Program

/-!
# The format of program images

An image holds a program in bytes.  All numbers are little-endian.

    "AVM1"
    u32 count, then for each variable    u8 scope, u8 flags, i32 initial, u16 length, name
    u32 count, then for each actor kind  i32 kind, i32 tick, i32 load      (-1 for none)
    u32 count, then for each event       i32 event, i32 offset
    u32 count, then the code             i32 word
    32 bytes                             the digest of everything above

This module fixes the constants of the format and what can be wrong with an
image or with a program that is to be put into one.
-/

namespace ActorScript.Image

/-- The bytes at the start of every image. -/
def magic : List UInt8 :=
  [0x41, 0x56, 0x4D, 0x31]

/-- The number of bytes of the seal, the digest at the end of an image. -/
def sealLength : Nat := 32

/-- The longest variable name in bytes. -/
def maxNameLength : Nat := 0xFFFF

/-- The largest number of entries of a part. -/
def maxCount : Nat := 0xFFFFFFFF

/-- The parts of an image. -/
inductive Part where
  | declarations
  | actors
  | events
  | code
deriving DecidableEq, Repr

/-- The name of a part in diagnostics. -/
def Part.name : Part → String
  | .declarations => "variable"
  | .actors => "actor"
  | .events => "event"
  | .code => "code"

/-- What can be wrong with an image. -/
inductive ReadError where
  /-- The image does not start with the magic bytes. -/
  | badMagic
  /-- The image ends in the middle of a field. -/
  | unexpectedEnd (position : Nat)
  /-- Bytes are left between the code and the seal. -/
  | trailingBytes (count : Nat)
  /-- No scope has this code. -/
  | invalidScope (code : UInt8)
  /-- The flags have a bit that means nothing. -/
  | invalidFlags (flags : UInt8)
  /-- The bytes of a variable name are not UTF-8. -/
  | invalidName (position : Nat)
  /-- An offset is negative and does not stand for a missing script. -/
  | invalidOffset (position : Nat) (value : Word)
  /-- The seal is not the digest of what stands in front of it. -/
  | checksumMismatch
  /-- A table has two entries for one key. -/
  | duplicateKey (part : Part) (key : Word)
deriving DecidableEq, Repr

/-- The text of a complaint about an image. -/
def ReadError.message : ReadError → String
  | .badMagic => "bad magic: expected \"AVM1\""
  | .unexpectedEnd position => s!"unexpected end of image at byte {position}"
  | .trailingBytes count => s!"{count} trailing bytes after code section"
  | .invalidScope code => s!"invalid variable scope: {code}"
  | .invalidFlags flags => s!"invalid variable flags: 0x{Bytes.hex [flags]}"
  | .invalidName position => s!"variable name at byte {position} is not valid UTF-8"
  | .invalidOffset position value => s!"invalid offset {value} at byte {position}"
  | .checksumMismatch => "checksum mismatch"
  | .duplicateKey part key => s!"{part.name} table lists key {key} twice"

/-- What can keep a program out of an image. -/
inductive WriteError where
  /-- The name of a variable has too many bytes. -/
  | nameTooLong (index length : Nat)
  /-- A part has too many entries. -/
  | partTooLarge (part : Part) (length : Nat)
  /-- An entry offset is larger than any word. -/
  | offsetTooLarge (offset : Nat)
deriving DecidableEq, Repr

/-- The text of a complaint about a program. -/
def WriteError.message : WriteError → String
  | .nameTooLong index length =>
      s!"name of variable {index} is {length} bytes (max {maxNameLength})"
  | .partTooLarge part length => s!"{part.name} section has {length} entries"
  | .offsetTooLarge offset => s!"entry offset {offset} does not fit in an image"

/-- The scope with a code. -/
def scopeOfCode (code : UInt8) : Except ReadError Scope :=
  match Scope.ofCode? code with
  | some scope => .ok scope
  | none => .error (.invalidScope code)

/-- A variable with both flags set from a byte. -/
def withFlags (declared : Variable) (flags : UInt8) : Except ReadError Variable :=
  match declared.withFlags? flags with
  | some flagged => .ok flagged
  | none => .error (.invalidFlags flags)

end ActorScript.Image
