/-!
# Files

The files around a working directory, and what stands in the way of reading and
writing them.  A path is followed part by part, as on the systems that separate
parts by a slash.

Only the path decides whether a file can be read or written.  Faults of the
device, a lack of space and missing permissions lie outside this description, so
that a file is written as a whole or not at all.
-/

namespace ActorScript

/-- Why a file cannot be read or written. -/
inductive FileError where
  | missing
  | notDirectory
  | isDirectory
  | nameTooLong
  | nulInName
  /-- The content is not in UTF-8. -/
  | notText
  /-- Anything else, in the words of the system. -/
  | other (reason : String)
deriving DecidableEq, Repr

/-- The text of a file error. -/
def FileError.message : FileError → String
  | .missing => "No such file or directory (os error 2)"
  | .notDirectory => "Not a directory (os error 20)"
  | .isDirectory => "Is a directory (os error 21)"
  | .nameTooLong => "File name too long (os error 36)"
  | .nulInName => "file name contained an unexpected NUL byte"
  | .notText => "stream did not contain valid UTF-8"
  | .other reason => reason

/-- The names on the way from the working directory to a file or a directory.
The way may start upwards, with `..` for each step, or at the root, with `/`. -/
abbrev Place := List String

/-- The files of a file system.  A directory exists as long as a file is in it. -/
structure Files where
  entries : List (Place × List UInt8) := []
deriving DecidableEq, Repr

/-- What a path leads to. -/
inductive Spot where
  | file (place : Place) (content : List UInt8)
  | directory
  /-- Nothing, in a directory that exists. -/
  | vacant (place : Place)
  /-- No directory, where a slash at the end of the path asks for one. -/
  | noDirectory (error : FileError)
deriving DecidableEq, Repr

namespace Files

/-- The content of a file. -/
def content? (files : Files) (place : Place) : Option (List UInt8) :=
  files.entries.lookup place

/-- The working directory, one that contains it, or the root. -/
def isStart (place : Place) : Bool :=
  place.all (· == "..") || place == ["/"]

/-- A place is that of a directory: a file lies below it, or it was there from
the start. -/
def hasDirectory (files : Files) (place : Place) : Bool :=
  isStart place ||
    files.entries.any fun entry => place.isPrefixOf entry.1 && place.length < entry.1.length

/-- The directory that contains another one.  The root contains itself. -/
def parent (directory : Place) : Place :=
  if directory == ["/"] then directory
  else if isStart directory then directory ++ [".."]
  else directory.dropLast

/-- The files with one more or one changed. -/
def put (files : Files) (place : Place) (content : List UInt8) : Files :=
  ⟨(place, content) :: files.entries.filter fun entry => entry.1 != place⟩

/-- The longest name of a file, in bytes. -/
def maxNameLength : Nat := 255

/-- The longest path, in bytes. -/
def maxPathLength : Nat := 4095

/-- Why the way does not go on at the last name of a place, where no directory is. -/
def obstacle (files : Files) (place : Place) (name : String) : FileError :=
  if maxNameLength < name.utf8ByteSize then .nameTooLong
  else if (files.content? place).isSome then .notDirectory
  else .missing

/-- The end of a path at the last name of a place, where no directory is. -/
def arrive (files : Files) (place : Place) (name : String) : Except FileError Spot :=
  if maxNameLength < name.utf8ByteSize then .error .nameTooLong
  else
    match files.content? place with
    | some content => .ok (.file place content)
    | none => .ok (.vacant place)

/-- Follows the rest of a path from a directory. -/
def walk (files : Files) (directory : Place) : List String → Except FileError Spot
  | [] => .ok .directory
  | part :: rest =>
      if part = "" || part = "." then walk files directory rest
      else if part = ".." then walk files (parent directory) rest
      else
        let place := directory ++ [part]
        if files.hasDirectory place then walk files place rest
        else if rest.isEmpty then files.arrive place part
        else if rest.all (·.isEmpty) then .ok (.noDirectory (files.obstacle place part))
        else .error (files.obstacle place part)

/-- The parts of a path. -/
def partsOf (path : String) : List String :=
  path.splitOn "/"

/-- What a path leads to. -/
def find (files : Files) (path : String) : Except FileError Spot :=
  if path.contains '\x00' then .error .nulInName
  else if path.isEmpty then .error .missing
  else if maxPathLength < path.utf8ByteSize then .error .nameTooLong
  else walk files (if path.startsWith "/" then ["/"] else []) (partsOf path)

/-- Reads a file. -/
def read (files : Files) (path : String) : Except FileError (List UInt8) :=
  match files.find path with
  | .error error => .error error
  | .ok (.file _ content) => .ok content
  | .ok .directory => .error .isDirectory
  | .ok (.vacant _) => .error .missing
  | .ok (.noDirectory error) => .error error

/-- Writes a file, which need not exist, into a directory that does.  A write fails only for what
its path leads to, before anything of the content is written, and never half way. -/
def write (files : Files) (path : String) (content : List UInt8) : Except FileError Files :=
  match files.find path with
  | .error error => .error error
  | .ok (.file place _) | .ok (.vacant place) => .ok (files.put place content)
  | .ok .directory | .ok (.noDirectory _) => .error .isDirectory

end Files

/-- The text in a file. -/
def textOf (content : List UInt8) : Except FileError String :=
  match String.fromUTF8? content.toByteArray with
  | some text => .ok text
  | none => .error .notText

end ActorScript
