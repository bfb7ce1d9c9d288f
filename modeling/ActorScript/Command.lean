import ActorScript.Assembly.Assemble
import ActorScript.Assembly.Listing
import ActorScript.Config.Read
import ActorScript.Files
import ActorScript.Image.Read
import ActorScript.Image.Write
import ActorScript.Simulation
import ActorScript.Verify

/-!
# Commands

The four commands of the tool chain.  A command reads its files and then has
either finished or has an image left to write.  `execute` carries a command out
on the files of a working directory, where an image is written as a whole or not
at all.
-/

namespace ActorScript

/-- A command with its arguments. -/
inductive Command where
  /-- Assembles a text into an image. -/
  | assemble (input : String) (output : Option String)
  /-- Prints a program as assembly. -/
  | disassemble (input : String)
  /-- Checks a program. -/
  | verify (input : String)
  /-- Checks a program and simulates it. -/
  | run (input : String) (scenario : Scenario) (config : Option String) (json : Bool)
deriving DecidableEq, Repr

/-- Why a command has failed. -/
inductive Failure where
  | unreadable (path : String) (error : FileError)
  | unwritable (path : String) (error : FileError)
  /-- The text of a file is not assembly. -/
  | unassemblable (path : String) (complaint : Assembly.Complaint)
  /-- The program of a file does not fit an image. -/
  | unencodable (path : String) (error : Image.WriteError)
  /-- A file starts like an image and is none. -/
  | undecodable (path : String) (error : Image.ReadError)
  | neitherImageNorText (path : String)
  /-- Something is wrong with a program. -/
  | unverified (findings : List Verify.Finding)
  /-- A settings file is refused, for a reason that is not described. -/
  | invalidConfig (path : String)
  /-- A fault of the program has ended its simulation. -/
  | stopped (error : RuntimeError)
deriving DecidableEq, Repr

/-- What a command leaves behind, apart from files.  The lines of a log, which the whole program
can be asked to write to `stderr` as well, are left out: the command itself sets no logger up. -/
structure Response where
  code : Nat := 0
  stdout : String := ""
  stderr : String := ""
deriving DecidableEq, Repr

namespace Failure

/-- The exit code of a failure. -/
def code : Failure → Nat
  | unverified _ => 2
  | stopped _ => 3
  | _ => 1

/-- The text of a failure.  For a settings file that is refused it stops at the colon, behind
which the reason would stand. -/
def text : Failure → String
  | unreadable path error => Text.line s!"error: cannot read '{path}': {error.message}"
  | unwritable path error => Text.line s!"error: cannot write '{path}': {error.message}"
  | unassemblable path complaint => Text.line s!"error: {path}: {complaint.message}"
  | unencodable path error => Text.line s!"error: {path}: {error.message}"
  | undecodable path error => Text.line s!"error: cannot decode '{path}': {error.message}"
  | neitherImageNorText path =>
      Text.line s!"error: '{path}' is neither a program image nor assembly text"
  | unverified findings => Text.unlines (findings.map fun finding => "error: " ++ finding.message)
  | invalidConfig path => s!"error: invalid config '{path}': "
  | stopped error => Text.line ("runtime error: " ++ error.message)

/-- The response of a command that has failed. -/
def response (failure : Failure) : Response :=
  { code := failure.code, stderr := failure.text }

end Failure

namespace Command

/-- A way to read files. -/
abbrev Reader := String → Except FileError (List UInt8)

/-- What a command comes to when it has read its files. -/
inductive Result where
  | finished (response : Response)
  /-- The image of a program of so many words is to be written. -/
  | image (path : String) (words : Nat) (content : List UInt8)
deriving DecidableEq, Repr

/-- Reads a text. -/
def readText (read : Reader) (path : String) : Except Failure String :=
  match read path with
  | .error error => .error (.unreadable path error)
  | .ok content =>
      match textOf content with
      | .error error => .error (.unreadable path error)
      | .ok text => .ok text

/-- Assembles the text of a file. -/
def assembleText (path text : String) : Except Failure Program :=
  match Assembly.assemble text with
  | .error complaint => .error (.unassemblable path complaint)
  | .ok program => .ok program

/-- The program in the content of a file, which is an image if it starts like
one, and otherwise assembly. -/
def programOf (path : String) (content : List UInt8) : Except Failure Program :=
  if content.take Image.magic.length = Image.magic then
    match Image.read content with
    | .error error => .error (.undecodable path error)
    | .ok program => .ok program
  else
    match textOf content with
    | .error _ => .error (.neitherImageNorText path)
    | .ok text => assembleText path text

/-- Reads a program. -/
def readProgram (read : Reader) (path : String) : Except Failure Program :=
  match read path with
  | .error error => .error (.unreadable path error)
  | .ok content => programOf path content

/-- Refuses a program about which there are findings. -/
def check (program : Program) : Except Failure Unit :=
  match Verify.findings program with
  | [] => .ok ()
  | findings => .error (.unverified findings)

/-- Reads the settings of a session, which are the default ones without a file. -/
def readConfig (read : Reader) : Option String → Except Failure Config
  | none => .ok {}
  | some path => do
      let text ← readText read path
      match Config.read text with
      | none => throw (.invalidConfig path)
      | some config => return config

/-- The name of a file without what follows its last dot, unless the name
starts there. -/
def stem (name : List Char) : List Char :=
  match name.reverse.dropWhile (· ≠ '.') with
  | _ :: char :: rest => (char :: rest).reverse
  | _ => name

/-- The name of the image of a text.  A stem that is a dot cannot take another
dot behind it without becoming the name of the directory above. -/
def imageName (name : List Char) : List Char :=
  if stem name = ['.'] then ['.', '.'] else stem name ++ ['.', 'a', 'v', 'm', 'b']

/-- The path of the image of a text when no other is given: beside the text. -/
def imagePath (input : String) : String :=
  let path := input.toList
  let name := (path.reverse.takeWhile (· ≠ '/')).reverse
  String.ofList (path.take (path.length - name.length) ++ imageName name)

/-- The image to write for a text. -/
def assembled (read : Reader) (input : String) (output : Option String) :
    Except Failure Result := do
  let program ← assembleText input (← readText read input)
  match Image.write program with
  | .error error => throw (.unencodable input error)
  | .ok content =>
      return .image (output.getD (imagePath input)) program.code.size content

/-- The line of a program without findings. -/
def okLine (input : String) (program : Program) : String :=
  Text.line (s!"OK: {input} ({program.code.size} words, {program.actors.size} actor kinds, " ++
    s!"{program.events.size} events)")

/-- The response to a program without findings. -/
def verified (input : String) (program : Program) : Response :=
  let ok := okLine input program
  match Image.digest program with
  | .ok digest => { stdout := ok ++ Text.line ("digest: " ++ digest) }
  | .error error => { code := 1, stdout := ok, stderr := Text.line ("error: " ++ error.message) }

/-- The text of a report in the form asked for. -/
def reportText (json : Bool) (report : Report) : String :=
  if json then Text.line report.json.render else report.text

/-- What a command comes to, or why it fails. -/
def attempt (read : Reader) : Command → Except Failure Result
  | assemble input output => assembled read input output
  | disassemble input => do
      let program ← readProgram read input
      return .finished { stdout := Assembly.disassemble program }
  | verify input => do
      let program ← readProgram read input
      check program
      return .finished (verified input program)
  | run input scenario config json => do
      let program ← readProgram read input
      check program
      let config ← readConfig read config
      match scenario.simulate { program, config } with
      | .error error => throw (.stopped error)
      | .ok report => return .finished { stdout := reportText json report }

/-- What a command comes to. -/
def result (read : Reader) (command : Command) : Result :=
  match command.attempt read with
  | .ok result => result
  | .error failure => .finished failure.response

/-- The response when an image has been written. -/
def written (path : String) (words : Nat) (content : List UInt8) : Response :=
  { stderr := Text.line s!"assembled {words} words ({content.length} bytes) -> {path}" }

/-- Carries a command out on the files of a working directory.  An image that cannot be written
leaves all files as they are, as a write fails only for its path. -/
def execute (files : Files) (command : Command) : Response × Files :=
  match command.result files.read with
  | .finished response => (response, files)
  | .image path words content =>
      match files.write path content with
      | .error error => ((Failure.unwritable path error).response, files)
      | .ok after => (written path words content, after)

end Command

end ActorScript
