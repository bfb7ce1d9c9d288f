import ActorScript.Command

/-!
# Command line

Reads the arguments, carries the command out on real files, and prints its
response.
-/

namespace ActorScript.CommandLine

/-- How the tool is called. -/
def usage : String := Text.unlines [
  "usage: actorscript assemble INPUT [--output PATH]",
  "       actorscript disassemble INPUT",
  "       actorscript verify INPUT",
  "       actorscript run INPUT [--kind N]... [--count N] [--ticks N] [--event N]...",
  "                             [--players N] [--config PATH] [--json]"]

/-- An argument that is a word. -/
def wordArgument (argument : String) : Option Word :=
  argument.toInt?.bind Numeral.wordOfInt

/-- An argument that is a number below a bound. -/
def countArgument (bound : Nat) (argument : String) : Option Nat :=
  argument.toNat?.filter (· < bound)

/-- The scenario, the settings file and the form of the report that options ask for. -/
def runOptions (input : String) (scenario : Scenario) (config : Option String) (json : Bool) :
    List String → Option Command
  | [] => some (.run input scenario config json)
  | "--json" :: rest => runOptions input scenario config true rest
  | "--config" :: path :: rest => runOptions input scenario (some path) json rest
  | "--kind" :: argument :: rest => do
      let kind ← wordArgument argument
      runOptions input { scenario with kinds := scenario.kinds ++ [kind] } config json rest
  | "--event" :: argument :: rest => do
      let event ← wordArgument argument
      runOptions input { scenario with events := scenario.events ++ [event] } config json rest
  | "--count" :: argument :: rest => do
      let count ← countArgument 0x10000000000000000 argument
      runOptions input { scenario with count } config json rest
  | "--ticks" :: argument :: rest => do
      let ticks ← countArgument 0x100000000 argument
      runOptions input { scenario with ticks } config json rest
  | "--players" :: argument :: rest => do
      let players ← countArgument 0x10000 argument
      runOptions input { scenario with players := UInt16.ofNat players } config json rest
  | _ => none

/-- The command that the arguments ask for. -/
def commandOf : List String → Option Command
  | ["assemble", input] => some (.assemble input none)
  | ["assemble", input, "--output", output] => some (.assemble input (some output))
  | ["assemble", input, "-o", output] => some (.assemble input (some output))
  | ["disassemble", input] => some (.disassemble input)
  | ["verify", input] => some (.verify input)
  | "run" :: input :: options => runOptions input {} none false options
  | _ => none

/-- The files that a command may read. -/
def inputsOf : Command → List String
  | .assemble input _ | .disassemble input | .verify input => [input]
  | .run input _ config _ => input :: config.toList

/-- Why the system has refused access to a file. -/
def fileErrorOf : IO.Error → FileError
  | .noFileOrDirectory _ _ _ | .noSuchThing _ _ _ => .missing
  | .inappropriateType _ 20 _ => .notDirectory
  | .inappropriateType _ 21 _ => .isDirectory
  | error => .other error.toString

/-- Reads a file. -/
def readFile (path : String) : IO (Except FileError (List UInt8)) := do
  try
    return .ok (← IO.FS.readBinFile path).toList
  catch error => return .error (fileErrorOf error)

/-- Writes an image and gives the response to it. -/
def writeImage (path : String) (words : Nat) (content : List UInt8) : IO Response := do
  try
    IO.FS.writeBinFile path content.toByteArray
    return Command.written path words content
  catch error => return (Failure.unwritable path (fileErrorOf error)).response

/-- Carries a command out on real files. -/
def perform (command : Command) : IO Response := do
  let contents ← (inputsOf command).mapM fun path => do return (path, ← readFile path)
  match command.result fun path => (contents.lookup path).getD (.error .missing) with
  | .finished response => return response
  | .image path words content => writeImage path words content

end ActorScript.CommandLine

open ActorScript.CommandLine in
/-- Runs the tool. -/
def main (arguments : List String) : IO UInt32 := do
  match commandOf arguments with
  | none =>
      (← IO.getStderr).putStr usage
      return 2
  | some command =>
      let response ← perform command
      (← IO.getStdout).putStr response.stdout
      (← IO.getStderr).putStr response.stderr
      return UInt32.ofNat response.code
