/-!
# Lines of output

Texts that are made of lines, each with a line break at its end.
-/

namespace ActorScript.Text

/-- A line of a text. -/
def line (text : String) : String :=
  text ++ "\n"

/-- Lines, one behind the other. -/
def unlines (lines : List String) : String :=
  String.join (lines.map line)

end ActorScript.Text
