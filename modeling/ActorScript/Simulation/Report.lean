import ActorScript.Json.Basic
import ActorScript.Machine.Entry
import ActorScript.Text.Lines
import ActorScript.World.Field

/-!
# Reports

What a simulation tells about itself, as a text and as a JSON value: its steps,
the values of the variables at the end, and the effects of the scripts.
-/

namespace ActorScript

/-- Variables by name, in the order of their declarations. -/
abbrev Values := List (String × Word)

/-- The frames of one pass over the entities. -/
structure StepReport where
  label : String
  /-- The number of frames. -/
  frames : Nat
  /-- The entities that did not survive their frames. -/
  deleted : List EntityId
deriving DecidableEq, Repr

/-- An entity at the end of a simulation. -/
structure EntityReport where
  id : EntityId
  kind : Word
  values : Values
deriving DecidableEq, Repr

/-- What a simulation tells about itself. -/
structure Report where
  steps : List StepReport
  globals : Values
  entities : List EntityReport
  /-- The variables of each player. -/
  players : List Values
  effects : List EffectRecord
deriving DecidableEq, Repr

/-- The report on a pass. -/
def StepReport.ofPass (label : String) (pass : Machine.PassReport) : StepReport where
  label := label
  frames := pass.size
  deleted := (pass.toList.filter fun entry => entry.2 ≠ .normal).map (·.1)

/-- The values of the variables of one scope at an address. -/
def Registry.valuesIn (registry : Registry) (scope : Scope) (address : Address) : Values :=
  (registry.vars.toList.zipIdx.filter fun declared => declared.1.scope = scope).map
    fun (declared, index) => (declared.name, registry.get (Word.ofOffset index) address)

/-- The report on the end of a simulation. -/
def Report.ofMachine (machine : Machine World) (players : UInt16) (steps : List StepReport) :
    Report where
  steps := steps
  globals := machine.registry.valuesIn .global {}
  entities := machine.world.census.map fun (id, entity) =>
    ⟨id, entity.kind, machine.registry.valuesIn .actor { entity := some id }⟩
  players := (List.range players.toNat).map fun number =>
    machine.registry.valuesIn .player { player := some (UInt16.ofNat number) }
  effects := machine.world.effects.toList

/-! ## Text -/

/-- The lines of variables. -/
def Values.lines (values : Values) : List String :=
  values.map fun (name, value) => s!"  {name} = {value}"

/-- The line of a pass, with the deleted entities in parentheses. -/
def StepReport.line (step : StepReport) : String :=
  let deleted :=
    if step.deleted.isEmpty then ""
    else " (" ++ ", ".intercalate (step.deleted.map EntityId.text) ++ ")"
  s!"{step.label}: {step.frames} frames, {step.deleted.length} deleted" ++ deleted

/-- The lines of an entity. -/
def EntityReport.lines (entity : EntityReport) : List String :=
  s!"entity {entity.id.text} kind {entity.kind}:" :: entity.values.lines

/-- The lines of variables under a heading; none without variables. -/
def Values.under (heading : String) (values : Values) : List String :=
  if values.isEmpty then [] else heading :: values.lines

/-- The line of an effect, with a dash when it has no entity. -/
def EffectRecord.line (record : EffectRecord) : String :=
  let source := match record.entity with
    | some id => id.text
    | none => "-"
  s!"  {source} {record.effect.text}"

/-- The lines of a report. -/
def Report.lines (report : Report) : List String :=
  report.steps.map StepReport.line ++
    report.globals.under "globals:" ++
    report.entities.flatMap EntityReport.lines ++
    (report.players.zipIdx.flatMap fun (values, number) =>
      values.under s!"player {number}:") ++
    s!"effects: {report.effects.length}" :: report.effects.map EffectRecord.line

/-- The text of a report. -/
def Report.text (report : Report) : String :=
  Text.unlines report.lines

/-! ## JSON -/

/-- The identity of an entity as a JSON value. -/
def EntityId.json (id : EntityId) : Json :=
  .text id.text

/-- A pass as a JSON value. -/
def StepReport.json (step : StepReport) : Json :=
  .ofMembers [("step", .text step.label), ("frames", .integer step.frames),
    ("deleted", .array (step.deleted.map EntityId.json))]

/-- An entity as a JSON value. -/
def EntityReport.json (entity : EntityReport) : Json :=
  .ofMembers [("id", entity.id.json), ("kind", .integer entity.kind.toInt),
    ("vars", .ofWords entity.values)]

/-- An effect as a JSON value. -/
def EffectRecord.json (record : EffectRecord) : Json :=
  .ofMembers [("entity", (record.entity.map EntityId.json).getD .null),
    ("effect", .text record.effect.text)]

/-- A report as a JSON value. -/
def Report.json (report : Report) : Json :=
  .ofMembers [("steps", .array (report.steps.map StepReport.json)),
    ("globals", .ofWords report.globals),
    ("entities", .array (report.entities.map EntityReport.json)),
    ("players", .array (report.players.map Json.ofWords)),
    ("effects", .array (report.effects.map EffectRecord.json))]

end ActorScript
