import ActorScript.Table
import ActorScript.Variable

/-!
# Programs

A program is one stream of words, which holds instructions and data records
alike, and the tables that point into it: the variables, the scripts of each
actor kind and the handler of each event.
-/

namespace ActorScript

/-- The entry offsets of one actor kind. -/
structure Scripts where
  /-- The script run once in each tick. -/
  tick : Option Nat := none
  /-- The script run once when an entity of this kind appears. -/
  load : Option Nat := none
deriving DecidableEq, Repr, Inhabited

namespace Scripts

/-- The entry offsets that are present, the tick script first. -/
def offsets (scripts : Scripts) : List Nat :=
  scripts.tick.toList ++ scripts.load.toList

end Scripts

/-- A compiled program. -/
structure Program where
  /-- The instruction stream, data records included. -/
  code : Array Word := #[]
  /-- The declared variables; the identifier of each is its index. -/
  vars : Array Variable := #[]
  /-- The scripts of each actor kind. -/
  actors : Table Scripts := {}
  /-- The handler of each event. -/
  events : Table Nat := {}
deriving DecidableEq, Repr, Inhabited

namespace Program

/-- The identifier of the first variable with a name. -/
def varId? (program : Program) (name : String) : Option Nat :=
  program.vars.findIdx? fun declared => declared.name == name

/-- Every entry offset: the actor kinds in order, each with its tick script
first, and then the events in order. -/
def entries (program : Program) : List Nat :=
  program.actors.values.flatMap Scripts.offsets ++ program.events.values

/-- Puts an offset into an ascending list that does not hold it yet. -/
def insertOffset (offset : Nat) : List Nat → List Nat
  | [] => [offset]
  | first :: rest =>
      if offset < first then offset :: first :: rest
      else if offset = first then first :: rest
      else first :: insertOffset offset rest

/-- The offsets at which a run can start, ascending and each once. -/
def entryPoints (program : Program) : List Nat :=
  program.entries.foldr insertOffset []

theorem mem_insertOffset {offset other : Nat} {offsets : List Nat} :
    other ∈ insertOffset offset offsets ↔ other = offset ∨ other ∈ offsets := by
  induction offsets with
  | nil => simp [insertOffset]
  | cons first rest ih =>
      simp only [insertOffset]
      split
      · simp
      · split
        · rename_i same
          simp [same]
        · simp only [List.mem_cons, ih]
          exact or_left_comm

theorem mem_entryPoints {program : Program} {offset : Nat} :
    offset ∈ program.entryPoints ↔ offset ∈ program.entries := by
  rw [entryPoints]
  induction program.entries with
  | nil => simp
  | cons first rest ih => simp [mem_insertOffset, ih]

end Program

end ActorScript
