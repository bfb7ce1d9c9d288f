import ActorScript.Word

/-!
# Variables

A program declares its variables by name.  The scope of a variable says how
many cells it has, and two flags say what writes do and what a read yields when
it is addressed to nothing that exists.
-/

namespace ActorScript

/-- How many cells a variable has. -/
inductive Scope where
  /-- One for the whole session. -/
  | global
  /-- One for each entity. -/
  | actor
  /-- One for each player. -/
  | player
deriving DecidableEq, Repr

namespace Scope

/-- Every scope, in the order of their codes. -/
def all : List Scope :=
  [global, actor, player]

/-- The name of a scope. -/
def name : Scope → String
  | global => "global"
  | actor => "actor"
  | player => "player"

/-- The scope with a name, spelt exactly so. -/
def ofName? (name : String) : Option Scope :=
  all.find? fun scope => scope.name == name

/-- The code of a scope in a program image. -/
def code : Scope → UInt8
  | global => 0
  | actor => 1
  | player => 2

/-- The scope with a code. -/
def ofCode? (code : UInt8) : Option Scope :=
  all.find? fun scope => scope.code == code

@[simp]
theorem ofCode?_code (scope : Scope) : ofCode? scope.code = some scope := by
  cases scope <;> rfl

@[simp]
theorem ofName?_name (scope : Scope) : ofName? scope.name = some scope := by
  cases scope <;> rfl

end Scope

/-- A declared variable.  Its identifier is its place among the declarations. -/
structure Variable where
  name : String
  scope : Scope
  /-- The value of every cell that has not been written. -/
  initial : Word := 0
  /-- Writes are ignored. -/
  readOnly : Bool := false
  /-- A read addressed to nothing yields zero and not the initial value. -/
  zeroWhenInvalid : Bool := false
deriving DecidableEq, Repr

namespace Variable

/-- The flags of a variable in one byte: bit 0 for a read-only variable, bit 1
for one that is zero when its address is invalid. -/
def flags (declared : Variable) : UInt8 :=
  (if declared.readOnly then 1 else 0) + (if declared.zeroWhenInvalid then 2 else 0)

/-- Sets both flags from a byte, unless it has another bit set. -/
def withFlags? (declared : Variable) (flags : UInt8) : Option Variable :=
  if flags < 4 then
    some { declared with
      readOnly := flags &&& 1 != 0
      zeroWhenInvalid := flags &&& 2 != 0 }
  else none

/-- The value of a read whose address is invalid. -/
def invalidValue (declared : Variable) : Word :=
  if declared.zeroWhenInvalid then 0 else declared.initial

@[simp]
theorem withFlags?_flags (plain declared : Variable)
    (name : plain.name = declared.name) (scope : plain.scope = declared.scope)
    (initial : plain.initial = declared.initial) :
    plain.withFlags? declared.flags = some declared := by
  obtain ⟨_, _, _, readOnly, zeroWhenInvalid⟩ := declared
  subst name scope initial
  cases readOnly <;> cases zeroWhenInvalid <;> simp [withFlags?, flags] <;> decide

end Variable

end ActorScript
