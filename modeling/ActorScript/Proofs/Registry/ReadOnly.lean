import ActorScript.Proofs.Registry.History

/-!
# Read-only variables

A read-only variable never gets a cell, since writes to it are ignored and forgetting only
drops cells.  So it reads as its initial value wherever there is a cell that it could have.
-/

namespace ActorScript.Registry

variable {registry : Registry} {vars : Array Variable} {index : Nat} {declared : Variable}

/-- No cell of a variable has been written. -/
structure Unwritten (index : Nat) (registry : Registry) : Prop where
  global : registry.globals[index]? = none
  player : ∀ player : PlayerId, registry.players[(index, player)]? = none
  actor : ∀ slot : UInt32, registry.actors[(index, slot)]? = none

theorem unwritten_new (vars : Array Variable) (maxPlayers index : Nat) :
    Unwritten index (new vars maxPlayers) :=
  ⟨Std.HashMap.getElem?_empty, fun _ => Std.HashMap.getElem?_empty,
    fun _ => Std.HashMap.getElem?_empty⟩

theorem Unwritten.sameCells {after : Registry} (unwritten : Unwritten index registry)
    (same : SameCells index registry after) : Unwritten index after :=
  ⟨same.global.trans unwritten.global,
    fun player => (same.player player).trans (unwritten.player player),
    fun slot => (same.actor slot).trans (unwritten.actor slot)⟩

theorem Unwritten.forget (unwritten : Unwritten index registry) (entity : EntityId) :
    Unwritten index (registry.forget entity) := by
  refine ⟨unwritten.global, unwritten.player, fun slot => ?_⟩
  simp only [Registry.forget, Std.HashMap.getElem?_filter', unwritten.actor slot]
  rfl

/-- A cell that has not been written holds the initial value. -/
theorem Unwritten.valueIn_eq {cell : Cell} (unwritten : Unwritten (owner cell) registry)
    (declared : Variable) : registry.valueIn declared cell = declared.initial := by
  cases cell with
  | global id =>
      have absent : registry.globals[id]? = none := unwritten.global
      simp [valueIn, Std.HashMap.getD_eq_getD_getElem?, absent]
  | player id player =>
      have absent : registry.players[(id, player)]? = none := unwritten.player player
      simp [valueIn, Std.HashMap.getD_eq_getD_getElem?, absent]
  | actor id entity =>
      have absent : registry.actors[(id, entity.index)]? = none := unwritten.actor entity.index
      simp [valueIn, absent]

/-- No read-only variable has been written. -/
structure Pristine (vars : Array Variable) (registry : Registry) : Prop where
  vars_eq : registry.vars = vars
  unwritten : ∀ index declared, vars[index]? = some declared → declared.readOnly = true →
    Unwritten index registry

theorem pristine_new (vars : Array Variable) (maxPlayers : Nat) :
    Pristine vars (new vars maxPlayers) :=
  ⟨rfl, fun index _ _ _ => unwritten_new vars maxPlayers index⟩

namespace Pristine

variable (pristine : Pristine vars registry)
include pristine

/-- A write to a read-only variable is ignored, and a write to another one reaches none of
the cells of this one. -/
theorem set (id : Word) (address : Address) (value : Word) :
    Pristine vars (registry.set id address value) where
  vars_eq := (declared_perform registry (.set id address value)).1.trans pristine.vars_eq
  unwritten index declared found readOnly := by
    have unwritten := pristine.unwritten index declared found readOnly
    by_cases named : id.offset? = some index
    · rw [set_of_declared named (pristine.vars_eq ▸ found), if_pos readOnly]
      exact unwritten
    · exact unwritten.sameCells (sameCells_set named address value)

theorem forget (entity : EntityId) : Pristine vars (registry.forget entity) where
  vars_eq := pristine.vars_eq
  unwritten index declared found readOnly :=
    (pristine.unwritten index declared found readOnly).forget entity

/-- A read-only variable has its initial value at every address that leads to a cell. -/
theorem get_eq {id : Word} {address : Address} (named : id.offset? = some index)
    (found : vars[index]? = some declared) (readOnly : declared.readOnly = true)
    (resolves : (registry.resolve id address).isSome = true) :
    registry.get id address = declared.initial := by
  have here : registry.vars[index]? = some declared := pristine.vars_eq ▸ found
  obtain ⟨cell, cell_eq⟩ := Option.isSome_iff_exists.1 resolves
  have placed := cell_eq
  simp only [resolve, named, here] at placed
  have unwritten := pristine.unwritten index declared found readOnly
  rw [← owner_of_cellAt placed] at unwritten
  simp only [get, declaration?, named, here, cell_eq]
  exact unwritten.valueIn_eq declared

end Pristine

end ActorScript.Registry
