import ActorScript.Proofs.Registry.History
import Mathlib.Data.Set.Defs

/-!
# Registries that differ in some variables

Two registries of the same declarations that retire the same entities, and have the same cells
for all variables but some, give the same values for all but those.  They stay so when both
undergo the same operation, and whatever is written to the variables in which they differ.
-/

namespace ActorScript.Registry

/-! ## The cells of one variable -/

section Cells

variable {index : Nat} {first second third : Registry}

theorem SameCells.symm (same : SameCells index first second) : SameCells index second first :=
  ⟨same.global.symm, fun player => (same.player player).symm, fun slot => (same.actor slot).symm⟩

theorem SameCells.trans (same : SameCells index first second)
    (then_same : SameCells index second third) : SameCells index first third :=
  ⟨then_same.global.trans same.global,
    fun player => (then_same.player player).trans (same.player player),
    fun slot => (then_same.actor slot).trans (same.actor slot)⟩

/-- The same value goes into the same cell. -/
theorem SameCells.store (same : SameCells index first second) (cell : Cell) (value : Word) :
    SameCells index (first.store cell value) (second.store cell value) := by
  by_cases here : owner cell = index
  · subst here
    cases cell with
    | global id =>
        refine ⟨?_, same.player, same.actor⟩
        simp [Registry.store, owner]
    | player id place =>
        refine ⟨same.global, fun player => ?_, same.actor⟩
        have kept := same.player player
        simp only [owner] at kept
        simp [Registry.store, owner, Std.HashMap.getElem?_insert, kept]
    | actor id entity =>
        have present := same.actor entity.index
        simp only [owner] at present
        unfold Registry.store
        simp only [present]
        split
        · split
          · exact same
          · refine ⟨same.global, same.player, fun slot => ?_⟩
            have kept := same.actor slot
            simp only [owner] at kept
            simp [owner, Std.HashMap.getElem?_insert, kept]
        · refine ⟨same.global, same.player, fun slot => ?_⟩
          have kept := same.actor slot
          simp only [owner] at kept
          simp [owner, Std.HashMap.getElem?_insert, kept]
  · exact (sameCells_store here value).symm.trans (same.trans (sameCells_store here value))

/-- What an entity has written is dropped from the cells of every variable. -/
theorem SameCells.forget (same : SameCells index first second) (entity : EntityId) :
    SameCells index (first.forget entity) (second.forget entity) := by
  refine ⟨same.global, same.player, fun slot => ?_⟩
  simp only [Registry.forget, Std.HashMap.getElem?_filter', same.actor slot]

end Cells

/-! ## Agreement -/

/-- Two registries are the same but for the values of some variables. -/
structure AgreeBut (apart : Set Word) (first second : Registry) : Prop where
  vars_eq : second.vars = first.vars
  maxPlayers_eq : second.maxPlayers = first.maxPlayers
  watermark_eq : ∀ slot, second.watermark slot = first.watermark slot
  sameCells : ∀ id, id ∉ apart → ∀ index, id.offset? = some index → SameCells index first second

namespace AgreeBut

variable {apart : Set Word} {first second : Registry}

theorem refl (apart : Set Word) (registry : Registry) : AgreeBut apart registry registry :=
  ⟨rfl, rfl, fun _ => rfl, fun _ _ index _ => sameCells_refl index registry⟩

theorem isRetired_eq (agree : AgreeBut apart first second) (entity : EntityId) :
    second.isRetired entity = first.isRetired entity := by
  rw [isRetired, isRetired, agree.watermark_eq]

theorem cellAt_eq (agree : AgreeBut apart first second) (index : Nat) (scope : Scope)
    (address : Address) : second.cellAt index scope address = first.cellAt index scope address := by
  simp only [cellAt, agree.isRetired_eq, agree.maxPlayers_eq]

/-- Reads of other variables give the same values. -/
theorem get_eq (agree : AgreeBut apart first second) {id : Word} (other : id ∉ apart)
    (address : Address) : second.get id address = first.get id address := by
  simp only [get, declaration?, resolve, agree.vars_eq, agree.cellAt_eq]
  cases named : id.offset? with
  | none => rfl
  | some index =>
      dsimp only
      cases found : first.vars[index]? with
      | none => rfl
      | some declared =>
          dsimp only
          cases cell_eq : first.cellAt index declared.scope address with
          | none => rfl
          | some cell =>
              have same := agree.sameCells id other index named
              have here := owner_of_cellAt cell_eq
              cases cell <;> subst here
              · simp only [valueIn, owner, Std.HashMap.getD_eq_getD_getElem?] at same ⊢
                rw [same.global]
              · simp only [valueIn, owner] at same ⊢
                rw [same.actor]
              · simp only [valueIn, owner, Std.HashMap.getD_eq_getD_getElem?] at same ⊢
                rw [same.player]

/-- A write of the same value to a variable with the same cells. -/
theorem sameCells_set_of_named (agree : AgreeBut apart first second) {id : Word} {index : Nat}
    (cells : SameCells index first second) (named : id.offset? = some index) (address : Address)
    (value : Word) :
    SameCells index (first.set id address value) (second.set id address value) := by
  cases found : first.vars[index]? with
  | none => simpa only [Registry.set, declaration?, named, agree.vars_eq, found] using cells
  | some declared =>
      have found' : second.vars[index]? = some declared := agree.vars_eq ▸ found
      rw [set_of_declared named found, set_of_declared named found']
      split
      · exact cells
      · unfold storeAt
        rw [agree.cellAt_eq]
        cases first.cellAt index declared.scope address with
        | none => exact cells
        | some cell => exact cells.store cell value

/-- Two writes to a variable keep the agreement if they write the same value or the registries
may differ in the variable. -/
theorem set (agree : AgreeBut apart first second) {id left right : Word}
    (same : left = right ∨ id ∈ apart) (address : Address) :
    AgreeBut apart (first.set id address left) (second.set id address right) where
  vars_eq :=
    (declared_perform second (.set id address right)).1.trans
      (agree.vars_eq.trans (declared_perform first (.set id address left)).1.symm)
  maxPlayers_eq :=
    (declared_perform second (.set id address right)).2.trans
      (agree.maxPlayers_eq.trans (declared_perform first (.set id address left)).2.symm)
  watermark_eq slot := by
    rw [watermark_set, watermark_set, agree.watermark_eq]
  sameCells other outside index named := by
    have cells := agree.sameCells other outside index named
    by_cases alike : id.offset? = some index
    · have same_id : id = other :=
        (Word.ofOffset_of_offset? alike).symm.trans (Word.ofOffset_of_offset? named)
      rcases same with rfl | inside
      · exact agree.sameCells_set_of_named cells alike address left
      · exact absurd (same_id ▸ inside) outside
    · exact (sameCells_set alike address left).symm.trans
        (cells.trans (sameCells_set alike address right))

theorem forget (agree : AgreeBut apart first second) (entity : EntityId) :
    AgreeBut apart (first.forget entity) (second.forget entity) where
  vars_eq := agree.vars_eq
  maxPlayers_eq := agree.maxPlayers_eq
  watermark_eq slot := by
    rw [watermark_forget, watermark_forget, agree.watermark_eq, agree.watermark_eq]
  sameCells id outside index named := (agree.sameCells id outside index named).forget entity

end AgreeBut

end ActorScript.Registry
