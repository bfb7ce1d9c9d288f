import ActorScript.Proofs.Registry.Forgotten
import ActorScript.Proofs.Registry.Memory
import Mathlib

/-!
# What can be written and read back

A write is read back exactly when its address leads to a cell and no later occupant of the
slot has marked that cell.  Looking for the cell asks only who is retired.  Whoever is not
retired but has been followed by another writer is still led to the cell, though its reads give
the value for an invalid address and its writes are ignored.
-/

namespace ActorScript.Registry

variable {registry : Registry} {vars : Array Variable} {maxPlayers : Nat}
  {history : List Operation} {id : Word} {index : Nat} {declared : Variable}

/-- A cell takes a value: no later occupant of its slot has marked it. -/
def Takes (registry : Registry) : Cell → Prop
  | .global _ | .player _ _ => True
  | .actor index entity =>
      ∀ present, registry.actors[(index, entity.index)]? = some present →
        ¬ entity.generation < present.generation

/-! ## Single writes -/

theorem valueIn_store {cell : Cell} (takes : registry.Takes cell) (value : Word) :
    (registry.store cell value).valueIn declared cell = value := by
  cases cell with
  | global index => simp [store, valueIn]
  | player index player => simp [store, valueIn]
  | actor index entity =>
      rw [store_of_reached takes]
      simp [valueIn]

/-- A cell that a later occupant has marked does not change for an earlier one, who cannot read
it either. -/
theorem valueIn_store_of_not_takes {cell : Cell} (refuses : ¬ registry.Takes cell)
    (value : Word) :
    (registry.store cell value).valueIn declared cell = declared.invalidValue := by
  cases cell with
  | global _ => exact absurd trivial refuses
  | player _ _ => exact absurd trivial refuses
  | actor index entity =>
      simp only [Takes, not_forall, not_not] at refuses
      obtain ⟨present, marked, newer⟩ := refuses
      have other : present.generation ≠ entity.generation := (UInt32.ne_of_lt newer).symm
      rw [store_of_newer marked newer]
      simp [valueIn, marked, other, newer]

/-- A write leaves the way to each cell as it is. -/
theorem cellAt_store (registry : Registry) (cell : Cell) (value : Word) (scope : Scope)
    (address : Address) :
    (registry.store cell value).cellAt index scope address =
      registry.cellAt index scope address := by
  have retired : (registry.store cell value).isRetired = registry.isRetired := by
    funext entity
    rw [isRetired, watermark_store, isRetired]
  unfold cellAt
  rw [retired, (declared_store registry cell value).2]

theorem resolve_of_declared (named : id.offset? = some index)
    (found : registry.vars[index]? = some declared) (address : Address) :
    registry.resolve id address = registry.cellAt index declared.scope address := by
  simp only [resolve, named, found]

/-- What is read after a write at the same address. -/
theorem get_set (named : id.offset? = some index)
    (found : registry.vars[index]? = some declared) (writable : declared.readOnly = false)
    (address : Address) (value : Word) :
    (registry.set id address value).get id address =
      match registry.cellAt index declared.scope address with
      | none => declared.invalidValue
      | some cell => (registry.store cell value).valueIn declared cell := by
  rw [set_of_declared named found, writable, if_neg (by decide), storeAt]
  cases held : registry.cellAt index declared.scope address with
  | none => rw [get_of_declared named found, held]
  | some cell =>
      have found_then : (registry.store cell value).vars[index]? = some declared := by
        rw [(declared_store registry cell value).1]
        exact found
      rw [get_of_declared named found_then, cellAt_store, held]

/-- Every value can be written and read back exactly at the addresses of cells that take one. -/
theorem get_set_eq_iff (named : id.offset? = some index)
    (found : registry.vars[index]? = some declared) (writable : declared.readOnly = false)
    (address : Address) :
    (∀ value, (registry.set id address value).get id address = value) ↔
      ∃ cell, registry.resolve id address = some cell ∧ registry.Takes cell := by
  rw [resolve_of_declared named found]
  simp only [get_set named found writable]
  cases registry.cellAt index declared.scope address with
  | none =>
      constructor
      · intro same
        exact absurd ((same 0).symm.trans (same 1)) (by decide)
      · rintro ⟨cell, held, _⟩
        contradiction
  | some cell =>
      constructor
      · intro same
        refine ⟨cell, rfl, ?_⟩
        by_contra refuses
        simp only [valueIn_store_of_not_takes refuses] at same
        exact absurd ((same 0).symm.trans (same 1)) (by decide)
      · rintro ⟨_, ⟨⟩, takes⟩
        exact valueIn_store takes

/-! ## After a history -/

/-- A variable has been written for a later occupant of the slot of the entity that is meant. -/
def isSuperseded (declared : Variable) (id : Word) (history : List Operation)
    (address : Address) : Bool :=
  match declared.scope, address.entity with
  | .actor, some entity => isOutdated (writes declared id history) entity
  | _, _ => false

/-- Whoever comes before somebody forgotten is retired, for no such generation is the last. -/
theorem isRetired_of_isForgotten {slot generation later : UInt32} (before : generation < later)
    (forgotten : isForgotten history ⟨slot, later⟩ = true) :
    (after vars maxPlayers history).isRetired ⟨slot, generation⟩ = true := by
  induction history using List.reverseRecOn with
  | nil => simp [isForgotten] at forgotten
  | append_singleton past operation ih =>
      rw [after_append_singleton]
      cases operation with
      | set other address value =>
          rw [isForgotten_set] at forgotten
          exact isRetired_perform (ih forgotten) _
      | forget other =>
          rw [isForgotten_forget, Bool.or_eq_true] at forgotten
          rcases forgotten with earlier | now
          · exact isRetired_perform (ih earlier) _
          · simp only [Bool.and_eq_true, decide_eq_true_eq] at now
            apply isRetired_forget_of_le now.1.symm
            · exact UInt32.le_of_lt (UInt32.lt_of_lt_of_le before now.2)
            · rintro (rfl : generation = 0xFFFFFFFF)
              have bound := later.toNat_lt
              rw [UInt32.lt_iff_toNat_lt] at before
              simp only [UInt32.reduceToNat] at before
              omega

/-- A cell refuses whoever is not retired exactly if the variable has been written for a later
occupant of the slot. -/
theorem takes_iff_isOutdated {entity : EntityId}
    (named : id.offset? = some index) (found : vars[index]? = some declared)
    (scope : declared.scope = .actor)
    (alive : (after vars maxPlayers history).isRetired entity = false) :
    (after vars maxPlayers history).Takes (.actor index entity) ↔
      isOutdated (writes declared id history) entity = false := by
  obtain ⟨slot, generation⟩ := entity
  have standing : ∀ later, generation < later → isForgotten history ⟨slot, later⟩ = false := by
    intro later newer
    apply Bool.eq_false_iff.2
    intro forgotten
    rw [isRetired_of_isForgotten newer forgotten] at alive
    contradiction
  have reflects := @reflects_after vars maxPlayers history id index declared named found scope slot
  rw [← Bool.not_eq_true, isOutdated_iff]
  unfold Takes
  dsimp only
  generalize (after vars maxPlayers history).actors[(index, slot)]? = cell at reflects ⊢
  cases reflects with
  | vacant gone =>
      constructor
      · rintro _ ⟨later, newer, written⟩
        have forgotten := gone later written
        rw [standing later newer] at forgotten
        contradiction
      · rintro _ _ ⟨⟩
  | @marked cell gone current =>
      constructor
      · rintro takes ⟨later, newer, written⟩
        have older := UInt32.not_lt.1 (takes cell rfl)
        have forgotten := gone later (UInt32.lt_of_le_of_lt older newer) written
        rw [standing later newer] at forgotten
        contradiction
      · rintro unwritten _ ⟨⟩ newer
        apply unwritten
        exact ⟨_, newer, isWritten_of_last? (current (standing _ newer))⟩

/-- After any history, every value can be written to a variable and read back exactly at the
addresses that lead to a cell, unless the variable has been written for a later occupant of the
slot. -/
theorem get_set_after_iff
    (found : (id.offset?.bind fun index => vars[index]?) = some declared)
    (writable : declared.readOnly = false) (address : Address) :
    (∀ value, ((after vars maxPlayers history).set id address value).get id address = value) ↔
      ((after vars maxPlayers history).resolve id address).isSome = true ∧
        isSuperseded declared id history address = false := by
  obtain ⟨index, named, listed⟩ := Option.bind_eq_some_iff.1 found
  have present := @found_after vars maxPlayers index declared listed history
  rw [get_set_eq_iff named present writable, resolve_of_declared named present]
  unfold isSuperseded
  cases scope : declared.scope with
  | global => simp [cellAt, Takes]
  | player =>
      cases own : address.player with
      | none => simp [cellAt, own]
      | some player => simp [cellAt, own, Takes]
  | actor =>
      cases own : address.entity with
      | none => simp [cellAt, own]
      | some entity =>
          cases retired : (after vars maxPlayers history).isRetired entity with
          | true => simp [cellAt, own, retired]
          | false => simp [cellAt, own, retired, takes_iff_isOutdated named listed scope retired]

/-- A variable of entities. -/
def score : Array Variable :=
  #[{ name := "score", scope := .actor, initial := 9, zeroWhenInvalid := true }]

/-- The first occupant of a slot is forgotten, and the third is written for. -/
def passedOn : List Operation :=
  [.set 0 ⟨some ⟨5, 0⟩, none⟩ 2, .forget ⟨5, 0⟩, .set 0 ⟨some ⟨5, 2⟩, none⟩ 8]

/-- The third occupant and the fourth find again what is written for them.  The second does not,
though it is led to a cell as they are, and neither does the first, which is retired. -/
theorem get_set_passedOn :
    let registry := after score 1 passedOn
    let findsAgain := fun generation =>
      ∀ value, (registry.set 0 ⟨some ⟨5, generation⟩, none⟩ value).get 0
        ⟨some ⟨5, generation⟩, none⟩ = value
    findsAgain 2 ∧ findsAgain 3 ∧ ¬ findsAgain 1 ∧ ¬ findsAgain 0 := by
  intro registry findsAgain
  have third : ((after score 1 passedOn).resolve 0 ⟨some ⟨5, 2⟩, none⟩).isSome = true := by cbv
  have fourth : ((after score 1 passedOn).resolve 0 ⟨some ⟨5, 3⟩, none⟩).isSome = true := by cbv
  have first : ((after score 1 passedOn).resolve 0 ⟨some ⟨5, 0⟩, none⟩).isSome = false := by cbv
  refine ⟨?_, ?_, fun finds => ?_, fun finds => ?_⟩
  · exact (get_set_after_iff rfl rfl _).2 ⟨third, by decide⟩
  · exact (get_set_after_iff rfl rfl _).2 ⟨fourth, by decide⟩
  · have current := ((get_set_after_iff rfl rfl _).1 finds).2
    revert current
    decide
  · have resolves := ((get_set_after_iff rfl rfl _).1 finds).1
    rw [first] at resolves
    exact absurd resolves (by decide)

/-- Not everyone who is led to a cell finds again what is written there: a slot that was written
for in its second generation refuses the occupant of the first. -/
theorem not_forall_resolves_iff_get_set :
    ¬ ∀ (vars : Array Variable) (maxPlayers : Nat) (history : List Operation) (id : Word)
        (declared : Variable) (address : Address),
      (id.offset?.bind fun index => vars[index]?) = some declared → declared.readOnly = false →
      (((after vars maxPlayers history).resolve id address).isSome = true ↔
        ∀ value, ((after vars maxPlayers history).set id address value).get id address =
          value) := by
  intro agree
  have finds := (agree score 1 [.set 0 ⟨some ⟨0, 1⟩, none⟩ 6] 0 _ ⟨some ⟨0, 0⟩, none⟩
    rfl rfl).1 (by cbv)
  have refused : ((after score 1 [.set 0 ⟨some ⟨0, 1⟩, none⟩ 6]).set 0 ⟨some ⟨0, 0⟩, none⟩ 5).get 0
      ⟨some ⟨0, 0⟩, none⟩ = 0 := by
    cbv
  rw [finds 5] at refused
  exact absurd refused (by decide)

end ActorScript.Registry
