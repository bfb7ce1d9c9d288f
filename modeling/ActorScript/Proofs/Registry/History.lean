import ActorScript.Proofs.Registry
import Mathlib.Data.List.Induction

/-!
# Registries and their histories

`held` tells what a variable holds by looking back on everything that has been done to its
registry.  A write that counts reaches the cells of its variable only, and the watermarks
tell who has been forgotten.
-/

namespace ActorScript.Registry

/-- What can be done to a registry. -/
inductive Operation where
  | set (id : Word) (address : Address) (value : Word)
  | forget (entity : EntityId)
deriving DecidableEq, Repr

/-- Carries out an operation. -/
def perform (registry : Registry) : Operation → Registry
  | .set id address value => registry.set id address value
  | .forget entity => registry.forget entity

/-- The registry of declared variables after a history. -/
def after (vars : Array Variable) (maxPlayers : Nat) (history : List Operation) : Registry :=
  history.foldl perform (new vars maxPlayers)

/-! ## Looking back -/

/-- The writes to a variable, the last one first.  A read-only variable has none. -/
def writes (declared : Variable) (id : Word) (history : List Operation) :
    List (Address × Word) :=
  if declared.readOnly then []
  else
    history.reverse.filterMap fun
      | .set other address value => if other = id then some (address, value) else none
      | .forget _ => none

/-- The value last written to an address of some kind. -/
def last? (writes : List (Address × Word)) (meant : Address → Bool) : Option Word :=
  (writes.find? fun write => meant write.1).map (·.2)

/-- An entity has been forgotten, or a later occupant of its slot has. -/
def isForgotten (history : List Operation) (entity : EntityId) : Bool :=
  history.any fun
    | .forget other => other.index = entity.index && entity.generation ≤ other.generation
    | .set _ _ _ => false

/-- A later occupant of the slot of an entity has been written for. -/
def isOutdated (writes : List (Address × Word)) (entity : EntityId) : Bool :=
  writes.any fun write =>
    match write.1.entity with
    | some other => other.index = entity.index && entity.generation < other.generation
    | none => false

/-- What a declared variable holds at an address, by its history. -/
def heldBy (declared : Variable) (maxPlayers : Nat) (history : List Operation) (id : Word)
    (address : Address) : Word :=
  let writes := writes declared id history
  match declared.scope with
  | .global => (last? writes fun _ => true).getD declared.initial
  | .player =>
      match address.player with
      | none => declared.invalidValue
      | some player =>
          if player.toNat < maxPlayers then
            (last? writes fun other => other.player = some player).getD declared.initial
          else declared.invalidValue
  | .actor =>
      match address.entity with
      | none => declared.invalidValue
      | some entity =>
          if isForgotten history entity || isOutdated writes entity then declared.invalidValue
          else (last? writes fun other => other.entity = some entity).getD declared.initial

/-- What the word for a variable holds at an address, by its history. -/
def held (vars : Array Variable) (maxPlayers : Nat) (history : List Operation) (id : Word)
    (address : Address) : Word :=
  match id.offset?.bind fun index => vars[index]? with
  | none => 0
  | some declared => heldBy declared maxPlayers history id address

section Looking

variable {declared : Variable} {id : Word} {history : List Operation}

@[simp]
theorem writes_nil (declared : Variable) (id : Word) : writes declared id [] = [] := by
  simp [writes]

theorem writes_of_readOnly (readOnly : declared.readOnly = true) (history : List Operation) :
    writes declared id history = [] := by
  simp [writes, readOnly]

@[simp]
theorem writes_forget (declared : Variable) (id : Word) (history : List Operation)
    (entity : EntityId) :
    writes declared id (history ++ [.forget entity]) = writes declared id history := by
  simp [writes]

theorem writes_set_of_ne {other : Word} (apart : other ≠ id) (address : Address)
    (value : Word) :
    writes declared id (history ++ [.set other address value]) = writes declared id history := by
  simp [writes, apart]

theorem writes_set (writable : declared.readOnly = false) (address : Address) (value : Word) :
    writes declared id (history ++ [.set id address value]) =
      (address, value) :: writes declared id history := by
  simp [writes, writable]

@[simp]
theorem last?_nil (meant : Address → Bool) : last? [] meant = none :=
  rfl

theorem last?_cons (address : Address) (value : Word) (writes : List (Address × Word))
    (meant : Address → Bool) :
    last? ((address, value) :: writes) meant =
      if meant address then some value else last? writes meant := by
  unfold last?
  rw [List.find?_cons]
  cases meant address <;> rfl

@[simp]
theorem isForgotten_set (history : List Operation) (id : Word) (address : Address)
    (value : Word) (entity : EntityId) :
    isForgotten (history ++ [.set id address value]) entity = isForgotten history entity := by
  simp [isForgotten]

theorem isForgotten_forget (history : List Operation) (other entity : EntityId) :
    isForgotten (history ++ [.forget other]) entity =
      (isForgotten history entity ||
        (other.index = entity.index && entity.generation ≤ other.generation)) := by
  simp [isForgotten]

end Looking

/-! ## Single operations -/

/-- The index of the variable to which a cell belongs. -/
def owner : Cell → Nat
  | .global index | .actor index _ | .player index _ => index

/-- Two registries have the same cells of one variable. -/
structure SameCells (index : Nat) (before after : Registry) : Prop where
  global : after.globals[index]? = before.globals[index]?
  player : ∀ player : PlayerId,
    after.players[(index, player)]? = before.players[(index, player)]?
  actor : ∀ slot : UInt32, after.actors[(index, slot)]? = before.actors[(index, slot)]?

section Operations

variable {registry : Registry} {id : Word} {index : Nat} {declared : Variable}

theorem sameCells_refl (index : Nat) (registry : Registry) :
    SameCells index registry registry :=
  ⟨rfl, fun _ => rfl, fun _ => rfl⟩

/-- A value goes into the cells of its variable only. -/
theorem sameCells_store {cell : Cell} (elsewhere : owner cell ≠ index) (value : Word) :
    SameCells index registry (registry.store cell value) := by
  cases cell with
  | global other =>
      refine ⟨?_, fun _ => rfl, fun _ => rfl⟩
      have apart : other ≠ index := elsewhere
      simp [store, Std.HashMap.getElem?_insert, apart]
  | player other place =>
      refine ⟨rfl, fun _ => ?_, fun _ => rfl⟩
      have apart : other ≠ index := elsewhere
      simp [store, Std.HashMap.getElem?_insert, apart]
  | actor other entity =>
      have apart : other ≠ index := elsewhere
      unfold store
      dsimp only
      split
      · split
        · exact sameCells_refl index registry
        · refine ⟨rfl, fun _ => rfl, fun _ => ?_⟩
          simp [Std.HashMap.getElem?_insert, apart]
      · refine ⟨rfl, fun _ => rfl, fun _ => ?_⟩
        simp [Std.HashMap.getElem?_insert, apart]

theorem owner_of_cellAt {scope : Scope} {address : Address} {cell : Cell}
    (found : registry.cellAt index scope address = some cell) : owner cell = index := by
  unfold cellAt at found
  split at found
  · cases found
    rfl
  · split at found
    · contradiction
    · split at found
      · contradiction
      · cases found
        rfl
  · split at found
    · contradiction
    · split at found
      · cases found
        rfl
      · contradiction

/-- Puts a value into the cell of a variable at an address, if there is one. -/
def storeAt (registry : Registry) (index : Nat) (scope : Scope) (address : Address)
    (value : Word) : Registry :=
  match registry.cellAt index scope address with
  | none => registry
  | some cell => registry.store cell value

/-- A write to a declared variable that can be written goes to the cell at its address. -/
theorem set_of_declared (named : id.offset? = some index)
    (found : registry.vars[index]? = some declared) (address : Address) (value : Word) :
    registry.set id address value =
      if declared.readOnly then registry
      else registry.storeAt index declared.scope address value := by
  simp only [set, declaration?, resolve, named, found]
  rfl

/-- A write leaves the cells of all other variables alone. -/
theorem sameCells_set {other : Word} (apart : other.offset? ≠ some index) (address : Address)
    (value : Word) : SameCells index registry (registry.set other address value) := by
  cases named : other.offset? with
  | none =>
      simp only [set, declaration?, named]
      exact sameCells_refl index registry
  | some place =>
      cases found : registry.vars[place]? with
      | none =>
          simp only [set, declaration?, named, found]
          exact sameCells_refl index registry
      | some declared =>
          rw [set_of_declared named found]
          unfold storeAt
          split
          · exact sameCells_refl index registry
          · split
            · exact sameCells_refl index registry
            · rename_i cell cell_eq
              apply sameCells_store
              rw [owner_of_cellAt cell_eq]
              rintro rfl
              exact apart named

/-- A write to a variable is either one that does not count or goes to the cell at its
address. -/
theorem set_cases (named : id.offset? = some index)
    (found : registry.vars[index]? = some declared) (other : Word) (address : Address)
    (value : Word) :
    (SameCells index registry (registry.set other address value) ∧
        ∀ history, writes declared id (history ++ [.set other address value]) =
          writes declared id history) ∨
      (registry.set other address value = registry.storeAt index declared.scope address value ∧
        ∀ history, writes declared id (history ++ [.set other address value]) =
          (address, value) :: writes declared id history) := by
  by_cases same : other = id
  · subst same
    rw [set_of_declared named found]
    cases readOnly : declared.readOnly with
    | true =>
        left
        rw [if_pos rfl]
        refine ⟨sameCells_refl index registry, fun history => ?_⟩
        rw [writes_of_readOnly readOnly, writes_of_readOnly readOnly]
    | false =>
        right
        rw [if_neg (by decide)]
        exact ⟨rfl, fun history => writes_set readOnly address value⟩
  · left
    refine ⟨sameCells_set ?_ address value, fun history => writes_set_of_ne same address value⟩
    intro alike
    exact same (Word.ofOffset_of_offset? alike ▸ Word.ofOffset_of_offset? named)

end Operations

/-! ## Declarations and retired entities -/

section Histories

variable {registry : Registry} {vars : Array Variable} {maxPlayers : Nat}
  {history : List Operation}

/-- A write does nothing or puts the value into one cell. -/
theorem exists_store (registry : Registry) (id : Word) (address : Address) (value : Word) :
    registry.set id address value = registry ∨
      ∃ cell, registry.set id address value = registry.store cell value := by
  unfold set
  split
  · exact Or.inl rfl
  · split
    · exact Or.inl rfl
    · split
      · exact Or.inl rfl
      · exact Or.inr ⟨_, rfl⟩

/-- Neither the declarations nor the number of players ever change. -/
theorem declared_store (registry : Registry) (cell : Cell) (value : Word) :
    (registry.store cell value).vars = registry.vars ∧
      (registry.store cell value).maxPlayers = registry.maxPlayers := by
  unfold store
  split
  · exact ⟨rfl, rfl⟩
  · exact ⟨rfl, rfl⟩
  · split
    · split <;> exact ⟨rfl, rfl⟩
    · exact ⟨rfl, rfl⟩

theorem declared_perform (registry : Registry) (operation : Operation) :
    (registry.perform operation).vars = registry.vars ∧
      (registry.perform operation).maxPlayers = registry.maxPlayers := by
  cases operation with
  | set id address value =>
      rcases exists_store registry id address value with same | ⟨cell, stored⟩
      · exact ⟨congrArg Registry.vars same, congrArg Registry.maxPlayers same⟩
      · rw [perform, stored]
        exact declared_store registry cell value
  | forget entity => exact ⟨rfl, rfl⟩

@[simp]
theorem after_nil (vars : Array Variable) (maxPlayers : Nat) :
    after vars maxPlayers [] = new vars maxPlayers :=
  rfl

@[simp]
theorem after_append_singleton (vars : Array Variable) (maxPlayers : Nat)
    (history : List Operation) (operation : Operation) :
    after vars maxPlayers (history ++ [operation]) =
      (after vars maxPlayers history).perform operation := by
  simp [after]

theorem declared_after (vars : Array Variable) (maxPlayers : Nat) (history : List Operation) :
    (after vars maxPlayers history).vars = vars ∧
      (after vars maxPlayers history).maxPlayers = maxPlayers := by
  induction history using List.reverseRecOn with
  | nil => exact ⟨rfl, rfl⟩
  | append_singleton past operation ih =>
      rw [after_append_singleton]
      obtain ⟨vars_eq, players_eq⟩ := declared_perform (after vars maxPlayers past) operation
      exact ⟨vars_eq.trans ih.1, players_eq.trans ih.2⟩

/-- Nobody of the last generation is forgotten: no watermark can be moved behind it. -/
def Bounded (history : List Operation) : Prop :=
  ∀ entity, .forget entity ∈ history → entity.generation ≠ 0xFFFFFFFF

theorem Bounded.past {operation : Operation} (bounded : Bounded (history ++ [operation])) :
    Bounded history :=
  fun entity member => bounded entity (List.mem_append_left _ member)

theorem lt_generationAfter_iff {generation other : UInt32} (more : other ≠ 0xFFFFFFFF) :
    generation < generationAfter other ↔ generation ≤ other := by
  have different : other.toNat ≠ 0xFFFFFFFF := fun same => more (UInt32.toNat_inj.1 same)
  have bound := other.toNat_lt
  rw [generationAfter, if_neg more, UInt32.lt_iff_toNat_lt, UInt32.le_iff_toNat_le,
    UInt32.toNat_add]
  simp
  omega

theorem lt_max_iff {generation left right : UInt32} :
    generation < max left right ↔ generation < left ∨ generation < right := by
  change generation < (if left ≤ right then right else left) ↔ _
  split <;> grind

theorem isRetired_forget {other : EntityId} (more : other.generation ≠ 0xFFFFFFFF)
    (entity : EntityId) :
    (registry.forget other).isRetired entity =
      (registry.isRetired entity ||
        (other.index = entity.index && entity.generation ≤ other.generation)) := by
  unfold isRetired
  rw [watermark_forget]
  by_cases here : entity.index = other.index
  · have raised : entity.generation <
        max (registry.watermark other.index) (generationAfter other.generation) ↔
          entity.generation < registry.watermark other.index ∨
            entity.generation ≤ other.generation := by
      rw [← lt_generationAfter_iff more]
      exact lt_max_iff
    simp [here, raised]
  · simp [if_neg here, Ne.symm here]

theorem le_of_lt_generationAfter {generation other : UInt32}
    (before : generation < generationAfter other) : generation ≤ other := by
  by_cases last : other = 0xFFFFFFFF
  · rw [generationAfter, if_pos last] at before
    exact UInt32.le_of_lt before
  · exact (lt_generationAfter_iff last).1 before

/-- Nobody is retired who has not been forgotten. -/
theorem isForgotten_of_isRetired {entity : EntityId}
    (retired : (after vars maxPlayers history).isRetired entity = true) :
    isForgotten history entity = true := by
  induction history using List.reverseRecOn with
  | nil => simp [after, new, isRetired, watermark] at retired
  | append_singleton past operation ih =>
      rw [after_append_singleton] at retired
      cases operation with
      | set id address value =>
          rw [isForgotten_set]
          apply ih
          simpa [perform, isRetired] using retired
      | forget other =>
          rw [isForgotten_forget, Bool.or_eq_true]
          rw [perform, isRetired, watermark_forget, decide_eq_true_eq] at retired
          split at retired
          · rename_i here
            rcases lt_max_iff.1 retired with earlier | now
            · rw [← here] at earlier
              exact Or.inl (ih (decide_eq_true earlier))
            · exact Or.inr (by simp [here, le_of_lt_generationAfter now])
          · exact Or.inl (ih (decide_eq_true retired))

/-- The watermarks tell who has been forgotten. -/
theorem isRetired_after (vars : Array Variable) (maxPlayers : Nat) (bounded : Bounded history) :
    (after vars maxPlayers history).isRetired = isForgotten history := by
  induction history using List.reverseRecOn with
  | nil =>
      funext entity
      simp [after, new, isRetired, watermark, isForgotten]
  | append_singleton past operation ih =>
      funext entity
      rw [after_append_singleton]
      have before := congrFun (ih bounded.past) entity
      cases operation with
      | set id address value =>
          rw [isForgotten_set, ← before]
          simp [perform, isRetired]
      | forget other =>
          rw [isForgotten_forget, ← before]
          exact isRetired_forget (bounded other (by simp)) entity

end Histories

end ActorScript.Registry
