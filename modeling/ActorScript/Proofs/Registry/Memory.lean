import ActorScript.Proofs.Registry.History

/-!
# What a registry remembers

The one cell that a variable has in a slot keeps the last write for one occupant only.
What it has lost nobody can ask for: whoever is not retired and has been written for is the
occupant of the mark or an earlier one.  So each read gives what the history says.
-/

namespace ActorScript.Registry

/-! ## Cells -/

/-- Some write was addressed to an entity. -/
def IsWritten (writes : List (Address × Word)) (entity : EntityId) : Prop :=
  ∃ write ∈ writes, write.1.entity = some entity

/-- What the cell of a variable in a slot tells about the writes for the occupants of the
slot, of whom some are forgotten.  An occupant who is not forgotten and has been written for
is the one of the mark or an earlier one, and the one of the mark finds its value. -/
inductive Reflects (forgotten : EntityId → Bool) (writes : List (Address × Word))
    (slot : UInt32) : Option ActorCell → Prop
  | vacant (gone : ∀ generation, IsWritten writes ⟨slot, generation⟩ →
      forgotten ⟨slot, generation⟩ = true) : Reflects forgotten writes slot none
  | marked {cell : ActorCell}
      (gone : ∀ generation, cell.generation < generation →
        IsWritten writes ⟨slot, generation⟩ → forgotten ⟨slot, generation⟩ = true)
      (current : forgotten ⟨slot, cell.generation⟩ = false →
        last? writes (fun other => other.entity = some ⟨slot, cell.generation⟩) =
          some cell.value) :
      Reflects forgotten writes slot (some cell)

section Cells

variable {forgotten : EntityId → Bool} {writes : List (Address × Word)} {slot : UInt32}
  {cell : Option ActorCell}

theorem isWritten_cons {address : Address} {value : Word} {entity : EntityId} :
    IsWritten ((address, value) :: writes) entity ↔
      address.entity = some entity ∨ IsWritten writes entity := by
  simp [IsWritten]

theorem isWritten_of_last? {entity : EntityId} {value : Word}
    (found : last? writes (fun other => other.entity = some entity) = some value) :
    IsWritten writes entity := by
  obtain ⟨write, write_eq, _⟩ := Option.map_eq_some_iff.1 found
  exact ⟨write, List.mem_of_find?_eq_some write_eq, by simpa using List.find?_some write_eq⟩

theorem last?_eq_none {entity : EntityId} (unwritten : ¬ IsWritten writes entity) :
    last? writes (fun other => other.entity = some entity) = none := by
  cases found : last? writes (fun other => other.entity = some entity) with
  | none => rfl
  | some value => exact absurd (isWritten_of_last? found) unwritten

/-- A write that cannot reach the cell leaves it right: it is for nobody of the slot, for
somebody forgotten, or for an occupant before the one of the mark. -/
theorem Reflects.pass (reflects : Reflects forgotten writes slot cell) {address : Address}
    (value : Word)
    (unreached : ∀ generation, address.entity = some ⟨slot, generation⟩ →
      forgotten ⟨slot, generation⟩ = true ∨
        ∃ present, cell = some present ∧ generation < present.generation) :
    Reflects forgotten ((address, value) :: writes) slot cell := by
  cases reflects with
  | vacant gone =>
      apply Reflects.vacant
      intro generation written
      rcases isWritten_cons.1 written with here | earlier
      · rcases unreached generation here with past | ⟨_, present_eq, _⟩
        · exact past
        · contradiction
      · exact gone generation earlier
  | @marked cell gone current =>
      apply Reflects.marked
      · intro generation newer written
        rcases isWritten_cons.1 written with here | earlier
        · rcases unreached generation here with past | ⟨_, ⟨⟩, older⟩
          · exact past
          · exact absurd newer (UInt32.lt_asymm older)
        · exact gone generation newer earlier
      · intro alive
        rw [last?_cons, if_neg, current alive]
        intro here
        rcases unreached cell.generation (by simpa using here) with past | ⟨_, ⟨⟩, older⟩
        · rw [alive] at past
          contradiction
        · exact UInt32.lt_irrefl _ older

/-- A write that reaches the cell leaves its mark and its value there. -/
theorem Reflects.write (reflects : Reflects forgotten writes slot cell) {address : Address}
    (value : Word) {generation : UInt32} (own : address.entity = some ⟨slot, generation⟩)
    (reached : ∀ present, cell = some present → ¬ generation < present.generation) :
    Reflects forgotten ((address, value) :: writes) slot (some ⟨generation, value⟩) := by
  apply Reflects.marked
  · intro other newer written
    have later : IsWritten writes ⟨slot, other⟩ := by
      rcases isWritten_cons.1 written with here | earlier
      · rw [own] at here
        cases here
        exact absurd newer (UInt32.lt_irrefl _)
      · exact earlier
    cases reflects with
    | vacant gone => exact gone other later
    | @marked cell gone current =>
        apply gone other _ later
        exact UInt32.lt_of_le_of_lt (UInt32.not_lt.1 (reached cell rfl)) newer
  · intro _
    rw [last?_cons, if_pos (by simpa using own)]

/-- When somebody is forgotten, a cell of the same mark is emptied. -/
theorem Reflects.forget (reflects : Reflects forgotten writes slot cell) (entity : EntityId)
    {forgottenThen : EntityId → Bool}
    (then_eq : ∀ other, forgottenThen other =
      (forgotten other || (entity.index = other.index && other.generation ≤ entity.generation))) :
    Reflects forgottenThen writes slot
      (cell.filter fun present =>
        !(slot == entity.index && present.generation == entity.generation)) := by
  cases reflects with
  | vacant gone =>
      apply Reflects.vacant
      intro generation written
      simp [then_eq, gone generation written]
  | @marked cell gone current =>
      by_cases own : slot = entity.index ∧ cell.generation = entity.generation
      · obtain ⟨rfl, same⟩ := own
        rw [Option.filter_some, if_neg (by simp [same])]
        apply Reflects.vacant
        intro generation written
        rw [then_eq]
        by_cases newer : cell.generation < generation
        · simp [gone generation newer written]
        · simp [← same, UInt32.not_lt.1 newer]
      · rw [Option.filter_some, if_pos (by simpa [imp_iff_not_or] using own)]
        apply Reflects.marked
        · intro generation newer written
          simp [then_eq, gone generation newer written]
        · intro alive
          rw [then_eq, Bool.or_eq_false_iff] at alive
          exact current alive.1

end Cells

/-! ## What the cells hold -/

section Stored

variable {registry : Registry} {index : Nat}

/-- A value for a player goes into the cell of the player, if there is one. -/
theorem player_stored {player : PlayerId} (present : player.toNat < registry.maxPlayers)
    (address : Address) (value : Word) :
    (registry.storeAt index .player address value).players[(index, player)]? =
      if address.player = some player then some value
      else registry.players[(index, player)]? := by
  cases own : address.player with
  | none => simp [storeAt, cellAt, own]
  | some writer =>
      simp only [storeAt, cellAt, own, Option.some.injEq]
      by_cases here : writer = player
      · subst here
        simp [present, store]
      · rw [if_neg here]
        by_cases beyond : writer.toNat < registry.maxPlayers
        · simp [beyond, store, Std.HashMap.getElem?_insert, here]
        · simp [beyond]

/-- A value for an entity is left out when a later one has marked the cell. -/
theorem store_of_newer {entity : EntityId} {present : ActorCell}
    (marked : registry.actors[(index, entity.index)]? = some present)
    (newer : entity.generation < present.generation) (value : Word) :
    registry.store (.actor index entity) value = registry := by
  simp [store, marked, newer]

/-- Otherwise it goes into the cell of the slot. -/
theorem store_of_reached {entity : EntityId}
    (reached : ∀ present, registry.actors[(index, entity.index)]? = some present →
      ¬ entity.generation < present.generation) (value : Word) :
    registry.store (.actor index entity) value =
      { registry with
        actors := registry.actors.insert (index, entity.index) ⟨entity.generation, value⟩ } := by
  cases marked : registry.actors[(index, entity.index)]? with
  | none => simp [store, marked]
  | some present => simp [store, marked, reached present marked]

/-- After a write for an entity that is not retired, the cells still tell about the writes. -/
theorem reflects_store {forgotten : EntityId → Bool} {writes : List (Address × Word)}
    {slot : UInt32} (reflects : Reflects forgotten writes slot registry.actors[(index, slot)]?)
    {address : Address} {entity : EntityId} (own : address.entity = some entity) (value : Word) :
    Reflects forgotten ((address, value) :: writes) slot
      (registry.store (.actor index entity) value).actors[(index, slot)]? := by
  by_cases marked : ∃ present, registry.actors[(index, entity.index)]? = some present ∧
      entity.generation < present.generation
  · obtain ⟨present, present_eq, newer⟩ := marked
    rw [store_of_newer present_eq newer]
    apply reflects.pass
    intro generation here
    rw [own] at here
    cases here
    exact Or.inr ⟨present, present_eq, newer⟩
  · have reached : ∀ present, registry.actors[(index, entity.index)]? = some present →
        ¬ entity.generation < present.generation := by
      intro present present_eq newer
      exact marked ⟨present, present_eq, newer⟩
    rw [store_of_reached reached]
    obtain ⟨place, generation⟩ := entity
    by_cases here : place = slot
    · subst here
      have cell_eq : (registry.actors.insert (index, place) ⟨generation, value⟩)[(index, place)]? =
          some ⟨generation, value⟩ := Std.HashMap.getElem?_insert_self
      rw [cell_eq]
      exact reflects.write value own reached
    · have cell_eq : (registry.actors.insert (index, place) ⟨generation, value⟩)[(index, slot)]? =
          registry.actors[(index, slot)]? := by
        simp [Std.HashMap.getElem?_insert, here]
      rw [cell_eq]
      apply reflects.pass
      intro other mine
      rw [own] at mine
      cases mine
      exact absurd rfl here

/-- Whoever a write is for, the cells still tell about the writes, as long as nobody is retired
without having been forgotten. -/
theorem reflects_stored {forgotten : EntityId → Bool} {writes : List (Address × Word)}
    {slot : UInt32}
    (forgets : ∀ entity, registry.isRetired entity = true → forgotten entity = true)
    (reflects : Reflects forgotten writes slot registry.actors[(index, slot)]?)
    (address : Address) (value : Word) :
    Reflects forgotten ((address, value) :: writes) slot
      (registry.storeAt index .actor address value).actors[(index, slot)]? := by
  cases own : address.entity with
  | none =>
      simp only [storeAt, cellAt, own]
      apply reflects.pass
      intro generation here
      rw [own] at here
      contradiction
  | some entity =>
      cases retired : registry.isRetired entity with
      | true =>
          simp only [storeAt, cellAt, own, retired, if_true]
          apply reflects.pass
          intro generation here
          rw [own] at here
          cases here
          exact Or.inl (forgets _ retired)
      | false =>
          simp only [storeAt, cellAt, own, retired, Bool.false_eq_true, if_false]
          exact reflects_store reflects own value

end Stored

section Held

variable {vars : Array Variable} {maxPlayers : Nat} {history : List Operation} {id : Word}
  {index : Nat} {declared : Variable}

theorem found_after (found : vars[index]? = some declared) (history : List Operation) :
    (after vars maxPlayers history).vars[index]? = some declared := by
  rw [(declared_after vars maxPlayers history).1]
  exact found

variable (named : id.offset? = some index) (found : vars[index]? = some declared)
include named found

/-- What holds in a new registry is kept after every history, when a write that does not count, one
that goes to the cell of the variable at its address and forgetting somebody keep it. -/
theorem after_induction {motive : List Operation → Registry → Prop}
    (fresh : motive [] (new vars maxPlayers))
    (passed : ∀ past other address value now, motive past (after vars maxPlayers past) →
      SameCells index (after vars maxPlayers past) now →
      writes declared id (past ++ [.set other address value]) = writes declared id past →
      motive (past ++ [.set other address value]) now)
    (stored : ∀ past other address value, motive past (after vars maxPlayers past) →
      writes declared id (past ++ [.set other address value]) =
        (address, value) :: writes declared id past →
      motive (past ++ [.set other address value])
        ((after vars maxPlayers past).storeAt index declared.scope address value))
    (forgets : ∀ past entity, motive past (after vars maxPlayers past) →
      motive (past ++ [.forget entity]) ((after vars maxPlayers past).forget entity)) :
    motive history (after vars maxPlayers history) := by
  induction history using List.reverseRecOn with
  | nil => exact fresh
  | append_singleton past operation ih =>
      rw [after_append_singleton]
      cases operation with
      | set other address value =>
          rcases set_cases named (found_after found past) other address value with
            ⟨same, writes_eq⟩ | ⟨set_eq, writes_eq⟩
          · exact passed past other address value _ ih same (writes_eq past)
          · rw [perform, set_eq]
            exact stored past other address value ih (writes_eq past)
      | forget entity => exact forgets past entity ih

theorem global_after (scope : declared.scope = .global) :
    (after vars maxPlayers history).globals[index]? =
      last? (writes declared id history) fun _ => true := by
  refine after_induction named found (motive := fun history registry =>
    registry.globals[index]? = last? (writes declared id history) fun _ => true) ?_ ?_ ?_ ?_
  · simp [new]
  · intro past other address value now ih same writes_eq
    rw [same.global, writes_eq, ih]
  · intro past other address value ih writes_eq
    rw [writes_eq, last?_cons, if_pos rfl, scope]
    exact Std.HashMap.getElem?_insert_self
  · intro past entity ih
    rw [writes_forget]
    exact ih

theorem player_after (scope : declared.scope = .player) {player : PlayerId}
    (present : player.toNat < maxPlayers) :
    (after vars maxPlayers history).players[(index, player)]? =
      last? (writes declared id history) fun other => other.player = some player := by
  refine after_induction named found (motive := fun history registry =>
    registry.players[(index, player)]? =
      last? (writes declared id history) fun other => other.player = some player) ?_ ?_ ?_ ?_
  · simp [new]
  · intro past other address value now ih same writes_eq
    rw [same.player, writes_eq, ih]
  · intro past other address value ih writes_eq
    have inside : player.toNat < (after vars maxPlayers past).maxPlayers := by
      rw [(declared_after vars maxPlayers past).2]
      exact present
    rw [writes_eq, last?_cons, scope, player_stored inside, ih]
    simp only [decide_eq_true_eq]
  · intro past entity ih
    rw [writes_forget]
    exact ih

theorem reflects_after (scope : declared.scope = .actor) (slot : UInt32) :
    Reflects (isForgotten history) (writes declared id history) slot
      (after vars maxPlayers history).actors[(index, slot)]? := by
  have forgotten_eq (past : List Operation) (other : Word) (address : Address) (value : Word) :
      isForgotten (past ++ [.set other address value]) = isForgotten past :=
    funext (isForgotten_set past other address value)
  refine after_induction named found (motive := fun history registry =>
    Reflects (isForgotten history) (writes declared id history) slot
      registry.actors[(index, slot)]?) ?_ ?_ ?_ ?_
  · have empty : (new vars maxPlayers).actors[(index, slot)]? = none := by
      simp [new]
    rw [empty, writes_nil]
    apply Reflects.vacant
    rintro generation ⟨write, member, _⟩
    contradiction
  · intro past other address value now ih same writes_eq
    rw [forgotten_eq, same.actor, writes_eq]
    exact ih
  · intro past other address value ih writes_eq
    rw [forgotten_eq, writes_eq, scope]
    have forgets := fun entity => @isForgotten_of_isRetired vars maxPlayers past entity
    exact reflects_stored forgets ih address value
  · intro past entity ih
    have cells_eq : ((after vars maxPlayers past).forget entity).actors[(index, slot)]? =
        ((after vars maxPlayers past).actors[(index, slot)]?).filter fun present =>
          !(slot == entity.index && present.generation == entity.generation) :=
      Std.HashMap.getElem?_filter'
    rw [writes_forget, cells_eq]
    exact ih.forget entity (isForgotten_forget past entity)

end Held

/-! ## Reading -/

section Reading

variable {registry : Registry} {declared : Variable} {id : Word} {index : Nat}

theorem get_of_declared (named : id.offset? = some index)
    (found : registry.vars[index]? = some declared) (address : Address) :
    registry.get id address =
      match registry.cellAt index declared.scope address with
      | none => declared.invalidValue
      | some cell => registry.valueIn declared cell := by
  cases held : registry.cellAt index declared.scope address with
  | none => simp only [get, declaration?, resolve, named, found, held]
  | some cell => simp only [get, declaration?, resolve, named, found, held]

/-- Forgetting an entity forgets the earlier occupants of its slot. -/
theorem isForgotten_of_le {history : List Operation} {slot generation later : UInt32}
    (older : generation ≤ later) (forgotten : isForgotten history ⟨slot, later⟩ = true) :
    isForgotten history ⟨slot, generation⟩ = true := by
  obtain ⟨operation, member, names⟩ := List.any_eq_true.1 forgotten
  apply List.any_eq_true.2
  refine ⟨operation, member, ?_⟩
  cases operation with
  | set _ _ _ => contradiction
  | forget other =>
      simp only [Bool.and_eq_true, decide_eq_true_eq] at names ⊢
      exact ⟨names.1, UInt32.le_trans older names.2⟩

theorem isOutdated_iff {writes : List (Address × Word)} {entity : EntityId} :
    isOutdated writes entity = true ↔
      ∃ later, entity.generation < later ∧ IsWritten writes ⟨entity.index, later⟩ := by
  unfold isOutdated
  rw [List.any_eq_true]
  constructor
  · rintro ⟨write, member, names⟩
    split at names
    · rename_i other own
      simp only [Bool.and_eq_true, decide_eq_true_eq] at names
      obtain ⟨here, newer⟩ := names
      obtain ⟨slot, later⟩ := other
      cases here
      exact ⟨later, newer, write, member, own⟩
    · contradiction
  · rintro ⟨later, newer, write, member, own⟩
    refine ⟨write, member, ?_⟩
    rw [own]
    simpa using newer

/-- An entity that is not forgotten reads the value last written for it, unless a later one
has been written for. -/
theorem valueIn_of_reflects {history : List Operation} {writes : List (Address × Word)}
    {entity : EntityId} (alive : isForgotten history entity = false)
    (reflects : Reflects (isForgotten history) writes entity.index
      registry.actors[(index, entity.index)]?) :
    registry.valueIn declared (.actor index entity) =
      if isOutdated writes entity then declared.invalidValue
      else (last? writes fun other => other.entity = some entity).getD declared.initial := by
  obtain ⟨slot, generation⟩ := entity
  -- Whoever is forgotten came before the entity.
  have passed : ∀ later, isForgotten history ⟨slot, later⟩ = true → later < generation := by
    intro later forgotten
    rw [← UInt32.not_le]
    intro older
    rw [isForgotten_of_le older forgotten] at alive
    contradiction
  have initial_of : (∀ later, generation ≤ later → ¬ IsWritten writes ⟨slot, later⟩) →
      (if isOutdated writes ⟨slot, generation⟩ then declared.invalidValue
        else (last? writes fun other => other.entity = some ⟨slot, generation⟩).getD
          declared.initial) = declared.initial := by
    intro unwritten
    rw [if_neg, last?_eq_none (unwritten generation (UInt32.le_refl _))]
    · rfl
    · rw [isOutdated_iff]
      rintro ⟨later, newer, written⟩
      exact unwritten later (UInt32.le_of_lt newer) written
  unfold valueIn
  dsimp only at reflects ⊢
  generalize registry.actors[(index, slot)]? = cell at reflects ⊢
  cases reflects with
  | vacant gone =>
      symm
      apply initial_of
      intro later older written
      exact UInt32.lt_irrefl _ (UInt32.lt_of_le_of_lt older (passed later (gone later written)))
  | @marked cell gone current =>
      dsimp only
      have behind : ∀ later, cell.generation < later → IsWritten writes ⟨slot, later⟩ →
          later < generation := fun later newer written => passed later (gone later newer written)
      by_cases same : cell.generation = generation
      · subst same
        rw [if_pos rfl, if_neg, current alive]
        · rfl
        · rw [isOutdated_iff]
          rintro ⟨later, newer, written⟩
          exact UInt32.lt_asymm newer (behind later newer written)
      · rw [if_neg same]
        by_cases newer : generation < cell.generation
        · have standing : isForgotten history ⟨slot, cell.generation⟩ = false := by
            apply Bool.eq_false_iff.2
            intro forgotten
            exact UInt32.lt_asymm newer (passed _ forgotten)
          rw [if_pos newer, if_pos]
          rw [isOutdated_iff]
          exact ⟨cell.generation, newer, isWritten_of_last? (current standing)⟩
        · rw [if_neg newer]
          symm
          apply initial_of
          intro later older written
          have mark : cell.generation < generation :=
            UInt32.lt_of_le_of_ne (UInt32.not_lt.1 newer) same
          have further := behind later (UInt32.lt_of_lt_of_le mark older) written
          exact UInt32.lt_irrefl _ (UInt32.lt_of_le_of_lt older further)

end Reading

/-- What a variable holds depends on what has been done to the registry alone: each read gives
what the history of the registry says. -/
theorem get_after (vars : Array Variable) (maxPlayers : Nat) {history : List Operation}
    (bounded : Bounded history) (id : Word) (address : Address) :
    (after vars maxPlayers history).get id address = held vars maxPlayers history id address := by
  cases named : id.offset? with
  | none => simp [get, declaration?, held, named]
  | some index =>
      cases found : vars[index]? with
      | none =>
          simp [get, declaration?, held, named, found, (declared_after vars maxPlayers history).1]
      | some declared =>
          have held_eq : held vars maxPlayers history id address =
              heldBy declared maxPlayers history id address := by
            simp [held, named, found]
          rw [get_of_declared named (found_after found history), held_eq, heldBy]
          cases scope : declared.scope with
          | global =>
              simp only [cellAt, valueIn, Std.HashMap.getD_eq_getD_getElem?]
              rw [global_after named found scope]
          | player =>
              simp only [cellAt, (declared_after vars maxPlayers history).2]
              cases address.player with
              | none => rfl
              | some player =>
                  by_cases present : player.toNat < maxPlayers
                  · simp only [present, if_true, valueIn, Std.HashMap.getD_eq_getD_getElem?]
                    rw [player_after named found scope present]
                  · simp only [present, if_false]
          | actor =>
              simp only [cellAt, isRetired_after vars maxPlayers bounded]
              cases address.entity with
              | none => rfl
              | some entity =>
                  have reflects := @reflects_after vars maxPlayers history id index declared
                    named found scope entity.index
                  cases alive : isForgotten history entity with
                  | true => simp [alive]
                  | false =>
                      simp only [alive, Bool.false_eq_true, if_false, Bool.false_or]
                      exact valueIn_of_reflects alive reflects

/-- A variable of entities and one of players. -/
def kept : Array Variable :=
  #[{ name := "life", scope := .actor, initial := 9, zeroWhenInvalid := true },
    { name := "ammo", scope := .player, initial := 10 }]

/-- A slot changes hands, and its first occupant is still written for. -/
def handover : List Operation :=
  [.set 0 ⟨some ⟨5, 0⟩, none⟩ 2, .forget ⟨5, 0⟩, .set 0 ⟨some ⟨5, 1⟩, none⟩ 8,
    .set 0 ⟨some ⟨5, 0⟩, none⟩ 3, .set 1 ⟨none, some 3⟩ 4, .set 1 ⟨none, some 4⟩ 5]

/-- The first occupant reads zero, the second its value, and the third the initial value. -/
theorem get_handover :
    Bounded handover ∧
      (after kept 4 handover).get 0 ⟨some ⟨5, 0⟩, none⟩ = 0 ∧
      (after kept 4 handover).get 0 ⟨some ⟨5, 1⟩, none⟩ = 8 ∧
      (after kept 4 handover).get 0 ⟨some ⟨5, 2⟩, none⟩ = 9 ∧
      (after kept 4 handover).get 1 ⟨none, some 3⟩ = 4 ∧
      (after kept 4 handover).get 1 ⟨none, some 4⟩ = 10 := by
  have bounded : Bounded handover := by
    intro entity member
    have only : entity = ⟨5, 0⟩ := by simpa [handover] using member
    subst only
    decide
  have reads := get_after kept 4 bounded
  refine ⟨bounded, ?_⟩
  simp only [reads]
  decide +kernel

end ActorScript.Registry
