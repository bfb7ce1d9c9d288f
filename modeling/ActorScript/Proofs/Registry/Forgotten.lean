import ActorScript.Proofs.Registry.History

/-!
# Forgotten identities

The watermark of a slot never falls, so whoever is below it stays retired whatever is done to
the registry later.  Forgetting an entity moves the watermark behind it, with one exception: no
watermark lies behind the last generation of all, so the last occupant of a slot cannot be
retired.
-/

namespace ActorScript.Registry

variable {registry : Registry} {vars : Array Variable} {maxPlayers : Nat}
  {past later : List Operation} {id : Word} {declared : Variable}

/-- No cell of a variable is reached at an address: a read gives the value for an invalid
address, and writes are ignored. -/
structure Invalid (registry : Registry) (id : Word) (declared : Variable) (address : Address) :
    Prop where
  resolve_eq : registry.resolve id address = none
  get_eq : registry.get id address = if declared.zeroWhenInvalid then 0 else declared.initial
  set_eq : ∀ value, registry.set id address value = registry

/-- An actor variable is invalid exactly through the identities that are retired. -/
theorem invalid_iff (found : registry.declaration? id = some declared)
    (scope : declared.scope = .actor) (entity : EntityId) (player : Option PlayerId) :
    Invalid registry id declared ⟨some entity, player⟩ ↔ registry.isRetired entity = true := by
  have resolves := isSome_resolve_iff found scope entity player
  constructor
  · intro invalid
    rw [invalid.resolve_eq] at resolves
    simpa using resolves
  · intro retired
    have unresolved : registry.resolve id ⟨some entity, player⟩ = none := by
      rw [← Option.not_isSome_iff_eq_none, resolves, retired]
      decide
    refine ⟨unresolved, ?_, ?_⟩
    · simp only [get, found, unresolved, Variable.invalidValue]
    · intro value
      simp only [set, found, unresolved, ite_self]

/-! ## Watermarks -/

/-- No operation brings back whoever is retired. -/
theorem isRetired_perform {entity : EntityId} (retired : registry.isRetired entity = true)
    (operation : Operation) : (registry.perform operation).isRetired entity = true := by
  simp only [isRetired, decide_eq_true_eq] at retired ⊢
  cases operation with
  | set id address value =>
      rw [perform, watermark_set]
      exact retired
  | forget other =>
      rw [perform, watermark_forget]
      split
      · rename_i here
        rw [here] at retired
        exact lt_max_iff.2 (Or.inl retired)
      · exact retired

theorem isRetired_foldl {entity : EntityId} (retired : registry.isRetired entity = true)
    (later : List Operation) : (later.foldl perform registry).isRetired entity = true := by
  induction later generalizing registry with
  | nil => exact retired
  | cons operation rest ih => exact ih (isRetired_perform retired operation)

/-- Only behind the last generation is there no other. -/
theorem lt_generationAfter {generation other : UInt32} (older : generation ≤ other)
    (more : generation ≠ 0xFFFFFFFF) : generation < generationAfter other := by
  by_cases last : other = 0xFFFFFFFF
  · subst last
    exact UInt32.lt_of_le_of_ne older more
  · exact (lt_generationAfter_iff last).2 older

theorem isRetired_forget_of_le {entity other : EntityId} (slot : other.index = entity.index)
    (older : other.generation ≤ entity.generation) (more : other.generation ≠ 0xFFFFFFFF) :
    (registry.forget entity).isRetired other = true := by
  rw [isRetired, watermark_forget, if_pos slot, decide_eq_true_eq]
  exact lt_max_iff.2 (Or.inr (lt_generationAfter older more))

/-- The last generation of a slot is never retired. -/
theorem isRetired_last (registry : Registry) (slot : UInt32) :
    registry.isRetired ⟨slot, 0xFFFFFFFF⟩ = false := by
  have bound := (registry.watermark slot).toNat_lt
  rw [isRetired, decide_eq_false_iff_not, UInt32.lt_iff_toNat_lt]
  simp
  omega

/-! ## After an entity has been forgotten -/

theorem after_append (vars : Array Variable) (maxPlayers : Nat) (past later : List Operation) :
    after vars maxPlayers (past ++ later) = later.foldl perform (after vars maxPlayers past) :=
  List.foldl_append

/-- After an entity has been forgotten, whatever has been done before and is done later, the
entity and every earlier occupant of its slot are invalid for every actor variable, unless
their generation is the last of all: that one stays valid. -/
theorem invalid_after_forget_iff
    (found : (id.offset?.bind fun index => vars[index]?) = some declared)
    (scope : declared.scope = .actor) {entity other : EntityId}
    (slot : other.index = entity.index) (older : other.generation ≤ entity.generation)
    (player : Option PlayerId) :
    Invalid (after vars maxPlayers (past ++ .forget entity :: later)) id declared
        ⟨some other, player⟩ ↔
      other.generation ≠ 0xFFFFFFFF := by
  have declaration : (after vars maxPlayers (past ++ .forget entity :: later)).declaration? id =
      some declared := by
    rw [declaration?, (declared_after vars maxPlayers _).1]
    obtain ⟨index, named, listed⟩ := Option.bind_eq_some_iff.1 found
    rw [named]
    exact listed
  rw [invalid_iff declaration scope]
  constructor
  · rintro retired last
    obtain ⟨index, generation⟩ := other
    subst last
    rw [isRetired_last] at retired
    contradiction
  · intro more
    rw [after_append, List.foldl_cons]
    exact isRetired_foldl (isRetired_forget_of_le slot older more) later

/-- A variable of entities. -/
def life : Array Variable :=
  #[{ name := "life", scope := .actor, initial := 9, zeroWhenInvalid := true }]

/-- An entity that is forgotten, written for again and followed by another one stays invalid. -/
theorem invalid_followed :
    Invalid (after life 1 ([.set 0 ⟨some ⟨5, 1⟩, none⟩ 3] ++ .forget ⟨5, 1⟩ ::
        [.set 0 ⟨some ⟨5, 1⟩, none⟩ 4, .forget ⟨5, 0⟩, .set 0 ⟨some ⟨5, 2⟩, none⟩ 8])) 0
      { name := "life", scope := .actor, initial := 9, zeroWhenInvalid := true }
      ⟨some ⟨5, 1⟩, none⟩ :=
  (invalid_after_forget_iff (by decide) rfl rfl (by decide) none).2 (by decide)

/-- Not everyone who is forgotten becomes invalid: an entity of the last generation is read and
written for as before. -/
theorem not_forall_invalid_after_forget :
    ¬ ∀ (vars : Array Variable) (maxPlayers : Nat) (past later : List Operation) (id : Word)
        (declared : Variable) (entity other : EntityId) (player : Option PlayerId),
      (id.offset?.bind fun index => vars[index]?) = some declared → declared.scope = .actor →
      other.index = entity.index → other.generation ≤ entity.generation →
      Invalid (after vars maxPlayers (past ++ .forget entity :: later)) id declared
        ⟨some other, player⟩ := by
  intro forgets
  have invalid := forgets life 1 [] [] 0 _ ⟨0, 0xFFFFFFFF⟩ ⟨0, 0xFFFFFFFF⟩ none rfl rfl rfl
    (UInt32.le_refl _)
  have retired := (invalid_iff rfl rfl ⟨0, 0xFFFFFFFF⟩ none).1 invalid
  rw [isRetired_last] at retired
  contradiction

end ActorScript.Registry
