import ActorScript.Proofs.World.Survival

/-!
# Protected fields

A write changes the one field that it names.  All else that happens to a world leaves every
field of whoever lives on, so a field that is not declared for writing keeps its value as
long as there is something that has it, whoever moves into the vacated slots.
-/

namespace ActorScript

namespace World

variable {world after : World} {id other : EntityId}

/-! ## Entities after a change -/

theorem entity?_congr (slots_eq : after.slots = world.slots) (id : EntityId) :
    after.entity? id = world.entity? id := by
  unfold entity? slot?
  rw [slots_eq]

theorem entity?_modify_self (world : World) (id : EntityId) (change : Entity → Entity) :
    (world.modify id change).entity? id = (world.entity? id).map change := by
  unfold entity? slot? modify
  simp only [Array.getElem?_modify, if_true]
  cases world.slots[id.index.toNat]? with
  | none => rfl
  | some slot =>
      by_cases current : slot.generation = id.generation
      · simp [current]
      · simp [current]

theorem stateOf?_modifyState_self (world : World) (id : EntityId)
    (change : ActorState → ActorState) :
    (world.modifyState id change).stateOf? id = (world.stateOf? id).map change := by
  unfold stateOf? modifyState
  rw [entity?_modify_self, Option.map_map, Option.map_map]
  rfl

/-- Another entity may be in another slot or from another generation of the same slot. -/
theorem entity?_modify_of_ne (apart : other ≠ id) (change : Entity → Entity) :
    (world.modify id change).entity? other = world.entity? other := by
  unfold entity? slot? modify
  simp only [Array.getElem?_modify]
  by_cases here : id.index.toNat = other.index.toNat
  · have generations : other.generation ≠ id.generation := by
      intro same
      apply apart
      cases id
      cases other
      exact congrArg₂ EntityId.mk (UInt32.toNat_inj.1 here).symm same
    rw [if_pos here]
    cases world.slots[other.index.toNat]? with
    | none => rfl
    | some slot =>
        by_cases current : slot.generation = id.generation
        · simp [current, Ne.symm generations]
        · simp [current]
  · rw [if_neg here]

/-- A new entity moves in beside those that are alive. -/
theorem entity?_spawn (tidy : world.Tidy) (alive : world.isAlive id = true) (kind : Word)
    (sector : Option Word) : (world.spawn kind sector).2.entity? id = world.entity? id := by
  have place : (world.spawn kind sector).2.slots[id.index.toNat]? =
      world.slots[id.index.toNat]? := by
    cases free_eq : world.free with
    | nil =>
        obtain ⟨_, found⟩ := isAlive_iff.1 alive
        have inside := (Array.getElem?_eq_some_iff.1 found).1
        simp [spawn, free_eq, Array.getElem?_push, Nat.ne_of_lt inside]
    | cons first rest =>
        have empty := (tidy.vacant first (free_eq ▸ List.mem_cons_self)).2
        have apart : first.toNat ≠ id.index.toNat := by
          intro same
          rw [UInt32.toNat_inj.1 same, (isAlive_iff_generation.1 alive).1] at empty
          contradiction
        simp [spawn, free_eq, Array.getElem?_modify, apart]
  unfold entity? slot?
  rw [place]

/-- The other slots stay as they are when an entity is removed. -/
theorem entity?_remove (apart : other.index ≠ id.index) :
    (world.remove id).entity? other = world.entity? other := by
  have places : id.index.toNat ≠ other.index.toNat :=
    fun same => apart (UInt32.toNat_inj.1 same).symm
  unfold remove
  split
  · simp [entity?, slot?, Array.getElem?_modify, places]
  · rfl

/-! ## Writes -/

/-- The declarations stay as they are, whatever is written. -/
theorem access_writeField (world : World) (ref : FieldRef) (field value : Word) :
    (world.writeField ref field value).access = world.access := by
  unfold writeField setField
  split
  · rfl
  · rfl
  · split <;> rfl
  · split <;> rfl
  · rfl

section Write

variable {place : FieldRef} {field name : Word} (value : Word)

theorem field?_setField_actor (apart : place = .actor id → name ≠ field) :
    (world.setField (.actor id) field value).field? place name = world.field? place name := by
  cases place with
  | actor other =>
      change ((world.modify id _).entity? other).map _ = _
      by_cases same : other = id
      · subst same
        rw [entity?_modify_self, Option.map_map]
        simp only [Function.comp_def, Table.get?_insert, if_neg (apart rfl)]
        rfl
      · rw [entity?_modify_of_ne same]
        rfl
  | _ => rfl

theorem field?_setField_player {number : PlayerId}
    (apart : place = .player number → name ≠ field) :
    (world.setField (.player number) field value).field? place name =
      world.field? place name := by
  cases place with
  | player other =>
      simp only [setField, field?, Array.getElem?_modify]
      by_cases same : number.toNat = other.toNat
      · have different := apart (congrArg _ (UInt16.toNat_inj.1 same).symm)
        rw [if_pos same, Option.map_map]
        simp only [Function.comp_def, Table.get?_insert, if_neg different]
      · rw [if_neg same]
  | _ => rfl

theorem field?_setField_sector {number : Word} (apart : place = .sector number → name ≠ field) :
    (world.setField (.sector number) field value).field? place name =
      world.field? place name := by
  simp only [setField]
  split
  · cases place with
    | sector other =>
        have keys : (number, field) ≠ (other, name) := by
          rintro ⟨⟩
          exact apart rfl rfl
        simp [field?, sectorField, setSectorField, Std.HashMap.getD_insert, keys]
    | _ => rfl
  · rfl

theorem field?_setField_wall {number : Word} (apart : place = .wall number → name ≠ field) :
    (world.setField (.wall number) field value).field? place name = world.field? place name := by
  simp only [setField]
  split
  · cases place with
    | wall other =>
        have keys : (number, field) ≠ (other, name) := by
          rintro ⟨⟩
          exact apart rfl rfl
        simp [field?, wallField, Std.HashMap.getD_insert, keys]
    | _ => rfl
  · rfl

theorem field?_setField_userDef (apart : place = .userDef → name ≠ field) :
    (world.setField .userDef field value).field? place name = world.field? place name := by
  cases place with
  | userDef =>
      have keys : field ≠ name := Ne.symm (apart rfl)
      simp [setField, field?, userField, setUserField, Std.HashMap.getD_insert, keys]
  | _ => rfl

/-- A write leaves every other field alone. -/
theorem field?_writeField {ref : FieldRef} (apart : place = ref → name ≠ field) :
    (world.writeField ref field value).field? place name = world.field? place name := by
  have counted : world.countFieldCall.field? place name = world.field? place name := by
    cases place <;> rfl
  rw [← counted]
  cases ref with
  | actor id => exact field?_setField_actor value apart
  | player number => exact field?_setField_player value apart
  | sector number => exact field?_setField_sector value apart
  | wall number => exact field?_setField_wall value apart
  | userDef => exact field?_setField_userDef value apart

end Write

/-! ## Changes that write no field -/

/-- Two worlds agree on who is alive, on the declared fields and on the values of all. -/
structure SameFields (before after : World) : Prop where
  alike : Alike before after
  access_eq : after.access = before.access
  field?_eq : after.field? = before.field?

/-- No field tells what has only been recorded. -/
theorem sameFields_recorded (world : World) (effects : Array EffectRecord)
    (deletions : Array EntityId) (motions : Nat) (standableChecks : Array EntityId)
    (fieldCalls : Nat) :
    SameFields world
      { world with effects, deletions, motions, standableChecks, fieldCalls } where
  alike := ⟨rfl, rfl⟩
  access_eq := rfl
  field?_eq := by
    funext ref field
    cases ref <;> rfl

theorem sameFields_modify (world : World) (id : EntityId) {change : Entity → Entity}
    (fields : ∀ entity, (change entity).fields = entity.fields) :
    SameFields world (world.modify id change) where
  alike := alike_modify world id change
  access_eq := rfl
  field?_eq := by
    funext ref field
    cases ref with
    | actor other =>
        simp only [field?]
        by_cases same : other = id
        · subst same
          rw [entity?_modify_self, Option.map_map]
          simp only [Function.comp_def, fields]
        · rw [entity?_modify_of_ne same]
    | _ => rfl

theorem sameFields_modifyState (world : World) (id : EntityId)
    (change : ActorState → ActorState) : SameFields world (world.modifyState id change) :=
  sameFields_modify world id fun _ => rfl

/-- A player who is let go keeps the fields. -/
theorem sameFields_releasePlayers (world : World) (id : EntityId) :
    SameFields world (world.releasePlayers id) where
  alike := ⟨rfl, rfl⟩
  access_eq := rfl
  field?_eq := by
    funext ref field
    cases ref with
    | player number =>
        simp only [releasePlayers, field?, Array.getElem?_map, Option.map_map]
        congr 1
        funext player
        simp only [Function.comp_def]
        split <;> rfl
    | _ => rfl

/-! ## What may not be written -/

/-- The thing whose field is meant is there.  Only entities come and go. -/
def Hosts (world : World) : FieldRef → Prop
  | .actor id => world.isAlive id = true
  | .player _ | .sector _ | .wall _ | .userDef => True

theorem Alike.hosts_iff (alike : Alike world after) {ref : FieldRef} :
    after.Hosts ref ↔ world.Hosts ref := by
  cases ref with
  | actor id => exact iff_of_eq (congrArg (· = true) (alike.isAlive_eq id))
  | _ => exact Iff.rfl

/-- All fields that may not be written are intact in a later world, as long as there is
something that has them, and no identity that has lost its entity has got one again. -/
structure Intact (before after : World) : Prop where
  tidy : after.Tidy
  access_eq : after.access = before.access
  stays : ∀ id, before.isAlive id = true → after.generation id.index = id.generation →
    after.isAlive id = true
  field?_eq : ∀ ref field, before.access ref.target field ≠ .readWrite →
    before.Hosts ref → after.Hosts ref → after.field? ref field = before.field? ref field

theorem Intact.refl (tidy : world.Tidy) : Intact world world :=
  ⟨tidy, rfl, fun _ alive _ => alive, fun _ _ _ _ _ => rfl⟩

section Steps

variable {before : World} (intact : Intact before world)
include intact

/-- A change that touches no slot and no field that may not be written. -/
theorem Intact.alike (alike : Alike world after) (access_eq : after.access = world.access)
    (kept : ∀ ref field, world.access ref.target field ≠ .readWrite →
      after.field? ref field = world.field? ref field) : Intact before after where
  tidy := alike.tidy intact.tidy
  access_eq := access_eq.trans intact.access_eq
  stays id alive current := by
    rw [alike.isAlive_eq]
    rw [alike.generation_eq] at current
    exact intact.stays id alive current
  field?_eq ref field unwritable there still := by
    rw [kept ref field (intact.access_eq ▸ unwritable)]
    exact intact.field?_eq ref field unwritable there (alike.hosts_iff.1 still)

theorem Intact.sameFields (same : SameFields world after) : Intact before after :=
  intact.alike same.alike same.access_eq fun ref field _ =>
    congrFun (congrFun same.field?_eq ref) field

/-- A write changes a field that may be written. -/
theorem Intact.writeField {ref : FieldRef} {field : Word}
    (writable : world.access ref.target field = .readWrite) (value : Word) :
    Intact before (world.writeField ref field value) := by
  apply intact.alike (alike_writeField world ref field value)
  · exact access_writeField world ref field value
  · intro place name unwritable
    apply field?_writeField
    rintro rfl rfl
    exact unwritable writable

/-- A change of the slots that leaves the entities that live on as they are. -/
theorem Intact.slots (tidy : after.Tidy)
    (rest : ∃ slots free nextSerial, after = { world with slots, free, nextSerial })
    (stays : ∀ id, before.isAlive id = true → after.generation id.index = id.generation →
      world.isAlive id = true ∧ after.entity? id = world.entity? id) : Intact before after := by
  obtain ⟨slots, free, nextSerial, after_eq⟩ := rest
  refine ⟨tidy, ?_, ?_, ?_⟩
  · rw [after_eq]
    exact intact.access_eq
  · intro id alive current
    obtain ⟨still, same⟩ := stays id alive current
    rw [isAlive, same]
    exact still
  · intro ref field unwritable there still
    cases ref with
    | actor id =>
        obtain ⟨before_alive, same⟩ := stays id there (isAlive_iff_generation.1 still).2
        have kept := intact.field?_eq (.actor id) field unwritable there before_alive
        rw [← kept]
        simp only [field?, same]
    | _ =>
        rw [after_eq]
        exact intact.field?_eq _ field unwritable there trivial

/-- A new entity takes none of the places of those alive. -/
theorem Intact.spawn (small : world.slots.size < UInt32.size) (kind : Word)
    (sector : Option Word) : Intact before (world.spawn kind sector).2 := by
  apply intact.slots (intact.tidy.spawn kind sector small)
  · unfold World.spawn
    dsimp only
    split
    · exact ⟨_, _, _, rfl⟩
    · exact ⟨_, _, _, rfl⟩
  · intro id alive current
    rw [generation_spawn] at current
    have still := intact.stays id alive current
    exact ⟨still, entity?_spawn intact.tidy still kind sector⟩

/-- The slot of an entity that was there before is vacated for the first time, and goes on
to a generation that none of the entities there before has. -/
theorem Intact.remove (there : before.isAlive id = true) : Intact before (world.remove id) := by
  by_cases alive : world.isAlive id = true
  · apply intact.slots (Tidy.remove alive intact.tidy)
    · unfold World.remove
      rw [if_pos alive]
      exact ⟨_, _, _, rfl⟩
    · intro other other_there current
      have elsewhere : other.index ≠ id.index := by
        intro same
        rw [generation_remove alive, if_pos same] at current
        have first := (isAlive_iff_generation.1 there).2
        have second := (isAlive_iff_generation.1 other_there).2
        rw [same, first, ← current] at second
        exact add_one_ne _ second.symm
      rw [generation_remove alive, if_neg elsewhere] at current
      exact ⟨intact.stays other other_there current, entity?_remove elsewhere⟩
  · rw [remove_of_not_isAlive (Bool.eq_false_iff.2 alive)]
    exact intact

/-- Deleting an entity only removes it and records that. -/
theorem Intact.delete (there : before.isAlive id = true) : Intact before (world.delete id) := by
  unfold World.delete
  split
  · exact (intact.remove there).sameFields (sameFields_recorded _ _ _ _ _ _)
  · exact intact

/-- An effect removes at most the entity of its frame. -/
theorem Intact.apply (small : world.slots.size < UInt32.size) {source : Option EntityId}
    (there : ∀ id, source = some id → before.isAlive id = true) (effect : Effect) :
    Intact before (world.apply source effect).2 := by
  have noted : Intact before { world with effects := world.effects.push ⟨source, effect⟩ } :=
    intact.sameFields (sameFields_recorded _ _ _ _ _ _)
  have possible : Carried _ source (world.apply source effect) := carried _ source effect
  generalize world.apply source effect = outcome at possible
  cases possible with
  | idle _ => exact noted
  | spawns kind sector => exact noted.spawn small kind sector
  | changes _ id _ fields => exact noted.sameFields (sameFields_modify _ id fields)
  | removes own => exact noted.remove (there _ own)

end Steps

end World

end ActorScript
