import ActorScript.Entity

/-!
# Effects and probes

What scripts do to the world, and what they ask of it.
-/

namespace ActorScript

/-- The four amounts of damage at growing distance. -/
structure RadiusDamage where
  first : Word
  second : Word
  third : Word
  fourth : Word
deriving DecidableEq, Repr

/-- An action of a script on the world. -/
inductive Effect where
  | spawn (kind : Word)
  /-- A spawn whose handle the script keeps. -/
  | spawnInto (kind : Word)
  | shoot (kind : Word)
  | sound (id : Word)
  | globalSound (id : Word)
  | stopSound (id : Word)
  | damage (target : EntityId) (amount : Word)
  | hitRadius (radius : Word) (damage : RadiusDamage)
  | moveEntity (target : EntityId) (dx dy dz : Word)
  | changeStatus (status : Word)
  | giveItem (item amount : Word)
deriving DecidableEq, Repr

/-- The braces around the fields of a record in the text of an effect. -/
def braced (name fields : String) : String :=
  name ++ " \x7b " ++ fields ++ " \x7d"

/-- The text of an identity inside the text of an effect. -/
def EntityId.fieldText (id : EntityId) : String :=
  braced "EntityId" s!"index: {id.index}, generation: {id.generation}"

/-- The text of an effect in reports. -/
def Effect.text : Effect → String
  | .spawn kind => braced "Spawn" s!"kind: {kind}"
  | .spawnInto kind => braced "ESpawn" s!"kind: {kind}"
  | .shoot kind => braced "Shoot" s!"kind: {kind}"
  | .sound id => braced "Sound" s!"id: {id}"
  | .globalSound id => braced "GlobalSound" s!"id: {id}"
  | .stopSound id => braced "StopSound" s!"id: {id}"
  | .damage target amount =>
      braced "Damage" ("target: " ++ target.fieldText ++ s!", amount: {amount}")
  | .hitRadius radius amounts =>
      braced "HitRadius" (s!"radius: {radius}, damage: " ++
        s!"[{amounts.first}, {amounts.second}, {amounts.third}, {amounts.fourth}]")
  | .moveEntity target dx dy dz =>
      braced "MoveEntity" ("target: " ++ target.fieldText ++ s!", dx: {dx}, dy: {dy}, dz: {dz}")
  | .changeStatus status => braced "ChangeStat" s!"status: {status}"
  | .giveItem item amount => braced "GiveItem" s!"item: {item}, amount: {amount}"

/-- An effect, with the entity whose frame caused it. -/
structure EffectRecord where
  entity : Option EntityId
  effect : Effect
deriving DecidableEq, Repr

/-- What an effect answers. -/
inductive EffectAnswer where
  | value (word : Word)
  /-- The entity of the frame has been removed. -/
  | removed
deriving DecidableEq, Repr

/-- A question to the world. -/
inductive Probe where
  | canSee
  | canSeeTarget
  | canShootTarget
  | hitWeapon
  | squished
  | dead
  | custom (first second : Word)
deriving DecidableEq, Repr, Hashable

end ActorScript
