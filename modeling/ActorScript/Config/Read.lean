import ActorScript.Config
import ActorScript.Json.Token

/-!
# Settings files

Reads the settings of a session from a JSON text.  An object gives settings by
name; members of other names may have any value.  An array gives them in their
order.  A setting that is not given keeps its default.
-/

namespace ActorScript

/-- One of the settings of a session. -/
inductive Setting where
  | maxCallDepth
  | maxSteps
  | maxPlayers
  | ticsPerFrame
  | sleepTime
  | maxSleepDistance
  | seed
deriving DecidableEq, Repr

namespace Setting

/-- The settings in their order. -/
def all : List Setting :=
  [maxCallDepth, maxSteps, maxPlayers, ticsPerFrame, sleepTime, maxSleepDistance, seed]

/-- The name of a setting. -/
def name : Setting → String
  | maxCallDepth => "max_call_depth"
  | maxSteps => "max_steps"
  | maxPlayers => "max_players"
  | ticsPerFrame => "tics_per_frame"
  | sleepTime => "sleep_time"
  | maxSleepDistance => "max_sleep_distance"
  | seed => "seed"

/-- The setting with a name. -/
def ofName? (name : String) : Option Setting :=
  all.find? fun setting => setting.name == name

/-- A count of 64 bits. -/
def count? (value : Int) : Option Nat :=
  if 0 ≤ value ∧ value ≤ 0xFFFFFFFFFFFFFFFF then some value.toNat else none

/-- Gives a setting a value, if it is in its range. -/
def put (setting : Setting) (value : Int) (config : Config) : Option Config :=
  match setting with
  | maxCallDepth => (count? value).map fun maxCallDepth => { config with maxCallDepth }
  | maxSteps => (count? value).map fun maxSteps => { config with maxSteps }
  | maxPlayers => (count? value).map fun maxPlayers => { config with maxPlayers }
  | ticsPerFrame =>
      (Numeral.wordOfInt value).map fun ticsPerFrame => { config with ticsPerFrame }
  | sleepTime => (Numeral.wordOfInt value).map fun sleepTime => { config with sleepTime }
  | maxSleepDistance =>
      (Numeral.wordOfInt value).map fun maxSleepDistance => { config with maxSleepDistance }
  | seed => (count? value).map fun seed => { config with seed := UInt64.ofNat seed }

end Setting

namespace Config

open Json (Token)

/-- The settings read so far, and those that they give. -/
structure Reading where
  config : Config := {}
  given : List Setting := []

/-- Gives a setting the value of a token, unless it has been given before. -/
def Reading.give (reading : Reading) (setting : Setting) : Token → Option Reading
  | .number (some value) =>
      if setting ∈ reading.given then none
      else (setting.put value reading.config).map fun config =>
        { config, given := setting :: reading.given }
  | _ => none

/-- Reads the value of a member, and gives the tokens behind it. -/
def readMember (reading : Reading) (codes : List Nat) (tokens : List Token) :
    Option (Reading × List Token) :=
  match Json.decode codes with
  | none => none
  | some name =>
      match Setting.ofName? name, tokens with
      | none, tokens => (Json.behindValue tokens).map (reading, ·)
      | some _, [] => none
      | some setting, token :: rest => (reading.give setting token).map (·, rest)

theorem readMember_length {reading after : Reading} {codes : List Nat} {tokens rest : List Token}
    (read : readMember reading codes tokens = some (after, rest)) :
    rest.length < tokens.length := by
  unfold readMember at read
  split at read
  · simp at read
  · split at read
    · obtain ⟨_, behind, equal⟩ := Option.map_eq_some_iff.1 read
      cases equal
      exact Json.behindFrom_length behind
    · simp at read
    · obtain ⟨_, _, equal⟩ := Option.map_eq_some_iff.1 read
      cases equal
      simp

/-- Reads members to the end of an object, which ends the text. -/
def readMembers (reading : Reading) : List Token → Option Config
  | .text codes :: .colon :: tokens =>
      match _ : readMember reading codes tokens with
      | some (after, .comma :: rest) => readMembers after rest
      | some (after, [.closeObject]) => some after.config
      | _ => none
  | _ => none
termination_by tokens => tokens.length
decreasing_by
  have := readMember_length (by assumption)
  simp at this ⊢
  omega

/-- Reads values of the given settings to the end of an array, which ends the text. -/
def readItems (config : Config) : List Setting → List Token → Option Config
  | setting :: later, .number (some value) :: rest =>
      match setting.put value config, rest with
      | some config, [.closeArray] => some config
      | some config, .comma :: rest => readItems config later rest
      | _, _ => none
  | _, _ => none

/-- The settings that tokens give. -/
def ofTokens : List Token → Option Config
  | [.openObject, .closeObject] => some {}
  | .openObject :: tokens => readMembers {} tokens
  | [.openArray, .closeArray] => some {}
  | .openArray :: tokens => readItems {} Setting.all tokens
  | _ => none

/-- The settings that a text gives. -/
def read (text : String) : Option Config :=
  (Json.tokensOf text).bind ofTokens

end Config

end ActorScript
