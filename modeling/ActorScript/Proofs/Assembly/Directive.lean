import ActorScript.Proofs.Assembly.Line

/-!
# Reading back directives

The lines of the tables of a program are read back, as long as its variables have names
that text can declare and its entry offsets fit in a word.
-/

namespace ActorScript.Assembly

open Listing Token

variable {program : Program} {labels : Std.HashSet Nat}

/-! ## Optional parts of a line -/

/-- A text behind a line, empty or set apart by a blank. -/
inductive Token.Trails (text : String) : List Token → Prop
  | none (text_eq : text = "") : Trails text []
  | some {back : List Char} {tokens : List Token} (text_eq : text.toList = ' ' :: back)
      (lexes : Lexes back tokens) : Trails text tokens

theorem Token.Lexes.trail {line : List Char} {text : String} {front tokens : List Token}
    (lexes : Lexes line front) (trails : Trails text tokens) :
    Lexes (line ++ text.toList) (front ++ tokens) := by
  cases trails with
  | none text_eq =>
      rw [text_eq, List.append_nil]
      simpa using lexes
  | some text_eq behind =>
      rw [text_eq]
      exact lexes.append behind

/-! ## Variables -/

/-- The name of a variable as it is meant to be: an identifier that an image has room for, and
not the word for the entity of the frame itself. -/
structure IsPlainName (name : String) : Prop where
  identifier : isIdentifier name.toList = true
  short : name.utf8ByteSize ≤ Image.maxNameLength
  other : isSelf name = false

/-- A name that a line can declare.  A brace is a bare word too, and it is not ruled out. -/
def IsDeclarable (name : String) : Prop :=
  IsPlainName name ∨ name = "\x7b" ∨ name = "\x7d"

namespace IsDeclarable

variable {name : String} (declarable : IsDeclarable name)
include declarable

theorem spells : Spells name (.ident name) := by
  rcases declarable with plain | brace
  · exact spells_identifier plain.identifier
  · exact spells_brace brace

theorem short : name.utf8ByteSize ≤ Image.maxNameLength := by
  rcases declarable with plain | rfl | rfl
  · exact plain.short
  · decide
  · decide

theorem other : isSelf name = false := by
  rcases declarable with plain | rfl | rfl
  · exact plain.other
  · decide +kernel
  · decide +kernel

end IsDeclarable

/-- The options that are written for a variable. -/
def optionTokens (declared : Variable) : List Token :=
  (if declared.initial = 0 then [] else [.ident "default", .number declared.initial]) ++
    (if declared.readOnly then [.ident "readonly"] else []) ++
    (if declared.zeroWhenInvalid then [.ident "zero"] else [])

theorem lexes_variableLine {declared : Variable} (declarable : IsDeclarable declared.name) :
    Lexes (variableLine declared).toList
      (.directive "var" :: .ident declared.name :: .ident declared.scope.name ::
        optionTokens declared) := by
  have scope : Spells declared.scope.name (.ident declared.scope.name) := by
    cases declared.scope <;> exact spells_identifier (by decide)
  have start : Lexes (s!".var {declared.name} {declared.scope.name}").toList
      [.directive "var", .ident declared.name, .ident declared.scope.name] := by
    have name : Spells ".var" (.directive "var") :=
      @spells_directive "var" (by decide) (by decide +kernel)
    have whole := name.lexes.append (declarable.spells.lexes.append scope.lexes)
    simpa [toString] using whole
  have initial : Trails
      (if declared.initial = 0 then "" else " default " ++ Numeral.print declared.initial)
      (if declared.initial = 0 then [] else [.ident "default", .number declared.initial]) := by
    split
    · exact .none rfl
    · have name : Spells "default" (.ident "default") := spells_identifier (by decide)
      exact .some (by rw [String.toList_append]; rfl)
        (name.lexes.append (spells_print declared.initial).lexes)
  have readOnly : Trails (if declared.readOnly then " readonly" else "")
      (if declared.readOnly then [.ident "readonly"] else []) := by
    split
    · have name : Spells "readonly" (.ident "readonly") := spells_identifier (by decide)
      exact .some rfl name.lexes
    · exact .none rfl
  have zero : Trails (if declared.zeroWhenInvalid then " zero" else "")
      (if declared.zeroWhenInvalid then [.ident "zero"] else []) := by
    split
    · have name : Spells "zero" (.ident "zero") := spells_identifier (by decide)
      exact .some rfl name.lexes
    · exact .none rfl
  have whole := ((start.trail initial).trail readOnly).trail zero
  simpa [variableLine, optionTokens, List.append_assoc] using whole

/-- The options of a variable are read back. -/
theorem options_optionTokens (declared : Variable) (count : Nat) :
    Line.options { name := declared.name, scope := declared.scope } count
      (optionTokens declared) = .ok declared := by
  have default_lower : "default".toLower = "default" := by decide +kernel
  have readOnly_lower : "readonly".toLower = "readonly" := by decide +kernel
  have zero_lower : "zero".toLower = "zero" := by decide +kernel
  obtain ⟨name, scope, initial, readOnly, zeroWhenInvalid⟩ := declared
  by_cases initial_eq : initial = 0
  · cases readOnly <;> cases zeroWhenInvalid <;>
      simp [optionTokens, Line.options, readOnly_lower, zero_lower, initial_eq]
  · cases readOnly <;> cases zeroWhenInvalid <;>
      simp [optionTokens, Line.options, Line.number, bind, Except.bind, default_lower,
        readOnly_lower, zero_lower, initial_eq]

/-- The declaration of a variable is read back. -/
theorem tells_variableLine {declared : Variable} (declarable : IsDeclarable declared.name) :
    Tells program labels (variableLine declared) (.declare declared) := by
  have name : Line.variableName (.ident declared.name) = .ok declared.name := by
    simp [Line.variableName, Nat.not_lt.2 declarable.short, declarable.other]
  have scope : Line.scope (.ident declared.scope.name) = .ok declared.scope := by
    cases declared.scope <;> decide +kernel
  have parsed : Line.ofTokens (.directive "var" :: .ident declared.name ::
      .ident declared.scope.name :: optionTokens declared) =
        .ok { item := some (.declare declared) } := by
    simp only [Line.ofTokens, Line.content, Line.directive, Line.declaration, name, scope, bind,
      Except.bind, options_optionTokens]
    rfl
  exact .intro (lexes_variableLine declarable) parsed (.declare declared)

/-! ## Entry offsets -/

/-- An entry offset that fits in a word is written as this word. -/
theorem entry_eq_target {offset : Nat} (small : offset ≤ Word.maximum) :
    entry labels offset = target labels (Word.ofOffset offset) := by
  simp only [entry, target, Word.offset?_ofOffset small, Numeral.print_ofOffset small]

/-- An entry offset is read back. -/
theorem exists_of_entry {offset : Nat} (small : offset ≤ Word.maximum) :
    ∃ token argument, Spells (entry labels offset) token ∧
      Line.argument .target token = .ok argument ∧
      ∀ symbols, Symbols.Knows program labels symbols →
        symbols.resolveEntry argument = .ok offset := by
  obtain ⟨spells, parsed, stands⟩ : Writes program labels .target _ (Word.ofOffset offset) :=
    writes_target (fun _ => rfl) _
  rename_i token argument
  refine ⟨token, argument, ?_, parsed, ?_⟩
  · rw [entry_eq_target small]
    exact spells
  · intro symbols knows
    simp only [Symbols.resolveEntry, stands symbols knows, bind, Except.bind,
      Word.offset?_ofOffset small]
    rfl

/-- The handler of an event is read back. -/
theorem tells_eventLine (id : Word) {offset : Nat} (small : offset ≤ Word.maximum) :
    Tells program labels (eventLine labels id offset) (.emit (.handler id offset)) := by
  obtain ⟨token, argument, spells, parsed, resolves⟩ :=
    @exists_of_entry program labels offset small
  have lexes : Lexes (eventLine labels id offset).toList
      [.directive "event", .number id, token] := by
    have name : Spells ".event" (.directive "event") :=
      @spells_directive "event" (by decide) (by decide +kernel)
    have whole := name.lexes.append ((spells_print id).lexes.append spells.lexes)
    simpa [eventLine] using whole
  have content : Line.content [.directive "event", .number id, token] =
      .ok (some (.event id argument)) := by
    simp only [Line.content, Line.directive, Line.event, Line.number, List.head?_cons,
      List.tail_cons, parsed]
    rfl
  apply Tells.ofItem lexes _ content
  · simp
  · rfl
  · intro symbols knows
    simp only [Emission.ofItem, resolves symbols knows]
    rfl
  · simp

/-- What is written for a script slot is read as a reference to the script, if there is one. -/
inductive WritesScript (program : Program) (labels : Std.HashSet Nat) (slot : String) :
    Option Nat → List Token → Option Argument → Prop
  | absent : WritesScript program labels slot none [] none
  | present {offset : Nat} {token : Token} {argument : Argument}
      (spells : Spells (entry labels offset) token)
      (parsed : Line.argument .target token = .ok argument)
      (resolves : ∀ symbols, Symbols.Knows program labels symbols →
        symbols.resolveEntry argument = .ok offset) :
      WritesScript program labels slot (some offset) [.ident slot, token] (some argument)

section WritesScript

variable {slot : String} {script : Option Nat} {tokens : List Token} {argument : Option Argument}

theorem exists_writesScript (slot : String) (small : ∀ offset ∈ script, offset ≤ Word.maximum) :
    ∃ tokens argument, WritesScript program labels slot script tokens argument := by
  cases script with
  | none => exact ⟨[], none, .absent⟩
  | some offset =>
      obtain ⟨token, argument, spells, parsed, resolves⟩ :=
        @exists_of_entry program labels offset (small offset rfl)
      exact ⟨[.ident slot, token], some argument, .present spells parsed resolves⟩

theorem WritesScript.trails (writes : WritesScript program labels slot script tokens argument)
    (identifier : isIdentifier slot.toList = true) :
    Trails (scriptText labels slot script) tokens := by
  cases writes with
  | absent => exact .none rfl
  | @present offset _ _ spells _ _ =>
      have text_eq : (scriptText labels slot (some offset)).toList =
          ' ' :: (slot.toList ++ ' ' :: (entry labels offset).toList) := by
        simp [scriptText, toString]
      exact .some text_eq ((spells_identifier identifier).lexes.append spells.lexes)

theorem WritesScript.resolveScript
    (writes : WritesScript program labels slot script tokens argument) {symbols : Symbols}
    (knows : symbols.Knows program labels) : symbols.resolveScript argument = .ok script := by
  cases writes with
  | absent => rfl
  | present _ _ resolves =>
      simp only [Symbols.resolveScript, resolves symbols knows]
      rfl

end WritesScript

/-- Both scripts of an actor kind are read, the tick script first. -/
theorem scripts_of_writesScript {tick load : Option Nat} {tickTokens loadTokens : List Token}
    {tickArgument loadArgument : Option Argument} (count : Nat)
    (writesTick : WritesScript program labels "tick" tick tickTokens tickArgument)
    (writesLoad : WritesScript program labels "load" load loadTokens loadArgument) :
    Line.scripts count none none (tickTokens ++ loadTokens) =
      .ok (tickArgument, loadArgument) := by
  have tick_lower : "tick".toLower = "tick" := by decide +kernel
  have load_lower : "load".toLower = "load" := by decide +kernel
  cases writesTick with
  | absent =>
      cases writesLoad with
      | absent => rfl
      | present _ parsedLoad _ => simp [Line.scripts, load_lower, parsedLoad, bind, Except.bind]
  | present _ parsedTick _ =>
      cases writesLoad with
      | absent => simp [Line.scripts, tick_lower, parsedTick, bind, Except.bind]
      | present _ parsedLoad _ =>
          simp [Line.scripts, tick_lower, load_lower, parsedTick, parsedLoad, bind, Except.bind]

/-- The scripts of an actor kind are read back. -/
theorem tells_actorLine (kind : Word) {scripts : Scripts}
    (small : ∀ offset ∈ scripts.offsets, offset ≤ Word.maximum) :
    Tells program labels (actorLine labels kind scripts) (.emit (.scripts kind scripts)) := by
  obtain ⟨tick, load⟩ := scripts
  obtain ⟨tickTokens, tickArgument, writesTick⟩ :=
    @exists_writesScript program labels tick "tick" fun offset present =>
      small offset (List.mem_append_left _ (Option.mem_toList.2 present))
  obtain ⟨loadTokens, loadArgument, writesLoad⟩ :=
    @exists_writesScript program labels load "load" fun offset present =>
      small offset (List.mem_append_right _ (Option.mem_toList.2 present))
  have lexes : Lexes (actorLine labels kind ⟨tick, load⟩).toList
      (.directive "actor" :: .number kind :: (tickTokens ++ loadTokens)) := by
    have name : Spells ".actor" (.directive "actor") :=
      @spells_directive "actor" (by decide) (by decide +kernel)
    have start := name.lexes.append (spells_print kind).lexes
    have whole := (start.trail (writesTick.trails (by decide))).trail
      (writesLoad.trails (by decide))
    simpa [actorLine, List.append_assoc] using whole
  have content : Line.content (.directive "actor" :: .number kind :: (tickTokens ++ loadTokens)) =
      .ok (some (.actor kind tickArgument loadArgument)) := by
    simp only [Line.content, Line.directive, Line.actor, Line.number, List.head?_cons,
      List.tail_cons, scripts_of_writesScript _ writesTick writesLoad]
    rfl
  apply Tells.ofItem lexes _ content
  · simp
  · rfl
  · intro symbols knows
    simp only [Emission.ofItem, writesTick.resolveScript knows, writesLoad.resolveScript knows]
    rfl
  · simp

end ActorScript.Assembly
