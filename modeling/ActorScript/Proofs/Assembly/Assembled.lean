import ActorScript.Proofs.Assembly.Meaning
import ActorScript.Proofs.Assembly.RoundTrip

/-!
# Assembled programs

Assembling checks names and offsets on the way, so every program that it gives can be
described by text.  Together with the listing this settles which programs survive being
written and read.
-/

namespace ActorScript.Assembly

variable {program : Program}

/-! ## Names -/

namespace Token

theorem isIdentifier_of_nameIn {word name : List Char} {text : String}
    (named : nameIn word name = .ok text) : isIdentifier text.toList = true := by
  unfold nameIn at named
  split at named
  · rename_i identifier
    cases named
    rw [String.toList_ofList]
    exact identifier
  · contradiction

/-- A bare word is an identifier or a brace. -/
theorem word_of_ofWord {word : List Char} {name : String}
    (parsed : ofWord word = .ok (ident name)) :
    isIdentifier name.toList = true ∨ name = "\x7b" ∨ name = "\x7d" := by
  unfold ofWord at parsed
  split at parsed
  · cases parsed
    exact Or.inr (Or.inl rfl)
  · cases parsed
    exact Or.inr (Or.inr rfl)
  · obtain ⟨_, _, other⟩ := map_eq_ok_iff.1 parsed
    contradiction
  · obtain ⟨_, _, other⟩ := map_eq_ok_iff.1 parsed
    contradiction
  · unfold ofPlainWord at parsed
    split at parsed
    · obtain ⟨_, _, other⟩ := map_eq_ok_iff.1 parsed
      contradiction
    · split at parsed
      · split at parsed <;> cases parsed
      · obtain ⟨text, named, same⟩ := map_eq_ok_iff.1 parsed
        cases same
        exact Or.inl (isIdentifier_of_nameIn named)

end Token

/-! ## Lines -/

namespace Line

/-- A token of some line. -/
def IsToken (token : Token) : Prop :=
  ∃ word, Token.ofWord word = .ok token

theorem isDeclarable_of_variableName {token : Token} {name : String} (isToken : IsToken token)
    (named : variableName token = .ok name) : IsDeclarable name := by
  obtain ⟨word, parsed⟩ := isToken
  unfold variableName at named
  split at named
  · split at named
    · contradiction
    · rename_i short
      split at named
      · contradiction
      · rename_i other
        cases named
        apply (Token.word_of_ofWord parsed).imp_left
        intro identifier
        exact ⟨identifier, Nat.not_lt.1 short, Bool.eq_false_iff.2 other⟩
  · contradiction

/-- Options do not change a name. -/
theorem name_of_options {declared result : Variable} {count : Nat} {tokens : List Token}
    (read : options declared count tokens = .ok result) : result.name = declared.name := by
  fun_induction options declared count tokens with
  | case1 declared =>
      cases read
      rfl
  | case2 _ _ _ _ _ ih =>
      obtain ⟨initial, _, later⟩ := bind_eq_ok_iff.1 read
      exact ih initial later
  | case4 _ _ _ _ ih => exact ih read
  | case5 _ _ _ _ ih => exact ih read
  | _ => contradiction

theorem isDeclarable_of_declaration {tokens : List Token} {declared : Variable}
    (isToken : ∀ token ∈ tokens, IsToken token)
    (read : declaration tokens = .ok (.declare declared)) : IsDeclarable declared.name := by
  unfold declaration at read
  split at read
  · contradiction
  · obtain ⟨_, _, failed⟩ := bind_eq_ok_iff.1 read
    contradiction
  · obtain ⟨name, named, read⟩ := bind_eq_ok_iff.1 read
    obtain ⟨scope, _, read⟩ := bind_eq_ok_iff.1 read
    obtain ⟨result, optional, same⟩ := bind_eq_ok_iff.1 read
    cases same
    rw [name_of_options optional]
    exact isDeclarable_of_variableName (isToken _ List.mem_cons_self) named

/-- What stands on a line behind its label is read by itself. -/
theorem content_of_read {source : List Char} {line : Line} (parsed : Line.read source = .ok line) :
    ∃ front behind, Token.ofLine source = .ok (front ++ behind) ∧
      content behind = .ok line.item := by
  obtain ⟨tokens, lexed, parsed⟩ := bind_eq_ok_iff.1 parsed
  unfold ofTokens at parsed
  split at parsed
  · rename_i label rest
    obtain ⟨item, read, rfl⟩ := map_eq_ok_iff.1 parsed
    exact ⟨[.labelDef label], rest, lexed, read⟩
  · obtain ⟨item, read, rfl⟩ := map_eq_ok_iff.1 parsed
    exact ⟨[], tokens, lexed, read⟩

/-- Behind its label a line holds a directive or an instruction. -/
theorem content_cases {tokens : List Token} {item : Item}
    (read : content tokens = .ok (some item)) :
    (∃ name rest, tokens = .directive name :: rest ∧ directive name rest = .ok item) ∨
      ∃ opcode rest, instruction opcode rest = .ok item := by
  unfold content at read
  split at read
  · cases read
  · obtain ⟨_, directed, ⟨⟩⟩ := map_eq_ok_iff.1 read
    exact .inl ⟨_, _, rfl, directed⟩
  · split at read
    · contradiction
    · obtain ⟨_, instructed, ⟨⟩⟩ := map_eq_ok_iff.1 read
      exact .inr ⟨_, _, instructed⟩
  · contradiction

/-- An instruction reads as one of its opcode. -/
theorem form_of_instruction {opcode : Opcode} {tokens : List Token} {item : Item}
    (read : instruction opcode tokens = .ok item) :
    ∃ arguments, item = .instruction opcode arguments := by
  unfold instruction at read
  split at read
  · unfold switch at read
    split at read
    · split at read
      · obtain ⟨_, _, read⟩ := bind_eq_ok_iff.1 read
        obtain ⟨_, _, read⟩ := bind_eq_ok_iff.1 read
        obtain ⟨_, _, read⟩ := bind_eq_ok_iff.1 read
        obtain ⟨_, _, ⟨⟩⟩ := bind_eq_ok_iff.1 read
        exact ⟨_, rfl⟩
      · contradiction
    · contradiction
  · dsimp only at read
    split at read
    · contradiction
    · split at read
      · contradiction
      · obtain ⟨arguments, _, rfl⟩ := map_eq_ok_iff.1 read
        exact ⟨arguments, rfl⟩

/-- What a directive reads as. -/
inductive Directs : String → List Token → Item → Prop
  | declare {tokens : List Token} {declared : Variable}
      (read : declaration tokens = .ok (.declare declared)) :
      Directs "var" tokens (.declare declared)
  | actor {tokens : List Token} {kind : Word} {tick load : Option Argument}
      (read : actor tokens = .ok (.actor kind tick load)) :
      Directs "actor" tokens (.actor kind tick load)
  | event {tokens : List Token} {id : Word} {target : Argument} :
      Directs "event" tokens (.event id target)
  | data {tokens : List Token} {arguments : List Argument} :
      Directs "data" tokens (.data arguments)

theorem directs_of_directive {name : String} {tokens : List Token} {item : Item}
    (read : directive name tokens = .ok item) : Directs name tokens item := by
  unfold directive at read
  split at read
  · have form : ∃ declared, item = .declare declared := by
      unfold declaration at read
      split at read
      · contradiction
      · obtain ⟨_, _, failed⟩ := bind_eq_ok_iff.1 read
        contradiction
      · obtain ⟨_, _, read⟩ := bind_eq_ok_iff.1 read
        obtain ⟨_, _, read⟩ := bind_eq_ok_iff.1 read
        obtain ⟨declared, _, ⟨⟩⟩ := bind_eq_ok_iff.1 read
        exact ⟨declared, rfl⟩
    obtain ⟨declared, rfl⟩ := form
    exact .declare read
  · have form : ∃ kind tick load, item = .actor kind tick load := by
      obtain ⟨kind, _, read⟩ := bind_eq_ok_iff.1 read
      obtain ⟨⟨tick, load⟩, _, ⟨⟩⟩ := bind_eq_ok_iff.1 read
      exact ⟨kind, tick, load, rfl⟩
    obtain ⟨kind, tick, load, rfl⟩ := form
    exact .actor read
  · obtain ⟨_, _, read⟩ := bind_eq_ok_iff.1 read
    split at read
    · contradiction
    · obtain ⟨_, _, rfl⟩ := map_eq_ok_iff.1 read
      exact .event
    · contradiction
  · obtain ⟨_, _, rfl⟩ := map_eq_ok_iff.1 read
    exact .data
  · contradiction

/-- A line declares only what can be declared. -/
theorem isDeclarable_of_read {text : List Char} {line : Line} {declared : Variable}
    (parsed : Line.read text = .ok line) (item_eq : line.item = some (.declare declared)) :
    IsDeclarable declared.name := by
  obtain ⟨front, behind, lexed, read⟩ := content_of_read parsed
  have isToken : ∀ token ∈ front ++ behind, IsToken token := by
    intro token member
    obtain ⟨word, _, read⟩ := exists_of_mem_mapM lexed member
    exact ⟨word, read⟩
  rw [item_eq] at read
  obtain ⟨name, rest, rfl, directed⟩ | ⟨opcode, rest, instructed⟩ := content_cases read
  · cases directs_of_directive directed with
    | declare declares =>
        apply isDeclarable_of_declaration _ declares
        intro token member
        exact isToken token (List.mem_append_right _ (List.mem_cons_of_mem _ member))
  · obtain ⟨_, ⟨⟩⟩ := form_of_instruction instructed

end Line

/-! ## Programs -/

theorem Argument.entry_le_maximum {lines : List Line} {argument : Argument} :
    argument.entry lines ≤ Word.maximum := by
  have below := (argument.word lines).toInt_lt
  rw [Argument.entry, Word.maximum]
  omega

/-- The entry offsets of lines fit in a word. -/
theorem le_maximum_of_mem_actors {lines : List Line} {kind : Word} {scripts : Scripts}
    (member : (kind, scripts) ∈ actors lines) :
    ∀ offset ∈ scripts.offsets, offset ≤ Word.maximum := by
  obtain ⟨⟨label, item⟩, _, scripts_eq⟩ := List.mem_filterMap.1 member
  cases item with
  | none => contradiction
  | some item =>
      cases item with
      | actor kind tick load =>
          cases scripts_eq
          intro offset listed
          rcases List.mem_append.1 listed with first | second
          · obtain ⟨target, _, rfl⟩ := Option.map_eq_some_iff.1 (Option.mem_toList.1 first)
            exact Argument.entry_le_maximum
          · obtain ⟨target, _, rfl⟩ := Option.map_eq_some_iff.1 (Option.mem_toList.1 second)
            exact Argument.entry_le_maximum
      | _ => contradiction

theorem le_maximum_of_mem_events {lines : List Line} {id : Word} {offset : Nat}
    (member : (id, offset) ∈ events lines) : offset ≤ Word.maximum := by
  obtain ⟨⟨label, item⟩, _, handler_eq⟩ := List.mem_filterMap.1 member
  cases item with
  | none => contradiction
  | some item =>
      cases item with
      | event id target =>
          cases handler_eq
          exact Argument.entry_le_maximum
      | _ => contradiction

/-- Every program that assembling gives can be described by text. -/
theorem describable_of_assemble {text : String} (assembled : assemble text = .ok program) :
    Describable IsDeclarable program := by
  obtain ⟨lines, read, resolvable, rfl⟩ := assemble_eq_ok_iff.1 assembled
  constructor
  · exact resolvable.names_nodup
  · intro declared listed
    obtain ⟨line, member, declared_eq⟩ := List.mem_filterMap.1 (List.mem_toArray.1 listed)
    obtain ⟨source, _, parsed⟩ := exists_of_mem_mapM read member
    exact Line.isDeclarable_of_read parsed (Line.declared?_eq_some_iff.1 declared_eq)
  · intro offset member
    rcases List.mem_append.1 member with script | handler
    · obtain ⟨scripts, listed, present⟩ := List.mem_flatMap.1 script
      obtain ⟨⟨kind, _⟩, given, rfl⟩ := List.mem_map.1
        ((Table.perm_values_ofList resolvable.actors_nodup).mem_iff.1 listed)
      exact le_maximum_of_mem_actors given offset present
    · obtain ⟨⟨id, _⟩, given, rfl⟩ := List.mem_map.1
        ((Table.perm_values_ofList resolvable.events_nodup).mem_iff.1 handler)
      exact le_maximum_of_mem_events given

theorem Describable.imp {IsName IsOther : String → Prop}
    (describable : Describable IsName program)
    (implies : ∀ declared ∈ program.vars, IsName declared.name → IsOther declared.name) :
    Describable IsOther program where
  distinct := describable.distinct
  names declared member := implies declared member (describable.names declared member)
  entries := describable.entries

/-! ## Which programs survive -/

/-- Exactly the programs that text can describe are given back by assembling their listing;
without names that are braces, these are the ones with plain names.  Whatever has been
assembled from some text is among them. -/
theorem assemble_disassemble_iff (program : Program) :
    (assemble (disassemble program) = .ok program ↔ Describable IsDeclarable program) ∧
      ((∀ declared ∈ program.vars, declared.name ≠ "\x7b" ∧ declared.name ≠ "\x7d") →
        (assemble (disassemble program) = .ok program ↔ Describable IsPlainName program)) ∧
      ∀ text, assemble text = .ok program → assemble (disassemble program) = .ok program := by
  have survives : assemble (disassemble program) = .ok program ↔
      Describable IsDeclarable program :=
    ⟨describable_of_assemble, assemble_disassemble_of_describable⟩
  refine ⟨survives, ?_, ?_⟩
  · intro braceless
    rw [survives]
    constructor
    · intro describable
      apply describable.imp
      intro declared member declarable
      obtain ⟨left, right⟩ := braceless declared member
      exact declarable.resolve_right (not_or.2 ⟨left, right⟩)
    · intro describable
      exact describable.imp fun _ _ => Or.inl
  · intro text assembled
    exact survives.2 (describable_of_assemble assembled)

/-- A program with a call into its own operand, a load script behind the end of the stream and
a word that nothing reaches. -/
def overlapping : Program :=
  { code := #[4, 1, 8, 0x7FFFFFFF]
    vars := #[{ name := "count", scope := .global, initial := 7 }]
    actors := Table.ofList [(3, { tick := some 0, load := some 1000 })]
    events := Table.ofList [(-1, 1)] }

theorem assemble_disassemble_overlapping :
    (∀ declared ∈ overlapping.vars, declared.name ≠ "\x7b" ∧ declared.name ≠ "\x7d") ∧
      assemble (disassemble overlapping) = .ok overlapping := by
  have braceless :
      ∀ declared ∈ overlapping.vars, declared.name ≠ "\x7b" ∧ declared.name ≠ "\x7d" := by
    decide
  have plain : Describable IsPlainName overlapping := by
    constructor
    · decide
    · intro declared member
      rw [List.mem_singleton.1 (Array.mem_toList_iff.2 member)]
      exact ⟨by decide, by decide, by decide +kernel⟩
    · decide
  exact ⟨braceless, ((assemble_disassemble_iff overlapping).2.1 braceless).2 plain⟩

/-- A program with a variable that is named like a mnemonic, but not by an identifier. -/
def braced : Program :=
  { vars := #[{ name := "\x7b", scope := .global }] }

/-- Not only programs with plain names survive. -/
theorem not_forall_assemble_disassemble_iff :
    ¬ ∀ program : Program, program.code.size < 0x40000000 →
      (assemble (disassemble program) = .ok program ↔ Describable IsPlainName program) := by
  intro claimed
  have describable : Describable IsDeclarable braced := by
    constructor
    · decide
    · intro declared member
      rw [List.mem_singleton.1 (Array.mem_toList_iff.2 member)]
      exact Or.inr (Or.inl rfl)
    · decide
  have survives := assemble_disassemble_of_describable describable
  have plain := (claimed braced (by decide)).1 survives
  have identifier := (plain.names _ (Array.mem_toList_iff.1 List.mem_cons_self)).identifier
  exact absurd identifier (by decide)

end ActorScript.Assembly
