import ActorScript.Proofs.Assembly.Listing
import ActorScript.Proofs.Assembly.Statement
import ActorScript.Proofs.Assembly.Token

/-!
# Reading back operands

Every operand that is written for a word is read as an argument that stands for this word,
to whoever knows the labels of the listing and the variables of the program.
-/

namespace ActorScript.Assembly

open Listing Token

variable {program : Program} {labels : Std.HashSet Nat}

/-! ## Operands -/

/-- An argument stands for a word, given the symbols of a program. -/
def Argument.Stands (program : Program) (labels : Std.HashSet Nat) (argument : Argument)
    (word : Word) : Prop :=
  ∀ symbols, Symbols.Knows program labels symbols → symbols.resolve argument = .ok word

/-- A text is read as an operand that stands for a word. -/
inductive Writes (program : Program) (labels : Std.HashSet Nat) (kind : OperandKind)
    (text : String) (word : Word) : Prop
  | intro {token : Token} {argument : Argument} (spells : Spells text token)
      (parsed : Line.argument kind token = .ok argument)
      (stands : argument.Stands program labels word) : Writes program labels kind text word

theorem stands_number (word : Word) : (Argument.number word).Stands program labels word :=
  fun _ _ => rfl

/-- A numeral is an operand of any kind. -/
theorem writes_print (kind : OperandKind) (word : Word) :
    Writes program labels kind (Numeral.print word) word :=
  .intro (spells_print word) rfl (stands_number word)

theorem spells_labelRef (offset : Nat) : Spells s!"@L{offset}" (.labelRef (labelName offset)) := by
  have text_eq : s!"@L{offset}".toList = '@' :: (labelName offset).toList := by
    rw [toList_labelName]
    simp [toString]
  have identifier : isIdentifier (labelName offset).toList = true := by
    rw [toList_labelName]
    exact isIdentifier_offset offset
  have mark : IsSolid ['@'] := isSolid_singleton (by decide)
  constructor
  · rw [text_eq]
    exact mark.append (isSolid_of_isIdentifier identifier)
  · rw [text_eq, ofWord_labelRef identifier, String.ofList_toList]

/-- A target is read back, by its label or as a number. -/
theorem writes_target {kind : OperandKind}
    (accepts : ∀ name, Line.argument kind (.labelRef name) = .ok (.label name)) (word : Word) :
    Writes program labels kind (target labels word) word := by
  unfold target
  split
  · exact writes_print kind word
  · rename_i offset offset_eq
    split
    · rename_i labelled
      apply Writes.intro (spells_labelRef offset) (accepts _)
      intro symbols knows
      simp only [Symbols.resolve, knows.label offset labelled, Word.ofOffset_of_offset? offset_eq]
    · exact writes_print kind word

theorem writes_optionalTarget {kind : OperandKind}
    (accepts : ∀ name, Line.argument kind (.labelRef name) = .ok (.label name)) (word : Word) :
    Writes program labels kind (optionalTarget labels word) word := by
  unfold optionalTarget
  split
  · rename_i zero
    rw [zero]
    exact writes_print kind 0
  · exact writes_target accepts word

/-- A name by which text can refer to a variable is that of an identifier. -/
theorem nameOf?_eq_some {id : Nat} {name : String} (named : nameOf? program id = some name) :
    isIdentifier name.toList = true ∧ isSelf name = false ∧ program.varId? name = some id := by
  unfold nameOf? at named
  split at named
  · contradiction
  · split at named
    · rename_i usable
      cases named
      simp only [Bool.and_eq_true, Bool.not_eq_true', beq_iff_eq] at usable
      exact ⟨usable.1.1, usable.1.2, usable.2⟩
    · contradiction

/-- A variable is read back, by its name or as a number. -/
theorem writes_variable {kind : OperandKind}
    (accepts : ∀ name, isSelf name = false → Line.argument kind (.ident name) = .ok (.name name))
    (word : Word) : Writes program labels kind (variableText program word) word := by
  unfold variableText
  split
  · rename_i name named
    obtain ⟨id, id_eq, named⟩ := Option.bind_eq_some_iff.1 named
    obtain ⟨identifier, other, found⟩ := nameOf?_eq_some named
    apply Writes.intro (spells_identifier identifier) (accepts name other)
    intro symbols knows
    have same : symbols.varId? name = some id := by
      rw [Symbols.varId?, knows.vars]
      exact found
    simp only [Symbols.resolve, same, Word.ofOffset_of_offset? id_eq]
  · exact writes_print kind word

/-- Every operand is read back. -/
theorem writes_operand (kind : OperandKind) (word : Word) :
    Writes program labels kind (operandText program labels kind word) word := by
  cases kind with
  | literal => exact writes_print _ word
  | field => exact writes_print _ word
  | var => exact writes_variable (fun _ _ => rfl) word
  | target => exact writes_target (fun _ => rfl) word
  | record kind => exact writes_optionalTarget (fun _ => rfl) word
  | handle =>
      unfold operandText
      dsimp only
      split
      · rename_i self
        have parsed : Line.argument .handle (.ident "self") = .ok .self := by decide +kernel
        apply Writes.intro (spells_identifier (by decide)) parsed
        intro symbols _
        rw [self]
        rfl
      · apply writes_variable _ word
        intro name other
        simp [Line.argument, other]

/-! ## Instructions -/

/-- Texts of operands are read as arguments that stand for their words. -/
theorem arguments_of_operands (operands : List (OperandKind × Word)) :
    ∃ tokens arguments,
      List.Forall₂ Spells
        (operands.map fun operand => operandText program labels operand.1 operand.2) tokens ∧
      Line.arguments (operands.map (·.1)) tokens = .ok arguments ∧
      arguments.length = operands.length ∧
      ∀ symbols, Symbols.Knows program labels symbols →
        arguments.mapM symbols.resolve = .ok (operands.map (·.2)) := by
  induction operands with
  | nil => exact ⟨[], [], .nil, rfl, rfl, fun _ _ => rfl⟩
  | cons operand rest ih =>
      obtain ⟨tokens, arguments, spells, parsed, length_eq, stands⟩ := ih
      have written : Writes program labels operand.1 _ operand.2 := writes_operand _ _
      obtain ⟨here, parsedHere, standsHere⟩ := written
      rename_i token argument
      refine ⟨token :: tokens, argument :: arguments, .cons here spells, ?_, ?_, ?_⟩
      · unfold Line.arguments at parsed ⊢
        rw [List.map_cons, List.zip_cons_cons, List.mapM_cons]
        simp only [parsedHere, parsed]
        rfl
      · rw [List.length_cons, List.length_cons, length_eq]
      · intro symbols knows
        rw [List.mapM_cons, standsHere symbols knows, stands symbols knows]
        rfl

/-- The operands of any instruction but a `switch` are written with the kinds of its opcode. -/
theorem operandTexts_eq {instruction : Instruction} (plain : instruction.opcode ≠ .switch)
    (size_eq : instruction.operands.size = instruction.opcode.operands.length) :
    operandTexts program labels instruction =
      (instruction.opcode.operands.zip instruction.operands.toList).map fun operand =>
        operandText program labels operand.1 operand.2 := by
  have texts_eq : operandTexts program labels instruction =
      instruction.opcode.operands.zipIdx.map fun entry =>
        operandText program labels entry.1 (instruction.operand entry.2) := by
    unfold operandTexts
    split
    · contradiction
    · rfl
  rw [texts_eq]
  apply List.ext_getElem
  · simp [size_eq]
  · intro index inside _
    have below : index < instruction.operands.size := by
      rw [size_eq]
      simpa using inside
    simp [Instruction.operand, below]

theorem spells_brace {text : String} (brace : text = "\x7b" ∨ text = "\x7d") :
    Spells text (.ident text) := by
  rcases brace with rfl | rfl
  · exact ⟨@isSolid_singleton '\x7b' (by decide), by decide +kernel⟩
  · exact ⟨@isSolid_singleton '\x7d' (by decide), by decide +kernel⟩

/-- A mnemonic is one word. -/
theorem spells_mnemonic (opcode : Opcode) : Spells opcode.mnemonic (.ident opcode.mnemonic) := by
  have every : ∀ opcode ∈ Opcode.all, isIdentifier opcode.mnemonic.toList = true ∨
      opcode.mnemonic = "\x7b" ∨ opcode.mnemonic = "\x7d" := by
    decide +kernel
  rcases every opcode (Opcode.mem_all opcode) with identifier | brace
  · exact spells_identifier identifier
  · exact spells_brace brace

/-- A mnemonic names its opcode. -/
theorem ofMnemonic?_mnemonic (opcode : Opcode) :
    Opcode.ofMnemonic? opcode.mnemonic = some opcode := by
  have every : ∀ opcode ∈ Opcode.all, Opcode.ofMnemonic? opcode.mnemonic = some opcode := by
    decide +kernel
  exact every opcode (Opcode.mem_all opcode)

/-! ### The table of a `switch` -/

/-- The cases of a `switch` are read as arguments that stand for them. -/
theorem cases_of_table (table : List (Word × Word)) :
    ∃ tokens arguments,
      List.Forall₂ Spells
        (table.flatMap fun entry => [Numeral.print entry.1, target labels entry.2]) tokens ∧
      tokens.length = 2 * table.length ∧ Line.cases tokens = .ok arguments ∧
      arguments.length = 2 * table.length ∧
      ∀ symbols, Symbols.Knows program labels symbols →
        arguments.mapM symbols.resolve = .ok (table.flatMap fun entry => [entry.1, entry.2]) := by
  induction table with
  | nil => exact ⟨[], [], .nil, rfl, rfl, rfl, fun _ _ => rfl⟩
  | cons entry rest ih =>
      obtain ⟨tokens, arguments, spells, count_eq, parsed, length_eq, stands⟩ := ih
      have written : Writes program labels .target _ entry.2 := writes_target (fun _ => rfl) _
      obtain ⟨goal, goal_parsed, goal_stands⟩ := written
      rename_i token argument
      refine ⟨.number entry.1 :: token :: tokens, .number entry.1 :: argument :: arguments,
        .cons (spells_print _) (.cons goal spells), ?_, ?_, ?_, ?_⟩
      · simp only [List.length_cons, count_eq]
        omega
      · unfold Line.cases
        rw [goal_parsed, parsed]
        rfl
      · simp only [List.length_cons, length_eq]
        omega
      · intro symbols knows
        rw [List.mapM_cons, List.mapM_cons, goal_stands symbols knows, stands symbols knows]
        rfl

/-! ### Every instruction -/

/-- The operand texts of an instruction are read as arguments that stand for its words. -/
inductive WritesOperands (program : Program) (labels : Std.HashSet Nat)
    (instruction : Instruction) : Prop
  | intro {tokens : List Token} {arguments : List Argument}
      (spells : List.Forall₂ Spells (operandTexts program labels instruction) tokens)
      (parsed : Line.instruction instruction.opcode tokens =
        .ok (.instruction instruction.opcode arguments))
      (length_eq : arguments.length = instruction.operands.size)
      (stands : ∀ symbols, Symbols.Knows program labels symbols →
        arguments.mapM symbols.resolve = .ok instruction.operands.toList) :
      WritesOperands program labels instruction

theorem writesOperands_of_switch {code : Array Word} {offset : Nat} {instruction : Instruction}
    (decoded : Instruction.decode code offset = .ok instruction)
    (opcode_eq : instruction.opcode = .switch) : WritesOperands program labels instruction := by
  obtain ⟨count_eq, operands_eq⟩ := Instruction.operands_of_switch decoded opcode_eq
  obtain ⟨table, tableArguments, spells, width, parsed, length_eq, stands⟩ :=
    @cases_of_table program labels instruction.cases
  obtain ⟨scrutinee, scrutinee_parsed, scrutinee_stands⟩ :
      Writes program labels .var _ (instruction.operand 0) := writes_variable (fun _ _ => rfl) _
  obtain ⟨finish, finish_parsed, finish_stands⟩ :
      Writes program labels .target _ (instruction.operand 1) := writes_target (fun _ => rfl) _
  obtain ⟨fallback, fallback_parsed, fallback_stands⟩ :
      Writes program labels .target _ (instruction.operand 3) :=
    writes_optionalTarget (fun _ => rfl) _
  rename_i scrutineeToken scrutineeArgument finishToken finishArgument fallbackToken
    fallbackArgument
  have spells : List.Forall₂ Spells (operandTexts program labels instruction)
      (scrutineeToken :: finishToken :: fallbackToken :: table) := by
    simp only [operandTexts, opcode_eq]
    exact .cons scrutinee (.cons finish (.cons fallback spells))
  have even : table.length % 2 = 0 := by omega
  have half : Word.ofOffset (tableArguments.length / 2) = instruction.operand 2 := by
    rw [length_eq, Nat.mul_div_cancel_left _ (by decide), Word.ofOffset_of_offset? count_eq]
  have parsed : Line.instruction instruction.opcode
      (scrutineeToken :: finishToken :: fallbackToken :: table) =
        .ok (.instruction instruction.opcode (scrutineeArgument :: finishArgument ::
          .number (instruction.operand 2) :: fallbackArgument :: tableArguments)) := by
    rw [opcode_eq]
    simp only [Line.instruction, Line.switch, if_pos even, scrutinee_parsed, finish_parsed,
      fallback_parsed, parsed, ← half]
    rfl
  have size_eq := congrArg List.length operands_eq
  have pairs : (instruction.cases.flatMap fun entry => [entry.1, entry.2]).length =
      2 * instruction.cases.length := by
    simp [List.length_flatMap, Nat.mul_comm]
  refine .intro spells parsed ?_ ?_
  · rw [List.length_append, Array.length_toList, pairs] at size_eq
    simp only [List.length_cons, length_eq, size_eq, List.length_nil]
    omega
  · intro symbols knows
    have count := stands_number (instruction.operand 2) symbols knows
    rw [operands_eq]
    simp only [List.mapM_cons, scrutinee_stands symbols knows, finish_stands symbols knows, count,
      fallback_stands symbols knows, stands symbols knows]
    rfl

/-- The operands of any other instruction are checked one by one. -/
theorem writesOperands_of_plain {code : Array Word} {offset : Nat} {instruction : Instruction}
    (decoded : Instruction.decode code offset = .ok instruction)
    (plain : instruction.opcode ≠ .switch) : WritesOperands program labels instruction := by
  have size_eq := Instruction.size_operands decoded plain
  obtain ⟨tokens, arguments, spells, parsed, length_eq, stands⟩ :=
    @arguments_of_operands program labels
      (instruction.opcode.operands.zip instruction.operands.toList)
  have kinds_eq : (instruction.opcode.operands.zip instruction.operands.toList).map (·.1) =
      instruction.opcode.operands := List.map_fst_zip (by simp [size_eq])
  have words_eq : (instruction.opcode.operands.zip instruction.operands.toList).map (·.2) =
      instruction.operands.toList := List.map_snd_zip (by simp [size_eq])
  rw [kinds_eq] at parsed
  rw [words_eq] at stands
  rw [← operandTexts_eq plain size_eq] at spells
  have count_eq : tokens.length = instruction.opcode.operands.length := by
    rw [← spells.length_eq, operandTexts_eq plain size_eq]
    simp [size_eq]
  refine .intro spells ?_ (by simp [length_eq, size_eq]) stands
  unfold Line.instruction
  split
  · contradiction
  · rw [if_neg (by omega), List.drop_of_length_le (by omega)]
    simp only [parsed]
    rfl

/-- The operands of every instruction in the stream are read back. -/
theorem writesOperands_of_decode {code : Array Word} {offset : Nat} {instruction : Instruction}
    (decoded : Instruction.decode code offset = .ok instruction) :
    WritesOperands program labels instruction := by
  by_cases opcode_eq : instruction.opcode = .switch
  · exact writesOperands_of_switch decoded opcode_eq
  · exact writesOperands_of_plain decoded opcode_eq

end ActorScript.Assembly
