import ActorScript.Proofs.Assembly.Operand

/-!
# Reading back lines

Every line of a listing is read as a line that means its part of the program.
-/

namespace ActorScript.Assembly

open Listing Token

variable {program : Program} {labels : Std.HashSet Nat}

/-- A text is a line that comes to a statement. -/
inductive Tells (program : Program) (labels : Std.HashSet Nat) (text : String)
    (statement : Statement) : Prop
  | intro {tokens : List Token} {line : Line} (lexes : Lexes text.toList tokens)
      (parsed : Line.ofTokens tokens = .ok line) (means : line.Means program labels statement) :
      Tells program labels text statement

/-- What tells a statement is read as a line that means it. -/
theorem Tells.exists_line {text : String} {statement : Statement}
    (tells : Tells program labels text statement) :
    ∃ line, Line.read text.toList = .ok line ∧ line.Means program labels statement := by
  obtain ⟨lexes, parsed, means⟩ := tells
  rename_i tokens line
  refine ⟨line, ?_, means⟩
  rw [Line.read, lexes.ofLine]
  exact parsed

theorem tells_blank : Tells program labels "" .blank :=
  .intro lexes_nil rfl .blank

/-! ## Rows -/

/-- A line may be indented. -/
theorem Token.Lexes.indent {line : List Char} {tokens : List Token} (lexes : Lexes line tokens) :
    Lexes ("    ".toList ++ line) tokens :=
  lexes_nil.append (lexes_nil.append (lexes_nil.append (lexes_nil.append lexes)))

theorem tells_label (offset : Nat) : Tells program labels s!"L{offset}:" (.label offset) := by
  have identifier := isIdentifier_offset offset
  have text_eq : s!"L{offset}:".toList = ('L' :: (toString offset).toList) ++ [':'] := by
    simp [toString]
  have colon : IsSolid [':'] := isSolid_singleton (by decide)
  have spells : Spells s!"L{offset}:" (.labelDef (labelName offset)) := by
    constructor
    · rw [text_eq]
      exact (isSolid_of_isIdentifier identifier).append colon
    · rw [text_eq, ofWord_labelDef identifier, ← toList_labelName, String.ofList_toList]
  exact .intro spells.lexes rfl (.label offset)

/-- The item behind a directive or a mnemonic is all that its line tells. -/
theorem Tells.ofItem {text : String} {first : Token} {rest : List Token} {item : Item}
    {emission : Emission} (lexes : Lexes text.toList (first :: rest))
    (unlabelled : ∀ name, first ≠ .labelDef name)
    (parsed : Line.content (first :: rest) = .ok (some item))
    (plain : ∀ declared, item ≠ .declare declared)
    (length_eq : item.length = emission.code.length)
    (emits : ∀ symbols, Symbols.Knows program labels symbols →
      Emission.ofItem symbols item = .ok emission) :
    Tells program labels text (.emit emission) := by
  have line_eq : Line.ofTokens (first :: rest) = .ok { item := some item } := by
    unfold Line.ofTokens
    split
    · rename_i same
      cases same
      exact absurd rfl (unlabelled _)
    · rw [parsed]
      rfl
  exact .intro lexes line_eq (.emit plain length_eq emits)

/-- A line of data gives its words. -/
theorem tells_data (offset : Nat) (words : Array Word) :
    Tells program labels (rowText program labels (.data offset words))
      (.emit (.words words.toList)) := by
  have numerals : List.Forall₂ Spells (words.map Numeral.print).toList
      (words.toList.map Token.number) := by
    rw [Array.toList_map, List.forall₂_map_left_iff, List.forall₂_map_right_iff, List.forall₂_same]
    exact fun word _ => spells_print word
  have name : Spells ".data" (.directive "data") :=
    @spells_directive "data" (by decide) (by decide +kernel)
  have lexes : Lexes (rowText program labels (.data offset words)).toList
      (.directive "data" :: words.toList.map Token.number) := by
    have whole := (name.lexes.append (lexes_intercalate numerals)).indent
    unfold rowText
    rw [String.toList_append]
    exact whole
  have parsed : (words.toList.map Token.number).mapM (Line.argument .target) =
      .ok (words.toList.map Argument.number) := by
    rw [mapM_eq_ok_iff, List.forall₂_map_left_iff, List.forall₂_map_right_iff, List.forall₂_same]
    exact fun _ _ => rfl
  have content : Line.content (.directive "data" :: words.toList.map Token.number) =
      .ok (some (.data (words.toList.map Argument.number))) := by
    simp only [Line.content, Line.directive, parsed]
    rfl
  apply Tells.ofItem lexes _ content
  · simp
  · simp [Item.length, Emission.code]
  · intro symbols _
    have resolved : (words.toList.map Argument.number).mapM symbols.resolve = .ok words.toList := by
      rw [mapM_eq_ok_iff, List.forall₂_map_left_iff, List.forall₂_same]
      exact fun _ _ => rfl
    simp only [Emission.ofItem, resolved]
    rfl
  · simp

/-- An instruction gives its words. -/
theorem tells_instruction {code : Array Word} {instruction : Instruction}
    (decoded : Instruction.decode code instruction.offset = .ok instruction) :
    Tells program labels (rowText program labels (.instruction instruction))
      (.emit (.words (instruction.opcode.word :: instruction.operands.toList))) := by
  obtain ⟨spells, parsed, length_eq, stands⟩ :=
    @writesOperands_of_decode program labels _ _ _ decoded
  rename_i tokens arguments
  have lexes : Lexes (rowText program labels (.instruction instruction)).toList
      (.ident instruction.opcode.mnemonic :: tokens) := by
    have whole := (lexes_intercalate
      (List.Forall₂.cons (spells_mnemonic instruction.opcode) spells)).indent
    unfold rowText
    rw [String.toList_append]
    exact whole
  have content : Line.content (.ident instruction.opcode.mnemonic :: tokens) =
      .ok (some (.instruction instruction.opcode arguments)) := by
    simp only [Line.content, ofMnemonic?_mnemonic, parsed]
    rfl
  apply Tells.ofItem lexes _ content
  · simp
  · simp [Item.length, Emission.code, length_eq]
  · intro symbols knows
    simp only [Emission.ofItem, stands symbols knows]
    rfl
  · simp

/-- The line of a row gives its words. -/
theorem tells_row {row : Row} (isRead : row.IsRead program.code) :
    Tells program labels (rowText program labels row) (.emit (.words row.words)) := by
  cases row with
  | instruction written => exact tells_instruction isRead
  | data offset words => exact tells_data offset words

end ActorScript.Assembly
