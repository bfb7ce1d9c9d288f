import ActorScript.Proofs.Assembly.Assembled

/-!
# Resolving names

The assembler makes up its mind about a text line by line and in two passes, but what it comes to
can be read off the text: which texts are accepted, and which word stands for each name.
-/

namespace ActorScript.Assembly

/-! ## Counted cases and overridden scripts -/

namespace Line

/-- The last of the targets that follow a keyword. -/
def lastTarget (keyword : String) : List Token → Option Token
  | .ident slot :: target :: rest =>
      (lastTarget keyword rest).or (if slot.toLower = keyword then some target else none)
  | _ => none

/-- The table of a `switch` has two arguments for each case. -/
theorem even_length_of_cases {tokens : List Token} {table : List Argument}
    (read : cases tokens = .ok table) : table.length % 2 = 0 := by
  fun_induction cases tokens generalizing table with
  | case1 value target rest ih =>
      obtain ⟨_, _, read⟩ := bind_eq_ok_iff.1 read
      obtain ⟨_, _, read⟩ := bind_eq_ok_iff.1 read
      obtain ⟨others, others_read, ⟨⟩⟩ := bind_eq_ok_iff.1 read
      have even := ih others_read
      simp only [List.length_cons]
      omega
  | case2 =>
      cases read
      rfl

/-- Arguments of a `switch`, among them the number of its cases. -/
def IsCounted (arguments : List Argument) : Prop :=
  ∃ scrutinee finish count fallback table,
    arguments = scrutinee :: finish :: .number (Word.ofOffset count) :: fallback :: table ∧
      table.length = 2 * count

theorem isCounted_of_switch {tokens : List Token} {arguments : List Argument}
    (read : switch tokens = .ok (.instruction .switch arguments)) : IsCounted arguments := by
  unfold switch at read
  split at read
  · split at read
    · obtain ⟨scrutinee, _, read⟩ := bind_eq_ok_iff.1 read
      obtain ⟨finish, _, read⟩ := bind_eq_ok_iff.1 read
      obtain ⟨fallback, _, read⟩ := bind_eq_ok_iff.1 read
      obtain ⟨table, table_read, ⟨⟩⟩ := bind_eq_ok_iff.1 read
      have even := even_length_of_cases table_read
      exact ⟨scrutinee, finish, table.length / 2, fallback, table, rfl, by omega⟩
    · contradiction
  · contradiction

/-- The cases of a `switch` are counted. -/
theorem isCounted_of_read {source : List Char} {line : Line} {arguments : List Argument}
    (parsed : Line.read source = .ok line)
    (item_eq : line.item = some (.instruction .switch arguments)) : IsCounted arguments := by
  obtain ⟨_, tokens, _, read⟩ := content_of_read parsed
  rw [item_eq] at read
  obtain ⟨name, rest, _, directed⟩ | ⟨opcode, rest, instructed⟩ := content_cases read
  · cases directs_of_directive directed
  · obtain ⟨_, ⟨⟩⟩ := form_of_instruction instructed
    exact isCounted_of_switch instructed

theorem mapM_or {α β ε : Type} {first second : Option α} {step : α → Except ε β}
    {left right : Option β} (first_eq : first.mapM step = .ok left)
    (second_eq : second.mapM step = .ok right) :
    (first.or second).mapM step = .ok (left.or right) := by
  cases first with
  | none =>
      cases first_eq
      exact second_eq
  | some item =>
      obtain ⟨value, value_eq, rfl⟩ := map_eq_ok_iff.1 first_eq
      exact first_eq

/-- A later target for a slot takes the place of an earlier one. -/
theorem overrides_of_scripts {count : Nat} {tick load lastTick lastLoad : Option Argument}
    {tokens : List Token} (read : scripts count tick load tokens = .ok (lastTick, lastLoad)) :
    ∃ newTick newLoad, (lastTarget "tick" tokens).mapM (argument .target) = .ok newTick ∧
      (lastTarget "load" tokens).mapM (argument .target) = .ok newLoad ∧
        lastTick = newTick.or tick ∧ lastLoad = newLoad.or load := by
  fun_induction scripts count tick load tokens with
  | case1 tick load =>
      cases read
      exact ⟨none, none, rfl, rfl, rfl, rfl⟩
  | case2 tick load slot target rest slot_eq ih =>
      obtain ⟨given, given_eq, read⟩ := bind_eq_ok_iff.1 read
      obtain ⟨newTick, newLoad, tick_eq, load_eq, rfl, rfl⟩ := ih given read
      -- The target here counts only where no later one does.
      have here : (some target).mapM (argument .target) = .ok (some given) :=
        map_eq_ok_iff.2 ⟨given, given_eq, rfl⟩
      refine ⟨newTick.or (some given), newLoad, ?_, ?_, ?_, rfl⟩
      · rw [lastTarget, if_pos slot_eq]
        exact mapM_or tick_eq here
      · rw [lastTarget, slot_eq, if_neg (by decide), Option.or_none]
        exact load_eq
      · rw [Option.or_assoc, Option.some_or]
  | case3 tick load slot target rest slot_eq ih =>
      obtain ⟨given, given_eq, read⟩ := bind_eq_ok_iff.1 read
      obtain ⟨newTick, newLoad, tick_eq, load_eq, rfl, rfl⟩ := ih given read
      have here : (some target).mapM (argument .target) = .ok (some given) :=
        map_eq_ok_iff.2 ⟨given, given_eq, rfl⟩
      refine ⟨newTick, newLoad.or (some given), ?_, ?_, rfl, ?_⟩
      · rw [lastTarget, slot_eq, if_neg (by decide), Option.or_none]
        exact tick_eq
      · rw [lastTarget, if_pos slot_eq]
        exact mapM_or load_eq here
      · rw [Option.or_assoc, Option.some_or]
  | _ => contradiction

theorem eq_number_of_number {directive : String} {expected : Nat} {token : Option Token}
    {value : Word} (read : number directive expected token = .ok value) :
    token = some (.number value) := by
  unfold number at read
  split at read
  · cases read
    rfl
  · contradiction
  · contradiction

/-- Of several targets for one slot of an actor kind the last one counts. -/
theorem targets_of_read {source : List Char} {line : Line} {kind : Word}
    {tick load : Option Argument} (parsed : Line.read source = .ok line)
    (item_eq : line.item = some (.actor kind tick load)) :
    ∃ front targets,
      Token.ofLine source = .ok (front ++ .directive "actor" :: .number kind :: targets) ∧
        (lastTarget "tick" targets).mapM (argument .target) = .ok tick ∧
        (lastTarget "load" targets).mapM (argument .target) = .ok load := by
  obtain ⟨front, tokens, lexed, read⟩ := content_of_read parsed
  rw [item_eq] at read
  obtain ⟨name, rest, rfl, directed⟩ | ⟨opcode, rest, instructed⟩ := content_cases read
  · cases directs_of_directive directed with
    | actor acted =>
        obtain ⟨kind, kind_eq, acted⟩ := bind_eq_ok_iff.1 acted
        obtain ⟨⟨tick, load⟩, read, ⟨⟩⟩ := bind_eq_ok_iff.1 acted
        obtain ⟨_, _, tick_eq, load_eq, rfl, rfl⟩ := overrides_of_scripts read
        rw [Option.or_none, Option.or_none]
        -- The kind is the first of the arguments.
        rw [List.eq_cons_of_mem_head? (eq_number_of_number kind_eq)] at lexed
        exact ⟨front, rest.tail, lexed, tick_eq, load_eq⟩
  · obtain ⟨_, ⟨⟩⟩ := form_of_instruction instructed

end Line

/-! ## The words of names -/

section Words

variable {front behind : List Line} {line : Line}

theorem toInt_ofOffset {offset : Nat} (small : offset ≤ Word.maximum) :
    (Word.ofOffset offset).toInt = offset :=
  Word.offset?_eq_some_iff.1 (Word.offset?_ofOffset small)

/-- Where no label is defined twice, a label stands for the words in front of its line. -/
theorem labelOffset_of_distinct {text : String} (distinct : Distinct (front ++ line :: behind))
    (labelled : line.label = some text) :
    labelOffset (front ++ line :: behind) text = wordCount front := by
  have unknown : text ∉ labels front := by
    rw [List.append_cons] at distinct
    exact ((distinct_append_singleton_iff distinct.of_append.of_append).1 distinct.of_append).1
      text labelled
  rw [labelOffset_append, if_neg unknown, labelOffset_cons, if_pos labelled, Nat.add_zero]

/-- Where no variable is declared twice, a name stands for the declarations in front of its own. -/
theorem idxOf_of_distinct {declared : Variable} (distinct : Distinct (front ++ line :: behind))
    (declares : line.declared? = some declared) :
    (names (front ++ line :: behind)).idxOf declared.name = (declarations front).length := by
  have unknown : declared.name ∉ names front := by
    rw [List.append_cons] at distinct
    exact ((distinct_append_singleton_iff distinct.of_append.of_append).1 distinct.of_append).2
      declared declares
  have here : names (line :: behind) = declared.name :: names behind := by
    rw [names, declarations, List.filterMap_cons_some declares]
    rfl
  rw [names_append, here, List.idxOf_append_of_notMem unknown, List.idxOf_cons_self, names,
    List.length_map, Nat.add_zero]

end Words

/-! ## Accepted texts -/

/-- How the lines of a text come to words and entries. -/
structure Exact (sources : List (List Char)) (lines : List Line) : Prop where
  /-- A label stands for the number of words that the lines in front of its line add. -/
  label : ∀ front line behind text, lines = front ++ line :: behind → line.label = some text →
    ((Argument.label text).word lines).toInt =
      (front.flatMap fun line => (line.emission lines).code).length
  /-- The name of a variable stands for its position among the declarations. -/
  name : ∀ front line behind declared, lines = front ++ line :: behind →
    line.declared? = some declared →
    (Argument.name declared.name).word lines = Word.ofOffset (declarations front).length
  /-- The third operand of a `switch` is the number of its cases. -/
  switch : ∀ line ∈ lines, ∀ arguments, line.item = some (.instruction .switch arguments) →
    ∃ scrutinee finish count fallback table, (line.emission lines).code =
      Opcode.switch.word :: scrutinee :: finish :: count :: fallback :: table ∧
        2 * count.toInt = table.length
  /-- Of several targets for one slot of an actor kind the last one is taken. -/
  scripts : ∀ source ∈ sources, ∀ label kind tick load,
    Line.read source = .ok ⟨label, some (.actor kind tick load)⟩ → ∃ front targets,
      Token.ofLine source = .ok (front ++ .directive "actor" :: .number kind :: targets) ∧
        (Line.lastTarget "tick" targets).mapM (Line.argument .target) = .ok tick ∧
        (Line.lastTarget "load" targets).mapM (Line.argument .target) = .ok load

theorem exact_of_distinct {sources : List (List Char)} {lines : List Line}
    (read : sources.mapM Line.read = .ok lines) (small : wordCount lines ≤ Word.maximum)
    (distinct : Distinct lines) : Exact sources lines := by
  constructor
  · rintro front line behind text rfl labelled
    rw [wordCount_append] at small
    rw [Argument.word, labelOffset_of_distinct distinct labelled, length_code_eq_wordCount]
    apply toInt_ofOffset
    omega
  · rintro front line behind declared rfl declares
    rw [Argument.word, idxOf_of_distinct distinct declares]
  · intro line member arguments item_eq
    obtain ⟨source, _, parsed⟩ := exists_of_mem_mapM read member
    obtain ⟨scrutinee, finish, count, fallback, table, rfl, length_eq⟩ :=
      Line.isCounted_of_read parsed item_eq
    have fits : 2 * count ≤ Word.maximum := by
      obtain ⟨front, behind, rfl⟩ := List.append_of_mem member
      have long : line.length = 2 * count + 5 := by
        rw [Line.length, item_eq, ← length_eq]
        rfl
      rw [wordCount_append, wordCount_cons, long] at small
      omega
    refine ⟨scrutinee.word lines, finish.word lines, Word.ofOffset count, fallback.word lines,
      table.map (Argument.word lines), ?_, ?_⟩
    · rw [Line.emission, item_eq]
      rfl
    · rw [List.length_map, length_eq, toInt_ofOffset (by omega)]
      rfl
  · intro source _ label kind tick load parsed
    exact Line.targets_of_read parsed rfl

/-- A text whose lines can be read is accepted exactly if its lines are resolvable, and then it
gives the program that its lines describe. -/
theorem assemble_iff_resolvable {text : String} {lines : List Line}
    (read : (Text.lines text.toList).mapM Line.read = .ok lines)
    (small : wordCount lines ≤ Word.maximum) :
    ((∃ program, assemble text = .ok program) ↔ Resolvable lines) ∧
    ∀ program, assemble text = .ok program →
      program = described lines ∧ Exact (Text.lines text.toList) lines := by
  have accepted_iff (program : Program) :
      assemble text = .ok program ↔ Resolvable lines ∧ program = described lines := by
    rw [assemble_eq_ok_iff]
    constructor
    · rintro ⟨others, others_read, accepted⟩
      cases read.symm.trans others_read
      exact accepted
    · intro accepted
      exact ⟨lines, read, accepted⟩
  constructor
  · constructor
    · rintro ⟨program, assembled⟩
      exact ((accepted_iff program).1 assembled).1
    · intro resolvable
      exact ⟨_, (accepted_iff _).2 ⟨resolvable, rfl⟩⟩
  · intro program assembled
    obtain ⟨resolvable, program_eq⟩ := (accepted_iff program).1 assembled
    exact ⟨program_eq, exact_of_distinct read small resolvable.toDistinct⟩

/-- A text that names labels and a variable before it defines them, and overrides a target. -/
def staged : String :=
  ".actor 7 tick @gone tick @run\nrun: setvar hp 5\n switch hp @done 0 1 @run\n" ++
    ".var hp actor default 9\ndone: endswitch\n.event 3 @done\n.data -2 @done"

/-- The lines of the text. -/
def stagedLines : List Line :=
  [{ item := some (.actor 7 (some (.label "run")) none) },
    { label := some "run"
      item := some (.instruction (.assign .set .literal) [.name "hp", .number 5]) },
    { item := some (.instruction .switch
        [.name "hp", .label "done", .number 1, .number 0, .number 1, .label "run"]) },
    { item := some (.declare { name := "hp", scope := .actor, initial := 9 }) },
    { label := some "done", item := some (.instruction .endSwitch []) },
    { item := some (.event 3 (.label "done")) },
    { item := some (.data [.number (-2), .label "done"]) }]

set_option maxRecDepth 2000 in
/-- The label that only the overridden target names need not be defined. -/
theorem assemble_staged :
    assemble staged = .ok {
      code := #[0x40, 0, 5, 5, 0, 10, 1, 0, 1, 0, 6, -2, 10]
      vars := #[{ name := "hp", scope := .actor, initial := 9 }]
      actors := .ofList [(7, { tick := some 0 })]
      events := .ofList [(3, 10)] } := by
  have read : (Text.lines staged.toList).mapM Line.read = .ok stagedLines := by decide +kernel
  have small : wordCount stagedLines ≤ Word.maximum := by decide
  have resolvable : Resolvable stagedLines := by decide
  obtain ⟨accepted, described⟩ := assemble_iff_resolvable read small
  obtain ⟨program, assembled⟩ := accepted.2 resolvable
  rw [assembled, (described program assembled).1]
  decide

end ActorScript.Assembly
