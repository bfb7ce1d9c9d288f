import ActorScript.Proofs.Assembly.Statement

/-!
# What lines stand for

The words of a text can be named without the two passes of the assembler: a label stands for the
words in front of its line, and a variable for its place among the declarations.  The assembler
gives the program made up of these words, and it does so exactly if the names are resolvable.
-/

namespace ActorScript.Assembly

/-! ## Definitions on lines -/

/-- The number of words that a line takes up. -/
def Line.length (line : Line) : Nat :=
  line.item.elim 0 Item.length

/-- The variable that a line declares. -/
def Line.declared? (line : Line) : Option Variable :=
  match line.item with
  | some (.declare declared) => some declared
  | _ => none

theorem Line.declared?_eq_some_iff {line : Line} {declared : Variable} :
    line.declared? = some declared ↔ line.item = some (.declare declared) := by
  unfold declared?
  split <;> simp_all

/-- The number of words that lines take up. -/
def wordCount (lines : List Line) : Nat :=
  lines.foldr (fun line count => line.length + count) 0

/-- The labels in front of lines. -/
def labels (lines : List Line) : List String :=
  lines.filterMap Line.label

/-- The variables that lines declare. -/
def declarations (lines : List Line) : List Variable :=
  lines.filterMap Line.declared?

/-- The names of the variables that lines declare. -/
def names (lines : List Line) : List String :=
  (declarations lines).map Variable.name

/-- The number of words in front of the first line with a label. -/
def labelOffset (lines : List Line) (label : String) : Nat :=
  wordCount (lines.takeWhile fun line => line.label != some label)

/-! ## The words of lines -/

/-- The word that an argument stands for among lines. -/
def Argument.word (lines : List Line) : Argument → Word
  | number value => value
  | self => -1
  | label text => Word.ofOffset (labelOffset lines text)
  | name text => Word.ofOffset ((names lines).idxOf text)

/-- The entry offset that an argument stands for among lines. -/
def Argument.entry (lines : List Line) (argument : Argument) : Nat :=
  (argument.word lines).toInt.toNat

/-- The arguments of an item. -/
def Item.arguments : Item → List Argument
  | instruction _ arguments | data arguments => arguments
  | declare _ => []
  | actor _ tick load => tick.toList ++ load.toList
  | event _ target => [target]

/-- The arguments of an item that are entry offsets. -/
def Item.entries : Item → List Argument
  | actor _ tick load => tick.toList ++ load.toList
  | event _ target => [target]
  | instruction _ _ | data _ | declare _ => []

/-- Lines define what an argument names. -/
def Argument.IsKnown (lines : List Line) : Argument → Prop
  | number _ | self => True
  | label text => text ∈ labels lines
  | name text => text ∈ names lines

/-- What an item adds to a program among lines. -/
def Item.emission (lines : List Line) : Item → Emission
  | instruction opcode arguments => .words (opcode.word :: arguments.map (Argument.word lines))
  | data arguments => .words (arguments.map (Argument.word lines))
  | declare _ => .words []
  | actor kind tick load =>
      .scripts kind { tick := tick.map (Argument.entry lines)
                      load := load.map (Argument.entry lines) }
  | event id target => .handler id (target.entry lines)

/-- The names in an item are defined, and its entry offsets are not negative. -/
structure Item.IsResolved (lines : List Line) (item : Item) : Prop where
  known : ∀ argument ∈ item.arguments, argument.IsKnown lines
  nonneg : ∀ target ∈ item.entries, 0 ≤ (target.word lines).toInt

/-- What a line adds to a program among lines. -/
def Line.emission (lines : List Line) (line : Line) : Emission :=
  line.item.elim (.words []) (Item.emission lines)

/-- The scripts that lines give to actor kinds. -/
def actors (lines : List Line) : List (Word × Scripts) :=
  lines.filterMap fun line => (line.emission lines).scripts?

/-- The handlers that lines give to events. -/
def events (lines : List Line) : List (Word × Nat) :=
  lines.filterMap fun line => (line.emission lines).handler?

/-- The program that lines describe. -/
def described (lines : List Line) : Program where
  code := (lines.flatMap fun line => (line.emission lines).code).toArray
  vars := (declarations lines).toArray
  actors := .ofList (actors lines)
  events := .ofList (events lines)

/-- No label and no variable is defined twice. -/
structure Distinct (lines : List Line) : Prop where
  labels_nodup : (labels lines).Nodup
  names_nodup : (names lines).Nodup

/-- Lines without a name that is unknown or ambiguous, a negative entry offset or a second entry
for one actor kind or event. -/
structure Resolvable (lines : List Line) : Prop extends Distinct lines where
  resolved : ∀ line ∈ lines, ∀ item ∈ line.item, item.IsResolved lines
  actors_nodup : ((actors lines).map Prod.fst).Nodup
  events_nodup : ((events lines).map Prod.fst).Nodup

instance (lines : List Line) : DecidablePred (Argument.IsKnown lines)
  | .number _ | .self => inferInstanceAs (Decidable True)
  | .label text => inferInstanceAs (Decidable (text ∈ labels lines))
  | .name text => inferInstanceAs (Decidable (text ∈ names lines))

instance (lines : List Line) (item : Item) : Decidable (item.IsResolved lines) :=
  decidable_of_iff ((∀ argument ∈ item.arguments, argument.IsKnown lines) ∧
      ∀ target ∈ item.entries, 0 ≤ (target.word lines).toInt)
    ⟨fun both => ⟨both.1, both.2⟩, fun resolved => ⟨resolved.known, resolved.nonneg⟩⟩

instance (lines : List Line) : Decidable (Distinct lines) :=
  decidable_of_iff ((labels lines).Nodup ∧ (names lines).Nodup)
    ⟨fun both => ⟨both.1, both.2⟩, fun distinct => ⟨distinct.labels_nodup, distinct.names_nodup⟩⟩

instance (lines : List Line) : Decidable (Resolvable lines) :=
  decidable_of_iff (Distinct lines ∧ (∀ line ∈ lines, ∀ item ∈ line.item, item.IsResolved lines) ∧
      ((actors lines).map Prod.fst).Nodup ∧ ((events lines).map Prod.fst).Nodup)
    ⟨fun all => ⟨all.1, all.2.1, all.2.2.1, all.2.2.2⟩, fun resolvable => ⟨resolvable.toDistinct,
      resolvable.resolved, resolvable.actors_nodup, resolvable.events_nodup⟩⟩

/-! ## Lines one behind the other -/

section Append

variable {front behind : List Line} {text : String}

theorem wordCount_cons {line : Line} :
    wordCount (line :: behind) = line.length + wordCount behind :=
  rfl

@[simp]
theorem wordCount_append : wordCount (front ++ behind) = wordCount front + wordCount behind := by
  induction front with
  | nil => exact (Nat.zero_add _).symm
  | cons line rest ih => rw [List.cons_append, wordCount_cons, ih, wordCount_cons, Nat.add_assoc]

@[simp]
theorem labels_append : labels (front ++ behind) = labels front ++ labels behind :=
  List.filterMap_append

@[simp]
theorem declarations_append :
    declarations (front ++ behind) = declarations front ++ declarations behind :=
  List.filterMap_append

@[simp]
theorem names_append : names (front ++ behind) = names front ++ names behind := by
  rw [names, declarations_append, List.map_append]
  rfl

theorem labelOffset_cons {line : Line} : labelOffset (line :: behind) text =
    if line.label = some text then 0 else line.length + labelOffset behind text := by
  rw [labelOffset, List.takeWhile_cons]
  by_cases same : line.label = some text
  · simp [same, wordCount]
  · simp [same, wordCount, labelOffset]

/-- A label is looked up in the lines in front first. -/
theorem labelOffset_append : labelOffset (front ++ behind) text =
    if text ∈ labels front then labelOffset front text
    else wordCount front + labelOffset behind text := by
  induction front with
  | nil => simp [labels, wordCount]
  | cons line rest ih =>
      rw [List.cons_append, labelOffset_cons, labelOffset_cons, ih]
      have label_iff : text ∈ labels (line :: rest) ↔
          line.label = some text ∨ text ∈ labels rest := by
        rw [labels, filterMap_cons_eq_append, List.mem_append, Option.mem_toList]
        rfl
      by_cases same : line.label = some text
      · rw [if_pos same, if_pos same, if_pos (label_iff.2 (Or.inl same))]
      · have rest_iff : text ∈ labels (line :: rest) ↔ text ∈ labels rest := by
          rw [label_iff, or_iff_right same]
        simp only [rest_iff, if_neg same]
        split
        · rfl
        · rw [wordCount_cons]
          omega

theorem labels_singleton {line : Line} : labels [line] = line.label.toList := by
  rw [labels, filterMap_cons_eq_append, List.filterMap_nil, List.append_nil]

theorem declarations_singleton {line : Line} : declarations [line] = line.declared?.toList := by
  rw [declarations, filterMap_cons_eq_append, List.filterMap_nil, List.append_nil]

theorem Distinct.of_append (distinct : Distinct (front ++ behind)) : Distinct front := by
  obtain ⟨labels_nodup, names_nodup⟩ := distinct
  rw [labels_append, List.nodup_append] at labels_nodup
  rw [names_append, List.nodup_append] at names_nodup
  exact ⟨labels_nodup.1, names_nodup.1⟩

theorem nodup_append_toList_iff {α : Type} {items : List α} {extra : Option α}
    (distinct : items.Nodup) : (items ++ extra.toList).Nodup ↔ ∀ item ∈ extra, item ∉ items := by
  cases extra with
  | none => simp [distinct]
  | some item =>
      have moved : (items ++ [item]).Nodup ↔ (item :: items).Nodup :=
        (List.perm_append_singleton item items).nodup_iff
      simp [moved, distinct]

/-- One more line defines nothing twice exactly if it defines nothing again. -/
theorem distinct_append_singleton_iff {line : Line} (distinct : Distinct front) :
    Distinct (front ++ [line]) ↔ (∀ text ∈ line.label, text ∉ labels front) ∧
      ∀ declared ∈ line.declared?, declared.name ∉ names front := by
  have labels_iff : (labels (front ++ [line])).Nodup ↔
      ∀ text ∈ line.label, text ∉ labels front := by
    rw [labels_append, labels_singleton, nodup_append_toList_iff distinct.labels_nodup]
  have names_iff : (names (front ++ [line])).Nodup ↔
      ∀ declared ∈ line.declared?, declared.name ∉ names front := by
    have named : names [line] = (line.declared?.map Variable.name).toList := by
      rw [names, declarations_singleton]
      cases line.declared? <;> rfl
    rw [names_append, named, nodup_append_toList_iff distinct.names_nodup]
    simp
  exact ⟨fun whole => ⟨labels_iff.1 whole.labels_nodup, names_iff.1 whole.names_nodup⟩,
    fun apart => ⟨labels_iff.2 apart.1, names_iff.2 apart.2⟩⟩

end Append

/-! ## Lengths -/

section Lengths

variable {lines front : List Line}

theorem length_code_emission {line : Line} : (line.emission lines).code.length = line.length := by
  obtain ⟨label, item⟩ := line
  cases item with
  | none => rfl
  | some item => cases item <;> simp [Line.emission, Line.length, Item.emission, Item.length,
      Emission.code]

/-- The words that lines add are as many as they take up. -/
theorem length_code_eq_wordCount :
    (front.flatMap fun line => (line.emission lines).code).length = wordCount front := by
  induction front with
  | nil => rfl
  | cons line rest ih =>
      rw [List.flatMap_cons, List.length_append, length_code_emission, ih, wordCount_cons]

end Lengths

/-! ## The first pass -/

theorem onLine_eq_ok_iff {α : Type} {number : Nat} {result : Except Problem α} {value : α} :
    onLine number result = .ok value ↔ result = .ok value := by
  cases result <;> simp [onLine]

namespace Symbols

variable {symbols after : Symbols} {lines front : List Line} {line : Line} {numbered : Numbered}

/-- The symbols are those that lines define. -/
structure Holds (lines : List Line) (symbols : Symbols) : Prop where
  label : ∀ text, symbols.labels[text]? =
    if text ∈ Assembly.labels lines then some (labelOffset lines text) else none
  vars : symbols.vars.toList = declarations lines
  offset : symbols.offset = wordCount lines

theorem holds_nil : Holds [] {} :=
  ⟨fun _ => Std.HashMap.getElem?_empty, rfl, rfl⟩

/-- The symbols with what one more line defines. -/
def define (symbols : Symbols) (line : Line) : Symbols where
  labels := line.label.elim symbols.labels fun label => symbols.labels.insert label symbols.offset
  vars := line.declared?.elim symbols.vars symbols.vars.push
  offset := symbols.offset + line.length

theorem addLabel_eq_ok_iff {label : Option String} : symbols.addLabel label = .ok after ↔
    (∀ text ∈ label, symbols.labels[text]? = none) ∧ after = symbols.define { label } := by
  cases label with
  | none =>
      constructor
      · rintro ⟨⟩
        exact ⟨fun _ => nofun, rfl⟩
      · rintro ⟨_, rfl⟩
        rfl
  | some label =>
      have fresh_iff : symbols.labels.contains label = false ↔ symbols.labels[label]? = none := by
        simp
      rw [addLabel, ite_error_eq_ok_iff, fresh_iff]
      simp only [Option.mem_some_iff, forall_eq']
      rfl

theorem addItem_eq_ok_iff {item : Option Item} : symbols.addItem item = .ok after ↔
    (∀ declared ∈ Line.declared? { item }, symbols.varId? declared.name = none) ∧
      after = symbols.define { item } := by
  unfold addItem
  split
  · constructor
    · rintro ⟨⟩
      exact ⟨fun _ => nofun, rfl⟩
    · rintro ⟨_, rfl⟩
      rfl
  · rw [ite_error_eq_ok_iff, Option.isSome_eq_false_iff, Option.isNone_iff_eq_none]
    simp only [Line.declared?, Option.mem_some_iff, forall_eq']
    rfl
  · rename_i item plain
    have undeclared : Line.declared? { item := some item } = none := by
      cases item with
      | declare declared => exact absurd rfl (plain declared)
      | _ => rfl
    rw [define, undeclared]
    constructor
    · rintro ⟨⟩
      exact ⟨fun _ => nofun, rfl⟩
    · rintro ⟨_, rfl⟩
      rfl

/-- A line is added exactly if it defines nothing again. -/
theorem addLine_eq_ok_iff : symbols.addLine numbered = .ok after ↔
    (∀ text ∈ numbered.line.label, symbols.labels[text]? = none) ∧
      (∀ declared ∈ numbered.line.declared?, symbols.varId? declared.name = none) ∧
        after = symbols.define numbered.line := by
  obtain ⟨number, label, item⟩ := numbered
  rw [addLine, onLine_eq_ok_iff, bind_eq_ok_iff]
  simp only [addLabel_eq_ok_iff, addItem_eq_ok_iff]
  constructor
  · rintro ⟨_, ⟨fresh, rfl⟩, new, rfl⟩
    exact ⟨fresh, new, rfl⟩
  · rintro ⟨fresh, new, rfl⟩
    exact ⟨_, ⟨fresh, rfl⟩, new, rfl⟩

/-- A line that defines nothing again is among the lines behind it. -/
theorem Holds.define (holds : symbols.Holds front)
    (fresh : ∀ text ∈ line.label, text ∉ Assembly.labels front) :
    (symbols.define line).Holds (front ++ [line]) := by
  constructor
  · intro text
    rw [labels_append, labelOffset_append, labelOffset_cons, Symbols.define]
    cases label_eq : line.label with
    | none =>
        rw [labels_singleton, label_eq, Option.toList_none, List.append_nil, Option.elim_none,
          holds.label]
        by_cases known : text ∈ Assembly.labels front <;> simp [known]
    | some label =>
        have unknown := fresh label label_eq
        rw [labels_singleton, label_eq, Option.toList_some, Option.elim_some,
          Std.HashMap.getElem?_insert, holds.label, holds.offset]
        by_cases same : label = text
        · subst same
          simp [unknown]
        · by_cases known : text ∈ Assembly.labels front <;> simp [known, same, Ne.symm same]
  · rw [declarations_append, declarations_singleton, Symbols.define, ← holds.vars]
    cases line.declared? <;> simp
  · rw [wordCount_append, Symbols.define, holds.offset]
    simp [wordCount]

theorem Holds.label_eq_none_iff {text : String} (holds : symbols.Holds lines) :
    symbols.labels[text]? = none ↔ text ∉ Assembly.labels lines := by
  rw [holds.label]
  simp

theorem Holds.varId?_eq_none_iff {text : String} (holds : symbols.Holds lines) :
    symbols.varId? text = none ↔ text ∉ names lines := by
  rw [Symbols.varId?_eq_none_iff, holds.vars, names]

/-- The first pass adds a line to those in front of it exactly if nothing is defined twice. -/
theorem Holds.addLine_eq_ok_iff (holds : symbols.Holds front) (distinct : Distinct front) :
    symbols.addLine numbered = .ok after ↔
      Distinct (front ++ [numbered.line]) ∧ after = symbols.define numbered.line := by
  rw [Symbols.addLine_eq_ok_iff, distinct_append_singleton_iff distinct, and_assoc]
  simp only [holds.label_eq_none_iff, holds.varId?_eq_none_iff]

/-- The first pass gets to the end exactly if nothing is defined twice, and then it has the
symbols of all lines. -/
theorem Holds.foldlM_addLine {numbered : List Numbered} (holds : symbols.Holds front)
    (distinct : Distinct front) :
    ((∃ after, numbered.foldlM addLine symbols = .ok after) ↔
      Distinct (front ++ numbered.map Numbered.line)) ∧
    ∀ after, numbered.foldlM addLine symbols = .ok after →
      after.Holds (front ++ numbered.map Numbered.line) := by
  induction numbered generalizing front symbols with
  | nil =>
      rw [List.map_nil, List.append_nil]
      refine ⟨⟨fun _ => distinct, fun _ => ⟨symbols, rfl⟩⟩, ?_⟩
      rintro after ⟨⟩
      exact holds
  | cons first rest ih =>
      have step := fun after => @Holds.addLine_eq_ok_iff symbols after front first holds distinct
      -- Behind this line the symbols are those of the lines up to it.
      have later (more : Distinct (front ++ [first.line])) :=
        ih (holds.define (distinct_append_singleton_iff distinct |>.1 more).1) more
      rw [List.map_cons, List.append_cons, List.foldlM_cons, exists_bind_eq_ok_iff]
      constructor
      · constructor
        · rintro ⟨next, added, finishes⟩
          obtain ⟨more, rfl⟩ := (step next).1 added
          exact (later more).1.1 finishes
        · intro all
          have more := all.of_append
          exact ⟨_, (step _).2 ⟨more, rfl⟩, (later more).1.2 all⟩
      · intro after run
        obtain ⟨next, added, finishes⟩ := bind_eq_ok_iff.1 run
        obtain ⟨more, rfl⟩ := (step next).1 added
        exact (later more).2 after finishes

theorem ofLines_iff {numbered : List Numbered} :
    ((∃ symbols, ofLines numbered = .ok symbols) ↔ Distinct (numbered.map Numbered.line)) ∧
    ∀ symbols, ofLines numbered = .ok symbols → symbols.Holds (numbered.map Numbered.line) :=
  holds_nil.foldlM_addLine ⟨List.nodup_nil, List.nodup_nil⟩

/-! ## The second pass -/

theorem Holds.varId?_eq_some_iff {text : String} {id : Nat} (holds : symbols.Holds lines) :
    symbols.varId? text = some id ↔ text ∈ names lines ∧ id = (names lines).idxOf text := by
  have vars_eq : symbols.vars = (declarations lines).toArray := by
    rw [← holds.vars, Array.toArray_toList]
  have index_eq : (declarations lines).findIdx (fun declared => declared.name == text) =
      (names lines).idxOf text := by
    rw [names, List.idxOf, List.findIdx_map]
    rfl
  have length_eq : (declarations lines).length = (names lines).length :=
    (List.length_map _).symm
  rw [varId?, vars_eq, List.findIdx?_toArray, List.findIdx?_eq_some_iff_findIdx_eq, index_eq,
    length_eq]
  constructor
  · rintro ⟨inside, rfl⟩
    exact ⟨List.idxOf_lt_length_iff.1 inside, rfl⟩
  · rintro ⟨known, rfl⟩
    exact ⟨List.idxOf_lt_length_iff.2 known, rfl⟩

/-- An argument is resolved exactly if the name in it is defined. -/
theorem Holds.resolve_eq_ok_iff {argument : Argument} {word : Word} (holds : symbols.Holds lines) :
    symbols.resolve argument = .ok word ↔ argument.IsKnown lines ∧ word = argument.word lines := by
  cases argument with
  | number value => simp [resolve, Argument.IsKnown, Argument.word, eq_comm]
  | self => simp [resolve, Argument.IsKnown, Argument.word, eq_comm, selfHandle]
  | label text =>
      by_cases known : text ∈ Assembly.labels lines <;>
        simp [resolve, holds.label, Argument.IsKnown, Argument.word, known, eq_comm]
  | name text =>
      simp only [resolve, Argument.IsKnown, Argument.word]
      cases found : symbols.varId? text with
      | none => simp [holds.varId?_eq_none_iff.1 found]
      | some id =>
          obtain ⟨known, rfl⟩ := holds.varId?_eq_some_iff.1 found
          simp [known, eq_comm]

theorem Holds.resolveEntry_eq_ok_iff {argument : Argument} {offset : Nat}
    (holds : symbols.Holds lines) : symbols.resolveEntry argument = .ok offset ↔
      (argument.IsKnown lines ∧ 0 ≤ (argument.word lines).toInt) ∧
        offset = argument.entry lines := by
  simp only [resolveEntry, bind_eq_ok_iff, holds.resolve_eq_ok_iff]
  constructor
  · rintro ⟨_, ⟨known, rfl⟩, named⟩
    split at named
    · rename_i offset offset_eq
      cases named
      rw [Word.offset?_eq_some_iff] at offset_eq
      refine ⟨⟨known, ?_⟩, ?_⟩
      · omega
      · rw [Argument.entry]
        omega
    · contradiction
  · rintro ⟨⟨known, nonneg⟩, rfl⟩
    refine ⟨_, ⟨known, rfl⟩, ?_⟩
    have offset_eq : (argument.word lines).offset? = some (argument.entry lines) := by
      rw [Word.offset?_eq_some_iff, Argument.entry]
      omega
    rw [offset_eq]
    rfl

theorem Holds.resolveScript_eq_ok_iff {argument : Option Argument} {offset : Option Nat}
    (holds : symbols.Holds lines) : symbols.resolveScript argument = .ok offset ↔
      (∀ target ∈ argument, target.IsKnown lines ∧ 0 ≤ (target.word lines).toInt) ∧
        offset = argument.map (Argument.entry lines) := by
  cases argument with
  | none => simp [resolveScript, eq_comm]
  | some target =>
      rw [resolveScript, map_eq_ok_iff]
      simp only [holds.resolveEntry_eq_ok_iff, Option.mem_some_iff, forall_eq', Option.map_some]
      constructor
      · rintro ⟨_, ⟨resolved, rfl⟩, rfl⟩
        exact ⟨resolved, rfl⟩
      · rintro ⟨resolved, rfl⟩
        exact ⟨_, ⟨resolved, rfl⟩, rfl⟩

end Symbols

namespace Emission

variable {symbols : Symbols} {lines : List Line}

/-- An item adds something exactly if it is resolved. -/
theorem ofItem_eq_ok_iff {item : Item} {emission : Emission} (holds : symbols.Holds lines) :
    ofItem symbols item = .ok emission ↔
      item.IsResolved lines ∧ emission = item.emission lines := by
  have operands_iff (arguments : List Argument) (words : List Word) :
      arguments.mapM symbols.resolve = .ok words ↔
        (∀ argument ∈ arguments, argument.IsKnown lines) ∧
          words = arguments.map (Argument.word lines) :=
    mapM_eq_ok_iff_of_step fun _ _ => holds.resolve_eq_ok_iff
  cases item with
  | instruction opcode arguments =>
      simp only [ofItem, bind_eq_ok_iff, operands_iff]
      constructor
      · rintro ⟨_, ⟨known, rfl⟩, ⟨⟩⟩
        exact ⟨⟨known, List.forall_mem_nil _⟩, rfl⟩
      · rintro ⟨resolved, rfl⟩
        exact ⟨_, ⟨resolved.known, rfl⟩, rfl⟩
  | data arguments =>
      simp only [ofItem, bind_eq_ok_iff, operands_iff]
      constructor
      · rintro ⟨_, ⟨known, rfl⟩, ⟨⟩⟩
        exact ⟨⟨known, List.forall_mem_nil _⟩, rfl⟩
      · rintro ⟨resolved, rfl⟩
        exact ⟨_, ⟨resolved.known, rfl⟩, rfl⟩
  | declare declared =>
      constructor
      · rintro ⟨⟩
        exact ⟨⟨List.forall_mem_nil _, List.forall_mem_nil _⟩, rfl⟩
      · rintro ⟨_, rfl⟩
        rfl
  | actor kind tick load =>
      simp only [ofItem, bind_eq_ok_iff, holds.resolveScript_eq_ok_iff]
      constructor
      · rintro ⟨_, ⟨tick_resolved, rfl⟩, _, ⟨load_resolved, rfl⟩, ⟨⟩⟩
        have each : ∀ target ∈ tick.toList ++ load.toList,
            target.IsKnown lines ∧ 0 ≤ (target.word lines).toInt := by
          simp only [List.forall_mem_append, Option.mem_toList]
          exact ⟨tick_resolved, load_resolved⟩
        exact ⟨⟨fun target member => (each target member).1,
          fun target member => (each target member).2⟩, rfl⟩
      · rintro ⟨⟨known, nonneg⟩, rfl⟩
        simp only [Item.arguments, Item.entries, List.forall_mem_append, Option.mem_toList]
          at known nonneg
        exact ⟨_, ⟨fun target given => ⟨known.1 target given, nonneg.1 target given⟩, rfl⟩,
          _, ⟨fun target given => ⟨known.2 target given, nonneg.2 target given⟩, rfl⟩, rfl⟩
  | event id target =>
      simp only [ofItem, bind_eq_ok_iff, holds.resolveEntry_eq_ok_iff]
      constructor
      · rintro ⟨_, ⟨⟨known, nonneg⟩, rfl⟩, ⟨⟩⟩
        exact ⟨⟨List.forall_mem_singleton.2 known, List.forall_mem_singleton.2 nonneg⟩, rfl⟩
      · rintro ⟨⟨known, nonneg⟩, rfl⟩
        exact ⟨_, ⟨⟨known target List.mem_cons_self, nonneg target List.mem_cons_self⟩, rfl⟩, rfl⟩

/-- A line adds something exactly if what stands on it is resolved. -/
theorem ofLine_eq_ok_iff {numbered : Numbered} {added : Nat × Emission}
    (holds : symbols.Holds lines) : ofLine symbols numbered = .ok added ↔
      (∀ item ∈ numbered.line.item, item.IsResolved lines) ∧
        added = (numbered.number, numbered.line.emission lines) := by
  unfold ofLine Line.emission
  split
  · rename_i item_eq
    rw [item_eq]
    simp [eq_comm]
  · rename_i item item_eq
    rw [onLine_eq_ok_iff, map_eq_ok_iff, item_eq]
    simp only [ofItem_eq_ok_iff holds, Option.mem_some_iff, forall_eq', Option.elim_some]
    constructor
    · rintro ⟨_, ⟨resolved, rfl⟩, rfl⟩
      exact ⟨resolved, rfl⟩
    · rintro ⟨resolved, rfl⟩
      exact ⟨_, ⟨resolved, rfl⟩, rfl⟩

end Emission

/-! ## Texts -/

/-- What numbered lines add among lines. -/
def additions (lines : List Line) (numbered : List Numbered) : List (Nat × Emission) :=
  numbered.map fun numbered => (numbered.number, numbered.line.emission lines)

theorem filterMap_additions {α : Type} {lines : List Line} {numbered : List Numbered}
    {part? : Emission → Option α} :
    (additions lines numbered).filterMap (fun added => part? added.2) =
      (numbered.map Numbered.line).filterMap fun line => part? (line.emission lines) := by
  rw [additions, List.filterMap_map, List.filterMap_map]
  rfl

/-- Lines are assembled exactly if they are resolvable, and to the program that they describe. -/
theorem ofLines_eq_ok_iff {numbered : List Numbered} {program : Program} :
    ofLines numbered = .ok program ↔ Resolvable (numbered.map Numbered.line) ∧
      program = described (numbered.map Numbered.line) := by
  generalize lines_eq : numbered.map Numbered.line = lines
  have code_eq : (additions lines numbered).flatMap (fun added => added.2.code) =
      lines.flatMap fun line => (line.emission lines).code := by
    rw [← lines_eq, additions, List.flatMap_map, List.flatMap_map]
  have actors_eq : (additions lines numbered).filterMap (fun added => added.2.scripts?) =
      actors lines := by
    rw [filterMap_additions, lines_eq, actors]
  have events_eq : (additions lines numbered).filterMap (fun added => added.2.handler?) =
      events lines := by
    rw [filterMap_additions, lines_eq, events]
  have additions_iff {symbols : Symbols} (holds : symbols.Holds lines)
      (added : List (Nat × Emission)) : numbered.mapM (Emission.ofLine symbols) = .ok added ↔
        (∀ line ∈ lines, ∀ item ∈ line.item, item.IsResolved lines) ∧
          added = additions lines numbered := by
    rw [mapM_eq_ok_iff_of_step fun _ _ => Emission.ofLine_eq_ok_iff holds, ← lines_eq,
      List.forall_mem_map]
    rfl
  have first := @Symbols.ofLines_iff numbered
  rw [lines_eq] at first
  simp only [ofLines, bind_eq_ok_iff, Emission.foldlM_addScripts_eq_ok_iff,
    Emission.foldlM_addHandler_eq_ok_iff]
  constructor
  · rintro ⟨symbols, defined, added, emitted, _, ⟨actors_nodup, rfl⟩, _, ⟨events_nodup, rfl⟩, ⟨⟩⟩
    have holds := first.2 symbols defined
    obtain ⟨resolved, rfl⟩ := (additions_iff holds added).1 emitted
    rw [actors_eq] at actors_nodup
    rw [events_eq] at events_nodup
    refine ⟨⟨first.1.1 ⟨symbols, defined⟩, resolved, actors_nodup, events_nodup⟩, ?_⟩
    rw [described, code_eq, actors_eq, events_eq, ← holds.vars, Array.toArray_toList]
  · rintro ⟨resolvable, rfl⟩
    obtain ⟨symbols, defined⟩ := first.1.2 resolvable.toDistinct
    have holds := first.2 symbols defined
    refine ⟨symbols, defined, _, (additions_iff holds _).2 ⟨resolvable.resolved, rfl⟩, _,
      ⟨actors_eq ▸ resolvable.actors_nodup, rfl⟩, _, ⟨events_eq ▸ resolvable.events_nodup, rfl⟩, ?_⟩
    rw [described, code_eq, actors_eq, events_eq, ← holds.vars, Array.toArray_toList]
    rfl

/-- The lines of a text are read one by one. -/
theorem exists_readLines_iff {text : List Char} {lines : List Line} :
    (∃ numbered, readLines text = .ok numbered ∧ numbered.map Numbered.line = lines) ↔
      (Text.lines text).mapM Line.read = .ok lines := by
  rw [readLines]
  generalize Text.lines text = sources
  generalize 0 = start
  simp only [mapM_eq_ok_iff]
  induction sources generalizing start lines with
  | nil => simp [eq_comm]
  | cons source rest ih =>
      rw [List.zipIdx_cons, List.forall₂_cons_left_iff]
      simp only [List.forall₂_cons_left_iff, onLine_eq_ok_iff, map_eq_ok_iff, ← ih (start + 1)]
      constructor
      · rintro ⟨_, ⟨_, numbered, ⟨line, read, rfl⟩, others, rfl⟩, rfl⟩
        exact ⟨line, numbered.map Numbered.line, read, ⟨numbered, others, rfl⟩, rfl⟩
      · rintro ⟨line, _, read, ⟨numbered, others, rfl⟩, rfl⟩
        exact ⟨_, ⟨_, numbered, ⟨line, read, rfl⟩, others, rfl⟩, rfl⟩

/-- A text is assembled exactly if its lines can be read and are resolvable. -/
theorem assemble_eq_ok_iff {text : String} {program : Program} :
    assemble text = .ok program ↔ ∃ lines, (Text.lines text.toList).mapM Line.read = .ok lines ∧
      Resolvable lines ∧ program = described lines := by
  simp only [assemble, bind_eq_ok_iff, ofLines_eq_ok_iff, ← exists_readLines_iff]
  constructor
  · rintro ⟨numbered, read, resolvable, rfl⟩
    exact ⟨_, ⟨numbered, read, rfl⟩, resolvable, rfl⟩
  · rintro ⟨_, ⟨numbered, read, rfl⟩, resolvable, rfl⟩
    exact ⟨numbered, read, resolvable, rfl⟩

end ActorScript.Assembly
