import ActorScript.Assembly.Assemble
import ActorScript.Proofs.Except
import ActorScript.Proofs.Numeral
import ActorScript.Proofs.Table

/-!
# Assembling statements

A statement is what a line of assembly text comes to once the symbols are known.  Lines
that mean the statements of a program, with every label where it says, assemble to that
program.
-/

namespace ActorScript.Assembly

/-- The name of the label of an offset. -/
def labelName (offset : Nat) : String :=
  "L" ++ toString offset

theorem toList_labelName (offset : Nat) :
    (labelName offset).toList = 'L' :: (toString offset).toList := by
  rw [labelName, String.toList_append]
  rfl

theorem labelName_injective {first second : Nat} (same : labelName first = labelName second) :
    first = second := by
  have lists_eq := congrArg String.toList same
  rw [toList_labelName, toList_labelName] at lists_eq
  have digits_eq : Nat.toDigits 10 first = Nat.toDigits 10 second :=
    Nat.toList_repr.symm.trans ((List.cons.inj lists_eq).2.trans Nat.toList_repr)
  have read := Numeral.ofDigits_toDigits first
  rw [digits_eq, Numeral.ofDigits_toDigits] at read
  exact (Option.some.inj read).symm

/-! ## Statements -/

/-- What a line comes to. -/
inductive Statement where
  | blank
  | label (offset : Nat)
  | declare (declared : Variable)
  | emit (emission : Emission)

namespace Statement

/-- The offset that a statement labels. -/
def label? : Statement → Option Nat
  | label offset => some offset
  | blank | declare _ | emit _ => none

/-- The variable that a statement declares. -/
def declared? : Statement → Option Variable
  | declare declared => some declared
  | blank | label _ | emit _ => none

/-- What a statement adds to a program besides its variables. -/
def emission : Statement → Emission
  | emit emission => emission
  | blank | label _ | declare _ => .words []

/-- The words that a statement adds to the stream. -/
def code (statement : Statement) : List Word :=
  statement.emission.code

end Statement

/-- The symbols are those of a program and of the labels of its listing. -/
structure Symbols.Knows (program : Program) (labels : Std.HashSet Nat) (symbols : Symbols) :
    Prop where
  label : ∀ offset, labels.contains offset = true →
    symbols.labels[labelName offset]? = some offset
  vars : symbols.vars = program.vars

/-- A line comes to a statement, given the symbols of a program. -/
inductive Line.Means (program : Program) (labels : Std.HashSet Nat) : Line → Statement → Prop
  | blank : Means program labels {} .blank
  | label (offset : Nat) : Means program labels { label := some (labelName offset) } (.label offset)
  | declare (declared : Variable) :
      Means program labels { item := some (.declare declared) } (.declare declared)
  | emit {item : Item} {emission : Emission} (plain : ∀ declared, item ≠ .declare declared)
      (length_eq : item.length = emission.code.length)
      (emits : ∀ symbols, Symbols.Knows program labels symbols →
        Emission.ofItem symbols item = .ok emission) :
      Means program labels { item := some item } (.emit emission)

/-- Every label stands at the offset that it is named after. -/
def Placed : Nat → List Statement → Prop
  | _, [] => True
  | offset, statement :: rest =>
      (∀ target, statement.label? = some target → target = offset) ∧
        Placed (offset + statement.code.length) rest

theorem placed_append {offset : Nat} {first second : List Statement} :
    Placed offset (first ++ second) ↔
      Placed offset first ∧ Placed (offset + (first.flatMap Statement.code).length) second := by
  induction first generalizing offset with
  | nil => simp [Placed]
  | cons statement rest ih =>
      simp only [List.cons_append, Placed, ih, List.flatMap_cons, List.length_append, Nat.add_assoc,
        and_assoc]

/-! ## Symbols -/

theorem filterMap_cons_eq_append {α β : Type} (pick : α → Option β) (first : α) (rest : List α) :
    (first :: rest).filterMap pick = (pick first).toList ++ rest.filterMap pick := by
  cases picked : pick first <;> simp [picked]

namespace Symbols

/-- The symbols after a statement. -/
def add (symbols : Symbols) : Statement → Symbols
  | .blank => symbols
  | .label offset =>
      { symbols with labels := symbols.labels.insert (labelName offset) symbols.offset }
  | .declare declared => { symbols with vars := symbols.vars.push declared }
  | .emit emission => { symbols with offset := symbols.offset + emission.code.length }

variable {program : Program} {labels : Std.HashSet Nat} {symbols : Symbols}
  {numbered : Numbered} {statement : Statement}

theorem offset_add : (symbols.add statement).offset = symbols.offset + statement.code.length := by
  cases statement <;> rfl

theorem vars_add :
    (symbols.add statement).vars.toList = symbols.vars.toList ++ statement.declared?.toList := by
  cases statement <;> simp [add, Statement.declared?]

/-- A line that defines nothing twice adds its statement to the symbols. -/
theorem addLine_of_means (means : numbered.line.Means program labels statement)
    (fresh : ∀ offset, statement.label? = some offset →
      symbols.labels.contains (labelName offset) = false)
    (new : ∀ declared, statement.declared? = some declared →
      symbols.varId? declared.name = none) :
    symbols.addLine numbered = .ok (symbols.add statement) := by
  obtain ⟨number, line⟩ := numbered
  cases means with
  | blank => rfl
  | label offset =>
      have absent := fresh offset rfl
      simp only [addLine, addLabel, absent]
      rfl
  | declare declared =>
      have absent := new declared rfl
      have counted : symbols.addItem (some (.declare declared)) =
          .ok { symbols with vars := symbols.vars.push declared } :=
        if_neg (by simp [absent])
      have added : symbols.addLine ⟨number, { item := some (.declare declared) }⟩ =
          onLine number (symbols.addItem (some (.declare declared))) := rfl
      rw [added, counted]
      rfl
  | @emit item emission plain length_eq _ =>
      have counted : symbols.addItem (some item) =
          .ok { symbols with offset := symbols.offset + item.length } := by
        cases item with
        | declare declared => exact absurd rfl (plain declared)
        | instruction _ _ => rfl
        | data _ => rfl
        | actor _ _ _ => rfl
        | event _ _ => rfl
      have added : symbols.addLine ⟨number, { item := some item }⟩ =
          onLine number (symbols.addItem (some item)) := rfl
      rw [added, counted, length_eq]
      rfl

theorem getElem?_labels_add {name : String} (other : ∀ offset, statement.label? = some offset →
      labelName offset ≠ name) : (symbols.add statement).labels[name]? = symbols.labels[name]? := by
  cases statement with
  | label offset =>
      have apart := other offset rfl
      simp only [add, Std.HashMap.getElem?_insert, beq_iff_eq, if_neg apart]
  | blank => rfl
  | declare declared => rfl
  | emit emission => rfl

/-- A name is unknown exactly if no variable has it. -/
theorem varId?_eq_none_iff {name : String} :
    symbols.varId? name = none ↔ name ∉ symbols.vars.toList.map Variable.name := by
  rw [varId?, Array.findIdx?_eq_none_iff, List.mem_map]
  constructor
  · rintro absent ⟨declared, member, rfl⟩
    have other := absent declared (Array.mem_toList_iff.1 member)
    rw [beq_self_eq_true] at other
    contradiction
  · intro absent declared member
    rw [beq_eq_false_iff_ne]
    intro same
    exact absent ⟨declared, Array.mem_toList_iff.2 member, same⟩

/-- Lines that define nothing twice define the labels and variables of their statements. -/
theorem foldlM_addLine {lines : List Numbered} {statements : List Statement}
    (means : List.Forall₂ (fun numbered statement =>
      Line.Means program labels numbered.line statement) lines statements)
    (placed : Placed symbols.offset statements)
    (distinct : (statements.filterMap Statement.label?).Nodup)
    (fresh : ∀ offset ∈ statements.filterMap Statement.label?,
      symbols.labels[labelName offset]? = none)
    (unique : ((symbols.vars.toList ++ statements.filterMap Statement.declared?).map
      Variable.name).Nodup) :
    ∃ after, lines.foldlM addLine symbols = .ok after ∧
      after.vars.toList = symbols.vars.toList ++ statements.filterMap Statement.declared? ∧
      (∀ offset ∈ statements.filterMap Statement.label?,
        after.labels[labelName offset]? = some offset) ∧
      ∀ name, (∀ offset ∈ statements.filterMap Statement.label?, labelName offset ≠ name) →
        after.labels[name]? = symbols.labels[name]? := by
  induction means generalizing symbols with
  | nil => exact ⟨symbols, rfl, by simp, by simp, by simp⟩
  | @cons numbered statement lines statements here later ih =>
      rw [filterMap_cons_eq_append] at distinct fresh unique
      simp only [filterMap_cons_eq_append]
      obtain ⟨_, distinctRest, apart⟩ := List.nodup_append.1 distinct
      have different : ∀ offset, statement.label? = some offset →
          ∀ other ∈ statements.filterMap Statement.label?, labelName other ≠ labelName offset := by
        intro offset label_eq other member same
        cases labelName_injective same
        exact apart offset (Option.mem_toList.2 label_eq) offset member rfl
      have step : symbols.addLine numbered = .ok (symbols.add statement) := by
        apply addLine_of_means here
        · intro offset label_eq
          have absent := fresh offset (List.mem_append_left _ (Option.mem_toList.2 label_eq))
          simpa using absent
        · intro declared declared_eq
          apply varId?_eq_none_iff.2
          intro known
          rw [List.map_append, List.nodup_append] at unique
          refine unique.2.2 _ known _ ?_ rfl
          apply List.mem_map_of_mem
          exact List.mem_append_left _ (Option.mem_toList.2 declared_eq)
      obtain ⟨after, run, vars_eq, defined, kept⟩ := @ih (symbols.add statement)
        (offset_add ▸ placed.2) distinctRest
        (by
          intro offset member
          rw [getElem?_labels_add fun other label_eq =>
            (different other label_eq offset member).symm]
          exact fresh offset (List.mem_append_right _ member))
        (by
          rw [vars_add, List.append_assoc]
          exact unique)
      refine ⟨after, ?_, ?_, ?_, ?_⟩
      · rw [List.foldlM_cons, step]
        exact run
      · rw [vars_eq, vars_add, List.append_assoc]
      · intro offset member
        rcases List.mem_append.1 member with head | further
        · have label_eq : statement.label? = some offset := Option.mem_toList.1 head
          rw [kept _ (different offset label_eq)]
          have current := placed.1 offset label_eq
          cases statement with
          | label target =>
              cases label_eq
              simp [add, current]
          | blank => contradiction
          | declare _ => contradiction
          | emit _ => contradiction
        · exact defined offset further
      · intro name other
        rw [kept name fun offset member => other offset (List.mem_append_right _ member)]
        apply getElem?_labels_add
        intro offset label_eq
        exact other offset (List.mem_append_left _ (Option.mem_toList.2 label_eq))

end Symbols

/-! ## Emissions -/

namespace Emission

/-- The entry that an emission makes in the table of actor kinds. -/
def scripts? : Emission → Option (Word × Scripts)
  | scripts kind entry => some (kind, entry)
  | words _ | handler _ _ => none

/-- The entry that an emission makes in the table of events. -/
def handler? : Emission → Option (Word × Nat)
  | handler id offset => some (id, offset)
  | words _ | scripts _ _ => none

/-- The scripts of actor kinds fill a table exactly if no kind has them twice. -/
theorem foldlM_addScripts_eq_ok_iff {added : List (Nat × Emission)} {table : Table Scripts} :
    added.foldlM addScripts {} = .ok table ↔
      ((added.filterMap fun line => line.2.scripts?).map Prod.fst).Nodup ∧
        table = .ofList (added.filterMap fun line => line.2.scripts?) := by
  rw [← Table.fresh_empty_iff]
  apply Table.foldlM_eq_ok_iff
  rintro table ⟨number, emission⟩ after
  cases emission with
  | scripts kind entry =>
      rw [addScripts, ite_error_eq_ok_iff]
      exact and_congr_left' (@Table.fresh_singleton_iff _ table (kind, entry)).symm
  | words _ | handler _ _ =>
      exact ⟨fun skipped => ⟨Table.fresh_nil, (Except.ok.inj skipped).symm⟩,
        fun same => congrArg Except.ok same.2.symm⟩

/-- The handlers of events fill a table exactly if no event has two. -/
theorem foldlM_addHandler_eq_ok_iff {added : List (Nat × Emission)} {table : Table Nat} :
    added.foldlM addHandler {} = .ok table ↔
      ((added.filterMap fun line => line.2.handler?).map Prod.fst).Nodup ∧
        table = .ofList (added.filterMap fun line => line.2.handler?) := by
  rw [← Table.fresh_empty_iff]
  apply Table.foldlM_eq_ok_iff
  rintro table ⟨number, emission⟩ after
  cases emission with
  | handler id offset =>
      rw [addHandler, ite_error_eq_ok_iff]
      exact and_congr_left' (@Table.fresh_singleton_iff _ table (id, offset)).symm
  | words _ | scripts _ _ =>
      exact ⟨fun skipped => ⟨Table.fresh_nil, (Except.ok.inj skipped).symm⟩,
        fun same => congrArg Except.ok same.2.symm⟩

theorem foldlM_addScripts {added : List (Nat × Emission)} {whole : Table Scripts}
    (whole_eq : whole.toList = added.filterMap fun line => line.2.scripts?) :
    added.foldlM addScripts {} = .ok whole := by
  rw [foldlM_addScripts_eq_ok_iff, ← whole_eq]
  exact ⟨whole.nodup_keys, whole.ofList_toList.symm⟩

theorem foldlM_addHandler {added : List (Nat × Emission)} {whole : Table Nat}
    (whole_eq : whole.toList = added.filterMap fun line => line.2.handler?) :
    added.foldlM addHandler {} = .ok whole := by
  rw [foldlM_addHandler_eq_ok_iff, ← whole_eq]
  exact ⟨whole.nodup_keys, whole.ofList_toList.symm⟩

theorem ofLine_of_means {program : Program} {labels : Std.HashSet Nat} {symbols : Symbols}
    {numbered : Numbered} {statement : Statement} (knows : symbols.Knows program labels)
    (means : numbered.line.Means program labels statement) :
    ofLine symbols numbered = .ok (numbered.number, statement.emission) := by
  obtain ⟨number, line⟩ := numbered
  cases means with
  | blank => rfl
  | label offset => rfl
  | declare declared => rfl
  | emit plain length_eq emits =>
      simp only [ofLine, emits symbols knows]
      rfl

theorem mapM_ofLine_of_means {program : Program} {labels : Std.HashSet Nat} {symbols : Symbols}
    (knows : symbols.Knows program labels) {lines : List Numbered} {statements : List Statement}
    (means : List.Forall₂ (fun numbered statement =>
      Line.Means program labels numbered.line statement) lines statements) :
    ∃ added, lines.mapM (ofLine symbols) = .ok added ∧
      added.map (·.2) = statements.map Statement.emission := by
  induction means with
  | nil => exact ⟨[], rfl, rfl⟩
  | @cons numbered statement lines statements here later ih =>
      obtain ⟨added, run, emissions_eq⟩ := ih
      refine ⟨(numbered.number, statement.emission) :: added, ?_, ?_⟩
      · rw [List.mapM_cons, ofLine_of_means knows here, run]
        rfl
      · rw [List.map_cons, List.map_cons, emissions_eq]

end Emission

/-! ## Programs -/

/-- Statements that make up a program, each label once and where it says. -/
structure Describes (program : Program) (labels : Std.HashSet Nat) (statements : List Statement) :
    Prop where
  placed : Placed 0 statements
  distinct : (statements.filterMap Statement.label?).Nodup
  defined : ∀ offset, labels.contains offset = true →
    offset ∈ statements.filterMap Statement.label?
  vars : statements.filterMap Statement.declared? = program.vars.toList
  unique : (program.vars.toList.map Variable.name).Nodup
  actors : statements.filterMap (fun statement => statement.emission.scripts?) =
    program.actors.toList
  events : statements.filterMap (fun statement => statement.emission.handler?) =
    program.events.toList
  code : statements.flatMap Statement.code = program.code.toList

/-- Lines that mean the statements of a program describe it to the assembler. -/
theorem ofLines_of_means {program : Program} {labels : Std.HashSet Nat} {lines : List Numbered}
    {statements : List Statement} (describes : Describes program labels statements)
    (means : List.Forall₂ (fun numbered statement =>
      Line.Means program labels numbered.line statement) lines statements) :
    ofLines lines = .ok program := by
  obtain ⟨symbols, symbols_eq, vars_eq, defined, _⟩ :=
    @Symbols.foldlM_addLine program labels {} lines statements means describes.placed
      describes.distinct (fun _ _ => Std.HashMap.getElem?_empty) (by
        rw [describes.vars]
        exact describes.unique)
  have knows : symbols.Knows program labels := by
    constructor
    · intro offset labelled
      exact defined offset (describes.defined offset labelled)
    · rw [← Array.toList_inj, vars_eq, describes.vars]
      rfl
  obtain ⟨added, added_eq, emissions_eq⟩ := Emission.mapM_ofLine_of_means knows means
  have entries_eq : ∀ {α : Type} (part? : Emission → Option α),
      added.filterMap (fun line => part? line.2) =
        statements.filterMap fun statement => part? statement.emission := by
    intro α part?
    have mapped := congrArg (List.filterMap part?) emissions_eq
    rw [List.filterMap_map, List.filterMap_map] at mapped
    exact mapped
  have actors_eq : added.foldlM Emission.addScripts {} = .ok program.actors :=
    Emission.foldlM_addScripts ((entries_eq _).trans describes.actors).symm
  have events_eq : added.foldlM Emission.addHandler {} = .ok program.events :=
    Emission.foldlM_addHandler ((entries_eq _).trans describes.events).symm
  have code_eq : (added.flatMap fun line => line.2.code).toArray = program.code := by
    have mapped := congrArg (List.flatMap Emission.code) emissions_eq
    rw [List.flatMap_map, List.flatMap_map] at mapped
    have whole : added.flatMap (fun line => line.2.code) = program.code.toList :=
      mapped.trans describes.code
    exact (congrArg List.toArray whole).trans program.code.toArray_toList
  have run : Symbols.ofLines lines = .ok symbols := symbols_eq
  calc
    ofLines lines = .ok ⟨(added.flatMap fun line => line.2.code).toArray,
        symbols.vars, program.actors, program.events⟩ := by
      simp only [ofLines, run, bind, Except.bind, added_eq, actors_eq, events_eq]
      rfl
    _ = .ok program := by rw [code_eq, knows.vars]

end ActorScript.Assembly
