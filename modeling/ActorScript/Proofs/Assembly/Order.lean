import ActorScript.Proofs.Assembly.Meaning

/-!
# Where directives stand

A directive without a label takes up no words and names no offset.  So it may stand anywhere in a
text, before or behind the lines that use what it declares; only the variables among themselves
keep their order, which numbers them.
-/

namespace ActorScript.Assembly

/-! ## Directives -/

/-- A line that holds only the directive for a variable, an actor kind or an event. -/
def Line.isDirective (line : Line) : Bool :=
  match line.label, line.item with
  | none, some (.declare _) | none, some (.actor _ _ _) | none, some (.event _ _) => true
  | _, _ => false

namespace Line

variable {line : Line} {lines : List Line}

theorem label_of_isDirective (directive : line.isDirective = true) : line.label = none := by
  unfold isDirective at directive
  split at directive <;> first | assumption | contradiction

theorem length_of_isDirective (directive : line.isDirective = true) : line.length = 0 := by
  obtain ⟨label, item⟩ := line
  unfold isDirective at directive
  split at directive <;> simp_all [length, Item.length]

theorem code_of_isDirective (directive : line.isDirective = true) :
    (line.emission lines).code = [] := by
  rw [← List.length_eq_zero_iff, length_code_emission]
  exact length_of_isDirective directive

end Line

/-! ## What the other lines decide -/

section Others

variable {lines : List Line}

/-- What directives do not have is collected from the other lines. -/
theorem flatMap_filter_isDirective {α : Type} {part : Line → List α}
    (absent : ∀ line : Line, line.isDirective = true → part line = []) :
    (lines.filter fun line => !line.isDirective).flatMap part = lines.flatMap part := by
  induction lines with
  | nil => rfl
  | cons line rest ih =>
      cases directive : line.isDirective with
      | true =>
          rw [List.filter_cons_of_neg (by simp [directive]), List.flatMap_cons,
            absent line directive, ih]
          rfl
      | false =>
          rw [List.filter_cons_of_pos (by simp [directive]), List.flatMap_cons, List.flatMap_cons,
            ih]

theorem labelOffset_filter_isDirective {text : String} :
    labelOffset (lines.filter fun line => !line.isDirective) text = labelOffset lines text := by
  induction lines with
  | nil => rfl
  | cons line rest ih =>
      cases directive : line.isDirective with
      | true =>
          rw [List.filter_cons_of_neg (by simp [directive]), labelOffset_cons,
            Line.label_of_isDirective directive, Line.length_of_isDirective directive, ih]
          simp
      | false =>
          rw [List.filter_cons_of_pos (by simp [directive]), labelOffset_cons, labelOffset_cons, ih]

end Others

/-! ## Lines in another order -/

/-- Lines in another order: directives may have moved, but the other lines are in the same order
as before, and so are the declarations. -/
structure Rearranged (lines moved : List Line) : Prop where
  perm : moved.Perm lines
  others : moved.filter (fun line => !line.isDirective) =
    lines.filter fun line => !line.isDirective
  declarations : declarations moved = declarations lines

namespace Rearranged

variable {lines moved : List Line} (rearranged : Rearranged lines moved)
include rearranged

theorem flatMap_eq {α : Type} {part : Line → List α}
    (absent : ∀ line : Line, line.isDirective = true → part line = []) :
    moved.flatMap part = lines.flatMap part := by
  rw [← flatMap_filter_isDirective absent, rearranged.others, flatMap_filter_isDirective absent]

theorem labels_eq : labels moved = labels lines := by
  rw [labels, labels, List.filterMap_eq_flatMap_toList, List.filterMap_eq_flatMap_toList]
  apply rearranged.flatMap_eq
  intro line directive
  rw [Line.label_of_isDirective directive, Option.toList_none]

theorem names_eq : names moved = names lines := by
  rw [names, names, rearranged.declarations]

/-- Names stand for the same words. -/
theorem word_eq : Argument.word moved = Argument.word lines := by
  funext argument
  cases argument with
  | label text =>
      rw [Argument.word, Argument.word, ← labelOffset_filter_isDirective, rearranged.others,
        labelOffset_filter_isDirective]
  | name text => rw [Argument.word, Argument.word, rearranged.names_eq]
  | number _ | self => rfl

theorem emission_eq : Line.emission moved = Line.emission lines := by
  funext line
  unfold Line.emission Item.emission Argument.entry
  rw [rearranged.word_eq]

theorem isKnown_iff {argument : Argument} : argument.IsKnown moved ↔ argument.IsKnown lines := by
  cases argument with
  | label text => rw [Argument.IsKnown, Argument.IsKnown, rearranged.labels_eq]
  | name text => rw [Argument.IsKnown, Argument.IsKnown, rearranged.names_eq]
  | number _ | self => rfl

theorem perm_actors : (actors moved).Perm (actors lines) := by
  rw [actors, rearranged.emission_eq]
  exact rearranged.perm.filterMap _

theorem perm_events : (events moved).Perm (events lines) := by
  rw [events, rearranged.emission_eq]
  exact rearranged.perm.filterMap _

/-- Lines stay resolvable. -/
theorem resolvable (resolvable : Resolvable lines) : Resolvable moved := by
  constructor
  · constructor
    · rw [rearranged.labels_eq]
      exact resolvable.labels_nodup
    · rw [rearranged.names_eq]
      exact resolvable.names_nodup
  · intro line member item item_eq
    obtain ⟨known, nonneg⟩ :=
      resolvable.resolved line (rearranged.perm.mem_iff.1 member) item item_eq
    constructor
    · intro argument given
      exact rearranged.isKnown_iff.2 (known argument given)
    · rw [rearranged.word_eq]
      exact nonneg
  · exact (rearranged.perm_actors.map _).nodup_iff.2 resolvable.actors_nodup
  · exact (rearranged.perm_events.map _).nodup_iff.2 resolvable.events_nodup

/-- Lines describe the same program. -/
theorem described_eq (resolvable : Resolvable lines) : described moved = described lines := by
  have code_eq : (moved.flatMap fun line => (line.emission moved).code) =
      lines.flatMap fun line => (line.emission lines).code := by
    rw [rearranged.emission_eq]
    exact rearranged.flatMap_eq fun _ => Line.code_of_isDirective
  rw [described, described, code_eq, rearranged.declarations,
    Table.ofList_eq_of_perm resolvable.actors_nodup rearranged.perm_actors,
    Table.ofList_eq_of_perm resolvable.events_nodup rearranged.perm_events]

end Rearranged

/-! ## Texts in another order -/

/-- The words of each line of a text, without comments. -/
def contents (text : String) : List (List (List Char)) :=
  (Text.lines text.toList).map fun source => Text.words (Token.withoutComment source)

/-- The line that words make up. -/
def Line.ofWords (words : List (List Char)) : Except Problem Line :=
  words.mapM Token.ofWord >>= ofTokens

/-- The line that words make up, or a blank one where they make up none. -/
def Line.spelled (words : List (List Char)) : Line :=
  (Line.ofWords words).toOption.getD {}

/-- A text with the same lines as another one, where lines that hold only a directive may have
moved, but neither the other lines nor those that declare variables have changed their order. -/
structure Moved (text moved : String) : Prop where
  perm : (contents moved).Perm (contents text)
  others : (contents moved).filter (fun words => !(Line.spelled words).isDirective) =
    (contents text).filter fun words => !(Line.spelled words).isDirective
  declaring : (contents moved).filter (fun words => (Line.spelled words).declared?.isSome) =
    (contents text).filter fun words => (Line.spelled words).declared?.isSome

/-- The lines of a text are read as their words spell them. -/
theorem mapM_read_eq_ok_iff {text : String} {lines : List Line} :
    (Text.lines text.toList).mapM Line.read = .ok lines ↔
      (∀ words ∈ contents text, (Line.ofWords words).isOk = true) ∧
        lines = (contents text).map Line.spelled := by
  have step_iff (source : List Char) (line : Line) : Line.read source = .ok line ↔
      (Line.ofWords (Text.words (Token.withoutComment source))).isOk = true ∧
        line = Line.spelled (Text.words (Token.withoutComment source)) := by
    have same : Line.read source = Line.ofWords (Text.words (Token.withoutComment source)) := rfl
    rw [same, Line.spelled]
    cases Line.ofWords (Text.words (Token.withoutComment source)) with
    | error problem => simp [Except.isOk, Except.toBool]
    | ok found => simp [Except.isOk, Except.toBool, Except.toOption, eq_comm]
  rw [mapM_eq_ok_iff_of_step step_iff, contents, List.forall_mem_map, List.map_map]
  rfl

theorem Moved.rearranged {text moved : String} (moves : Moved text moved) :
    Rearranged ((contents text).map Line.spelled) ((contents moved).map Line.spelled) := by
  constructor
  · exact moves.perm.map _
  · rw [List.filter_map, List.filter_map]
    exact congrArg (List.map Line.spelled) moves.others
  · have among (lines : List Line) :
        declarations (lines.filter fun line => line.declared?.isSome) = declarations lines := by
      rw [declarations, List.filterMap_filter]
      apply List.filterMap_congr
      intro line _
      cases line.declared? <;> rfl
    rw [← among, ← among ((contents text).map _), List.filter_map, List.filter_map]
    exact congrArg (fun kept => declarations (kept.map Line.spelled)) moves.declaring

/-- A text that is accepted stays so when directives are moved, and it gives the same program. -/
theorem assemble_of_moved {text moved : String} {program : Program}
    (assembled : assemble text = .ok program) (moves : Moved text moved) :
    assemble moved = .ok program := by
  obtain ⟨lines, read, resolvable, rfl⟩ := assemble_eq_ok_iff.1 assembled
  obtain ⟨readable, rfl⟩ := mapM_read_eq_ok_iff.1 read
  have rearranged := moves.rearranged
  have moved_read : (Text.lines moved.toList).mapM Line.read =
      .ok ((contents moved).map Line.spelled) := by
    refine mapM_read_eq_ok_iff.2 ⟨?_, rfl⟩
    intro words member
    exact readable words (moves.perm.mem_iff.1 member)
  exact assemble_eq_ok_iff.2 ⟨_, moved_read, rearranged.resolvable resolvable,
    (rearranged.described_eq resolvable).symm⟩

/-- A text that declares things behind the line that uses them. -/
def trailing : String :=
  "go: setvar hp 5\n.var mp global\n.var hp actor\n.event 3 @go"

/-- The same text with the declarations in front, and the event in front of the variables. -/
def leading : String :=
  ".event 3 @go\n.var mp global\n.var hp actor\ngo: setvar hp 5"

theorem assemble_leading :
    assemble leading = .ok {
      code := #[0x40, 1, 5]
      vars := #[{ name := "mp", scope := .global, initial := 0 },
        { name := "hp", scope := .actor, initial := 0 }]
      events := .ofList [(3, 0)] } := by
  have read : (Text.lines trailing.toList).mapM Line.read = .ok [
      { label := some "go"
        item := some (.instruction (.assign .set .literal) [.name "hp", .number 5]) },
      { item := some (.declare { name := "mp", scope := .global, initial := 0 }) },
      { item := some (.declare { name := "hp", scope := .actor, initial := 0 }) },
      { item := some (.event 3 (.label "go")) }] := by decide +kernel
  have assembled := assemble_eq_ok_iff.2 ⟨_, read, by decide, rfl⟩
  have moves : Moved trailing leading := by
    constructor
    · decide
    · decide +kernel
    · decide +kernel
  rw [assemble_of_moved assembled moves]
  decide

end ActorScript.Assembly
