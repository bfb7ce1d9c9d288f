import ActorScript.Proofs.Assembly.Directive

/-!
# Assembling a listing

The listing of a program tells exactly its parts, so assembling it gives the program back.
-/

namespace ActorScript.Assembly

open Listing Token

/-- A program that text can describe, given which names it can declare.  The words of the
stream are not restricted in any way. -/
structure Describable (IsName : String → Prop) (program : Program) : Prop where
  distinct : (program.vars.toList.map Variable.name).Nodup
  names : ∀ declared ∈ program.vars, IsName declared.name
  entries : ∀ offset ∈ program.entries, offset ≤ Word.maximum

/-! ## The statements of a listing -/

/-- What the lines of a row tell. -/
def rowStatements (labels : Std.HashSet Nat) (row : Row) : List Statement :=
  if labels.contains row.offset then [.label row.offset, .emit (.words row.words)]
  else [.emit (.words row.words)]

/-- What the lines of the tables tell. -/
def headerStatements (program : Program) : List Statement :=
  program.vars.toList.map .declare ++
    program.actors.toList.map (fun (kind, scripts) => .emit (.scripts kind scripts)) ++
    program.events.toList.map (fun (id, offset) => .emit (.handler id offset))

/-- What the lines in front of the rows tell. -/
def frontStatements (program : Program) : List Statement :=
  headerStatements program ++
    (if (header program (labelsOf program)).isEmpty then [] else [.blank])

/-- What the lines of a listing tell. -/
def statements (program : Program) : List Statement :=
  frontStatements program ++ (rowsOf program).flatMap (rowStatements (labelsOf program))

variable {program : Program} {labels : Std.HashSet Nat}

/-- Parts of a list are told line by line. -/
theorem tells_map {α : Type} {text : α → String} {statement : α → Statement} {parts : List α}
    (tells : ∀ part ∈ parts, Tells program labels (text part) (statement part)) :
    List.Forall₂ (Tells program labels) (parts.map text) (parts.map statement) := by
  rw [List.forall₂_map_left_iff, List.forall₂_map_right_iff, List.forall₂_same]
  exact tells

theorem tells_header (describable : Describable IsDeclarable program) :
    List.Forall₂ (Tells program labels) (header program labels) (headerStatements program) := by
  have entries := describable.entries
  simp only [Program.entries, List.mem_append, Table.values, List.flatMap_map] at entries
  refine List.rel_append (List.rel_append ?_ ?_) ?_
  · apply tells_map
    intro declared member
    exact tells_variableLine (describable.names declared (Array.mem_toList_iff.1 member))
  · apply tells_map
    rintro ⟨kind, scripts⟩ member
    apply tells_actorLine
    intro offset present
    exact entries offset (Or.inl (List.mem_flatMap.2 ⟨_, member, present⟩))
  · apply tells_map
    rintro ⟨id, offset⟩ member
    exact tells_eventLine id (entries offset (Or.inr (List.mem_map_of_mem member)))

theorem tells_rowLines {row : Row} (isRead : row.IsRead program.code) :
    List.Forall₂ (Tells program labels) (rowLines program labels row)
      (rowStatements labels row) := by
  unfold rowLines rowStatements
  split
  · exact .cons (tells_label row.offset) (.cons (tells_row isRead) .nil)
  · exact .cons (tells_row isRead) .nil

theorem tells_rows {offset : Nat} {rows : List Row}
    (listed : Rows program.code labels offset rows) :
    List.Forall₂ (Tells program labels) (rows.flatMap (rowLines program labels))
      (rows.flatMap (rowStatements labels)) := by
  induction listed with
  | done => exact .nil
  | row row _ _ isRead _ _ _ _ ih => exact List.rel_append (tells_rowLines isRead) ih

/-- The lines of a listing tell its statements. -/
theorem tells_lines (describable : Describable IsDeclarable program) :
    List.Forall₂ (Tells program (labelsOf program)) (Listing.lines program)
      (statements program) := by
  rw [lines_eq]
  refine List.rel_append (List.rel_append (tells_header describable) ?_)
    (tells_rows (rows_rowsOf program))
  split
  · exact .nil
  · exact .cons tells_blank .nil

/-! ## The program of the statements -/

theorem flatMap_code_rowStatements (rows : List Row) :
    (rows.flatMap (rowStatements labels)).flatMap Statement.code = rows.flatMap Row.words := by
  rw [List.flatMap_assoc]
  congr 1
  funext row
  unfold rowStatements
  split <;> simp [Statement.code, Statement.emission, Emission.code]

/-- The labels of a listing stand where they say. -/
theorem placed_rows {code : Array Word} {offset : Nat} {rows : List Row}
    (listed : Rows code labels offset rows) :
    Placed offset (rows.flatMap (rowStatements labels)) := by
  induction listed with
  | done => trivial
  | row row stop_eq _ _ _ _ _ _ ih =>
      rw [List.flatMap_cons, placed_append]
      constructor
      · unfold rowStatements
        split <;> simp [Placed, Statement.label?, Statement.code, Statement.emission, Emission.code]
      · have words_eq := @flatMap_code_rowStatements labels [row]
        simp only [List.flatMap_singleton] at words_eq
        rw [words_eq, stop_eq]
        exact ih

/-- The labels of rows, in order. -/
theorem filterMap_label?_rowStatements (rows : List Row) :
    (rows.flatMap (rowStatements labels)).filterMap Statement.label? =
      (rows.map Row.offset).filter labels.contains := by
  induction rows with
  | nil => rfl
  | cons row rest ih =>
      rw [List.flatMap_cons, List.filterMap_append, ih, List.map_cons, List.filter_cons]
      unfold rowStatements
      split <;> rfl

/-- What neither a label nor words have is not found in rows. -/
theorem filterMap_rowStatements {α : Type} {part? : Statement → Option α}
    (label : ∀ offset, part? (.label offset) = none)
    (words : ∀ words, part? (.emit (.words words)) = none) (rows : List Row) :
    (rows.flatMap (rowStatements labels)).filterMap part? = [] := by
  apply List.filterMap_eq_nil_iff.2
  intro statement member
  obtain ⟨row, _, member⟩ := List.mem_flatMap.1 member
  unfold rowStatements at member
  split at member
  · simp only [List.mem_cons, List.not_mem_nil, or_false] at member
    rcases member with rfl | rfl
    · exact label row.offset
    · exact words row.words
  · cases List.mem_singleton.1 member
    exact words row.words

/-- Statements without labels and words are placed anywhere. -/
theorem placed_of_forall {offset : Nat} {statements : List Statement}
    (plain : ∀ statement ∈ statements, statement.label? = none ∧ statement.code = []) :
    Placed offset statements := by
  induction statements with
  | nil => trivial
  | cons statement rest ih =>
      obtain ⟨⟨unlabelled, wordless⟩, later⟩ := List.forall_mem_cons.1 plain
      constructor
      · intro target label_eq
        rw [unlabelled] at label_eq
        contradiction
      · rw [wordless]
        exact ih later

/-- Only rows have labels and words. -/
theorem plain_of_mem_front {statement : Statement} (member : statement ∈ frontStatements program) :
    statement.label? = none ∧ statement.code = [] := by
  unfold frontStatements at member
  rcases List.mem_append.1 member with table | separator
  · simp only [headerStatements, List.mem_append, List.mem_map] at table
    rcases table with (⟨_, _, rfl⟩ | ⟨_, _, rfl⟩) | ⟨_, _, rfl⟩
    · exact ⟨rfl, rfl⟩
    · exact ⟨rfl, rfl⟩
    · exact ⟨rfl, rfl⟩
  · split at separator
    · contradiction
    · cases List.mem_singleton.1 separator
      exact ⟨rfl, rfl⟩

theorem flatMap_code_front (program : Program) :
    (frontStatements program).flatMap Statement.code = [] :=
  List.flatMap_eq_nil_iff.2 fun _ member => (plain_of_mem_front member).2

theorem filterMap_label?_statements (program : Program) :
    (statements program).filterMap Statement.label? =
      ((rowsOf program).map Row.offset).filter (labelsOf program).contains := by
  have front : (frontStatements program).filterMap Statement.label? = [] :=
    List.filterMap_eq_nil_iff.2 fun _ member => (plain_of_mem_front member).1
  rw [statements, List.filterMap_append, front, filterMap_label?_rowStatements]
  rfl

theorem filterMap_append_blank {α : Type} {part? : Statement → Option α}
    (blank : part? .blank = none) (statements : List Statement) :
    (statements ++ [Statement.blank]).filterMap part? = statements.filterMap part? := by
  rw [List.filterMap_append, List.filterMap_cons_none blank, List.filterMap_nil, List.append_nil]

/-- The tables are told in front of the rows. -/
theorem filterMap_statements {α : Type} {part? : Statement → Option α}
    (blank : part? .blank = none) (label : ∀ offset, part? (.label offset) = none)
    (words : ∀ words, part? (.emit (.words words)) = none) (program : Program) :
    (statements program).filterMap part? = (headerStatements program).filterMap part? := by
  have front : (frontStatements program).filterMap part? =
      (headerStatements program).filterMap part? := by
    unfold frontStatements
    split
    · rw [List.append_nil]
    · exact filterMap_append_blank blank _
  rw [statements, List.filterMap_append, front, filterMap_rowStatements label words,
    List.append_nil]

/-- The statements of a listing make up the program. -/
theorem describes_statements (describable : Describable IsDeclarable program) :
    Describes program (labelsOf program) (statements program) where
  placed := by
    rw [statements, placed_append, flatMap_code_front]
    exact ⟨placed_of_forall fun _ member => plain_of_mem_front member,
      placed_rows (rows_rowsOf program)⟩
  distinct := by
    rw [filterMap_label?_statements]
    have ascending := (rows_rowsOf program).pairwise.1
    exact (ascending.imp Nat.ne_of_lt).filter _
  defined offset labelled := by
    obtain ⟨row, member, rfl⟩ :=
      (rows_rowsOf program).exists_of_label labelled (Nat.zero_le _) (lt_size_of_label labelled)
    rw [filterMap_label?_statements]
    exact List.mem_filter.2 ⟨List.mem_map_of_mem member, labelled⟩
  vars := by
    rw [filterMap_statements rfl (fun _ => rfl) (fun _ => rfl)]
    simp [headerStatements, Statement.declared?, Function.comp_def]
  unique := describable.distinct
  actors := by
    rw [filterMap_statements rfl (fun _ => rfl) (fun _ => rfl)]
    simp [headerStatements, Statement.emission, Emission.scripts?]
  events := by
    rw [filterMap_statements rfl (fun _ => rfl) (fun _ => rfl)]
    simp [headerStatements, Statement.emission, Emission.handler?]
  code := by
    rw [statements, List.flatMap_append, flatMap_code_front, flatMap_code_rowStatements,
      (rows_rowsOf program).flatMap_words]
    rfl

/-- A blank line at the end adds nothing. -/
theorem Describes.append_blank {statements : List Statement}
    (describes : Describes program labels statements) :
    Describes program labels (statements ++ [.blank]) where
  placed := by
    rw [placed_append]
    refine ⟨describes.placed, placed_of_forall ?_⟩
    simp [Statement.label?, Statement.code, Statement.emission, Emission.code]
  distinct := by
    rw [filterMap_append_blank rfl]
    exact describes.distinct
  defined := by
    rw [filterMap_append_blank rfl]
    exact describes.defined
  vars := by
    rw [filterMap_append_blank rfl]
    exact describes.vars
  unique := describes.unique
  actors := by
    rw [filterMap_append_blank rfl]
    exact describes.actors
  events := by
    rw [filterMap_append_blank rfl]
    exact describes.events
  code := by
    rw [List.flatMap_append, describes.code]
    exact List.append_nil _

/-! ## Reading the text -/

/-- Lines are read one by one. -/
theorem readLines_of_tells {texts : List String} {statements : List Statement} (start : Nat)
    (tells : List.Forall₂ (Tells program labels) texts statements) :
    ∃ lines, ((texts.map String.toList).zipIdx start).mapM (fun (line, index) =>
        onLine (index + 1) ((Line.read line).map fun line => Numbered.mk (index + 1) line)) =
          .ok lines ∧
      List.Forall₂ (fun numbered statement => Line.Means program labels numbered.line statement)
        lines statements := by
  induction tells generalizing start with
  | nil => exact ⟨[], rfl, .nil⟩
  | @cons text statement texts statements here _ ih =>
      obtain ⟨line, read, means⟩ := here.exists_line
      obtain ⟨lines, later, all⟩ := ih (start + 1)
      refine ⟨⟨start + 1, line⟩ :: lines, ?_, .cons means all⟩
      rw [List.map_cons, List.zipIdx_cons, List.mapM_cons]
      simp only [read, later]
      rfl

theorem not_mem_newline_of_tells {texts : List String} {statements : List Statement}
    (tells : List.Forall₂ (Tells program labels) texts statements) :
    ∀ text ∈ texts, '\n' ∉ text.toList := by
  induction tells with
  | nil => simp
  | cons here _ ih =>
      obtain ⟨lexes, _, _⟩ := here
      intro other listed member
      rcases List.mem_cons.1 listed with rfl | later
      · exact (lexes.plain _ member).2 rfl
      · exact ih other later member

/-- The lines of a text that ends with a line break. -/
theorem lines_join_map {first : String} {rest : List String}
    (plain : ∀ text ∈ first :: rest, '\n' ∉ text.toList) :
    Text.lines ("\n".intercalate (first :: rest) ++ "\n").toList =
      (first :: rest ++ [""]).map String.toList := by
  have joined := @Text.lines_join first.toList (rest.map String.toList) (by simpa using plain)
  rw [String.toList_append, String.toList_intercalate, List.map_append]
  exact joined

/-- Lines that tell the statements of a program assemble to it. -/
theorem assemble_of_lines {text : String} {texts : List String} {statements : List Statement}
    (lines_eq : Text.lines text.toList = texts.map String.toList)
    (tells : List.Forall₂ (Tells program labels) texts statements)
    (describes : Describes program labels statements) : assemble text = .ok program := by
  obtain ⟨lines, read, means⟩ := readLines_of_tells 0 tells
  rw [← lines_eq] at read
  have read : readLines text.toList = .ok lines := read
  rw [assemble, read]
  exact ofLines_of_means describes means

theorem assemble_of_tells {texts : List String} {statements : List Statement}
    (tells : List.Forall₂ (Tells program labels) texts statements)
    (describes : Describes program labels statements) :
    assemble ("\n".intercalate texts ++ "\n") = .ok program := by
  have last : List.Forall₂ (Tells program labels) [""] [.blank] := .cons tells_blank .nil
  have plain := not_mem_newline_of_tells tells
  cases texts with
  | nil =>
      cases tells
      have lines_eq : Text.lines ("\n".intercalate [] ++ "\n").toList =
          ["", ""].map String.toList := by decide
      exact assemble_of_lines lines_eq (List.rel_append last last)
        describes.append_blank.append_blank
  | cons first rest =>
      exact assemble_of_lines (lines_join_map plain) (List.rel_append tells last)
        describes.append_blank

/-- Assembling the listing of a program gives the program back. -/
theorem assemble_disassemble_of_describable (describable : Describable IsDeclarable program) :
    assemble (disassemble program) = .ok program :=
  assemble_of_tells (tells_lines describable) (describes_statements describable)

end ActorScript.Assembly
