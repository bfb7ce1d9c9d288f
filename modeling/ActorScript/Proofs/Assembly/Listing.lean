import ActorScript.Assembly.Listing
import ActorScript.Proofs.Instruction

/-!
# Rows and labels of a listing

The rows of a listing stand one behind the other and make up the whole stream.  Whichever
instructions have been picked, no label stands inside a row.
-/

namespace ActorScript.Assembly.Listing

variable {code : Array Word}

/-! ## Rows -/

/-- The words of a row. -/
def Row.words : Row → List Word
  | .instruction written => written.opcode.word :: written.operands.toList
  | .data _ words => words.toList

/-- The instruction of a row stands in the stream. -/
def Row.IsRead (code : Array Word) : Row → Prop
  | .instruction written => Instruction.decode code written.offset = .ok written
  | .data _ _ => True

/-- Rows from an offset to the end of the stream, with labels at most in front of them. -/
inductive Rows (code : Array Word) (labels : Std.HashSet Nat) : Nat → List Row → Prop
  | done : Rows code labels code.size []
  | row (row : Row) {stop : Nat} {rest : List Row}
      (stop_eq : row.offset + row.words.length = stop) (present : row.offset < stop)
      (isRead : row.IsRead code) (inside : row.offset < code.size)
      (words_eq : code.toList.drop row.offset = row.words ++ code.toList.drop stop)
      (unlabelled : ∀ offset, row.offset < offset → offset < stop →
        labels.contains offset = false)
      (later : Rows code labels stop rest) :
      Rows code labels row.offset (row :: rest)

section Rows

variable {labels : Std.HashSet Nat} {offset : Nat} {rows : List Row}

/-- The rows make up the stream. -/
theorem Rows.flatMap_words (listed : Rows code labels offset rows) :
    rows.flatMap Row.words = code.toList.drop offset := by
  induction listed with
  | done => simp
  | row _ _ _ _ _ words_eq _ later ih => rw [List.flatMap_cons, ih, words_eq]

/-- Every label from an offset on stands in front of a row. -/
theorem Rows.exists_of_label (listed : Rows code labels offset rows) {label : Nat}
    (labelled : labels.contains label = true) (behind : offset ≤ label)
    (inside : label < code.size) : ∃ row ∈ rows, row.offset = label := by
  induction listed with
  | done => exact absurd inside (Nat.not_lt.2 behind)
  | @row row stop rest _ _ _ _ _ unlabelled later ih =>
      by_cases here : row.offset = label
      · exact ⟨row, List.mem_cons_self, here⟩
      · have further : stop ≤ label := by
          apply Nat.not_lt.1
          intro within
          have unlabelled := unlabelled label (Nat.lt_of_le_of_ne behind here) within
          rw [labelled] at unlabelled
          contradiction
        obtain ⟨found, member, offset_eq⟩ := ih further
        exact ⟨found, List.mem_cons_of_mem _ member, offset_eq⟩

/-- The rows ascend. -/
theorem Rows.pairwise (listed : Rows code labels offset rows) :
    (rows.map Row.offset).Pairwise (· < ·) ∧ ∀ row ∈ rows, offset ≤ row.offset := by
  induction listed with
  | done => simp
  | @row row stop rest _ present _ _ _ _ later ih =>
      obtain ⟨ascending, behind⟩ := ih
      rw [List.map_cons, List.pairwise_cons]
      refine ⟨⟨?_, ascending⟩, ?_⟩
      · intro other member
        obtain ⟨found, listed, rfl⟩ := List.mem_map.1 member
        exact Nat.lt_of_lt_of_le present (behind found listed)
      · intro other member
        rcases List.mem_cons.1 member with rfl | further
        · exact Nat.le_refl _
        · exact Nat.le_trans (Nat.le_of_lt present) (behind other further)

end Rows

/-! ## Writing rows -/

theorem lt_dataEnd {size : Nat} {stops : Nat → Bool} {room offset between : Nat}
    (behind : offset ≤ between) (within : between < dataEnd size stops room offset) :
    stops between = false ∧ between < size := by
  induction room generalizing offset with
  | zero => exact absurd within (Nat.not_lt.2 behind)
  | succ room ih =>
      unfold dataEnd at within
      split at within
      · rename_i goes_on
        simp only [Bool.and_eq_true, decide_eq_true_eq, Bool.not_eq_true'] at goes_on
        rcases Nat.lt_or_eq_of_le behind with further | rfl
        · exact ih further within
        · exact goes_on.symm
      · exact absurd within (Nat.not_lt.2 behind)

theorem dataEnd_le {size : Nat} {stops : Nat → Bool} {room offset : Nat} (inside : offset ≤ size) :
    dataEnd size stops room offset ≤ size := by
  induction room generalizing offset with
  | zero => exact inside
  | succ room ih =>
      unfold dataEnd
      split
      · rename_i goes_on
        simp only [Bool.and_eq_true, decide_eq_true_eq] at goes_on
        exact ih goes_on.1
      · exact inside

/-- A stretch of the stream is followed by what stands behind it. -/
theorem drop_eq_extract_append {start stop : Nat} (ordered : start ≤ stop) :
    code.toList.drop start = (code.extract start stop).toList ++ code.toList.drop stop := by
  rw [Array.toList_extract, List.extract_eq_take_drop]
  have stop_eq : stop = start + (stop - start) := (Nat.add_sub_cancel' ordered).symm
  conv => rhs; rw [stop_eq, ← List.drop_drop]
  rw [Nat.add_sub_cancel_left, List.take_append_drop]

theorem instruction_words_eq {instruction : Instruction} {offset : Nat}
    (decoded : Instruction.decode code offset = .ok instruction) :
    code.toList.drop offset =
      (instruction.opcode.word :: instruction.operands.toList) ++
        code.toList.drop instruction.next := by
  obtain ⟨rfl, word_eq, _, inside, operands_eq⟩ := Instruction.decode_eq_ok_iff.1 decoded
  obtain ⟨present, word_eq⟩ := Array.getElem?_eq_some_iff.1 word_eq
  have behind : instruction.offset + 1 ≤ instruction.next := by
    simp only [Instruction.next, Instruction.length]
    omega
  have first : code.toList.drop instruction.offset =
      instruction.opcode.word :: code.toList.drop (instruction.offset + 1) := by
    rw [List.drop_eq_getElem_cons (by simpa using present), Array.getElem_toList, word_eq]
  rw [first, drop_eq_extract_append behind, ← operands_eq]
  rfl

section RowsFrom

variable {starts labels : Std.HashSet Nat}
  (outside : ∀ instruction, starts.contains instruction.offset = true →
    Instruction.decode code instruction.offset = .ok instruction →
    ∀ offset, instruction.offset < offset → offset < instruction.next →
      labels.contains offset = false)
include outside

/-- From every offset on, rows follow up to the end of the stream. -/
theorem rows_rowsFrom {offset : Nat} (inside : offset ≤ code.size) (front : Array Row) :
    ∃ rows, (rowsFrom code starts labels offset front).toList = front.toList ++ rows ∧
      Rows code labels offset rows := by
  fun_induction rowsFrom code starts labels offset front with
  | case1 offset front below reading instruction reading_eq ih =>
      have picked : starts.contains offset = true ∧
          Instruction.decode code offset = .ok instruction := by
        simp only [reading] at reading_eq
        split at reading_eq
        · rename_i picked
          exact ⟨picked, reading_eq⟩
        · contradiction
      obtain ⟨picked, decoded⟩ := picked
      obtain ⟨rfl, fits, _⟩ := Instruction.decode_eq_ok decoded
      obtain ⟨rest, rows_eq, later⟩ := ih fits
      have stop_eq : instruction.offset + (Row.instruction instruction).words.length =
          instruction.next := by
        simp [Row.words, Instruction.next, Instruction.length]
      refine ⟨.instruction instruction :: rest, ?_, ?_⟩
      · rw [rows_eq]
        simp
      · have present : instruction.offset < instruction.next := by
          simp only [Instruction.next, Instruction.length]
          omega
        exact .row (.instruction instruction) stop_eq present decoded below
          (instruction_words_eq decoded) (outside instruction picked decoded) later
  | case2 offset front below reading fault reading_eq stop ih =>
      have fits : stop ≤ code.size := dataEnd_le below
      have ordered : offset + 1 ≤ stop := le_dataEnd _ _ _ _
      obtain ⟨rest, rows_eq, later⟩ := ih fits
      have stop_eq : offset + (Row.data offset (code.extract offset stop)).words.length = stop := by
        simp only [Row.words, Array.length_toList, Array.size_extract]
        omega
      refine ⟨.data offset (code.extract offset stop) :: rest, ?_, ?_⟩
      · rw [rows_eq]
        simp
      · apply Rows.row (.data offset (code.extract offset stop)) stop_eq ordered trivial below
          (drop_eq_extract_append (Nat.le_of_lt ordered)) _ later
        intro between further within
        have unstopped := (lt_dataEnd further within).1
        exact (Bool.or_eq_false_iff.1 unstopped).2
  | case3 offset front beyond =>
      have finished : offset = code.size := Nat.le_antisymm inside (Nat.not_lt.1 beyond)
      subst finished
      exact ⟨[], by simp, .done⟩

end RowsFrom

/-! ## Picking instructions -/

theorem decode_of_mem_pick {edge : Nat} {starts : List Nat} {picked : Array Instruction}
    (read : ∀ instruction ∈ picked,
      Instruction.decode code instruction.offset = .ok instruction) :
    ∀ instruction ∈ pick code edge starts picked,
      Instruction.decode code instruction.offset = .ok instruction := by
  induction starts generalizing edge picked with
  | nil => exact read
  | cons start rest ih =>
      unfold pick
      split
      · exact ih read
      · split
        · rename_i instruction decoded
          apply ih
          intro other member
          rcases Array.mem_push.1 member with earlier | rfl
          · exact read other earlier
          · obtain ⟨rfl, _⟩ := Instruction.decode_eq_ok decoded
            exact decoded
        · exact ih read

theorem decode_of_mem_layout {trace : Trace} {instruction : Instruction}
    (member : instruction ∈ layout code trace) :
    Instruction.decode code instruction.offset = .ok instruction := by
  apply decode_of_mem_pick _ instruction (Array.mem_toList_iff.1 member)
  intro _ impossible
  exact absurd impossible (Array.not_mem_empty _)

/-- The operand words of a picked instruction are inside it. -/
theorem contains_interior {layout : List Instruction} {instruction : Instruction}
    (member : instruction ∈ layout) {offset : Nat} (behind : instruction.offset < offset)
    (within : offset < instruction.next) : (interior layout).contains offset = true := by
  have covered : offset ∈ List.range' (instruction.offset + 1) instruction.operands.size := by
    simp only [Instruction.next, Instruction.length] at within
    rw [List.mem_range'_1]
    omega
  obtain ⟨earlier, later, rfl⟩ := List.append_of_mem member
  unfold interior
  rw [List.foldl_append, List.foldl_cons]
  refine List.foldlRecOn
    (motive := fun offsets : Std.HashSet Nat => offsets.contains offset = true) _ _ ?_ ?_
  · rw [Std.HashSet.contains_insertMany_list, Bool.or_eq_true]
    exact Or.inr (List.contains_iff_mem.2 covered)
  · intro offsets kept other _
    rw [Std.HashSet.contains_insertMany_list, kept]
    rfl

/-- Labels stand inside the stream, and not inside a picked instruction. -/
theorem of_contains_labels {program : Program} {trace : Trace} {layout : List Instruction}
    {label : Nat} (labelled : (labels program trace layout).contains label = true) :
    label < program.code.size ∧ (interior layout).contains label = false := by
  revert labelled
  unfold labels
  dsimp only
  refine List.foldlRecOn (motive := fun offsets : Std.HashSet Nat =>
    offsets.contains label = true →
      label < program.code.size ∧ (interior layout).contains label = false) _ _ ?_ ?_
  · intro impossible
    rw [Std.HashSet.contains_empty] at impossible
    contradiction
  · intro offsets kept word _ labelled
    split at labelled
    · exact kept labelled
    · rename_i offset offset_eq
      split at labelled
      · exact kept labelled
      · rename_i outer
        rw [Std.HashSet.contains_insert, Bool.or_eq_true] at labelled
        rcases labelled with here | earlier
        · cases beq_iff_eq.1 here
          exact ⟨(inStream?_eq_some_iff.1 offset_eq).2, by simpa using outer⟩
        · exact kept earlier

/-! ## Listings of programs -/

/-- The control flow that a listing follows. -/
def traceOf (program : Program) : Trace :=
  trace program.code (program.entryPoints.filter (· < program.code.size))

/-- The labels of the listing of a program. -/
def labelsOf (program : Program) : Std.HashSet Nat :=
  labels program (traceOf program) (layout program.code (traceOf program))

/-- The rows of the listing of a program. -/
def rowsOf (program : Program) : List Row :=
  let starts := Std.HashSet.ofList ((layout program.code (traceOf program)).map (·.offset))
  (rowsFrom program.code starts (labelsOf program) 0 #[]).toList

theorem lines_eq (program : Program) :
    lines program = header program (labelsOf program) ++
      (if (header program (labelsOf program)).isEmpty then [] else [""]) ++
      (rowsOf program).flatMap (rowLines program (labelsOf program)) :=
  rfl

theorem lt_size_of_label {program : Program} {label : Nat}
    (labelled : (labelsOf program).contains label = true) : label < program.code.size :=
  (of_contains_labels labelled).1

/-- The rows of a listing make up the stream, with labels at most in front of them. -/
theorem rows_rowsOf (program : Program) :
    Rows program.code (labelsOf program) 0 (rowsOf program) := by
  have outside : ∀ instruction : Instruction,
      (Std.HashSet.ofList ((layout program.code (traceOf program)).map (·.offset))).contains
        instruction.offset = true →
      Instruction.decode program.code instruction.offset = .ok instruction →
      ∀ offset, instruction.offset < offset → offset < instruction.next →
        (labelsOf program).contains offset = false := by
    intro instruction picked decoded offset behind within
    rw [Std.HashSet.contains_ofList, List.contains_iff_mem] at picked
    obtain ⟨other, member, same⟩ := List.mem_map.1 picked
    have other_decoded := decode_of_mem_layout member
    rw [same, decoded] at other_decoded
    cases other_decoded
    apply Bool.eq_false_iff.2
    intro labelled
    have outside := (of_contains_labels labelled).2
    rw [contains_interior member behind within] at outside
    contradiction
  obtain ⟨rows, rows_eq, listed⟩ := rows_rowsFrom outside (Nat.zero_le _) #[]
  have same : rowsOf program = rows := rows_eq
  rw [same]
  exact listed

end ActorScript.Assembly.Listing
