import ActorScript.Proofs.Image.RoundTrip
import ActorScript.Proofs.Assembly.Assembled
import ActorScript.Proofs.Verify.Closure
import Mathlib

/-!
# Programs that fit an image

A program can be written exactly if its names, its counts and its entry offsets fit their
fields.  The verifier sees to all of them but the number of actor kinds: an entry offset lies
inside a stream that is not too large, and as no event has a negative identifier, there are not
too many events.  An assembler line sees to the name that it declares and the offsets that it
resolves, so of a text only the counts are left.
-/

namespace ActorScript

namespace Image

variable {program : Program}

/-- All that an image has a field for fits the field. -/
structure Fits (program : Program) : Prop where
  vars : program.vars.size ≤ maxCount
  names : ∀ declared ∈ program.vars, declared.name.utf8ByteSize ≤ maxNameLength
  actors : program.actors.size ≤ maxCount
  events : program.events.size ≤ maxCount
  code : program.code.size ≤ maxCount
  entries : ∀ offset ∈ program.entries, offset ≤ Word.maximum

/-- A program has an image and the digest of the image. -/
def IsWritten (program : Program) : Prop :=
  ∃ image, write program = .ok image ∧ digest program = .ok (Bytes.hex (Blake3.digest image))

/-! ## Parts -/

theorem exists_writeCount_iff (part : Part) {count : Nat} :
    (∃ bytes, writeCount part count = .ok bytes) ↔ count ≤ maxCount := by
  unfold writeCount
  split <;> simp_all

theorem exists_writePart_iff {α : Type} {part : Part} {entries : List α}
    {writeEntry : α → Except WriteError (List UInt8)} :
    (∃ bytes, writePart part entries writeEntry = .ok bytes) ↔
      entries.length ≤ maxCount ∧ ∀ entry ∈ entries, ∃ bytes, writeEntry entry = .ok bytes := by
  rw [← exists_writeCount_iff part, ← exists_mapM_eq_ok_iff]
  simp only [writePart, exists_bind_eq_ok_iff, exists_pure_eq_ok, and_true, exists_and_right]

theorem exists_writeOffset_iff {offset : Nat} :
    (∃ bytes, writeOffset offset = .ok bytes) ↔ offset ≤ Word.maximum := by
  simp [writeOffset_eq_ok_iff]

theorem exists_writeVariable_iff {declared : Variable} {index : Nat} :
    (∃ bytes, writeVariable declared index = .ok bytes) ↔
      declared.name.utf8ByteSize ≤ maxNameLength := by
  unfold writeVariable
  dsimp only
  split <;> simp_all

theorem exists_writeScript_iff {script : Option Nat} :
    (∃ bytes, writeScript script = .ok bytes) ↔
      ∀ offset ∈ script.toList, offset ≤ Word.maximum := by
  cases script with
  | none => simp [writeScript]
  | some offset => simp [writeScript, exists_writeOffset_iff]

theorem exists_writeActor_iff {entry : Word × Scripts} :
    (∃ bytes, writeActor entry = .ok bytes) ↔
      ∀ offset ∈ entry.2.offsets, offset ≤ Word.maximum := by
  rw [Scripts.offsets, List.forall_mem_append, ← exists_writeScript_iff, ← exists_writeScript_iff]
  simp only [writeActor, exists_bind_eq_ok_iff, exists_pure_eq_ok, and_true, exists_and_right]

theorem exists_writeEvent_iff {entry : Word × Nat} :
    (∃ bytes, writeEvent entry = .ok bytes) ↔ entry.2 ≤ Word.maximum := by
  rw [← exists_writeOffset_iff]
  simp only [writeEvent, exists_bind_eq_ok_iff, exists_pure_eq_ok, and_true]

/-! ## Whole programs -/

theorem exists_writeBody_iff :
    (∃ bytes, writeBody program = .ok bytes) ↔
      (∃ bytes, writePart .declarations program.vars.toList.zipIdx
        (fun entry => writeVariable entry.1 entry.2) = .ok bytes) ∧
      (∃ bytes, writePart .actors program.actors.toList writeActor = .ok bytes) ∧
      (∃ bytes, writePart .events program.events.toList writeEvent = .ok bytes) ∧
      ∃ bytes, writePart .code program.code.toList (fun word => .ok (Bytes.ofWord word)) =
        .ok bytes := by
  simp only [writeBody, exists_bind_eq_ok_iff, exists_pure_eq_ok, and_true, exists_and_right]

theorem forall_entries_iff {Small : Nat → Prop} :
    (∀ offset ∈ program.entries, Small offset) ↔
      (∀ entry ∈ program.actors.toList, ∀ offset ∈ entry.2.offsets, Small offset) ∧
        ∀ entry ∈ program.events.toList, Small entry.2 := by
  simp only [Program.entries, Table.values, Table.toList, List.forall_mem_append,
    List.forall_mem_flatMap, List.forall_mem_map]

theorem exists_mem_zipIdx {α : Type} {values : Array α} {value : α} (member : value ∈ values) :
    ∃ index, (value, index) ∈ values.toList.zipIdx := by
  obtain ⟨index, inside, rfl⟩ := Array.mem_iff_getElem.1 member
  exact ⟨index, List.mk_mem_zipIdx_iff_getElem?.2 (by simp)⟩

/-- A program can be written exactly if it fits. -/
theorem isWritten_iff : IsWritten program ↔ Fits program := by
  have body : IsWritten program ↔ ∃ bytes, writeBody program = .ok bytes := by
    constructor
    · rintro ⟨image, written, _⟩
      obtain ⟨bytes, body_written, _⟩ := bind_eq_ok_iff.1 written
      exact ⟨bytes, body_written⟩
    · rintro ⟨bytes, body_written⟩
      have written : write program = .ok (bytes ++ Blake3.digest bytes) :=
        bind_eq_ok_iff.2 ⟨bytes, body_written, rfl⟩
      exact ⟨_, written, bind_eq_ok_iff.2 ⟨_, written, rfl⟩⟩
  rw [body, exists_writeBody_iff]
  simp only [exists_writePart_iff, exists_writeVariable_iff, exists_writeActor_iff,
    exists_writeEvent_iff, List.length_zipIdx, Array.length_toList]
  constructor
  · rintro ⟨⟨vars, names⟩, ⟨actors, scripts⟩, ⟨events, handlers⟩, code, _⟩
    refine ⟨vars, ?_, actors, events, code, forall_entries_iff.2 ⟨scripts, handlers⟩⟩
    intro declared member
    obtain ⟨index, numbered⟩ := exists_mem_zipIdx member
    exact names _ numbered
  · rintro ⟨vars, names, actors, events, code, entries⟩
    obtain ⟨scripts, handlers⟩ := forall_entries_iff.1 entries
    refine ⟨⟨vars, ?_⟩, ⟨actors, scripts⟩, ⟨events, handlers⟩, code, fun _ _ => ⟨_, rfl⟩⟩
    intro entry member
    exact names entry.1 (Array.mem_toList_iff.1 (List.fst_mem_of_mem_zipIdx member))

end Image

/-! ## Verified programs -/

/-- Of the words, half are not negative. -/
theorem Table.size_le_of_nonneg {α : Type} {table : Table α}
    (nonneg : ∀ entry ∈ table.toList, 0 ≤ entry.1) : table.size ≤ 2 ^ 31 := by
  have distinct : (table.toList.map fun entry => entry.1.toInt.toNat).Nodup := by
    rw [List.nodup_iff_pairwise_ne, List.pairwise_map]
    apply table.sorted.imp_of_mem
    intro left right member _ below
    have low := Int32.le_iff_toInt_le.1 (nonneg left member)
    have order := Int32.lt_iff_toInt_lt.1 below
    simp at low
    omega
  have bounded : (table.toList.map fun entry => entry.1.toInt.toNat) ⊆ List.range (2 ^ 31) := by
    intro key listed
    obtain ⟨entry, _, rfl⟩ := List.mem_map.1 listed
    have below := entry.1.toInt_lt
    rw [List.mem_range]
    omega
  calc
    table.size = (table.toList.map fun entry => entry.1.toInt.toNat).length :=
      List.length_map _ |>.symm
    _ ≤ (List.range (2 ^ 31)).length := (distinct.subperm bounded).length_le
    _ = 2 ^ 31 := List.length_range

namespace Program.Verified

variable {program : Program} (verified : program.Verified)
include verified

theorem event_nonneg : ∀ entry ∈ program.events.toList, 0 ≤ entry.1 := by
  have parts := verified
  simp only [Verified, Verify.findings, Verify.entryFindings, List.append_eq_nil_iff,
    List.filterMap_eq_nil_iff] at parts
  obtain ⟨⟨⟨⟨_, negative, _⟩, _⟩, _⟩, _⟩ := parts
  intro entry member
  have accepted := negative entry member
  split at accepted
  · contradiction
  · rename_i present
    exact Int32.not_lt.1 present

/-- A verified program fits an image unless it has too many actor kinds. -/
theorem fits (actors : program.actors.size ≤ Image.maxCount) : Image.Fits program where
  vars := verified.vars_size_le.trans (by decide)
  names declared member := by
    obtain ⟨index, numbered⟩ := Image.exists_mem_zipIdx member
    exact verified.name_size_le numbered
  actors := actors
  events := (Table.size_le_of_nonneg verified.event_nonneg).trans (by decide)
  code := verified.size_le.trans (by decide)
  entries _ := verified.entry_le_maximum

end Program.Verified

/-! ## Assembled programs -/

namespace Assembly

variable {program : Program}

theorem IsDeclarable.size_le {name : String} (declarable : IsDeclarable name) :
    name.utf8ByteSize ≤ Image.maxNameLength := by
  rcases declarable with plain | rfl | rfl
  · exact plain.short
  · decide
  · decide

/-- A program of text fits an image unless it is too long or its tables are. -/
theorem fits_of_assemble {text : String} (assembled : assemble text = .ok program)
    (vars : program.vars.size ≤ Image.maxCount) (actors : program.actors.size ≤ Image.maxCount)
    (events : program.events.size ≤ Image.maxCount) (code : program.code.size ≤ Image.maxCount) :
    Image.Fits program := by
  have describable := describable_of_assemble assembled
  have names : ∀ declared ∈ program.vars, declared.name.utf8ByteSize ≤ Image.maxNameLength :=
    fun declared member => (describable.names declared member).size_le
  exact ⟨vars, names, actors, events, code, describable.entries⟩

end Assembly

namespace Image

/-- Every program that the verifier accepts can be written, and has a digest, unless it has too
many actor kinds; and so can every program that assembling gives, unless a count is too large. -/
theorem isWritten_of_accepted (program : Program) :
    (program.Verified → program.actors.size < 2 ^ 32 → IsWritten program) ∧
      ∀ text, Assembly.assemble text = .ok program →
        program.code.size < 2 ^ 32 → program.vars.size < 2 ^ 32 →
        program.actors.size < 2 ^ 32 → program.events.size < 2 ^ 32 → IsWritten program := by
  constructor
  · intro verified actors
    exact isWritten_iff.2 (verified.fits (Nat.le_of_lt_succ actors))
  · intro text assembled code vars actors events
    apply isWritten_iff.2
    exact Assembly.fits_of_assemble assembled (Nat.le_of_lt_succ vars)
      (Nat.le_of_lt_succ actors) (Nat.le_of_lt_succ events) (Nat.le_of_lt_succ code)

/-- A variable whose name no text can declare, and a script. -/
def accented : Program where
  code := #[7]
  vars := #[{ name := "größe", scope := .global }]
  actors := Table.empty.insert 1 { tick := some 0 }

/-- A variable, a script and a handler. -/
def tabulated : Program where
  code := #[7]
  vars := #[{ name := "hp", scope := .actor, initial := 5 }]
  actors := Table.empty.insert 1 { load := some 0 }
  events := Table.empty.insert 3 0

/-- Both can be written, the one as it is verified and the other as it has been assembled. -/
theorem isWritten_accented_and_tabulated :
    (accented.Verified ∧ IsWritten accented) ∧
      Assembly.assemble ".var hp actor default 5\n.actor 1 load 0\n.event 3 0\nenda" =
        .ok tabulated ∧ IsWritten tabulated := by
  have verified : accented.Verified := by cbv
  have assembled :
      Assembly.assemble ".var hp actor default 5\n.actor 1 load 0\n.event 3 0\nenda" =
        .ok tabulated := by
    cbv
  refine ⟨⟨verified, (isWritten_of_accepted accented).1 verified (by decide)⟩, assembled, ?_⟩
  exact (isWritten_of_accepted tabulated).2 _ assembled (by decide) (by decide) (by decide)
    (by decide)

end Image

end ActorScript
