import ActorScript.Proofs.Image.RoundTrip
import ActorScript.Proofs.Table

/-!
# Images that can be read

The format leaves one freedom: the entries of a table may stand in any order.  Every other
byte of an image that can be read is the one that would be written, since a field that is
read back is rewritten with the bytes it was read from.  So writing the program of an image
sorts the two tables of the image and changes nothing else.
-/

namespace ActorScript

namespace Bytes

theorem toNat_lt (bytes : List UInt8) : toNat bytes < Nat.pow 256 bytes.length := by
  induction bytes with
  | nil => decide
  | cons byte rest ih =>
      have low := byte.toNat_lt
      simp only [toNat, List.length_cons, Nat.pow_eq, Nat.pow_succ] at ih ⊢
      omega

/-- Writing a number that was read gives its bytes. -/
theorem ofNat_toNat (bytes : List UInt8) : ofNat bytes.length (toNat bytes) = bytes := by
  induction bytes with
  | nil => rfl
  | cons byte rest ih =>
      have low := byte.toNat_lt
      have low_eq : UInt8.ofNat (byte.toNat + 256 * toNat rest) = byte := by
        rw [← UInt8.toNat_inj, UInt8.toNat_ofNat']
        omega
      have high_eq : (byte.toNat + 256 * toNat rest) / 256 = toNat rest := by
        omega
      rw [toNat, List.length_cons, ofNat, low_eq, high_eq, ih]

theorem ofWord_toWord {bytes : List UInt8} (long : bytes.length = 4) :
    ofWord (toWord bytes) = bytes := by
  have small := toNat_lt bytes
  rw [long] at small
  have value_eq : (toWord bytes).toUInt32.toNat = toNat bytes := by
    simpa [toWord] using Nat.mod_eq_of_lt small
  rw [ofWord, value_eq, ← long, ofNat_toNat]

end Bytes

namespace Image

open Reader

/-! ## Readers and the bytes they took -/

/-- What is read in two steps is read in each. -/
theorem run_bind_eq_ok {α β : Type} {reader : Reader α} {next : α → Reader β}
    {cursor after : Cursor} {result : β}
    (run : (reader >>= next).run cursor = .ok (result, after)) :
    ∃ value between, reader.run cursor = .ok (value, between) ∧
      (next value).run between = .ok (result, after) := by
  rw [StateT.run_bind] at run
  obtain ⟨⟨value, between⟩, first, second⟩ := bind_eq_ok_iff.1 run
  exact ⟨value, between, first, second⟩

/-- A check takes no bytes. -/
theorem run_lift_eq_ok {α : Type} {action : Except ReadError α} {cursor after : Cursor}
    {value : α} (run : StateT.run (liftM action : Reader α) cursor = .ok (value, after)) :
    action = .ok value ∧ after = cursor := by
  cases action with
  | error error => contradiction
  | ok found =>
      cases run
      exact ⟨rfl, rfl⟩

theorem rest_of_take {count : Nat} {cursor after : Cursor} {bytes : List UInt8}
    (run : (take count).run cursor = .ok (bytes, after)) :
    bytes.length = count ∧ cursor.rest = bytes ++ after.rest := by
  simp only [StateT.run, take] at run
  split at run
  · rename_i long
    cases run
    exact ⟨long, (List.take_append_drop count cursor.rest).symm⟩
  · contradiction

theorem rest_of_number {width value : Nat} {cursor after : Cursor}
    (run : (number width).run cursor = .ok (value, after)) :
    value < Nat.pow 256 width ∧ cursor.rest = Bytes.ofNat width value ++ after.rest := by
  obtain ⟨bytes, _, taken, ⟨⟩⟩ := run_bind_eq_ok run
  obtain ⟨rfl, rest_eq⟩ := rest_of_take taken
  rw [Bytes.ofNat_toNat]
  exact ⟨Bytes.toNat_lt bytes, rest_eq⟩

theorem rest_of_word {value : Word} {cursor after : Cursor}
    (run : word.run cursor = .ok (value, after)) :
    cursor.rest = Bytes.ofWord value ++ after.rest := by
  obtain ⟨bytes, _, taken, ⟨⟩⟩ := run_bind_eq_ok run
  obtain ⟨long, rest_eq⟩ := rest_of_take taken
  rw [Bytes.ofWord_toWord long]
  exact rest_eq

/-- What a reader takes for a value is what is written for the value. -/
def Restores {α : Type} (reader : Reader α) (writeValue : α → Except WriteError (List UInt8)) :
    Prop :=
  ∀ cursor value after, reader.run cursor = .ok (value, after) →
    ∃ bytes, writeValue value = .ok bytes ∧ cursor.rest = bytes ++ after.rest

/-! ## Fields -/

theorem restores_word : Restores word fun value => .ok (Bytes.ofWord value) :=
  fun _ value _ run => ⟨Bytes.ofWord value, rfl, rest_of_word run⟩

theorem restores_script : Restores script writeScript := by
  intro cursor offset? after run
  obtain ⟨_, _, ⟨⟩, run⟩ := run_bind_eq_ok run
  obtain ⟨value, between, value_read, run⟩ := run_bind_eq_ok run
  have rest_eq := rest_of_word value_read
  by_cases absent : value = -1
  · rw [if_pos absent] at run
    cases run
    subst absent
    exact ⟨_, rfl, rest_eq⟩
  · rw [if_neg absent] at run
    cases named : value.offset? with
    | none =>
        simp only [named] at run
        contradiction
    | some offset =>
        simp only [named] at run
        cases run
        have written : writeOffset offset = .ok (Bytes.ofWord value) :=
          writeOffset_eq_ok_iff.2
            ⟨Word.le_maximum_of_offset? named, by rw [Word.ofOffset_of_offset? named]⟩
        exact ⟨_, written, rest_eq⟩

theorem restores_actor : Restores actor writeActor := by
  intro cursor entry after run
  obtain ⟨kind, _, kind_read, run⟩ := run_bind_eq_ok run
  obtain ⟨tick, _, tick_read, run⟩ := run_bind_eq_ok run
  obtain ⟨load, _, load_read, ⟨⟩⟩ := run_bind_eq_ok run
  obtain ⟨tick_bytes, tick_written, tick_eq⟩ := restores_script _ _ _ tick_read
  obtain ⟨load_bytes, load_written, load_eq⟩ := restores_script _ _ _ load_read
  refine ⟨Bytes.ofWord kind ++ (tick_bytes ++ load_bytes), ?_, ?_⟩
  · simp only [writeActor, tick_written, load_written]
    rfl
  · rw [rest_of_word kind_read, tick_eq, load_eq]
    simp only [List.append_assoc]

theorem restores_event : Restores event writeEvent := by
  intro cursor entry after run
  obtain ⟨key, _, key_read, run⟩ := run_bind_eq_ok run
  obtain ⟨_, _, ⟨⟩, run⟩ := run_bind_eq_ok run
  obtain ⟨offset?, _, script_read, run⟩ := run_bind_eq_ok run
  obtain ⟨bytes, written, bytes_eq⟩ := restores_script _ _ _ script_read
  cases offset? with
  | none => contradiction
  | some offset =>
      cases run
      refine ⟨Bytes.ofWord key ++ bytes, ?_, ?_⟩
      · have written : writeOffset offset = .ok bytes := written
        simp only [writeEvent, written]
        rfl
      · rw [rest_of_word key_read, bytes_eq, List.append_assoc]

/-! ### Variables -/

theorem scope_code_of_scopeOfCode {code : UInt8} {scope : Scope}
    (found : scopeOfCode code = .ok scope) : scope.code = code := by
  unfold scopeOfCode at found
  split at found
  · rename_i known
    cases found
    simpa using List.find?_some known
  · contradiction

/-- Two flags fill the two low bits. -/
theorem flags_of_withFlags {plain declared : Variable} {flags : UInt8}
    (flagged : withFlags plain flags = .ok declared) :
    declared.flags = flags ∧ declared.name = plain.name ∧ declared.scope = plain.scope ∧
      declared.initial = plain.initial := by
  have two_bits : ∀ flags : UInt8, flags < 4 →
      (if (flags &&& 1 != 0) = true then (1 : UInt8) else 0) +
        (if (flags &&& 2 != 0) = true then 2 else 0) = flags := by
    decide +kernel
  unfold withFlags Variable.withFlags? at flagged
  by_cases low : flags < 4
  · rw [if_pos low] at flagged
    cases flagged
    exact ⟨two_bits flags low, rfl, rfl, rfl⟩
  · rw [if_neg low] at flagged
    contradiction

theorem toUTF8_of_fromUTF8? {bytes : List UInt8} {name : String}
    (valid : String.fromUTF8? bytes.toByteArray = some name) : name.toUTF8.toList = bytes := by
  unfold String.fromUTF8? at valid
  split at valid
  · cases valid
    rw [toList_byteArray]
    exact congrArg Array.toList List.data_toByteArray
  · contradiction

theorem restores_declaration (index : Nat) :
    Restores declaration fun declared => writeVariable declared index := by
  intro cursor declared after run
  obtain ⟨code, _, code_read, run⟩ := run_bind_eq_ok run
  obtain ⟨scope, checked, scope_found, run⟩ := run_bind_eq_ok run
  obtain ⟨scope_eq, checked_eq⟩ := run_lift_eq_ok scope_found
  obtain ⟨flags, _, flags_read, run⟩ := run_bind_eq_ok run
  obtain ⟨initial, _, initial_read, run⟩ := run_bind_eq_ok run
  obtain ⟨length, _, length_read, run⟩ := run_bind_eq_ok run
  obtain ⟨_, _, ⟨⟩, run⟩ := run_bind_eq_ok run
  obtain ⟨bytes, _, bytes_read, run⟩ := run_bind_eq_ok run
  cases named : String.fromUTF8? bytes.toByteArray with
  | none =>
      rw [named] at run
      contradiction
  | some name =>
      rw [named] at run
      obtain ⟨flagged, rfl⟩ := run_lift_eq_ok run
      obtain ⟨flags_eq, name_eq, scope_kept, initial_eq⟩ := flags_of_withFlags flagged
      obtain ⟨short, length_eq⟩ := rest_of_number length_read
      obtain ⟨long, bytes_eq⟩ := rest_of_take bytes_read
      have name_bytes : declared.name.toUTF8.toList = bytes := by
        rw [name_eq, toUTF8_of_fromUTF8? named]
      have size_eq : declared.name.utf8ByteSize = length := by
        rw [← length_toUTF8, name_bytes, long]
      have small : declared.name.utf8ByteSize ≤ maxNameLength := by
        rw [size_eq]
        exact Nat.le_of_lt_succ short
      refine ⟨_, if_pos small, ?_⟩
      rw [name_bytes, size_eq, flags_eq, scope_kept, initial_eq,
        scope_code_of_scopeOfCode scope_eq, (rest_of_number code_read).2, ← checked_eq,
        (rest_of_number flags_read).2, rest_of_word initial_read, length_eq, bytes_eq]
      simp only [Bytes.ofNat, List.cons_append, List.nil_append, List.append_assoc]

/-! ## Parts -/

section Parts

variable {α : Type} {item : Reader α} {writeItem : α → Except WriteError (List UInt8)}

/-- Items that are rewritten one by one are rewritten in order. -/
theorem rest_of_repeatItem (each : Restores item writeItem) {count : Nat} {front items : Array α}
    {cursor after : Cursor}
    (run : (repeatItem item count front).run cursor = .ok (items, after)) :
    ∃ read pieces, items.toList = front.toList ++ read ∧ read.length = count ∧
      read.mapM writeItem = .ok pieces ∧ cursor.rest = pieces.flatten ++ after.rest := by
  induction count generalizing front cursor with
  | zero =>
      cases run
      exact ⟨[], [], by simp, rfl, rfl, rfl⟩
  | succ count ih =>
      obtain ⟨next, between, next_read, run⟩ := run_bind_eq_ok run
      obtain ⟨read, pieces, items_eq, rfl, pieces_written, rest_eq⟩ := ih run
      obtain ⟨bytes, next_written, bytes_eq⟩ := each _ _ _ next_read
      refine ⟨next :: read, bytes :: pieces, ?_, rfl,
        mapM_cons_eq_ok_iff.2 ⟨bytes, pieces, next_written, pieces_written, rfl⟩, ?_⟩
      · rw [items_eq, Array.toList_push, List.append_assoc]
        rfl
      · rw [bytes_eq, rest_eq, List.flatten_cons, List.append_assoc]

/-- A part that is read is rewritten, with the number of its items in front. -/
theorem rest_of_part (part : Part) (each : Restores item writeItem) {items : Array α} {count : Nat}
    {cursor between after : Cursor} (count_read : (number 4).run cursor = .ok (count, between))
    (run : (repeatItem item count #[]).run between = .ok (items, after)) :
    ∃ bytes, writePart part items.toList writeItem = .ok bytes ∧
      cursor.rest = bytes ++ after.rest := by
  obtain ⟨few, count_eq⟩ := rest_of_number count_read
  obtain ⟨read, pieces, items_eq, rfl, pieces_written, rest_eq⟩ := rest_of_repeatItem each run
  have small : read.length ≤ maxCount := Nat.le_of_lt_succ few
  rw [List.nil_append] at items_eq
  refine ⟨Bytes.ofNat 4 read.length ++ pieces.flatten, ?_, ?_⟩
  · rw [items_eq, writePart, writeCount, if_pos small, pieces_written]
    rfl
  · rw [count_eq, rest_eq, List.append_assoc]

/-- The entries of a table are listed one behind the other, and the table holds them all. -/
theorem listed_of_entries {β : Type} {part : Part} {entry : Reader (Word × β)} {count : Nat}
    {table whole : Table β} {cursor after : Cursor}
    (run : (entries part entry count table).run cursor = .ok (whole, after))
    (front : Array (Word × β)) (front_eq : front.toList.Perm table.toList) :
    ∃ items, (repeatItem entry count front).run cursor = .ok (items, after) ∧
      items.toList.Perm whole.toList := by
  induction count generalizing table cursor front with
  | zero =>
      cases run
      exact ⟨front, rfl, front_eq⟩
  | succ count ih =>
      obtain ⟨⟨key, value⟩, between, next_read, run⟩ := run_bind_eq_ok run
      cases present : table.contains key with
      | true =>
          simp only [present] at run
          contradiction
      | false =>
          simp only [present] at run
          have extended :
              (front.push (key, value)).toList.Perm (table.insert key value).toList := by
            rw [Array.toList_push]
            exact ((List.perm_append_singleton _ _).trans (front_eq.cons _)).trans
              (Table.perm_toList_insert value present).symm
          obtain ⟨items, items_read, whole_eq⟩ := ih run _ extended
          refine ⟨items, ?_, whole_eq⟩
          rw [repeatItem, StateT.run_bind, next_read]
          exact items_read

/-- The items of a part in another order take as many bytes. -/
theorem writePart_of_perm {part : Part} {items others : List α} {bytes : List UInt8}
    (same : others.Perm items) (written : writePart part items writeItem = .ok bytes) :
    ∃ reordered, writePart part others writeItem = .ok reordered ∧
      reordered.length = bytes.length := by
  obtain ⟨count, count_written, written⟩ := bind_eq_ok_iff.1 written
  obtain ⟨pieces, pieces_written, ⟨⟩⟩ := bind_eq_ok_iff.1 written
  obtain ⟨moved, moved_written, moved_eq⟩ :=
    List.perm_comp_forall₂ same (mapM_eq_ok_iff.1 pieces_written)
  refine ⟨count ++ moved.flatten, ?_, ?_⟩
  · rw [writePart, same.length_eq, count_written, mapM_eq_ok_iff.2 moved_written]
    rfl
  · rw [List.length_append, List.length_append, moved_eq.flatten.length_eq]

end Parts

/-! ## Listings -/

/-- The parts of an image, with the entries of both tables in the order of the image. -/
structure Listing where
  vars : Array Variable
  actors : Array (Word × Scripts)
  events : Array (Word × Nat)
  code : Array Word

/-- Lists the parts of an image between its magic bytes and its seal. -/
def Reader.listing : Reader Listing := do
  let vars ← repeatItem declaration (← number 4) #[]
  let actors ← repeatItem actor (← number 4) #[]
  let events ← repeatItem event (← number 4) #[]
  let code ← repeatItem word (← number 4) #[]
  return { vars, actors, events, code }

/-- The parts that an image lists. -/
def listed (image : List UInt8) : Except ReadError Listing :=
  (Reader.listing.run ⟨magic.length, image.drop magic.length⟩).map Prod.fst

namespace Listing

/-- The entries of both tables stand in strictly ascending order of their keys. -/
def Ascends (listing : Listing) : Prop :=
  (listing.actors.toList.Pairwise fun left right => left.1 < right.1) ∧
    listing.events.toList.Pairwise fun left right => left.1 < right.1

/-- A program has the parts that are listed, whatever the order of the entries. -/
structure Lists (listing : Listing) (program : Program) : Prop where
  vars : listing.vars = program.vars
  actors : listing.actors.toList.Perm program.actors.toList
  events : listing.events.toList.Perm program.events.toList
  code : listing.code = program.code

/-- The listing of a program with the entries in the order of its tables. -/
def ofProgram (program : Program) : Listing where
  vars := program.vars
  actors := program.actors.toList.toArray
  events := program.events.toList.toArray
  code := program.code

/-- The bytes of a listing. -/
def write (listing : Listing) : Except WriteError (List UInt8) := do
  let declarations ← writePart .declarations listing.vars.toList.zipIdx
    fun (declared, index) => writeVariable declared index
  let actors ← writePart .actors listing.actors.toList writeActor
  let events ← writePart .events listing.events.toList writeEvent
  let code ← writePart .code listing.code.toList fun word => .ok (Bytes.ofWord word)
  return declarations ++ (actors ++ (events ++ code))

theorem ascends_ofProgram (program : Program) : (ofProgram program).Ascends :=
  ⟨program.actors.sorted, program.events.sorted⟩

/-- The order of the entries is all that a program leaves open. -/
theorem eq_ofProgram {listing : Listing} {program : Program} (lists : listing.Lists program)
    (ascends : listing.Ascends) : listing = ofProgram program := by
  have sorted_eq {α : Type} {entries : Array (Word × α)} {table : Table α}
      (same : entries.toList.Perm table.toList)
      (sorted : entries.toList.Pairwise fun left right => left.1 < right.1) :
      entries = table.toList.toArray := by
    have asymm : ∀ left right, left ∈ entries.toList → right ∈ table.toList →
        left.1 < right.1 → right.1 < left.1 → left = right :=
      fun _ _ _ _ less greater => absurd less (Int32.not_lt.2 (Int32.le_of_lt greater))
    have lists_eq : entries.toList = table.toList :=
      same.eq_of_pairwise asymm sorted table.sorted
    rw [← lists_eq]
  obtain ⟨vars, actors, events, code⟩ := listing
  obtain ⟨rfl, actors_eq, events_eq, rfl⟩ := lists
  rw [ofProgram, ← sorted_eq actors_eq ascends.1, ← sorted_eq events_eq ascends.2]

end Listing

theorem writeBody_of_write {program : Program} {bytes : List UInt8}
    (written : (Listing.ofProgram program).write = .ok bytes) :
    writeBody program = .ok (magic ++ bytes) := by
  obtain ⟨declarations, declarations_written, written⟩ := bind_eq_ok_iff.1 written
  obtain ⟨actors, actors_written, written⟩ := bind_eq_ok_iff.1 written
  obtain ⟨events, events_written, written⟩ := bind_eq_ok_iff.1 written
  obtain ⟨code, code_written, written⟩ := bind_eq_ok_iff.1 written
  cases written
  refine bind_eq_ok_iff.2 ⟨declarations, declarations_written, ?_⟩
  refine bind_eq_ok_iff.2 ⟨actors, actors_written, ?_⟩
  refine bind_eq_ok_iff.2 ⟨events, events_written, ?_⟩
  exact bind_eq_ok_iff.2 ⟨code, code_written, rfl⟩

/-- Items that are read back one by one are listed as they were written. -/
theorem reads_items {α : Type} {item : Reader α} {writeItem : α → Except WriteError (List UInt8)}
    (each : ∀ entry bytes, writeItem entry = .ok bytes → Reads item bytes entry)
    {items : Array α} {pieces : List (List UInt8)}
    (written : items.toList.mapM writeItem = .ok pieces) :
    Reads (repeatItem item items.toList.length #[]) pieces.flatten items := by
  have itself : ∀ entry bytes, writeItem entry = .ok bytes → Reads item bytes (id entry) := each
  have reads := reads_repeatItem itself written #[]
  simpa using reads

/-- The bytes of a listing list just it, whatever follows them. -/
theorem reads_listing {listing : Listing} {bytes : List UInt8}
    (written : listing.write = .ok bytes) : Reads Reader.listing bytes listing := by
  obtain ⟨declarations, declarations_written, written⟩ := bind_eq_ok_iff.1 written
  obtain ⟨actors, actors_written, written⟩ := bind_eq_ok_iff.1 written
  obtain ⟨events, events_written, written⟩ := bind_eq_ok_iff.1 written
  obtain ⟨code, code_written, written⟩ := bind_eq_ok_iff.1 written
  cases written
  rw [show declarations ++ (actors ++ (events ++ code)) =
    declarations ++ (actors ++ (events ++ (code ++ []))) by simp]
  apply reads_part declarations_written fun _ => reads_declarations
  apply reads_part actors_written fun _ => reads_items fun _ _ => reads_actor
  apply reads_part events_written fun _ => reads_items fun _ _ => reads_event
  apply reads_part code_written fun _ => reads_code
  exact .pure listing

theorem listed_of_write {listing : Listing} {bytes : List UInt8}
    (written : listing.write = .ok bytes) (rest : List UInt8) :
    listed (magic ++ bytes ++ rest) = .ok listing := by
  rw [listed, List.append_assoc, List.drop_left, reads_listing written]
  rfl

/-! ## Reading and writing back -/

theorem mapM_writeVariable_zipIdx {vars : List Variable} {pieces : List (List UInt8)}
    (written : vars.mapM (fun declared => writeVariable declared 0) = .ok pieces) (start : Nat) :
    (vars.zipIdx start).mapM (fun (declared, index) => writeVariable declared index) =
      .ok pieces := by
  -- The index of a variable only matters to the complaint about its name.
  have anywhere : ∀ declared index bytes, writeVariable declared 0 = .ok bytes →
      writeVariable declared index = .ok bytes := by
    intro declared index bytes written
    unfold writeVariable at written ⊢
    dsimp only at written ⊢
    split at written
    · rename_i short
      rw [if_pos short]
      exact written
    · contradiction
  induction vars generalizing pieces start with
  | nil => exact written
  | cons declared rest ih =>
      obtain ⟨bytes, later, first_written, rest_written, rfl⟩ := mapM_cons_eq_ok_iff.1 written
      have here := anywhere declared start bytes first_written
      rw [List.zipIdx_cons]
      exact mapM_cons_eq_ok_iff.2 ⟨bytes, later, here, ih rest_written (start + 1), rfl⟩

theorem rest_of_declarations {vars : Array Variable} {count : Nat} {cursor between after : Cursor}
    (count_read : (number 4).run cursor = .ok (count, between))
    (run : (repeatItem declaration count #[]).run between = .ok (vars, after)) :
    ∃ bytes, writePart .declarations vars.toList.zipIdx
        (fun (declared, index) => writeVariable declared index) = .ok bytes ∧
      cursor.rest = bytes ++ after.rest := by
  obtain ⟨bytes, written, rest_eq⟩ :=
    rest_of_part .declarations (restores_declaration 0) count_read run
  obtain ⟨front, front_written, written⟩ := bind_eq_ok_iff.1 written
  obtain ⟨pieces, pieces_written, ⟨⟩⟩ := bind_eq_ok_iff.1 written
  refine ⟨front ++ pieces.flatten, ?_, rest_eq⟩
  rw [writePart, List.length_zipIdx, front_written, mapM_writeVariable_zipIdx pieces_written]
  rfl

/-- What is read is listed, and the bytes of the listing are those that were read. -/
theorem listing_of_program {program : Program} {cursor after : Cursor}
    (run : Reader.program.run cursor = .ok (program, after)) :
    ∃ (listing : Listing) (bytes : List UInt8), listing.Lists program ∧
      listing.write = .ok bytes ∧ cursor.rest = bytes ++ after.rest := by
  obtain ⟨_, _, vars_count, run⟩ := run_bind_eq_ok run
  obtain ⟨vars, _, vars_read, run⟩ := run_bind_eq_ok run
  obtain ⟨_, _, actors_count, run⟩ := run_bind_eq_ok run
  obtain ⟨actors, _, actors_read, run⟩ := run_bind_eq_ok run
  obtain ⟨_, _, events_count, run⟩ := run_bind_eq_ok run
  obtain ⟨events, _, events_read, run⟩ := run_bind_eq_ok run
  obtain ⟨_, _, code_count, run⟩ := run_bind_eq_ok run
  obtain ⟨code, _, code_read, ⟨⟩⟩ := run_bind_eq_ok run
  obtain ⟨actor_items, actors_listed, actors_eq⟩ := listed_of_entries actors_read #[] (.refl _)
  obtain ⟨event_items, events_listed, events_eq⟩ := listed_of_entries events_read #[] (.refl _)
  obtain ⟨declarations, declarations_written, declarations_eq⟩ :=
    rest_of_declarations vars_count vars_read
  obtain ⟨actor_bytes, actors_written, actor_bytes_eq⟩ :=
    rest_of_part .actors restores_actor actors_count actors_listed
  obtain ⟨event_bytes, events_written, event_bytes_eq⟩ :=
    rest_of_part .events restores_event events_count events_listed
  obtain ⟨code_bytes, code_written, code_bytes_eq⟩ :=
    rest_of_part .code restores_word code_count code_read
  refine ⟨⟨vars, actor_items, event_items, code⟩,
    declarations ++ (actor_bytes ++ (event_bytes ++ code_bytes)),
    ⟨rfl, actors_eq, events_eq, rfl⟩, ?_, ?_⟩
  · rw [Listing.write, declarations_written, actors_written, events_written, code_written]
    rfl
  · rw [declarations_eq, actor_bytes_eq, event_bytes_eq, code_bytes_eq]
    simp only [List.append_assoc]

/-- A program can be written as soon as it is listed anywhere, and takes as many bytes. -/
theorem write_ofProgram {listing : Listing} {program : Program} (lists : listing.Lists program)
    {bytes : List UInt8} (written : listing.write = .ok bytes) :
    ∃ reordered, (Listing.ofProgram program).write = .ok reordered ∧
      reordered.length = bytes.length := by
  obtain ⟨declarations, declarations_written, written⟩ := bind_eq_ok_iff.1 written
  obtain ⟨actors, actors_written, written⟩ := bind_eq_ok_iff.1 written
  obtain ⟨events, events_written, written⟩ := bind_eq_ok_iff.1 written
  obtain ⟨code, code_written, ⟨⟩⟩ := bind_eq_ok_iff.1 written
  obtain ⟨actors', actors_written', actors_length⟩ :=
    writePart_of_perm lists.actors.symm actors_written
  obtain ⟨events', events_written', events_length⟩ :=
    writePart_of_perm lists.events.symm events_written
  rw [lists.vars] at declarations_written
  rw [lists.code] at code_written
  refine ⟨declarations ++ (actors' ++ (events' ++ code)), ?_, ?_⟩
  · rw [Listing.write, Listing.ofProgram, declarations_written, actors_written', events_written',
      code_written]
    rfl
  · simp only [List.length_append, actors_length, events_length]

section Seal

variable {digest : List UInt8 → List UInt8}

theorem readWith_seal (length_digest : ∀ body, (digest body).length = sealLength)
    (parts : List UInt8) :
    readWith digest (magic ++ parts ++ digest (magic ++ parts)) = readBody (magic ++ parts) := by
  have length_eq : (magic ++ parts ++ digest (magic ++ parts)).length - sealLength =
      (magic ++ parts).length := by
    rw [List.length_append, length_digest, Nat.add_sub_cancel]
  have starts : (magic ++ parts ++ digest (magic ++ parts)).take magic.length = magic := by
    rw [List.append_assoc, List.take_left]
  have long : ¬ (magic ++ parts ++ digest (magic ++ parts)).length < magic.length + sealLength := by
    rw [List.length_append, List.length_append, length_digest]
    omega
  unfold readWith
  dsimp only
  rw [if_neg fun bad => bad.2 starts, if_neg long, length_eq, List.take_left, List.drop_left,
    if_pos rfl]

/-- An image that can be read is a body behind the magic bytes and the seal of the body. -/
theorem exists_body_of_readWith {image : List UInt8} {program : Program}
    (accepted : readWith digest image = .ok program) :
    ∃ parts, image = magic ++ parts ++ digest (magic ++ parts) ∧
      readBody (magic ++ parts) = .ok program := by
  unfold readWith at accepted
  dsimp only at accepted
  split at accepted
  · contradiction
  rename_i starts
  split at accepted
  · contradiction
  rename_i long
  split at accepted
  · rename_i sealed
    have magic_eq : (image.take (image.length - sealLength)).take magic.length = magic := by
      rw [List.take_take, Nat.min_eq_left (by omega)]
      by_contra other
      exact starts ⟨by omega, other⟩
    have body_eq : magic ++ (image.take (image.length - sealLength)).drop magic.length =
        image.take (image.length - sealLength) := by
      rw [← List.take_append_drop magic.length (image.take (image.length - sealLength)),
        magic_eq, List.drop_left]
    refine ⟨(image.take (image.length - sealLength)).drop magic.length, ?_, ?_⟩
    · rw [body_eq, sealed, List.take_append_drop]
    · rw [body_eq]
      exact accepted
  · contradiction

theorem program_of_readBody {parts : List UInt8} {program : Program}
    (accepted : readBody (magic ++ parts) = .ok program) :
    ∃ after, Reader.program.run ⟨magic.length, parts⟩ = .ok (program, after) ∧
      after.rest = [] := by
  unfold readBody at accepted
  rw [List.drop_left] at accepted
  obtain ⟨⟨read, after⟩, run, finished⟩ := bind_eq_ok_iff.1 accepted
  dsimp only at finished
  split at finished
  · rename_i empty
    cases finished
    exact ⟨after, run, List.isEmpty_iff.1 empty⟩
  · contradiction

/-- An image that can be read lists the parts of a program whose own image differs from it
in the order of the entries alone. -/
theorem read_is_reordering (length_digest : ∀ body, (digest body).length = sealLength)
    {image : List UInt8} {program : Program} (accepted : readWith digest image = .ok program) :
    ∃ listing canonical, listed image = .ok listing ∧ listing.Lists program ∧
      writeWith digest program = .ok canonical ∧ canonical.length = image.length ∧
      readWith digest canonical = .ok program ∧
      (canonical = image ↔ listing.Ascends) := by
  obtain ⟨parts, rfl, body_read⟩ := exists_body_of_readWith accepted
  obtain ⟨after, run, finished⟩ := program_of_readBody body_read
  obtain ⟨listing, bytes, lists, written, parts_eq⟩ := listing_of_program run
  rw [finished, List.append_nil] at parts_eq
  change parts = bytes at parts_eq
  subst parts_eq
  obtain ⟨reordered, reordered_written, length_eq⟩ := write_ofProgram lists written
  have body_written := writeBody_of_write reordered_written
  refine ⟨listing, magic ++ reordered ++ digest (magic ++ reordered), listed_of_write written _,
    lists, ?_, ?_, ?_, ?_, ?_⟩
  · rw [writeWith, body_written]
    rfl
  · simp only [List.length_append, length_digest, length_eq]
  · rw [readWith_seal length_digest]
    exact readBody_of_writeBody body_written
  · intro same
    -- The canonical image lists the tables of the program, so these are what `image` lists.
    have canonical_listed := listed_of_write reordered_written (digest (magic ++ reordered))
    rw [same, listed_of_write written] at canonical_listed
    cases canonical_listed
    exact Listing.ascends_ofProgram program
  · intro ascends
    rw [Listing.eq_ofProgram lists ascends, reordered_written] at written
    cases written
    rfl

end Seal

/-- A listing of the actor kinds 3 and 1 and the events 2 and -2. -/
def descending : Listing where
  vars := #[]
  actors := #[(3, { tick := some 0 }), (1, { load := some 1 })]
  events := #[(2, 1), (-2, 0)]
  code := #[7, -1]

/-- The program of `descending`. -/
def ascending : Program where
  code := #[7, -1]
  actors := (Table.empty.insert 1 { load := some 1 }).insert 3 { tick := some 0 }
  events := (Table.empty.insert (-2) 0).insert 2 1

/-- The bytes of `descending`. -/
def descendingParts : List UInt8 :=
  [0, 0, 0, 0] ++
    [2, 0, 0, 0, 3, 0, 0, 0, 0, 0, 0, 0, 0xFF, 0xFF, 0xFF, 0xFF,
      1, 0, 0, 0, 0xFF, 0xFF, 0xFF, 0xFF, 1, 0, 0, 0] ++
    [2, 0, 0, 0, 2, 0, 0, 0, 1, 0, 0, 0, 0xFE, 0xFF, 0xFF, 0xFF, 0, 0, 0, 0] ++
    [2, 0, 0, 0, 7, 0, 0, 0, 0xFF, 0xFF, 0xFF, 0xFF]

/-- An image that can be read and is not the one that is written for its program. -/
theorem read_descending :
    let image := magic ++ descendingParts ++ Blake3.digest (magic ++ descendingParts)
    read image = .ok ascending ∧
      ∃ canonical, write ascending = .ok canonical ∧ canonical.length = image.length ∧
        read canonical = .ok ascending ∧ canonical ≠ image := by
  have body_read : readBody (magic ++ descendingParts) = .ok ascending := by
    cbv
  have parts_written : descending.write = .ok descendingParts := by
    cbv
  have accepted := readWith_seal Blake3.length_digest descendingParts
  rw [body_read] at accepted
  obtain ⟨listing, canonical, found, _, written, length_eq, read_again, same_iff⟩ :=
    read_is_reordering Blake3.length_digest accepted
  refine ⟨accepted, canonical, written, length_eq, read_again, ?_⟩
  intro same
  rw [listed_of_write parts_written] at found
  cases found
  exact absurd (same_iff.1 same).1 (by decide)

end Image

end ActorScript
