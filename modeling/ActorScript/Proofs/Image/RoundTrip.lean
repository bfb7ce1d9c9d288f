import ActorScript.Image.Read
import ActorScript.Image.Write
import ActorScript.Proofs.Except
import Mathlib

/-!
# Reading back an image

Each field is read back from the bytes that were written for it, whatever follows them.
The readers are put together in the same order as the writers, so the fields add up to
the whole image.  Nothing here opens the digest: only its length matters.
-/

namespace ActorScript.Image

open Reader

/-! ## Readers and the bytes they read -/

/-- A reader takes exactly these bytes for a value, whatever follows them. -/
def Reads {α : Type} (reader : Reader α) (bytes : List UInt8) (value : α) : Prop :=
  ∀ position rest, reader.run ⟨position, bytes ++ rest⟩ =
    .ok (value, ⟨position + bytes.length, rest⟩)

section Reads

variable {α β : Type}

theorem Reads.pure (value : α) : Reads (Pure.pure value) [] value :=
  fun _ _ => rfl

theorem Reads.bind {reader : Reader α} {next : α → Reader β} {bytes later : List UInt8}
    {value : α} {result : β} (first : Reads reader bytes value)
    (second : Reads (next value) later result) :
    Reads (reader >>= next) (bytes ++ later) result := by
  intro position rest
  rw [StateT.run_bind, List.append_assoc, first, List.length_append, ← Nat.add_assoc]
  exact second _ rest

/-- What is read last leaves its value to be worked on. -/
theorem Reads.map {reader : Reader α} {next : α → Reader β} {bytes : List UInt8} {value : α}
    {result : β} (first : Reads reader bytes value) (second : Reads (next value) [] result) :
    Reads (reader >>= next) bytes result := by
  have both := first.bind second
  rw [List.append_nil] at both
  exact both

theorem Reads.atPosition {next : Nat → Reader α} {bytes : List UInt8} {value : α}
    (reads : ∀ start, Reads (next start) bytes value) :
    Reads (Reader.position >>= next) bytes value :=
  fun position rest => reads position position rest

theorem Reads.lift {action : Except ReadError α} {value : α} (succeeds : action = .ok value) :
    Reads (liftM action) [] value := by
  subst succeeds
  exact .pure value

/-- A check in between takes no bytes. -/
theorem Reads.behind {action : Except ReadError α} {next : α → Reader β} {bytes : List UInt8}
    {value : α} {result : β} (reads : Reads (next value) bytes result)
    (succeeds : action = .ok value) : Reads (liftM action >>= next) bytes result :=
  (Reads.lift succeeds).bind reads

end Reads

theorem reads_take (bytes : List UInt8) : Reads (take bytes.length) bytes bytes := by
  intro position rest
  simp [StateT.run, take]

theorem reads_number {width value : Nat} (fits : value < Nat.pow 256 width) :
    Reads (number width) (Bytes.ofNat width value) value := by
  have bytes := reads_take (Bytes.ofNat width value)
  rw [Bytes.length_ofNat] at bytes
  apply bytes.map
  rw [Bytes.toNat_ofNat fits]
  exact .pure value

theorem reads_word (value : Word) : Reads word (Bytes.ofWord value) value := by
  have bytes := reads_take (Bytes.ofWord value)
  rw [Bytes.length_ofWord] at bytes
  apply bytes.map
  rw [Bytes.toWord_ofWord]
  exact .pure value

/-! ## Fields -/

theorem writeOffset_eq_ok_iff {offset : Nat} {bytes : List UInt8} :
    writeOffset offset = .ok bytes ↔
      offset ≤ Word.maximum ∧ bytes = Bytes.ofWord (Word.ofOffset offset) := by
  unfold writeOffset
  by_cases fits : offset ≤ Word.maximum
  · simp [fits, eq_comm]
  · simp [fits]

/-- A script is read back, and so is its absence. -/
theorem reads_script {offset? : Option Nat} {bytes : List UInt8}
    (written : writeScript offset? = .ok bytes) : Reads script bytes offset? := by
  apply Reads.atPosition
  intro start
  cases offset? with
  | none =>
      cases written
      exact (reads_word (-1)).map (.pure none)
  | some offset =>
      obtain ⟨fits, rfl⟩ := writeOffset_eq_ok_iff.1 written
      have present : Word.ofOffset offset ≠ -1 := by
        intro absent
        have found := Word.offset?_ofOffset fits
        rw [absent] at found
        contradiction
      apply (reads_word (Word.ofOffset offset)).map
      rw [if_neg present, Word.offset?_ofOffset fits]
      exact .pure (some offset)

theorem reads_actor {entry : Word × Scripts} {bytes : List UInt8}
    (written : writeActor entry = .ok bytes) : Reads actor bytes entry := by
  obtain ⟨kind, tick?, load?⟩ := entry
  obtain ⟨tick, tick_written, written⟩ := bind_eq_ok_iff.1 written
  obtain ⟨load, load_written, written⟩ := bind_eq_ok_iff.1 written
  cases written
  apply (reads_word kind).bind
  apply (reads_script tick_written).bind
  exact (reads_script load_written).map (.pure _)

theorem reads_event {entry : Word × Nat} {bytes : List UInt8}
    (written : writeEvent entry = .ok bytes) : Reads event bytes entry := by
  obtain ⟨key, offset⟩ := entry
  obtain ⟨handler, handler_written, written⟩ := bind_eq_ok_iff.1 written
  cases written
  have script_written : writeScript (some offset) = .ok handler := handler_written
  apply (reads_word key).bind
  apply Reads.atPosition
  intro start
  exact (reads_script script_written).map (.pure _)

/-! ### Names -/

theorem toList_loop_eq (bytes : ByteArray) (index : Nat) (front : List UInt8) :
    ByteArray.toList.loop bytes index front = front.reverse ++ bytes.data.toList.drop index := by
  fun_induction ByteArray.toList.loop bytes index front with
  | case1 index front inside ih =>
      have place : index < bytes.data.toList.length := by simpa using inside
      have byte_eq : bytes.get! index = bytes.data.toList[index] := by
        change bytes.data.get!Internal index = _
        rw [Array.getElem_toList]
        exact getElem!_pos bytes.data index inside
      rw [ih, List.drop_eq_getElem_cons place, byte_eq]
      simp
  | case2 index front outside =>
      have behind : bytes.data.toList.drop index = [] := by simpa using outside
      rw [behind, List.append_nil]

theorem toList_byteArray (bytes : ByteArray) : bytes.toList = bytes.data.toList := by
  rw [ByteArray.toList, toList_loop_eq]
  rfl

theorem length_toUTF8 (name : String) : name.toUTF8.toList.length = name.utf8ByteSize := by
  rw [toList_byteArray]
  rfl

/-- The bytes of a text are those of no other text. -/
theorem fromUTF8?_toUTF8 (name : String) :
    String.fromUTF8? name.toUTF8.toList.toByteArray = some name := by
  have same : name.toUTF8.toList.toByteArray = name.toByteArray := by
    ext1
    rw [List.data_toByteArray, toList_byteArray]
    rfl
  have valid : name.toByteArray.IsValidUTF8 := name.isValidUTF8
  rw [same, String.fromUTF8?, dif_pos valid]
  rfl

theorem reads_byte (byte : UInt8) : Reads (number 1) [byte] byte.toNat := by
  have reads := reads_number (show byte.toNat < Nat.pow 256 1 by simpa using byte.toNat_lt)
  simpa [Bytes.ofNat] using reads

/-- A declared variable is read back. -/
theorem reads_declaration {declared : Variable} {index : Nat} {bytes : List UInt8}
    (written : writeVariable declared index = .ok bytes) : Reads declaration bytes declared := by
  unfold writeVariable at written
  dsimp only at written
  split at written
  · rename_i short
    cases written
    have scope_eq : scopeOfCode (UInt8.ofNat declared.scope.code.toNat) = .ok declared.scope := by
      simp [scopeOfCode]
    have flags_eq : withFlags ⟨declared.name, declared.scope, declared.initial, false, false⟩
        (UInt8.ofNat declared.flags.toNat) = .ok declared := by
      simp [withFlags]
    have name := reads_take declared.name.toUTF8.toList
    rw [length_toUTF8] at name
    apply (reads_byte declared.scope.code).bind
    apply Reads.behind _ scope_eq
    apply (reads_byte declared.flags).bind
    apply (reads_word declared.initial).bind
    apply (reads_number (Nat.lt_succ_of_le short)).bind
    apply Reads.atPosition
    intro start
    apply name.map
    rw [fromUTF8?_toUTF8]
    exact .lift flags_eq
  · contradiction

/-! ## Parts -/

section Parts

variable {α β : Type} {item : Reader β} {writeEntry : α → Except WriteError (List UInt8)}

/-- Items that are read back one by one are read back in order. -/
theorem reads_repeatItem {value : α → β}
    (each : ∀ entry bytes, writeEntry entry = .ok bytes → Reads item bytes (value entry))
    {entries : List α} {written : List (List UInt8)}
    (all_written : entries.mapM writeEntry = .ok written) (front : Array β) :
    Reads (repeatItem item entries.length front) written.flatten
      (front ++ (entries.map value).toArray) := by
  induction entries generalizing written front with
  | nil =>
      cases all_written
      rw [List.map_nil, Array.append_empty]
      exact .pure front
  | cons first rest ih =>
      obtain ⟨bytes, later, first_written, rest_written, rfl⟩ :=
        mapM_cons_eq_ok_iff.1 all_written
      have reads := ih rest_written (front.push (value first))
      have joined : front.push (value first) ++ (rest.map value).toArray =
          front ++ ((first :: rest).map value).toArray := by
        simp
      rw [joined] at reads
      exact (each first bytes first_written).bind reads

/-- Entries that are read back one by one and ascend fill a table in order. -/
theorem reads_entries {item : Reader (Word × β)}
    {writeEntry : Word × β → Except WriteError (List UInt8)}
    (each : ∀ entry bytes, writeEntry entry = .ok bytes → Reads item bytes entry)
    (part : Part) {rest : List (Word × β)} {written : List (List UInt8)}
    (all_written : rest.mapM writeEntry = .ok written) {front whole : Table β}
    (whole_eq : whole.toList = front.toList ++ rest) :
    Reads (entries part item rest.length front) written.flatten whole := by
  induction rest generalizing written front with
  | nil =>
      cases all_written
      rw [List.append_nil] at whole_eq
      rw [Table.eq_of_toList_eq whole_eq]
      exact .pure front
  | cons first rest ih =>
      obtain ⟨bytes, later, first_written, rest_written, rfl⟩ :=
        mapM_cons_eq_ok_iff.1 all_written
      obtain ⟨key, value⟩ := first
      have above : ∀ entry ∈ front.toList, entry.1 < key := by
        have sorted := whole.sorted
        change whole.toList.Pairwise _ at sorted
        rw [whole_eq] at sorted
        intro entry member
        exact (List.pairwise_append.1 sorted).2.2 entry member (key, value) List.mem_cons_self
      have extended : whole.toList = (front.insert key value).toList ++ rest := by
        rw [Table.toList_insert_of_above value above, whole_eq, List.append_assoc]
        rfl
      apply (each _ bytes first_written).bind
      have reads := ih rest_written extended
      simpa [Table.contains_of_above above] using reads

/-- A part is read back as its entries are, with their number in front. -/
theorem reads_part {γ δ : Type} {part : Part} {entries : List α} {bytes later : List UInt8}
    (written : writePart part entries writeEntry = .ok bytes) {body : Nat → Reader γ}
    {next : γ → Reader δ} {value : γ} {result : δ}
    (reads : ∀ pieces, entries.mapM writeEntry = .ok pieces →
      Reads (body entries.length) pieces.flatten value)
    (behind : Reads (next value) later result) :
    Reads (number 4 >>= fun count => body count >>= next) (bytes ++ later) result := by
  obtain ⟨count, count_written, written⟩ := bind_eq_ok_iff.1 written
  obtain ⟨pieces, pieces_written, written⟩ := bind_eq_ok_iff.1 written
  cases written
  unfold writeCount at count_written
  split at count_written
  · rename_i few
    cases count_written
    rw [List.append_assoc]
    apply (reads_number (Nat.lt_succ_of_le few)).bind
    exact (reads pieces pieces_written).bind behind
  · contradiction

end Parts

/-! ## Images -/

theorem reads_declarations {vars : Array Variable} {pieces : List (List UInt8)}
    (written : vars.toList.zipIdx.mapM
      (fun (declared, index) => writeVariable declared index) = .ok pieces) :
    Reads (repeatItem declaration vars.toList.zipIdx.length #[]) pieces.flatten vars := by
  have each : ∀ entry bytes, writeVariable entry.1 entry.2 = .ok bytes →
      Reads declaration bytes (Prod.fst entry) := fun _ _ => reads_declaration
  have reads := reads_repeatItem each written #[]
  simpa using reads

theorem reads_code {code : Array Word} {pieces : List (List UInt8)}
    (written : code.toList.mapM (fun word => Except.ok (Bytes.ofWord word)) =
      (.ok pieces : Except WriteError _)) :
    Reads (repeatItem word code.toList.length #[]) pieces.flatten code := by
  have each : ∀ entry bytes, (.ok (Bytes.ofWord entry) : Except WriteError _) = .ok bytes →
      Reads word bytes (id entry) := by
    rintro entry _ ⟨⟩
    exact reads_word entry
  have reads := reads_repeatItem each written #[]
  simpa using reads

/-- The parts of a program are read back from the body of its image. -/
theorem reads_program {program : Program} {body : List UInt8}
    (written : writeBody program = .ok body) :
    ∃ parts, body = magic ++ parts ∧ Reads Reader.program parts program := by
  obtain ⟨declarations, declarations_written, written⟩ := bind_eq_ok_iff.1 written
  obtain ⟨actors, actors_written, written⟩ := bind_eq_ok_iff.1 written
  obtain ⟨events, events_written, written⟩ := bind_eq_ok_iff.1 written
  obtain ⟨code, code_written, written⟩ := bind_eq_ok_iff.1 written
  cases written
  refine ⟨declarations ++ (actors ++ (events ++ (code ++ []))), by simp, ?_⟩
  apply reads_part declarations_written fun _ => reads_declarations
  apply reads_part actors_written fun _ pieces_written =>
    reads_entries (fun _ _ => reads_actor) .actors pieces_written rfl
  apply reads_part events_written fun _ pieces_written =>
    reads_entries (fun _ _ => reads_event) .events pieces_written rfl
  apply reads_part code_written fun _ => reads_code
  exact .pure program

theorem readBody_of_writeBody {program : Program} {body : List UInt8}
    (written : writeBody program = .ok body) : readBody body = .ok program := by
  obtain ⟨parts, rfl, reads⟩ := reads_program written
  have run := reads magic.length []
  rw [List.append_nil] at run
  unfold readBody
  rw [List.drop_left, run]
  rfl

/-- A program is read back from its image, whatever the digest that seals images. -/
theorem read_of_write {digest : List UInt8 → List UInt8}
    (length_digest : ∀ body, (digest body).length = sealLength) {program : Program}
    {image : List UInt8} (written : writeWith digest program = .ok image) :
    readWith digest image = .ok program := by
  obtain ⟨body, body_written, written⟩ := bind_eq_ok_iff.1 written
  cases written
  obtain ⟨parts, body_eq, _⟩ := reads_program body_written
  have length_eq : (body ++ digest body).length - sealLength = body.length := by
    rw [List.length_append, length_digest, Nat.add_sub_cancel]
  have starts : (body ++ digest body).take magic.length = magic := by
    rw [body_eq, List.append_assoc, List.take_left]
  have long : ¬ (body ++ digest body).length < magic.length + sealLength := by
    rw [List.length_append, length_digest, body_eq, List.length_append]
    omega
  unfold readWith
  dsimp only
  rw [if_neg fun bad => bad.2 starts, if_neg long, length_eq, List.take_left, List.drop_left,
    if_pos rfl]
  exact readBody_of_writeBody body_written

/-- A program with an entry in every part. -/
def sample : Program where
  code := #[7, -1]
  vars := #[{ name := "é", scope := .player, initial := 258, readOnly := true }]
  actors := Table.empty.insert 3 { tick := some 0 }
  events := Table.empty.insert (-2) 1

/-- The body of the image of `sample`. -/
def sampleBody : List UInt8 :=
  magic ++
    [1, 0, 0, 0, 2, 1, 2, 1, 0, 0, 2, 0, 0xC3, 0xA9] ++
    [1, 0, 0, 0, 3, 0, 0, 0, 0, 0, 0, 0, 0xFF, 0xFF, 0xFF, 0xFF] ++
    [1, 0, 0, 0, 0xFE, 0xFF, 0xFF, 0xFF, 1, 0, 0, 0] ++
    [2, 0, 0, 0, 7, 0, 0, 0, 0xFF, 0xFF, 0xFF, 0xFF]

theorem read_sample :
    let image := sampleBody ++ Blake3.digest sampleBody
    write sample = .ok image ∧ read image = .ok sample := by
  have body_written : writeBody sample = .ok sampleBody := by
    cbv
  have written : write sample = .ok (sampleBody ++ Blake3.digest sampleBody) := by
    unfold write writeWith
    rw [body_written]
    rfl
  exact ⟨written, read_of_write Blake3.length_digest written⟩

end ActorScript.Image
