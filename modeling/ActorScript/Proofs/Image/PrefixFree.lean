import ActorScript.Proofs.Image.Canonical

/-!
# Cutting and extending images

A reader looks at no byte behind those that it takes, so on fewer bytes it does the same until
it meets their end.  The body of an image that can be read is therefore no proper prefix of
another: what is cut off is missed, and what is added is left over.
-/

namespace ActorScript.Image

open Reader

/-! ## Readers on fewer bytes -/

/-- A cursor with further bytes behind those that it has. -/
def Cursor.followedBy (cursor : Cursor) (more : List UInt8) : Cursor :=
  ⟨cursor.position, cursor.rest ++ more⟩

/-- Unless a reader meets the end of the bytes, it does the same whatever follows them, and
leaves that unread. -/
def Steady {α : Type} (reader : Reader α) : Prop :=
  ∀ (cursor : Cursor) (more : List UInt8),
    (∃ position, reader.run cursor = .error (.unexpectedEnd position)) ∨
      reader.run (cursor.followedBy more) =
        (reader.run cursor).map fun (value, after) => (value, after.followedBy more)

section Steady

variable {α β : Type}

theorem Steady.pure (value : α) : Steady (Pure.pure value) :=
  fun _ _ => Or.inr rfl

/-- A check does not look at the bytes. -/
theorem Steady.lift (action : Except ReadError α) : Steady (liftM action) := by
  intro cursor more
  cases action with
  | ok value => exact Or.inr rfl
  | error error => exact Or.inr rfl

theorem Steady.throw (error : ReadError) : Steady (throw error : Reader α) :=
  fun _ _ => Or.inr rfl

theorem Steady.bind {reader : Reader α} {next : α → Reader β} (first : Steady reader)
    (second : ∀ value, Steady (next value)) : Steady (reader >>= next) := by
  intro cursor more
  rw [StateT.run_bind, StateT.run_bind]
  rcases first cursor more with ⟨position, ended⟩ | same
  · rw [ended]
    exact Or.inl ⟨position, rfl⟩
  · rw [same]
    cases reader.run cursor with
    | error error => exact Or.inr rfl
    | ok result => exact second result.1 result.2 more

end Steady

theorem steady_position : Steady Reader.position :=
  fun _ _ => Or.inr rfl

theorem run_take {count : Nat} {cursor : Cursor} (enough : count ≤ cursor.rest.length) :
    (take count).run cursor =
      .ok (cursor.rest.take count, ⟨cursor.position + count, cursor.rest.drop count⟩) :=
  if_pos (by simpa using enough)

theorem steady_take (count : Nat) : Steady (take count) := by
  intro cursor more
  by_cases enough : count ≤ cursor.rest.length
  · right
    have still : count ≤ (cursor.followedBy more).rest.length := by
      rw [Cursor.followedBy, List.length_append]
      omega
    rw [run_take enough, run_take still, Cursor.followedBy,
      List.take_append_of_le_length enough, List.drop_append_of_le_length enough]
    rfl
  · left
    have short : (cursor.rest.take count).length ≠ count := by
      rw [List.length_take]
      omega
    exact ⟨cursor.position, if_neg short⟩

theorem steady_number (width : Nat) : Steady (number width) :=
  (steady_take width).bind fun _ => .pure _

theorem steady_word : Steady word :=
  (steady_take 4).bind fun _ => .pure _

/-! ## Fields and parts -/

theorem steady_script : Steady script := by
  apply steady_position.bind
  intro start
  apply steady_word.bind
  intro value
  split
  · exact .pure none
  · split
    · exact .pure _
    · exact .throw _

theorem steady_declaration : Steady declaration := by
  apply (steady_number 1).bind
  intro code
  apply (Steady.lift _).bind
  intro scope
  apply (steady_number 1).bind
  intro flags
  apply steady_word.bind
  intro initial
  apply (steady_number 2).bind
  intro length
  apply steady_position.bind
  intro start
  apply (steady_take length).bind
  intro bytes
  split
  · exact .throw _
  · exact .lift _

theorem steady_actor : Steady actor :=
  steady_word.bind fun _ => steady_script.bind fun _ => steady_script.bind fun _ => .pure _

theorem steady_event : Steady event := by
  apply steady_word.bind
  intro key
  apply steady_position.bind
  intro start
  apply steady_script.bind
  intro offset?
  split
  · exact .pure _
  · exact .throw _

theorem steady_repeatItem {α : Type} {item : Reader α} (steady : Steady item) (count : Nat)
    (items : Array α) : Steady (repeatItem item count items) := by
  induction count generalizing items with
  | zero => exact .pure items
  | succ count ih => exact steady.bind fun next => ih (items.push next)

theorem steady_entries {α : Type} (part : Part) {entry : Reader (Word × α)}
    (steady : Steady entry) (count : Nat) (table : Table α) :
    Steady (entries part entry count table) := by
  induction count generalizing table with
  | zero => exact .pure table
  | succ count ih =>
      apply steady.bind
      rintro ⟨key, value⟩
      dsimp only
      split
      · exact (Steady.throw _).bind fun _ => ih _
      · exact (Steady.pure _).bind fun _ => ih _

theorem steady_program : Steady Reader.program :=
  (steady_number 4).bind fun vars => (steady_repeatItem steady_declaration vars #[]).bind fun _ =>
  (steady_number 4).bind fun actors => (steady_entries .actors steady_actor actors {}).bind fun _ =>
  (steady_number 4).bind fun events => (steady_entries .events steady_event events {}).bind fun _ =>
  (steady_number 4).bind fun code => (steady_repeatItem steady_word code #[]).bind fun _ =>
  .pure _

/-! ## Bodies -/

/-- A part of a body that can be read ends too early. -/
theorem readBody_of_cut {front more : List UInt8} {program : Program} (cut : more ≠ [])
    (accepted : readBody (magic ++ (front ++ more)) = .ok program) :
    ∃ position, readBody (magic ++ front) = .error (.unexpectedEnd position) := by
  obtain ⟨after, run, finished⟩ := program_of_readBody accepted
  rcases steady_program ⟨magic.length, front⟩ more with ⟨position, ended⟩ | same
  · refine ⟨position, ?_⟩
    rw [readBody, List.drop_left, ended]
    rfl
  · -- The reader would not have missed anything, so it would have left the rest unread.
    rw [Cursor.followedBy, run] at same
    cases shorter : Reader.program.run ⟨magic.length, front⟩ with
    | error error =>
        rw [shorter] at same
        cases same
    | ok result =>
        rw [shorter] at same
        cases same
        exact absurd (List.append_eq_nil_iff.1 finished).2 cut

/-- Whatever follows a body that can be read is left over. -/
theorem readBody_of_extended {parts more : List UInt8} {program : Program} (extended : more ≠ [])
    (accepted : readBody (magic ++ parts) = .ok program) :
    readBody (magic ++ (parts ++ more)) = .error (.trailingBytes more.length) := by
  obtain ⟨after, run, finished⟩ := program_of_readBody accepted
  have longer : Reader.program.run ⟨magic.length, parts ++ more⟩ =
      .ok (program, after.followedBy more) := by
    rcases steady_program ⟨magic.length, parts⟩ more with ⟨position, ended⟩ | same
    · rw [run] at ended
      contradiction
    · rw [run] at same
      exact same
  have left : (after.followedBy more).rest = more := by
    rw [Cursor.followedBy, finished, List.nil_append]
  rw [readBody, List.drop_left, longer]
  simp only [bind, Except.bind, left, List.isEmpty_eq_false_iff.2 extended]
  rfl

/-! ## Images -/

/-- Whatever the digest that seals images: when the body of an image that can be read is cut
somewhere behind the magic bytes and sealed again, the image ends in the middle of a field, and
when it is extended and sealed again, all that has been added is left over. -/
theorem sealed_bodies_prefix_free {digest : List UInt8 → List UInt8}
    (length_digest : ∀ body, (digest body).length = sealLength) {image : List UInt8}
    {program : Program} (accepted : readWith digest image = .ok program) :
    let body := image.take (image.length - sealLength)
    (∀ front more, body = front ++ more → more ≠ [] → magic <+: front →
      ∃ position, readWith digest (front ++ digest front) = .error (.unexpectedEnd position)) ∧
    ∀ more, more ≠ [] →
      readWith digest (body ++ more ++ digest (body ++ more)) =
        .error (.trailingBytes more.length) := by
  intro body
  obtain ⟨parts, image_eq, body_read⟩ := exists_body_of_readWith accepted
  have body_eq : body = magic ++ parts := by
    have length_eq : image.length - sealLength = (magic ++ parts).length := by
      rw [image_eq, List.length_append, length_digest, Nat.add_sub_cancel]
    calc
      body = image.take (magic ++ parts).length := by rw [← length_eq]
      _ = magic ++ parts := by rw [image_eq, List.take_left]
  rw [body_eq]
  constructor
  · rintro front more split cut ⟨start, rfl⟩
    rw [List.append_assoc, List.append_cancel_left_eq] at split
    subst split
    rw [readWith_seal length_digest]
    exact readBody_of_cut cut body_read
  · intro more extended
    rw [List.append_assoc magic, readWith_seal length_digest]
    exact readBody_of_extended extended body_read

/-- The image of `sample`, cut in the middle of its second word and extended by two bytes. -/
theorem sealed_bodies_of_sample :
    let image := sampleBody ++ Blake3.digest sampleBody
    let cut := sampleBody.take 57
    read image = .ok sample ∧
      (∃ position, read (cut ++ Blake3.digest cut) = .error (.unexpectedEnd position)) ∧
      read (sampleBody ++ [1, 2] ++ Blake3.digest (sampleBody ++ [1, 2])) =
        .error (.trailingBytes 2) := by
  intro image cut
  have body_read : readBody sampleBody = .ok sample := by
    cbv
  have body_eq : magic ++ sampleBody.drop 4 = sampleBody := rfl
  have accepted : read image = .ok sample := by
    have read_eq := readWith_seal Blake3.length_digest (sampleBody.drop 4)
    rw [body_eq, body_read] at read_eq
    exact read_eq
  obtain ⟨shorter, longer⟩ := sealed_bodies_prefix_free Blake3.length_digest accepted
  have taken : image.take (image.length - sealLength) = sampleBody := by
    have length_eq : image.length - sealLength = sampleBody.length := by
      rw [List.length_append, Blake3.length_digest]
      rfl
    rw [length_eq, List.take_left]
  rw [taken] at shorter longer
  have split : sampleBody = cut ++ sampleBody.drop 57 := (List.take_append_drop 57 _).symm
  exact ⟨accepted, shorter cut _ split (by decide) ⟨cut.drop 4, rfl⟩, longer [1, 2] (by decide)⟩

end ActorScript.Image
