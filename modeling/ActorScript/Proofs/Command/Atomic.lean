import ActorScript.Proofs.Command.Interchange
import ActorScript.Proofs.Image.Fitting

/-!
# Commands are carried out as a whole

A command that fails has printed nothing and has left every file as it was.  For `verify`,
which prints its line before it asks for the digest, this means that a program without findings
has an image.  What the verifier leaves open is the number of actor kinds, which is bounded by
the lines of a text, as every entry takes up a line of its own.
-/

namespace ActorScript

/-! ## Programs of images -/

namespace Image

/-- A program that was read from an image has an image. -/
theorem exists_write_of_read {image : List UInt8} {program : Program}
    (accepted : read image = .ok program) : ∃ canonical, write program = .ok canonical := by
  obtain ⟨parts, rfl, body_read⟩ := exists_body_of_readWith accepted
  obtain ⟨after, run, _⟩ := program_of_readBody body_read
  obtain ⟨listing, bytes, lists, written, _⟩ := listing_of_program run
  obtain ⟨reordered, reordered_written, _⟩ := write_ofProgram lists written
  exact ⟨_, bind_eq_ok_iff.2 ⟨_, writeBody_of_write reordered_written, rfl⟩⟩

end Image

/-! ## The actor kinds of a text -/

/-- The pieces between separators have no more characters than the text, so no more of them have
any. -/
theorem Text.countP_splitWhen_le (separates : Char → Bool) (text : List Char) :
    (splitWhen separates text).countP (fun piece => !piece.isEmpty) ≤ text.length := by
  induction text with
  | nil => rfl
  | cons char rest ih =>
      rw [splitWhen_cons, List.length_cons]
      split
      · simpa using ih.trans (Nat.le_succ _)
      · cases pieces_eq : splitWhen separates rest with
        | nil => simp [pushFirst]
        | cons piece pieces =>
            rw [pieces_eq] at ih
            simp only [pushFirst, List.countP_cons] at ih ⊢
            simp
            omega

theorem length_le_utf8ByteSize (text : String) : text.toList.length ≤ text.utf8ByteSize := by
  have whole : ∀ chars : List Char, chars.length ≤ String.utf8Len chars := by
    intro chars
    induction chars with
    | nil => exact Nat.zero_le _
    | cons char rest ih =>
        have present := char.utf8Size_pos
        rw [String.utf8Len_cons, List.length_cons]
        omega
  calc
    text.toList.length ≤ String.utf8Len text.toList := whole _
    _ = text.utf8ByteSize := by rw [← String.utf8ByteSize_ofList, String.ofList_toList]

/-- A text has no more characters than bytes. -/
theorem length_le_of_textOf {content : List UInt8} {text : String}
    (decoded : textOf content = .ok text) : text.toList.length ≤ content.length := by
  unfold textOf at decoded
  split at decoded
  · rename_i valid
    cases decoded
    rw [← Image.toUTF8_of_fromUTF8? valid, Image.length_toUTF8]
    exact length_le_utf8ByteSize _
  · contradiction

namespace Assembly

/-- Every actor kind takes up a line of its own. -/
theorem length_actors_le {lines : List Line} :
    (actors lines).length ≤ lines.countP (fun line => line.item.isSome) := by
  rw [actors, List.length_filterMap_eq_countP]
  apply List.countP_mono_left
  rintro ⟨label, item⟩ _ given
  cases item with
  | none => contradiction
  | some item => rfl

/-- An empty line says nothing. -/
theorem not_isEmpty_of_read {text : List Char} {line : Line} (read : Line.read text = .ok line)
    (present : line.item.isSome = true) : (!text.isEmpty) = true := by
  cases text with
  | nil =>
      cases read
      contradiction
  | cons _ _ => rfl

/-- A text has no more actor kinds than characters. -/
theorem actors_size_le_of_assemble {text : String} {program : Program}
    (assembles : assemble text = .ok program) :
    program.actors.size ≤ text.toList.length := by
  obtain ⟨lines, read, resolvable, rfl⟩ := assemble_eq_ok_iff.1 assembles
  calc
    (described lines).actors.size
      = (actors lines).length := Table.size_ofList resolvable.actors_nodup
    _ ≤ lines.countP (fun line => line.item.isSome) := length_actors_le
    _ ≤ (Text.lines text.toList).countP (fun source => !source.isEmpty) :=
        countP_le_of_mapM (fun _ _ parsed present => not_isEmpty_of_read parsed present) read
    _ ≤ text.toList.length := Text.countP_splitWhen_le _ _

end Assembly

namespace Command

/-- The file from which a command takes its program or text. -/
def input : Command → String
  | assemble input _ | disassemble input | verify input | run input _ _ _ => input

/-- A program that a command has read and that is verified has a digest. -/
theorem exists_digest {read : Reader} {path : String} {program : Program}
    (readable : readProgram read path = .ok program) (verified : program.Verified)
    (small : ∀ content, read path = .ok content → content.length < 2 ^ 32) :
    ∃ digest, Image.digest program = .ok digest := by
  obtain ⟨image, written⟩ : ∃ image, Image.write program = .ok image := by
    unfold readProgram at readable
    split at readable
    · contradiction
    rename_i content content_eq
    have short := small content content_eq
    unfold programOf at readable
    split at readable
    · split at readable <;> cases readable
      exact Image.exists_write_of_read ‹_›
    · split at readable
      · contradiction
      rename_i text decoded
      unfold assembleText at readable
      split at readable <;> cases readable
      have actors := Assembly.actors_size_le_of_assemble ‹_›
      have chars := length_le_of_textOf decoded
      have below : text.toList.length ≤ Image.maxCount := by
        rw [Image.maxCount]
        omega
      obtain ⟨image, written, _⟩ := Image.isWritten_iff.2 (verified.fits (actors.trans below))
      exact ⟨image, written⟩
  exact ⟨_, bind_eq_ok_iff.2 ⟨image, written, rfl⟩⟩

/-- What a command has come to without an error is a success. -/
theorem code_of_attempt {read : Reader} {command : Command} {response : Response}
    (attempted : command.attempt read = .ok (.finished response))
    (small : ∀ content, read command.input = .ok content → content.length < 2 ^ 32) :
    response.code = 0 := by
  cases command with
  | assemble input output =>
      obtain ⟨_, _, _, _, _, _, _, _, impossible⟩ := assembled_eq_ok attempted
      contradiction
  | disassemble input =>
      obtain ⟨program, _, ⟨⟩⟩ := bind_eq_ok_iff.1 attempted
      rfl
  | verify input =>
      obtain ⟨program, readable, attempted⟩ := bind_eq_ok_iff.1 attempted
      obtain ⟨_, checked, ⟨⟩⟩ := bind_eq_ok_iff.1 attempted
      have accepted : program.Verified := by
        unfold check at checked
        split at checked
        · assumption
        · contradiction
      obtain ⟨digest, digest_eq⟩ := exists_digest readable accepted small
      rw [verified, digest_eq]
  | run input scenario config json =>
      obtain ⟨program, readable, attempted⟩ := bind_eq_ok_iff.1 attempted
      obtain ⟨_, checked, attempted⟩ := bind_eq_ok_iff.1 attempted
      obtain ⟨settings, _, attempted⟩ := bind_eq_ok_iff.1 attempted
      split at attempted <;> cases attempted
      rfl

/-- A command that fails has printed nothing and has left every file as it was. -/
theorem execute_of_failed {files after : Files} {command : Command} {response : Response}
    (executed : execute files command = (response, after))
    (small : ∀ content, files.read command.input = .ok content → content.length < 2 ^ 32)
    (failed : response.code ≠ 0) : response.stdout = "" ∧ after = files := by
  rw [execute, result] at executed
  cases attempted : command.attempt files.read with
  | error failure =>
      rw [attempted] at executed
      cases executed
      exact ⟨rfl, rfl⟩
  | ok result =>
      rw [attempted] at executed
      cases result with
      | finished answer =>
          cases executed
          exact absurd (code_of_attempt attempted small) failed
      | image path words content =>
          dsimp only at executed
          split at executed <;> cases executed
          · exact ⟨rfl, rfl⟩
          · contradiction

/-- The bytes of the text `.event 0 1`, a handler behind an empty stream. -/
def strayText : List UInt8 :=
  [0x2E, 0x65, 0x76, 0x65, 0x6E, 0x74, 0x20, 0x30, 0x20, 0x31]

/-- To verify a program with an entry outside its stream fails. -/
theorem execute_strayText :
    ∃ response after, execute (withText strayText) (.verify "a") = (response, after) ∧
      response.code ≠ 0 ∧ response.stdout = "" ∧ after = withText strayText := by
  have decoded : textOf strayText = .ok ".event 0 1" := by
    cbv
  have assembles :
      Assembly.assemble ".event 0 1" = .ok { events := Table.empty.insert 0 1 } := by
    cbv
  have readable : readProgram (withText strayText).read "a" =
      .ok { events := Table.empty.insert 0 1 } := by
    rw [readProgram, read_withText]
    exact programOf_text (by decide) decoded assembles "a"
  have refused : check { events := Table.empty.insert 0 1 } =
      .error (.unverified [.entryOutOfRange (.event 0) 1]) := by
    cbv
  have executed := execute_of_readProgram readable .verify
  have code_eq : (Reading.verify.respond (withText strayText).read "a"
      { events := Table.empty.insert 0 1 }).code ≠ 0 := by
    simp only [Reading.respond, Reading.complete, refused]
    exact code_ne_zero _
  refine ⟨_, _, executed, code_eq, execute_of_failed executed ?_ code_eq⟩
  intro content content_eq
  cases content_eq.symm.trans (read_withText strayText)
  decide

end Command

end ActorScript
