import ActorScript.Command
import ActorScript.Proofs.Files
import ActorScript.Proofs.Image.Canonical

/-!
# Texts and images as input

A command that reads a program takes a text or the image that was assembled from it, and
answers alike: both lead to one program, and what a command does with a program depends on
its path only where the path is displayed.  A text that starts like an image is the
exception, since it is taken for one.
-/

namespace ActorScript

/-! ## Answers about two paths -/

/-- Two texts that say the same, one about the first path and one about the second. -/
inductive SameWording (first second : String) : String → String → Prop
  | text (text : String) : SameWording first second text text
  | path : SameWording first second first second
  | append {left right left' right' : String} : SameWording first second left right →
      SameWording first second left' right' →
      SameWording first second (left ++ left') (right ++ right')

/-- What follows on both sides is no path. -/
theorem SameWording.followed {first second left right : String}
    (same : SameWording first second left right) (text : String) :
    SameWording first second (left ++ text) (right ++ text) :=
  same.append (.text text)

/-- Two responses that are the same but for the path that they display. -/
structure SameResponse (first second : String) (left right : Response) : Prop where
  code : left.code = right.code
  stdout : SameWording first second left.stdout right.stdout
  stderr : SameWording first second left.stderr right.stderr

theorem SameResponse.refl (first second : String) (response : Response) :
    SameResponse first second response response :=
  ⟨rfl, .text _, .text _⟩

namespace Command

/-- The commands that read a program, without the path of the program. -/
inductive Reading where
  | disassemble
  | verify
  | run (scenario : Scenario) (config : Option String) (json : Bool)
deriving DecidableEq, Repr

/-- The command that reads the program at a path. -/
def Reading.of (input : String) : Reading → Command
  | disassemble => .disassemble input
  | verify => .verify input
  | run scenario config json => .run input scenario config json

/-! ## What a command does with its program -/

/-- The response to a simulation. -/
def simulated (scenario : Scenario) (session : Session) (json : Bool) : Except Failure Response :=
  match scenario.simulate session with
  | .error error => .error (.stopped error)
  | .ok report => .ok { stdout := reportText json report }

/-- What is left of a command when its program has been read. -/
def Reading.complete (reading : Reading) (read : Reader) (input : String) (program : Program) :
    Except Failure Response :=
  match reading with
  | disassemble => .ok { stdout := Assembly.disassemble program }
  | verify => do
      check program
      return verified input program
  | run scenario config json => do
      check program
      let config ← readConfig read config
      simulated scenario { program, config } json

theorem attempt_of_readProgram {read : Reader} {input : String} {program : Program}
    (readable : readProgram read input = .ok program) (reading : Reading) :
    attempt read (reading.of input) = (reading.complete read input program).map .finished := by
  cases reading with
  | disassemble =>
      simp only [Reading.of, attempt, readable]
      rfl
  | verify =>
      simp only [Reading.of, attempt, readable, Reading.complete, bind, Except.bind]
      cases check program <;> rfl
  | run scenario config json =>
      simp only [Reading.of, attempt, readable, Reading.complete, bind, Except.bind]
      cases check program with
      | error failure => rfl
      | ok _ =>
          cases readConfig read config with
          | error failure => rfl
          | ok config =>
              dsimp only
              unfold simulated
              cases scenario.simulate { program, config } <;> rfl

/-- The response to what is left of a command. -/
def Reading.respond (reading : Reading) (read : Reader) (input : String) (program : Program) :
    Response :=
  match reading.complete read input program with
  | .ok response => response
  | .error failure => failure.response

/-- A command that has read its program finishes without writing a file. -/
theorem execute_of_readProgram {files : Files} {input : String} {program : Program}
    (readable : readProgram files.read input = .ok program) (reading : Reading) :
    execute files (reading.of input) = (reading.respond files.read input program, files) := by
  rw [execute, result, attempt_of_readProgram readable, Reading.respond]
  cases reading.complete files.read input program <;> rfl

theorem okLine_same (first second : String) (program : Program) :
    SameWording first second (okLine first program) (okLine second program) := by
  have opening : SameWording first second ("OK: " ++ first) ("OK: " ++ second) :=
    .append (.text _) .path
  have counted := (((((opening.followed " (").followed (toString program.code.size)).followed
    " words, ").followed (toString program.actors.size)).followed " actor kinds, ")
  exact (counted.append (.text _)).followed "\n"

/-- A response depends on the path of its program only where it is displayed. -/
theorem respond_same (reading : Reading) (read : Reader) (first second : String)
    (program : Program) :
    SameResponse first second (reading.respond read first program)
      (reading.respond read second program) := by
  cases reading with
  | disassemble => exact .refl _ _ _
  | run scenario config json => exact .refl _ _ _
  | verify =>
      simp only [Reading.respond, Reading.complete, bind, Except.bind]
      cases check program with
      | error failure => exact .refl _ _ _
      | ok _ =>
          have ok_same := okLine_same first second program
          change SameResponse first second (verified first program) (verified second program)
          unfold verified
          cases Image.digest program with
          | error error => exact ⟨rfl, ok_same, .text _⟩
          | ok digest => exact ⟨rfl, ok_same.append (.text _), .text _⟩

/-! ## Assembling -/

theorem code_ne_zero (failure : Failure) : failure.response.code ≠ 0 := by
  cases failure <;> exact Nat.succ_ne_zero _

/-- What has to succeed before an image is written. -/
theorem assembled_eq_ok {read : Reader} {input : String} {output : Option String}
    {result : Result} (succeeds : assembled read input output = .ok result) :
    ∃ content text program image, read input = .ok content ∧ textOf content = .ok text ∧
      Assembly.assemble text = .ok program ∧ Image.write program = .ok image ∧
      result = .image (output.getD (imagePath input)) program.code.size image := by
  obtain ⟨text, text_read, succeeds⟩ := bind_eq_ok_iff.1 succeeds
  obtain ⟨program, assembles, succeeds⟩ := bind_eq_ok_iff.1 succeeds
  unfold readText at text_read
  unfold assembleText at assembles
  split at text_read
  · contradiction
  rename_i content readable
  split at text_read <;> cases text_read
  split at assembles <;> cases assembles
  split at succeeds <;> cases succeeds
  exact ⟨content, _, _, _, readable, by assumption, by assumption, by assumption, rfl⟩

/-- An assembled text was read, and its image has been written. -/
theorem assembled_of_execute {files after : Files} {input : String} {output : Option String}
    {answer : Response}
    (executed : execute files (.assemble input output) = (answer, after))
    (succeeds : answer.code = 0) :
    ∃ content text program image, files.read input = .ok content ∧ textOf content = .ok text ∧
      Assembly.assemble text = .ok program ∧ Image.write program = .ok image ∧
      files.write (output.getD (imagePath input)) image = .ok after := by
  rw [execute, result, attempt] at executed
  cases attempted : assembled files.read input output with
  | error failure =>
      rw [attempted] at executed
      cases executed
      exact absurd succeeds (code_ne_zero failure)
  | ok result =>
      obtain ⟨content, text, program, image, readable, decoded, assembles, encoded, rfl⟩ :=
        assembled_eq_ok attempted
      rw [attempted] at executed
      cases written_eq : files.write (output.getD (imagePath input)) image with
      | error error =>
          simp only [written_eq] at executed
          cases executed
          exact absurd succeeds (code_ne_zero _)
      | ok files' =>
          simp only [written_eq] at executed
          cases executed
          exact ⟨content, text, program, image, readable, decoded, assembles, encoded, written_eq⟩

theorem execute_assemble {files after : Files} {input text : String} {output : Option String}
    {content image : List UInt8} {program : Program} (readable : files.read input = .ok content)
    (decoded : textOf content = .ok text) (assembles : Assembly.assemble text = .ok program)
    (encoded : Image.write program = .ok image)
    (stored : files.write (output.getD (imagePath input)) image = .ok after) :
    execute files (.assemble input output) =
      (written (output.getD (imagePath input)) program.code.size image, after) := by
  have text_read : readText files.read input = .ok text := by
    rw [readText, readable]
    dsimp only
    rw [decoded]
  have text_assembles : assembleText input text = .ok program := by
    rw [assembleText, assembles]
  have succeeds : assembled files.read input output =
      .ok (.image (output.getD (imagePath input)) program.code.size image) := by
    refine bind_eq_ok_iff.2 ⟨text, text_read, bind_eq_ok_iff.2 ⟨program, text_assembles, ?_⟩⟩
    rw [encoded]
    rfl
  rw [execute, result, attempt, succeeds]
  dsimp only
  rw [stored]

/-! ## The two inputs -/

/-- The image of a program is recognized and read. -/
theorem programOf_image {program : Program} {image : List UInt8}
    (encoded : Image.write program = .ok image) (path : String) :
    programOf path image = .ok program := by
  obtain ⟨body, body_written, written⟩ := bind_eq_ok_iff.1 encoded
  obtain ⟨parts, rfl, _⟩ := Image.reads_program body_written
  cases written
  have starts : (Image.magic ++ parts ++ Blake3.digest (Image.magic ++ parts)).take
      Image.magic.length = Image.magic := by
    rw [List.append_assoc, List.take_left]
  rw [programOf, if_pos starts, Image.read, Image.readWith_seal Blake3.length_digest,
    Image.readBody_of_writeBody body_written]

/-- A text that does not start like an image is assembled. -/
theorem programOf_text {content : List UInt8} {text : String} {program : Program}
    (plain : content.take Image.magic.length ≠ Image.magic) (decoded : textOf content = .ok text)
    (assembles : Assembly.assemble text = .ok program) (path : String) :
    programOf path content = .ok program := by
  rw [programOf, if_neg plain, decoded]
  dsimp only
  rw [assembleText, assembles]

/-- Behind an assembly, a text that does not start like an image and its image are
interchangeable as input. -/
theorem text_and_image_interchange {files after : Files} {input : String}
    {output : Option String} {answer : Response}
    (executed : execute files (.assemble input output) = (answer, after))
    (succeeds : answer.code = 0)
    (plain : ∀ content, files.read input = .ok content →
      content.take Image.magic.length ≠ Image.magic) (reading : Reading) :
    let image := output.getD (imagePath input)
    let ofText := (execute after (reading.of input)).1
    let ofImage := (execute after (reading.of image)).1
    SameResponse input image ofText ofImage ∧ (reading ≠ .verify → ofText = ofImage) := by
  obtain ⟨content, text, program, image, readable, decoded, assembles, encoded, written⟩ :=
    assembled_of_execute executed succeeds
  have image_read : readProgram after.read (output.getD (imagePath input)) = .ok program := by
    rw [readProgram, Files.read_write written]
    exact programOf_image encoded _
  have text_read : readProgram after.read input = .ok program := by
    rw [readProgram]
    -- The image may have been written over the text.
    rcases Files.read_behind_write written readable with kept | replaced
    · rw [kept]
      exact programOf_text (plain content readable) decoded assembles input
    · rw [replaced]
      exact programOf_image encoded input
  dsimp only
  rw [execute_of_readProgram text_read, execute_of_readProgram image_read]
  refine ⟨respond_same reading _ _ _ program, ?_⟩
  intro no_path
  cases reading with
  | verify => contradiction
  | disassemble => rfl
  | run scenario config json => rfl

/-- A working directory with one text. -/
def withText (content : List UInt8) : Files :=
  ⟨[(["a"], content)]⟩

theorem read_withText (content : List UInt8) : (withText content).read "a" = .ok content := by
  cbv

/-- A text that can be assembled is assembled into a file beside it. -/
theorem execute_withText {content image : List UInt8} {text : String} {program : Program}
    (decoded : textOf content = .ok text) (assembles : Assembly.assemble text = .ok program)
    (encoded : Image.write program = .ok image) :
    ∃ after, execute (withText content) (.assemble "a" (some "b")) =
        (written "b" program.code.size image, after) ∧
      (withText content).write "b" image = .ok after ∧ after.read "a" = .ok content := by
  have found : (withText content).find "b" = .ok (.vacant ["b"]) := by
    cbv
  have stored : (withText content).write "b" image = .ok ((withText content).put ["b"] image) :=
    Files.write_eq_ok_iff.2 ⟨_, ["b"], found, rfl, rfl⟩
  refine ⟨_, execute_assemble (read_withText content) decoded assembles encoded stored, stored, ?_⟩
  cbv

/-- The bytes of the text `.data 7`. -/
def dataText : List UInt8 :=
  [0x2E, 0x64, 0x61, 0x74, 0x61, 0x20, 0x37]

theorem interchange_data :
    ∃ answer after, execute (withText dataText) (.assemble "a" (some "b")) = (answer, after) ∧
      answer.code = 0 ∧ dataText.take Image.magic.length ≠ Image.magic ∧
      ∀ reading : Reading, SameResponse "a" "b"
        (execute after (reading.of "a")).1 (execute after (reading.of "b")).1 := by
  have decoded : textOf dataText = .ok ".data 7" := by
    cbv
  have assembles : Assembly.assemble ".data 7" = .ok { code := #[7] } := by
    cbv
  obtain ⟨body, body_written⟩ : ∃ body, Image.writeBody { code := #[7] } = .ok body :=
    ⟨[0x41, 0x56, 0x4D, 0x31, 0, 0, 0, 0, 0, 0, 0, 0, 0, 0, 0, 0, 1, 0, 0, 0, 7, 0, 0, 0], by cbv⟩
  have encoded : Image.write { code := #[7] } = .ok (body ++ Blake3.digest body) :=
    bind_eq_ok_iff.2 ⟨body, body_written, rfl⟩
  have starts : dataText.take Image.magic.length ≠ Image.magic := by
    decide
  have plain : ∀ content, (withText dataText).read "a" = .ok content →
      content.take Image.magic.length ≠ Image.magic := by
    intro content readable
    rw [read_withText] at readable
    cases readable
    exact starts
  obtain ⟨after, executed, _⟩ := execute_withText decoded assembles encoded
  exact ⟨_, after, executed, rfl, starts,
    fun reading => (text_and_image_interchange executed rfl plain reading).1⟩

/-- The bytes of the text `AVM1:`, which defines a label. -/
def magicText : List UInt8 :=
  [0x41, 0x56, 0x4D, 0x31, 0x3A]

/-- A text that starts like an image is assembled, but it is taken for a broken image where
its own image is read. -/
theorem not_forall_interchange :
    ¬ ∀ (files after : Files) (input : String) (output : Option String) (answer : Response)
      (reading : Reading), execute files (.assemble input output) = (answer, after) →
      answer.code = 0 →
      SameResponse input (output.getD (imagePath input)) (execute after (reading.of input)).1
        (execute after (reading.of (output.getD (imagePath input)))).1 := by
  intro interchange
  have decoded : textOf magicText = .ok "AVM1:" := by
    cbv
  have assembles : Assembly.assemble "AVM1:" = .ok {} := by
    cbv
  obtain ⟨body, body_written⟩ : ∃ body, Image.writeBody {} = .ok body :=
    ⟨[0x41, 0x56, 0x4D, 0x31, 0, 0, 0, 0, 0, 0, 0, 0, 0, 0, 0, 0, 0, 0, 0, 0], by cbv⟩
  have encoded : Image.write {} = .ok (body ++ Blake3.digest body) :=
    bind_eq_ok_iff.2 ⟨body, body_written, rfl⟩
  obtain ⟨after, executed, stored, kept⟩ := execute_withText decoded assembles encoded
  have image_read : readProgram after.read "b" = .ok {} := by
    rw [readProgram, Files.read_write stored]
    exact programOf_image encoded "b"
  have text_read : readProgram after.read "a" =
      .error (.undecodable "a" (.unexpectedEnd 5)) := by
    rw [readProgram, kept]
    rfl
  have same := (interchange _ after "a" (some "b") _ .disassemble executed rfl).code
  have text_code : (execute after (Reading.disassemble.of "a")).1.code = 1 := by
    rw [execute, result, Reading.of, attempt, text_read]
    rfl
  have image_code : (execute after (Reading.disassemble.of "b")).1.code = 0 := by
    rw [execute_of_readProgram image_read]
    rfl
  rw [text_code] at same
  exact absurd (same.trans image_code) (by decide)

end Command

end ActorScript
