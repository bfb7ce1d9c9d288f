import ActorScript.Trace

/-!
# The trace is closed

A trace accounts for an offset when it holds the instruction there or the fault that
keeps it from being read.  While control flow is followed, whatever an instruction
already met leads to is accounted for or still pending; at the end nothing is pending.
-/

namespace ActorScript.Trace

variable {code : Array Word}

/-- An instruction has been met at an offset, or the reason why there is none. -/
def AccountsFor (code : Array Word) (trace : Trace) (offset : Nat) : Prop :=
  trace.isInstruction offset = true ∨
    ∃ fault ∈ trace.faults, Instruction.decode code offset = .error fault

/-- What an instruction leads to and names has been noted, or is pending. -/
structure Expanded (code : Array Word) (pending : List Nat) (trace : Trace)
    (instruction : Instruction) : Prop where
  target : ∀ offset ∈ targets code instruction, offset ∈ pending ∨ trace.AccountsFor code offset
  stray : ∀ stray ∈ strays code instruction, stray ∈ trace.dangling
  record : ∀ record ∈ instruction.recordRefs code, record ∈ trace.records

/-- Every instruction met has been expanded. -/
def Covers (code : Array Word) (pending : List Nat) (trace : Trace) : Prop :=
  ∀ offset, trace.isInstruction offset = true →
    ∃ instruction, Instruction.decode code offset = .ok instruction ∧
      Expanded code pending trace instruction

/-! ## What noting keeps -/

theorem accountsFor_addFault {trace : Trace} {fault : Instruction.Fault} {offset : Nat}
    (accounts : trace.AccountsFor code offset) :
    (trace.addFault fault).AccountsFor code offset := by
  unfold addFault
  split
  · exact accounts
  · rcases accounts with met | ⟨known, member, unreadable⟩
    · exact Or.inl met
    · exact Or.inr ⟨known, Array.mem_push_of_mem _ member, unreadable⟩

theorem accountsFor_addFault_self {trace : Trace} {fault : Instruction.Fault} {offset : Nat}
    (unreadable : Instruction.decode code offset = .error fault) :
    (trace.addFault fault).AccountsFor code offset := by
  refine Or.inr ⟨fault, ?_, unreadable⟩
  unfold addFault
  split
  · rename_i known
    simpa using known
  · exact Array.mem_push_self

theorem isInstruction_addInstruction {trace : Trace} {instruction : Instruction} {offset : Nat} :
    (trace.addInstruction code instruction).isInstruction offset = true ↔
      offset = instruction.offset ∨ trace.isInstruction offset = true := by
  simp only [addInstruction, isInstruction, Std.TreeMap.contains_insert, Bool.or_eq_true,
    beq_iff_eq, Nat.compare_eq_eq]
  exact or_congr_left eq_comm

theorem mem_dangling_addInstruction {trace : Trace} {instruction : Instruction}
    {stray : Nat × Word} :
    stray ∈ (trace.addInstruction code instruction).dangling ↔
      stray ∈ trace.dangling ∨ stray ∈ strays code instruction := by
  rw [← Array.mem_toList_iff, ← Array.mem_toList_iff]
  simp [addInstruction]

theorem mem_records_addInstruction {trace : Trace} {instruction : Instruction}
    {record : RecordRef} :
    record ∈ (trace.addInstruction code instruction).records ↔
      record ∈ trace.records ∨ record ∈ instruction.recordRefs code := by
  rw [← Array.mem_toList_iff, ← Array.mem_toList_iff]
  simp [addInstruction]

theorem accountsFor_addInstruction {trace : Trace} {instruction : Instruction} {offset : Nat}
    (accounts : trace.AccountsFor code offset) :
    (trace.addInstruction code instruction).AccountsFor code offset := by
  rcases accounts with met | unreadable
  · exact Or.inl (isInstruction_addInstruction.2 (Or.inr met))
  · exact Or.inr unreadable

/-- What has been expanded stays so while pending offsets are taken up. -/
theorem Expanded.mono {pending later : List Nat} {trace grown : Trace}
    {instruction : Instruction} (expanded : Expanded code pending trace instruction)
    (target : ∀ offset, offset ∈ pending ∨ trace.AccountsFor code offset →
      offset ∈ later ∨ grown.AccountsFor code offset)
    (stray : ∀ stray ∈ trace.dangling, stray ∈ grown.dangling)
    (record : ∀ record ∈ trace.records, record ∈ grown.records) :
    Expanded code later grown instruction where
  target offset member := target offset (expanded.target offset member)
  stray found member := stray found (expanded.stray found member)
  record found member := record found (expanded.record found member)

/-! ## Steps of the exploration -/

theorem covers_tail {offset : Nat} {rest : List Nat} {trace : Trace}
    (covers : Covers code (offset :: rest) trace) (known : trace.isInstruction offset = true) :
    Covers code rest trace := by
  intro start met
  obtain ⟨instruction, decoded, expanded⟩ := covers start met
  refine ⟨instruction, decoded, expanded.mono ?_ (fun _ => id) (fun _ => id)⟩
  rintro target (pending | accounted)
  · rcases List.mem_cons.1 pending with rfl | later
    · exact Or.inr (Or.inl known)
    · exact Or.inl later
  · exact Or.inr accounted

theorem covers_addFault {offset : Nat} {rest : List Nat} {trace : Trace}
    {fault : Instruction.Fault} (covers : Covers code (offset :: rest) trace)
    (unreadable : Instruction.decode code offset = .error fault) :
    Covers code rest (trace.addFault fault) := by
  intro start met
  have kept : trace.isInstruction start = true := by
    simpa [isInstruction] using met
  obtain ⟨instruction, decoded, expanded⟩ := covers start kept
  refine ⟨instruction, decoded, expanded.mono ?_ ?_ ?_⟩
  · rintro target (pending | accounted)
    · rcases List.mem_cons.1 pending with rfl | later
      · exact Or.inr (accountsFor_addFault_self unreadable)
      · exact Or.inl later
    · exact Or.inr (accountsFor_addFault accounted)
  · intro stray member
    unfold addFault
    split <;> exact member
  · intro record member
    unfold addFault
    split <;> exact member

theorem covers_addInstruction {offset : Nat} {rest : List Nat} {trace : Trace}
    {instruction : Instruction} (covers : Covers code (offset :: rest) trace)
    (decoded : Instruction.decode code offset = .ok instruction) :
    Covers code ((targets code instruction).reverse ++ rest)
      (trace.addInstruction code instruction) := by
  have here := (Instruction.decode_eq_ok decoded).1
  have added : ∀ target, target ∈ offset :: rest ∨ trace.AccountsFor code target →
      target ∈ (targets code instruction).reverse ++ rest ∨
        (trace.addInstruction code instruction).AccountsFor code target := by
    rintro target (pending | accounted)
    · rcases List.mem_cons.1 pending with rfl | later
      · exact Or.inr (Or.inl (isInstruction_addInstruction.2 (Or.inl here.symm)))
      · exact Or.inl (List.mem_append_right _ later)
    · exact Or.inr (accountsFor_addInstruction accounted)
  intro start met
  rcases isInstruction_addInstruction.1 met with rfl | known
  · rw [here]
    refine ⟨instruction, decoded, ?_, ?_, ?_⟩
    · intro target member
      exact Or.inl (List.mem_append_left _ (List.mem_reverse.2 member))
    · intro stray member
      exact mem_dangling_addInstruction.2 (Or.inr member)
    · intro record member
      exact mem_records_addInstruction.2 (Or.inr member)
  · obtain ⟨other, decoded, expanded⟩ := covers start known
    refine ⟨other, decoded, expanded.mono added ?_ ?_⟩
    · intro stray member
      exact mem_dangling_addInstruction.2 (Or.inl member)
    · intro record member
      exact mem_records_addInstruction.2 (Or.inl member)

/-- At the end of the exploration nothing is pending. -/
theorem covers_explore {pending : List Nat} {trace : Trace}
    (covers : Covers code pending trace) : Covers code [] (explore code pending trace) := by
  fun_induction explore with
  | case1 trace => exact covers
  | case2 trace offset rest known ih => exact ih (covers_tail covers known)
  | case3 trace offset rest _ fault unreadable ih => exact ih (covers_addFault covers unreadable)
  | case4 trace offset rest _ instruction decoded ih =>
      exact ih (covers_addInstruction covers decoded)

/-- The exploration accounts for whatever was pending. -/
theorem accountsFor_explore {pending : List Nat} {trace : Trace} {offset : Nat}
    (known : offset ∈ pending ∨ trace.AccountsFor code offset) :
    (explore code pending trace).AccountsFor code offset := by
  fun_induction explore with
  | case1 trace => exact known.resolve_left List.not_mem_nil
  | case2 trace first rest met ih =>
      apply ih
      rcases known with pending | accounted
      · rcases List.mem_cons.1 pending with rfl | later
        · exact Or.inr (Or.inl met)
        · exact Or.inl later
      · exact Or.inr accounted
  | case3 trace first rest _ fault unreadable ih =>
      apply ih
      rcases known with pending | accounted
      · rcases List.mem_cons.1 pending with rfl | later
        · exact Or.inr (accountsFor_addFault_self unreadable)
        · exact Or.inl later
      · exact Or.inr (accountsFor_addFault accounted)
  | case4 trace first rest _ instruction decoded ih =>
      apply ih
      rcases known with pending | accounted
      · rcases List.mem_cons.1 pending with rfl | later
        · have here := (Instruction.decode_eq_ok decoded).1
          exact Or.inr (Or.inl (isInstruction_addInstruction.2 (Or.inl here.symm)))
        · exact Or.inl (List.mem_append_right _ later)
      · exact Or.inr (accountsFor_addInstruction accounted)

/-! ## The trace of a stream -/

theorem covers_trace (roots : List Nat) : Covers code [] (trace code roots) := by
  apply covers_explore
  intro offset met
  simp [isInstruction] at met

theorem accountsFor_root {roots : List Nat} {offset : Nat} (root : offset ∈ roots) :
    (trace code roots).AccountsFor code offset :=
  accountsFor_explore (Or.inl (List.mem_reverse.2 root))

/-! ## Only what control flow leads to -/

/-- Control flow leads from one of the roots to an offset. -/
inductive Reachable (code : Array Word) (roots : List Nat) : Nat → Prop
  | root {offset : Nat} (member : offset ∈ roots) : Reachable code roots offset
  | target {source offset : Nat} {instruction : Instruction}
      (reachable : Reachable code roots source)
      (decoded : Instruction.decode code source = .ok instruction)
      (member : offset ∈ targets code instruction) : Reachable code roots offset

/-- The trace accounts for every reachable offset. -/
theorem accountsFor_of_reachable {roots : List Nat} {offset : Nat}
    (reachable : Reachable code roots offset) : (trace code roots).AccountsFor code offset := by
  induction reachable with
  | root member => exact accountsFor_root member
  | @target source offset instruction _ decoded member ih =>
      rcases ih with met | ⟨fault, _, unreadable⟩
      · obtain ⟨same, same_decoded, expanded⟩ := covers_trace roots source met
        rw [decoded] at same_decoded
        cases same_decoded
        exact (expanded.target offset member).resolve_left List.not_mem_nil
      · rw [decoded] at unreadable
        contradiction

/-- The instructions met while following reachable offsets are reachable. -/
theorem reachable_of_explore {roots pending : List Nat} {trace : Trace} {offset : Nat}
    (waiting : ∀ offset ∈ pending, Reachable code roots offset)
    (known : ∀ offset, trace.isInstruction offset = true → Reachable code roots offset)
    (met : (explore code pending trace).isInstruction offset = true) :
    Reachable code roots offset := by
  fun_induction explore with
  | case1 trace => exact known offset met
  | case2 trace first rest _ ih =>
      exact ih (List.forall_mem_cons.1 waiting).2 known met
  | case3 trace first rest _ fault _ ih =>
      refine ih (List.forall_mem_cons.1 waiting).2 ?_ met
      intro offset noted
      exact known offset (by simpa [isInstruction] using noted)
  | case4 trace first rest _ instruction decoded ih =>
      obtain ⟨here, later⟩ := List.forall_mem_cons.1 waiting
      refine ih ?_ ?_ met
      · intro offset member
        rcases List.mem_append.1 member with target | pending
        · exact .target here decoded (List.mem_reverse.1 target)
        · exact later offset pending
      · intro offset noted
        rcases isInstruction_addInstruction.1 noted with rfl | noted
        · rw [(Instruction.decode_eq_ok decoded).1]
          exact here
        · exact known offset noted

theorem reachable_of_isInstruction {roots : List Nat} {offset : Nat}
    (met : (trace code roots).isInstruction offset = true) : Reachable code roots offset := by
  refine reachable_of_explore ?_ ?_ met
  · intro root member
    exact .root (List.mem_reverse.1 member)
  · intro offset noted
    simp [isInstruction] at noted

/-- A trace holds the length of every instruction that it has met. -/
def Measures (code : Array Word) (trace : Trace) : Prop :=
  ∀ offset length, trace.starts[offset]? = some length →
    ∃ instruction, Instruction.decode code offset = .ok instruction ∧
      instruction.length = length

theorem measures_explore {pending : List Nat} {trace : Trace} (measures : Measures code trace) :
    Measures code (explore code pending trace) := by
  fun_induction explore with
  | case1 trace => exact measures
  | case2 trace first rest _ ih => exact ih measures
  | case3 trace first rest _ fault _ ih =>
      apply ih
      intro offset length noted
      exact measures offset length (by simpa using noted)
  | case4 trace first rest _ instruction decoded ih =>
      apply ih
      intro offset length noted
      simp only [addInstruction, Std.TreeMap.getElem?_insert, Nat.compare_eq_eq] at noted
      split at noted
      · rename_i same
        cases noted
        rw [← same, (Instruction.decode_eq_ok decoded).1]
        exact ⟨instruction, decoded, rfl⟩
      · exact measures offset length noted

/-- The lengths in a trace are those of its instructions. -/
theorem measures_trace (roots : List Nat) : Measures code (trace code roots) := by
  apply measures_explore
  intro offset length noted
  simp at noted

end ActorScript.Trace
