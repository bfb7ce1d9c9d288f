import ActorScript.Proofs.Trace
import Mathlib.Data.List.Perm.Basic

/-!
# The trace is exactly what can be reached

A trace holds the instructions that it has met in some order, each once, and with each of them
its targets outside the stream and the records that it names.  The offsets that it accounts for
are those to which control flow leads, so at the end these are the instructions and the faults
at the reachable offsets, no more and no less.  The order of the roots decides only the order in
which they are met.
-/

namespace ActorScript.Trace

variable {code : Array Word} {roots : List Nat}

/-- Control flow leads from one of the roots to an instruction. -/
def ReachableInstruction (code : Array Word) (roots : List Nat) (instruction : Instruction) :
    Prop :=
  Reachable code roots instruction.offset ∧
    Instruction.decode code instruction.offset = .ok instruction

/-- A trace holds what the roots lead to, and nothing else. -/
structure Exact (code : Array Word) (roots : List Nat) (trace : Trace) : Prop where
  starts : ∀ offset length, trace.starts[offset]? = some length ↔
    ∃ instruction, ReachableInstruction code roots instruction ∧
      instruction.offset = offset ∧ instruction.length = length
  nodup_faults : trace.faults.toList.Nodup
  faults : ∀ fault, fault ∈ trace.faults ↔
    ∃ offset, Reachable code roots offset ∧ Instruction.decode code offset = .error fault
  /-- The targets outside the stream and the records are those of the reachable instructions,
  gone through in some order, each of them once. -/
  expansions : ∃ met : List Instruction, met.Nodup ∧
    (∀ instruction, instruction ∈ met ↔ ReachableInstruction code roots instruction) ∧
    trace.dangling.toList = met.flatMap (fun instruction =>
      ((instruction.successors code).filter fun target => (inStream? code target).isNone).map
        fun target => (instruction.offset, target)) ∧
    trace.records.toList = met.flatMap (Instruction.recordRefs code)

/-- Two traces hold the same, in whatever order they have met it. -/
structure Agrees (first second : Trace) : Prop where
  starts : first.starts.toList = second.starts.toList
  faults : first.faults.toList.Perm second.faults.toList
  dangling : first.dangling.toList.Perm second.dangling.toList
  records : first.records.toList.Perm second.records.toList

/-! ## The instructions met -/

/-- The instructions that a trace has met, in the order in which it met them. -/
structure Lists (code : Array Word) (trace : Trace) (met : List Instruction) : Prop where
  nodup : met.Nodup
  mem_iff : ∀ instruction, instruction ∈ met ↔
    trace.isInstruction instruction.offset = true ∧
      Instruction.decode code instruction.offset = .ok instruction
  dangling_eq : trace.dangling.toList = met.flatMap (strays code)
  records_eq : trace.records.toList = met.flatMap (Instruction.recordRefs code)

theorem lists_empty : Lists code {} [] where
  nodup := List.nodup_nil
  mem_iff instruction := by simp [isInstruction]
  dangling_eq := rfl
  records_eq := rfl

theorem Lists.addFault {trace : Trace} {met : List Instruction} (lists : Lists code trace met)
    (fault : Instruction.Fault) : Lists code (trace.addFault fault) met := by
  unfold Trace.addFault
  split
  · exact lists
  · exact ⟨lists.nodup, lists.mem_iff, lists.dangling_eq, lists.records_eq⟩

theorem Lists.addInstruction {trace : Trace} {met : List Instruction} {offset : Nat}
    {instruction : Instruction} (lists : Lists code trace met)
    (fresh : ¬ trace.isInstruction offset = true)
    (decoded : Instruction.decode code offset = .ok instruction) :
    Lists code (trace.addInstruction code instruction) (met ++ [instruction]) := by
  obtain rfl := (Instruction.decode_eq_ok decoded).1
  constructor
  · rw [List.nodup_append]
    refine ⟨lists.nodup, List.pairwise_singleton _ _, ?_⟩
    rintro earlier member last listed rfl
    rw [List.mem_singleton.1 listed] at member
    exact fresh ((lists.mem_iff instruction).1 member).1
  · intro other
    rw [List.mem_append, List.mem_singleton, lists.mem_iff, isInstruction_addInstruction]
    constructor
    · rintro (⟨met, readable⟩ | rfl)
      · exact ⟨Or.inr met, readable⟩
      · exact ⟨Or.inl rfl, decoded⟩
    · rintro ⟨same | met, readable⟩
      · rw [same, decoded] at readable
        exact Or.inr (Except.ok.inj readable).symm
      · exact Or.inl ⟨met, readable⟩
  · simp [Trace.addInstruction, lists.dangling_eq]
  · simp [Trace.addInstruction, lists.records_eq]

theorem exists_lists_explore (pending : List Nat) {trace : Trace} {met : List Instruction}
    (lists : Lists code trace met) : ∃ all, Lists code (explore code pending trace) all := by
  fun_induction explore generalizing met with
  | case1 trace => exact ⟨met, lists⟩
  | case2 trace first rest _ ih => exact ih lists
  | case3 trace first rest _ fault _ ih => exact ih (lists.addFault fault)
  | case4 trace first rest fresh instruction decoded ih =>
      exact ih (lists.addInstruction fresh decoded)

/-! ## The faults met -/

theorem mem_addFault {trace : Trace} {fault other : Instruction.Fault} :
    other ∈ (trace.addFault fault).faults ↔ other ∈ trace.faults ∨ other = fault := by
  unfold addFault
  split
  · rename_i known
    rw [or_iff_left_of_imp]
    rintro rfl
    simpa using known
  · exact Array.mem_push

theorem nodup_addFault {trace : Trace} (nodup : trace.faults.toList.Nodup)
    (fault : Instruction.Fault) : (trace.addFault fault).faults.toList.Nodup := by
  unfold addFault
  split
  · exact nodup
  · rename_i unknown
    rw [Array.toList_push, List.nodup_append]
    refine ⟨nodup, List.pairwise_singleton _ _, ?_⟩
    rintro earlier member last listed rfl
    rw [List.mem_singleton.1 listed, Array.mem_toList_iff] at member
    simp [member] at unknown

theorem nodup_faults_explore {pending : List Nat} {trace : Trace}
    (nodup : trace.faults.toList.Nodup) :
    (explore code pending trace).faults.toList.Nodup := by
  fun_induction explore with
  | case1 trace => exact nodup
  | case2 trace first rest _ ih => exact ih nodup
  | case3 trace first rest _ fault _ ih => exact ih (nodup_addFault nodup fault)
  | case4 trace first rest _ instruction _ ih => exact ih nodup

/-- The faults met while following reachable offsets are faults at reachable offsets. -/
theorem reachable_of_mem_faults {pending : List Nat} {trace : Trace}
    {fault : Instruction.Fault} (waiting : ∀ offset ∈ pending, Reachable code roots offset)
    (known : ∀ fault ∈ trace.faults, ∃ offset, Reachable code roots offset ∧
      Instruction.decode code offset = .error fault)
    (met : fault ∈ (explore code pending trace).faults) :
    ∃ offset, Reachable code roots offset ∧ Instruction.decode code offset = .error fault := by
  fun_induction explore with
  | case1 trace => exact known fault met
  | case2 trace first rest _ ih => exact ih (List.forall_mem_cons.1 waiting).2 known met
  | case3 trace first rest _ other unreadable ih =>
      obtain ⟨here, later⟩ := List.forall_mem_cons.1 waiting
      refine ih later ?_ met
      intro noted member
      rcases mem_addFault.1 member with earlier | rfl
      · exact known noted earlier
      · exact ⟨first, here, unreadable⟩
  | case4 trace first rest _ instruction decoded ih =>
      obtain ⟨here, later⟩ := List.forall_mem_cons.1 waiting
      refine ih ?_ known met
      intro offset member
      rcases List.mem_append.1 member with target | pending
      · exact .target here decoded (List.mem_reverse.1 target)
      · exact later offset pending

/-! ## What the trace of a stream holds -/

theorem isInstruction_iff {offset : Nat} :
    (trace code roots).isInstruction offset = true ↔
      ∃ instruction, ReachableInstruction code roots instruction ∧
        instruction.offset = offset := by
  constructor
  · intro met
    obtain ⟨instruction, decoded, _⟩ := covers_trace roots offset met
    obtain rfl := (Instruction.decode_eq_ok decoded).1
    exact ⟨instruction, ⟨reachable_of_isInstruction met, decoded⟩, rfl⟩
  · rintro ⟨instruction, ⟨reachable, decoded⟩, rfl⟩
    rcases accountsFor_of_reachable reachable with met | ⟨fault, _, unreadable⟩
    · exact met
    · rw [decoded] at unreadable
      contradiction

theorem getElem?_starts_trace {offset length : Nat} :
    (trace code roots).starts[offset]? = some length ↔
      ∃ instruction, ReachableInstruction code roots instruction ∧
        instruction.offset = offset ∧ instruction.length = length := by
  constructor
  · intro noted
    obtain ⟨instruction, decoded, length_eq⟩ := measures_trace roots offset length noted
    obtain rfl := (Instruction.decode_eq_ok decoded).1
    have met : (trace code roots).isInstruction instruction.offset = true := by
      rw [isInstruction, Std.TreeMap.contains_eq_isSome_getElem?, noted]
      rfl
    exact ⟨instruction, ⟨reachable_of_isInstruction met, decoded⟩, rfl, length_eq⟩
  · rintro ⟨instruction, reached, rfl, rfl⟩
    have met := isInstruction_iff.2 ⟨instruction, reached, rfl⟩
    rw [isInstruction, Std.TreeMap.contains_eq_isSome_getElem?, Option.isSome_iff_exists] at met
    obtain ⟨length, noted⟩ := met
    obtain ⟨same, decoded, length_eq⟩ := measures_trace roots _ length noted
    rw [reached.2] at decoded
    cases decoded
    rw [noted, length_eq]

theorem mem_faults_trace {fault : Instruction.Fault} :
    fault ∈ (trace code roots).faults ↔
      ∃ offset, Reachable code roots offset ∧
        Instruction.decode code offset = .error fault := by
  constructor
  · apply reachable_of_mem_faults
    · intro offset member
      exact .root (List.mem_reverse.1 member)
    · intro fault member
      exact absurd member (Array.not_mem_empty _)
  · rintro ⟨offset, reachable, unreadable⟩
    rcases accountsFor_of_reachable reachable with met | ⟨other, member, other_eq⟩
    · obtain ⟨instruction, decoded, _⟩ := covers_trace roots offset met
      rw [unreadable] at decoded
      contradiction
    · rw [unreadable] at other_eq
      cases other_eq
      exact member

theorem strays_eq (code : Array Word) (instruction : Instruction) :
    strays code instruction =
      ((instruction.successors code).filter fun target => (inStream? code target).isNone).map
        fun target => (instruction.offset, target) := by
  unfold strays
  rw [← List.filterMap_eq_map, List.filterMap_filter]
  rfl

theorem exact_of_trace (code : Array Word) (roots : List Nat) :
    Exact code roots (trace code roots) where
  starts _ _ := getElem?_starts_trace
  nodup_faults := nodup_faults_explore List.nodup_nil
  faults _ := mem_faults_trace
  expansions := by
    obtain ⟨met, lists⟩ := exists_lists_explore roots.reverse (@lists_empty code)
    refine ⟨met, lists.nodup, ?_, ?_, lists.records_eq⟩
    · intro instruction
      rw [lists.mem_iff]
      constructor
      · rintro ⟨noted, decoded⟩
        exact ⟨reachable_of_isInstruction noted, decoded⟩
      · intro reached
        exact ⟨isInstruction_iff.2 ⟨instruction, reached, rfl⟩, reached.2⟩
    · have each := funext (strays_eq code)
      rw [← each]
      exact lists.dangling_eq

/-! ## The order of the roots -/

theorem Reachable.of_roots {others : List Nat} {offset : Nat}
    (reachable : Reachable code roots offset) (subset : ∀ root ∈ roots, root ∈ others) :
    Reachable code others offset := by
  induction reachable with
  | root member => exact .root (subset _ member)
  | target _ decoded member ih => exact .target ih decoded member

/-- Two traces that hold exactly what is reachable from the same roots agree. -/
theorem Exact.agrees {others : List Nat} {first second : Trace}
    (exact_first : Exact code roots first) (exact_second : Exact code others second)
    (same : ∀ root, root ∈ roots ↔ root ∈ others) : Agrees first second := by
  have reachable_iff : ∀ offset, Reachable code roots offset ↔ Reachable code others offset :=
    fun offset => ⟨fun reachable => reachable.of_roots fun root => (same root).1,
      fun reachable => reachable.of_roots fun root => (same root).2⟩
  obtain ⟨met, nodup, mem_iff, dangling_eq, records_eq⟩ := exact_first.expansions
  obtain ⟨others, nodup_others, mem_others_iff, others_dangling_eq, others_records_eq⟩ :=
    exact_second.expansions
  have instructions : met.Perm others := by
    rw [List.perm_ext_iff_of_nodup nodup nodup_others]
    intro instruction
    rw [mem_iff, mem_others_iff, ReachableInstruction, ReachableInstruction, reachable_iff]
  constructor
  · apply Std.TreeMap.Equiv.toList_eq
    apply Std.TreeMap.Equiv.of_forall_constGet?_eq
    intro offset
    apply Option.ext
    intro length
    simp only [exact_first.starts, exact_second.starts, ReachableInstruction, reachable_iff]
  · rw [List.perm_ext_iff_of_nodup exact_first.nodup_faults exact_second.nodup_faults]
    intro fault
    simp only [Array.mem_toList_iff, exact_first.faults, exact_second.faults, reachable_iff]
  · rw [dangling_eq, others_dangling_eq]
    exact instructions.flatMap_right _
  · rw [records_eq, others_records_eq]
    exact instructions.flatMap_right _

/-- Following control flow ends, and the trace then holds exactly the instructions at the offsets
reachable from the roots, the faults at the others, and with each of the instructions its targets
outside the stream and the records that it names.  Other roots with the same members lead to the
same, but for the order. -/
theorem exact_trace (code : Array Word) (roots : List Nat) :
    Exact code roots (trace code roots) ∧
      ∀ others : List Nat, (∀ root, root ∈ others ↔ root ∈ roots) →
        Agrees (trace code others) (trace code roots) :=
  ⟨exact_of_trace code roots, fun others same =>
    (exact_of_trace code others).agrees (exact_of_trace code roots) same⟩

/-- An `ai` with its record at 5, a state call that leads back to it, an `enda`, a word that is
no opcode at 8, and an `else` whose target lies outside. -/
def looping : Array Word :=
  #[0x30, 5, 4, 0, 7, 8, 0, 1, 0x5A, 3, 40]

/-- Two lists of roots in different orders, one with a repetition, and both with a root that is no
instruction and one outside the stream. -/
theorem agrees_looping :
    (∀ root, root ∈ [0, 8, 9, 20] ↔ root ∈ [20, 9, 8, 0, 8]) ∧
      Agrees (trace looping [0, 8, 9, 20]) (trace looping [20, 9, 8, 0, 8]) := by
  have same : ∀ root, root ∈ [0, 8, 9, 20] ↔ root ∈ [20, 9, 8, 0, 8] := by
    intro root
    simp only [List.mem_cons, List.not_mem_nil, or_false]
    omega
  exact ⟨same, (exact_trace looping [20, 9, 8, 0, 8]).2 [0, 8, 9, 20] same⟩

example : (trace looping [0, 8, 9, 20]).starts.toList = [(0, 2), (2, 2), (4, 1), (9, 2)] := by
  cbv

example : (trace looping [0, 8, 9, 20]).records = #[⟨0, 5, .ai⟩, ⟨5, 8, .action⟩] := by
  cbv

end ActorScript.Trace
