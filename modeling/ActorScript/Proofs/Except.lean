import Mathlib.Data.List.Forall2

/-!
# Computations that can fail

A computation in several steps succeeds exactly if each step does.
-/

namespace ActorScript

variable {ε α β : Type}

/-- What succeeds in two steps succeeds in each. -/
theorem bind_eq_ok_iff {first : Except ε α} {next : α → Except ε β} {result : β} :
    first >>= next = .ok result ↔ ∃ value, first = .ok value ∧ next value = .ok result := by
  cases first with
  | error error =>
      constructor
      · intro failed
        contradiction
      · rintro ⟨value, failed, _⟩
        contradiction
  | ok value =>
      constructor
      · intro succeeds
        exact ⟨value, rfl, succeeds⟩
      · rintro ⟨_, ⟨⟩, succeeds⟩
        exact succeeds

theorem exists_bind_eq_ok_iff {first : Except ε α} {next : α → Except ε β} :
    (∃ result, first >>= next = .ok result) ↔
      ∃ value, first = .ok value ∧ ∃ result, next value = .ok result := by
  simp only [bind_eq_ok_iff]
  constructor
  · rintro ⟨result, value, started, ended⟩
    exact ⟨value, started, result, ended⟩
  · rintro ⟨value, started, result, ended⟩
    exact ⟨result, value, started, ended⟩

theorem exists_pure_eq_ok (value : α) : ∃ result, (pure value : Except ε α) = .ok result :=
  ⟨value, rfl⟩

theorem map_eq_ok_iff {first : Except ε α} {next : α → β} {result : β} :
    first.map next = .ok result ↔ ∃ value, first = .ok value ∧ next value = result := by
  cases first with
  | error error =>
      constructor
      · intro failed
        contradiction
      · rintro ⟨value, failed, _⟩
        contradiction
  | ok value =>
      constructor
      · rintro ⟨⟩
        exact ⟨value, rfl, rfl⟩
      · rintro ⟨_, ⟨⟩, rfl⟩
        rfl

/-- What fails on a condition succeeds where the condition does not hold. -/
theorem ite_error_eq_ok_iff {fails : Bool} {error : ε} {value result : α} :
    (if fails = true then .error error else .ok value : Except ε α) = .ok result ↔
      fails = false ∧ result = value := by
  cases fails with
  | true =>
      constructor
      · intro failed
        contradiction
      · rintro ⟨other, _⟩
        contradiction
  | false =>
      constructor
      · rintro ⟨⟩
        exact ⟨rfl, rfl⟩
      · rintro ⟨_, rfl⟩
        rfl

/-- Going through a list succeeds where the step at its head and going through the rest do. -/
theorem mapM_cons_eq_ok_iff {step : α → Except ε β} {value : α} {rest : List α}
    {results : List β} :
    (value :: rest).mapM step = .ok results ↔
      ∃ first others, step value = .ok first ∧ rest.mapM step = .ok others ∧
        results = first :: others := by
  rw [List.mapM_cons, bind_eq_ok_iff]
  constructor
  · rintro ⟨first, first_eq, later⟩
    obtain ⟨others, others_eq, ⟨⟩⟩ := bind_eq_ok_iff.1 later
    exact ⟨first, others, first_eq, others_eq, rfl⟩
  · rintro ⟨first, others, first_eq, others_eq, rfl⟩
    exact ⟨first, first_eq, bind_eq_ok_iff.2 ⟨others, others_eq, rfl⟩⟩

/-- A list is gone through successfully if each of its members is. -/
theorem mapM_eq_ok_iff {step : α → Except ε β} {values : List α} {results : List β} :
    values.mapM step = .ok results ↔
      List.Forall₂ (fun value result => step value = .ok result) values results := by
  induction values generalizing results with
  | nil =>
      rw [List.forall₂_nil_left_iff]
      constructor
      · rintro ⟨⟩
        rfl
      · rintro rfl
        rfl
  | cons value rest ih => simp only [mapM_cons_eq_ok_iff, List.forall₂_cons_left_iff, ih]

/-- Where each step succeeds on a condition and with a known result, so does going through a
list. -/
theorem mapM_eq_ok_iff_of_step {step : α → Except ε β} {Succeeds : α → Prop} {value : α → β}
    (step_iff : ∀ item result, step item = .ok result ↔ Succeeds item ∧ result = value item)
    {items : List α} {results : List β} :
    items.mapM step = .ok results ↔
      (∀ item ∈ items, Succeeds item) ∧ results = items.map value := by
  induction items generalizing results with
  | nil =>
      constructor
      · rintro ⟨⟩
        exact ⟨fun _ member => absurd member List.not_mem_nil, rfl⟩
      · rintro ⟨_, rfl⟩
        rfl
  | cons item rest ih =>
      rw [mapM_cons_eq_ok_iff, List.forall_mem_cons, List.map_cons]
      constructor
      · rintro ⟨first, others, first_eq, others_eq, rfl⟩
        obtain ⟨here, rfl⟩ := (step_iff item first).1 first_eq
        obtain ⟨each, rfl⟩ := ih.1 others_eq
        exact ⟨⟨here, each⟩, rfl⟩
      · rintro ⟨⟨here, each⟩, rfl⟩
        exact ⟨value item, _, (step_iff item _).2 ⟨here, rfl⟩, ih.2 ⟨each, rfl⟩, rfl⟩

/-- A list can be gone through exactly if each of its members can. -/
theorem exists_mapM_eq_ok_iff {step : α → Except ε β} {values : List α} :
    (∃ results, values.mapM step = .ok results) ↔
      ∀ value ∈ values, ∃ result, step value = .ok result := by
  induction values with
  | nil => exact ⟨fun _ _ member => absurd member List.not_mem_nil, fun _ => ⟨[], rfl⟩⟩
  | cons value rest ih =>
      rw [List.forall_mem_cons, ← ih]
      simp only [mapM_eq_ok_iff, List.forall₂_cons_left_iff]
      constructor
      · rintro ⟨_, result, results, here, later, rfl⟩
        exact ⟨⟨result, here⟩, results, later⟩
      · rintro ⟨⟨result, here⟩, results, later⟩
        exact ⟨_, result, results, here, later, rfl⟩

/-- Every result belongs to a member of the list. -/
theorem exists_of_mem_mapM {step : α → Except ε β} {values : List α} {results : List β}
    (run : values.mapM step = .ok results) {result : β} (member : result ∈ results) :
    ∃ value ∈ values, step value = .ok result := by
  have each := mapM_eq_ok_iff.1 run
  clear run
  induction each with
  | nil => contradiction
  | @cons value first rest others here _ ih =>
      rcases List.mem_cons.1 member with rfl | later
      · exact ⟨value, List.mem_cons_self, here⟩
      · obtain ⟨other, listed, found⟩ := ih later
        exact ⟨other, List.mem_cons_of_mem _ listed, found⟩

/-- Where a result that counts comes from a member that counts, no more results count. -/
theorem countP_le_of_mapM {step : α → Except ε β} {values : List α} {results : List β}
    {counts : α → Bool} {resultCounts : β → Bool}
    (each : ∀ value result, step value = .ok result → resultCounts result = true →
      counts value = true)
    (run : values.mapM step = .ok results) :
    results.countP resultCounts ≤ values.countP counts := by
  induction mapM_eq_ok_iff.1 run with
  | nil => exact Nat.le_refl _
  | @cons value result rest others here _ ih =>
      have later := ih (mapM_eq_ok_iff.2 ‹_›)
      rw [List.countP_cons, List.countP_cons]
      split
      · rename_i counted
        rw [if_pos (each value result here counted)]
        omega
      · omega

end ActorScript
