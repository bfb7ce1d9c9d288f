import ActorScript.Proofs.Except
import ActorScript.Table

/-!
# Filling tables

A table lists its entries in the order of their keys, whatever the order in which they were put
in.  So entries with different keys give the same table in every order.
-/

namespace ActorScript.Table

open scoped List

variable {α β ε : Type} {table : Table α}

theorem contains_insert (key other : Word) (value : α) :
    (table.insert key value).contains other = true ↔
      other = key ∨ table.contains other = true := by
  rw [contains, get?_insert]
  split
  · rename_i same
    simp [same]
  · rename_i different
    simp [different, contains]

/-- The entries of a table after an insertion under a new key. -/
theorem perm_toList_insert {key : Word} (value : α) (absent : table.contains key = false) :
    (table.insert key value).toList.Perm ((key, value) :: table.toList) := by
  obtain ⟨entries, sorted⟩ := table
  simp only [contains, get?, toList, insert] at absent ⊢
  clear sorted
  induction entries with
  | nil => exact .refl _
  | cons first rest ih =>
      obtain ⟨other, old⟩ := first
      rw [lookup_cons_eq] at absent
      by_cases same : key = other
      · rw [if_pos same] at absent
        contradiction
      · rw [if_neg same] at absent
        rw [insertSorted, if_neg same]
        split
        · exact .refl _
        · exact ((ih absent).cons _).trans (.swap _ _ _)

/-- A table is known by its entries in any order. -/
theorem eq_of_perm_toList {other : Table α} (same : table.toList.Perm other.toList) :
    table = other := by
  apply eq_of_toList_eq
  apply same.eq_of_pairwise _ table.sorted other.sorted
  intro first second _ _ below above
  exact absurd below (Int32.lt_asymm above)

/-! ## Entries with different keys -/

/-- Puts entries into a table, one after the other. -/
def fill (table : Table α) (entries : List (Word × α)) : Table α :=
  entries.foldl (fun table entry => table.insert entry.1 entry.2) table

/-- Entries whose keys differ from each other and from those of a table. -/
structure Fresh (table : Table α) (entries : List (Word × α)) : Prop where
  distinct : (entries.map Prod.fst).Nodup
  absent : ∀ entry ∈ entries, table.contains entry.1 = false

theorem fresh_nil : table.Fresh [] :=
  ⟨List.nodup_nil, fun _ member => absurd member List.not_mem_nil⟩

theorem fresh_cons_iff {first : Word × α} {rest : List (Word × α)} :
    table.Fresh (first :: rest) ↔
      table.contains first.1 = false ∧ (table.insert first.1 first.2).Fresh rest := by
  constructor
  · rintro ⟨distinct, absent⟩
    rw [List.map_cons, List.nodup_cons] at distinct
    obtain ⟨here, later⟩ := List.forall_mem_cons.1 absent
    refine ⟨here, distinct.2, ?_⟩
    intro entry member
    rw [← Bool.not_eq_true, contains_insert]
    rintro (same | known)
    · exact distinct.1 (same ▸ List.mem_map_of_mem member)
    · exact absurd known (Bool.not_eq_true _ ▸ later entry member)
  · rintro ⟨here, distinct, absent⟩
    have apart : ∀ entry ∈ rest, entry.1 ≠ first.1 ∧ table.contains entry.1 = false := by
      intro entry member
      have unknown := absent entry member
      rw [← Bool.not_eq_true, contains_insert] at unknown
      exact ⟨fun same => unknown (Or.inl same),
        Bool.not_eq_true _ ▸ fun known => unknown (Or.inr known)⟩
    constructor
    · rw [List.map_cons, List.nodup_cons]
      refine ⟨?_, distinct⟩
      intro listed
      obtain ⟨entry, member, same⟩ := List.mem_map.1 listed
      exact (apart entry member).1 same
    · exact List.forall_mem_cons.2 ⟨here, fun entry member => (apart entry member).2⟩

theorem fresh_singleton_iff {entry : Word × α} :
    table.Fresh [entry] ↔ table.contains entry.1 = false := by
  rw [fresh_cons_iff, and_iff_left fresh_nil]

theorem fresh_empty_iff {entries : List (Word × α)} :
    (empty : Table α).Fresh entries ↔ (entries.map Prod.fst).Nodup :=
  ⟨Fresh.distinct, fun distinct => ⟨distinct, fun _ _ => rfl⟩⟩

theorem perm_toList_fill {entries : List (Word × α)} (fresh : table.Fresh entries) :
    (table.fill entries).toList.Perm (entries ++ table.toList) := by
  induction entries generalizing table with
  | nil => exact .refl _
  | cons first rest ih =>
      obtain ⟨absent, later⟩ := fresh_cons_iff.1 fresh
      calc
        (table.fill (first :: rest)).toList
          = ((table.insert first.1 first.2).fill rest).toList := rfl
        _ ~ rest ++ (table.insert first.1 first.2).toList := ih later
        _ ~ rest ++ first :: table.toList := (perm_toList_insert first.2 absent).append_left _
        _ ~ first :: rest ++ table.toList := List.perm_middle

section Distinct

variable {entries : List (Word × α)} (distinct : (entries.map Prod.fst).Nodup)
include distinct

theorem perm_toList_ofList : (ofList entries).toList.Perm entries :=
  calc
    (ofList entries).toList ~ entries ++ [] := perm_toList_fill (fresh_empty_iff.2 distinct)
    _ = entries := List.append_nil entries

theorem perm_values_ofList : (ofList entries).values.Perm (entries.map Prod.snd) :=
  (perm_toList_ofList distinct).map Prod.snd

theorem size_ofList : (ofList entries).size = entries.length :=
  (perm_toList_ofList distinct).length_eq

/-- Entries with different keys give the same table in every order. -/
theorem ofList_eq_of_perm {others : List (Word × α)} (same : others.Perm entries) :
    ofList others = ofList entries := by
  have moved : (others.map Prod.fst).Nodup := (same.map Prod.fst).nodup_iff.2 distinct
  apply eq_of_perm_toList
  calc
    (ofList others).toList ~ others := perm_toList_ofList moved
    _ ~ entries := same
    _ ~ (ofList entries).toList := (perm_toList_ofList distinct).symm

end Distinct

theorem nodup_keys : (table.toList.map Prod.fst).Nodup :=
  List.pairwise_map.2 (table.sorted.imp Int32.ne_of_lt)

theorem ofList_toList : ofList table.toList = table :=
  eq_of_perm_toList (perm_toList_ofList table.nodup_keys)

/-- Steps that each put in the entry of an item, if it has one with a new key, succeed together
exactly if all keys are new and different. -/
theorem foldlM_eq_ok_iff {step : Table α → β → Except ε (Table α)}
    {part? : β → Option (Word × α)}
    (step_iff : ∀ table item after, step table item = .ok after ↔
      table.Fresh (part? item).toList ∧ after = table.fill (part? item).toList)
    {items : List β} {table after : Table α} :
    items.foldlM step table = .ok after ↔
      table.Fresh (items.filterMap part?) ∧ after = table.fill (items.filterMap part?) := by
  induction items generalizing table with
  | nil =>
      constructor
      · rintro ⟨⟩
        exact ⟨fresh_nil, rfl⟩
      · rintro ⟨_, rfl⟩
        rfl
  | cons item rest ih =>
      rw [List.foldlM_cons, bind_eq_ok_iff]
      simp only [step_iff, ih]
      cases entry_eq : part? item with
      | none =>
          rw [List.filterMap_cons_none entry_eq]
          constructor
          · rintro ⟨_, ⟨_, rfl⟩, later⟩
            exact later
          · intro later
            exact ⟨table, ⟨fresh_nil, rfl⟩, later⟩
      | some entry =>
          rw [List.filterMap_cons_some entry_eq]
          simp only [Option.toList_some, fresh_cons_iff]
          constructor
          · rintro ⟨_, ⟨⟨absent, _⟩, rfl⟩, later, after_eq⟩
            exact ⟨⟨absent, later⟩, after_eq⟩
          · rintro ⟨⟨absent, later⟩, after_eq⟩
            exact ⟨_, ⟨⟨absent, fresh_nil⟩, rfl⟩, later, after_eq⟩

end ActorScript.Table
