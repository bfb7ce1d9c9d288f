import ActorScript.Word

/-!
# Tables keyed by words

A table maps words to values.  Its entries are kept in ascending order of
their keys, so two tables with the same look-ups are equal, and listing a
table lists its keys in order.
-/

namespace ActorScript

universe u

/-- A finite map from words, listed in ascending order of its keys. -/
structure Table (α : Type u) where
  entries : List (Word × α)
  sorted : entries.Pairwise fun left right => left.1 < right.1
deriving DecidableEq, Repr

namespace Table

variable {α : Type u}

/-- The table without entries. -/
def empty : Table α :=
  ⟨[], List.Pairwise.nil⟩

instance : EmptyCollection (Table α) := ⟨empty⟩

instance : Inhabited (Table α) := ⟨empty⟩

/-- Puts an entry into a sorted list, in place of the one with its key. -/
def insertSorted (key : Word) (value : α) : List (Word × α) → List (Word × α)
  | [] => [(key, value)]
  | (other, old) :: rest =>
      if key < other then (key, value) :: (other, old) :: rest
      else if key = other then (key, value) :: rest
      else (other, old) :: insertSorted key value rest

theorem mem_insertSorted {key : Word} {value : α} {entries : List (Word × α)}
    {entry : Word × α} (member : entry ∈ insertSorted key value entries) :
    entry = (key, value) ∨ entry ∈ entries := by
  induction entries with
  | nil => simpa [insertSorted] using member
  | cons first rest ih =>
      obtain ⟨other, old⟩ := first
      simp only [insertSorted] at member
      split at member
      · simpa using member
      · split at member
        · simp only [List.mem_cons] at member ⊢
          exact member.imp_right Or.inr
        · simp only [List.mem_cons] at member ⊢
          rcases member with here | later
          · exact Or.inr (Or.inl here)
          · exact (ih later).imp_right Or.inr

theorem sorted_insertSorted {key : Word} {value : α} {entries : List (Word × α)}
    (sorted : entries.Pairwise fun left right => left.1 < right.1) :
    (insertSorted key value entries).Pairwise fun left right => left.1 < right.1 := by
  induction entries with
  | nil => simp [insertSorted]
  | cons first rest ih =>
      obtain ⟨other, old⟩ := first
      rw [List.pairwise_cons] at sorted
      obtain ⟨below, sortedRest⟩ := sorted
      simp only [insertSorted]
      split
      · rename_i smaller
        refine List.pairwise_cons.2 ⟨?_, List.pairwise_cons.2 ⟨below, sortedRest⟩⟩
        intro entry member
        rcases List.mem_cons.1 member with rfl | later
        · exact smaller
        · exact Int32.lt_trans smaller (below entry later)
      · rename_i notSmaller
        split
        · rename_i same
          subst same
          exact List.pairwise_cons.2 ⟨below, sortedRest⟩
        · rename_i different
          refine List.pairwise_cons.2 ⟨?_, ih sortedRest⟩
          intro entry member
          rcases mem_insertSorted member with rfl | later
          · exact Int32.lt_of_le_of_ne (Int32.not_lt.1 notSmaller) (Ne.symm different)
          · exact below entry later

/-- Puts an entry into a table, in place of the one with its key. -/
def insert (table : Table α) (key : Word) (value : α) : Table α :=
  ⟨insertSorted key value table.entries, sorted_insertSorted table.sorted⟩

/-- The value under a key. -/
def get? (table : Table α) (key : Word) : Option α :=
  table.entries.lookup key

/-- A key is present. -/
def contains (table : Table α) (key : Word) : Bool :=
  (table.get? key).isSome

/-- The entries, in ascending order of their keys. -/
def toList (table : Table α) : List (Word × α) :=
  table.entries

/-- The values, in ascending order of their keys. -/
def values (table : Table α) : List α :=
  table.entries.map (·.2)

/-- The number of entries. -/
def size (table : Table α) : Nat :=
  table.entries.length

/-- The table of a list of entries; of two with one key the later stays. -/
def ofList (entries : List (Word × α)) : Table α :=
  entries.foldl (fun table entry => table.insert entry.1 entry.2) empty

@[simp]
theorem get?_empty (key : Word) : (empty : Table α).get? key = none :=
  rfl

theorem lookup_cons_eq (key other : Word) (value : α) (rest : List (Word × α)) :
    List.lookup other ((key, value) :: rest) =
      if other = key then some value else List.lookup other rest := by
  by_cases same : other = key
  · simp [same]
  · rw [if_neg same, List.lookup_cons, beq_eq_false_iff_ne.2 same]

/-- What is found under a key is one of the values. -/
theorem mem_values_of_get? {table : Table α} {key : Word} {value : α}
    (found : table.get? key = some value) : value ∈ table.values := by
  obtain ⟨entries, sorted⟩ := table
  simp only [get?, values] at found ⊢
  clear sorted
  induction entries with
  | nil => simp at found
  | cons first rest ih =>
      obtain ⟨other, old⟩ := first
      rw [lookup_cons_eq] at found
      split at found
      · cases found
        exact List.mem_cons_self
      · exact List.mem_cons_of_mem _ (ih found)

/-- A key reads what was last put under it, and other keys are untouched. -/
theorem get?_insert (table : Table α) (key other : Word) (value : α) :
    (table.insert key value).get? other =
      if other = key then some value else table.get? other := by
  obtain ⟨entries, sorted⟩ := table
  simp only [insert, get?]
  clear sorted
  induction entries with
  | nil => rw [insertSorted, lookup_cons_eq]
  | cons first rest ih =>
      obtain ⟨present, old⟩ := first
      simp only [insertSorted]
      split
      · rw [lookup_cons_eq]
      · split
        · rename_i same
          subst same
          by_cases here : other = key <;> simp only [lookup_cons_eq, here, if_true, if_false]
        · rename_i different
          rw [lookup_cons_eq, lookup_cons_eq, ih]
          by_cases here : other = present
          · subst here
            simp only [if_true, if_neg (Ne.symm different)]
          · simp only [if_neg here]

/-- A key above all others is not in a table. -/
theorem contains_of_above {table : Table α} {key : Word}
    (above : ∀ entry ∈ table.toList, entry.1 < key) :
    table.contains key = false := by
  obtain ⟨entries, sorted⟩ := table
  simp only [toList, contains, get?] at above ⊢
  clear sorted
  induction entries with
  | nil => rfl
  | cons first rest ih =>
      obtain ⟨below, later⟩ := List.forall_mem_cons.1 above
      rw [lookup_cons_eq, if_neg (Ne.symm (Int32.ne_of_lt below))]
      exact ih later

/-- An entry with a key above all others goes to the end. -/
theorem toList_insert_of_above {table : Table α} {key : Word} (value : α)
    (above : ∀ entry ∈ table.toList, entry.1 < key) :
    (table.insert key value).toList = table.toList ++ [(key, value)] := by
  obtain ⟨entries, sorted⟩ := table
  simp only [toList, insert] at above ⊢
  clear sorted
  induction entries with
  | nil => rfl
  | cons first rest ih =>
      obtain ⟨below, later⟩ := List.forall_mem_cons.1 above
      rw [insertSorted, if_neg (Int32.not_lt.2 (Int32.le_of_lt below)),
        if_neg (Ne.symm (Int32.ne_of_lt below)), ih later]
      rfl

/-- A table is known by its entries. -/
theorem eq_of_toList_eq {table other : Table α} (same : table.toList = other.toList) :
    table = other := by
  cases table
  cases other
  cases same
  rfl

end Table

end ActorScript
