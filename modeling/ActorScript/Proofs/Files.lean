import ActorScript.Files
import Mathlib.Data.List.Infix

/-!
# Reading what was written

A file is written into a directory that exists, so writing makes no directory and every
path leads to the same place as before.  What was written is read back along its own path;
along any other path a file is as it was, unless the path leads to the same place.
-/

namespace ActorScript.Files

variable {files : Files}

/-! ## Directories -/

theorem hasDirectory_iff {place : Place} :
    files.hasDirectory place = true ↔ isStart place = true ∨
      ∃ entry ∈ files.entries, place <+: entry.1 ∧ place.length < entry.1.length := by
  simp only [hasDirectory, Bool.or_eq_true, List.any_eq_true, Bool.and_eq_true,
    List.isPrefixOf_iff_prefix, decide_eq_true_eq]

theorem isStart_of_inside {place directory : Place} (inside : place <+: directory)
    (start : isStart directory = true) : isStart place = true := by
  simp only [isStart, Bool.or_eq_true, List.all_eq_true, beq_iff_eq] at start ⊢
  rcases start with upwards | rfl
  · exact .inl fun name member => upwards name (inside.subset member)
  · rcases List.prefix_cons_iff.1 inside with rfl | ⟨rest, rfl, nothing⟩
    · exact .inl fun name member => absurd member List.not_mem_nil
    · rw [List.prefix_nil.1 nothing]
      exact .inr rfl

/-- Every directory on the way to a directory is there. -/
theorem hasDirectory_of_inside {place directory : Place} (inside : place <+: directory)
    (there : files.hasDirectory directory = true) : files.hasDirectory place = true := by
  rw [hasDirectory_iff] at there ⊢
  rcases there with start | ⟨entry, member, below, longer⟩
  · exact .inl (isStart_of_inside inside start)
  · exact .inr ⟨entry, member, inside.trans below, Nat.lt_of_le_of_lt inside.length_le longer⟩

theorem hasDirectory_parent {directory : Place} (there : files.hasDirectory directory = true) :
    files.hasDirectory (parent directory) = true := by
  unfold parent
  by_cases root : (directory == ["/"]) = true
  · rwa [if_pos root]
  · rw [if_neg root]
    by_cases start : isStart directory = true
    · rw [if_pos start]
      apply hasDirectory_iff.2
      have upwards : directory.all (· == "..") = true := by
        rcases Bool.or_eq_true_iff.1 start with upwards | here
        · exact upwards
        · contradiction
      have further : (directory ++ [".."]).all (· == "..") = true := by
        rw [List.all_append, upwards]
        rfl
      exact .inl (Bool.or_eq_true_iff.2 (.inl further))
    · rw [if_neg start]
      exact hasDirectory_of_inside (List.dropLast_prefix directory) there

/-- A file in a directory that exists makes no other directory. -/
theorem hasDirectory_put {directory : Place} (there : files.hasDirectory directory = true)
    (name : String) (content : List UInt8) (place : Place) :
    (files.put (directory ++ [name]) content).hasDirectory place = files.hasDirectory place := by
  rw [Bool.eq_iff_iff]
  constructor
  · intro found
    rcases hasDirectory_iff.1 found with start | ⟨entry, member, below, longer⟩
    · exact hasDirectory_iff.2 (.inl start)
    · rcases List.mem_cons.1 member with rfl | old
      · have inside : place <+: directory := by
          apply List.prefix_of_prefix_length_le below (List.prefix_append directory [name])
          rw [List.length_append, List.length_singleton] at longer
          omega
        exact hasDirectory_of_inside inside there
      · exact hasDirectory_iff.2 (.inr ⟨entry, List.mem_of_mem_filter old, below, longer⟩)
  · intro found
    rcases hasDirectory_iff.1 found with start | ⟨entry, member, below, longer⟩
    · exact hasDirectory_iff.2 (.inl start)
    · apply hasDirectory_iff.2
      by_cases same : entry.1 = directory ++ [name]
      · rw [same] at below longer
        exact .inr ⟨(directory ++ [name], content), List.mem_cons_self, below, longer⟩
      · refine .inr ⟨entry, List.mem_cons_of_mem _ ?_, below, longer⟩
        exact List.mem_filter.2 ⟨member, bne_iff_ne.2 same⟩

/-! ## Places -/

theorem lookup_filter_ne {place other : Place} (different : other ≠ place)
    (entries : List (Place × List UInt8)) :
    (entries.filter fun entry => entry.1 != place).lookup other = entries.lookup other := by
  induction entries with
  | nil => rfl
  | cons entry rest ih =>
      obtain ⟨here, old⟩ := entry
      rw [List.filter_cons, List.lookup_cons]
      split
      · rw [List.lookup_cons, ih]
      · rename_i covered
        have same : here = place := by simpa using covered
        rw [ih, beq_false_of_ne fun equal => different (equal.trans same)]

theorem content?_put (place other : Place) (content : List UInt8) :
    (files.put place content).content? other =
      if other = place then some content else files.content? other := by
  unfold put content?
  rw [List.lookup_cons]
  by_cases same : other = place
  · rw [if_pos same, beq_iff_eq.2 same]
  · rw [if_neg same, beq_false_of_ne same]
    exact lookup_filter_ne same files.entries

/-- The place to which a path leads, unless that is a directory. -/
def placeOf? : Spot → Option Place
  | .file place _ | .vacant place => some place
  | .directory | .noDirectory _ => none

/-- What is at a place that is not a directory. -/
def spotAt (files : Files) (place : Place) : Spot :=
  match files.content? place with
  | some content => .file place content
  | none => .vacant place

theorem placeOf?_spotAt (place : Place) : placeOf? (files.spotAt place) = some place := by
  unfold spotAt
  split <;> rfl

theorem arrive_eq (place : Place) (name : String) :
    files.arrive place name =
      if maxNameLength < name.utf8ByteSize then .error .nameTooLong
      else .ok (files.spotAt place) := by
  unfold arrive spotAt
  cases files.content? place <;> rfl

/-! ## Paths -/

/-- A path that leads to a place ends at a name in a directory. -/
theorem walk_cases {start place : Place} {parts : List String} {spot : Spot}
    (there : files.hasDirectory start = true) (walk : files.walk start parts = .ok spot)
    (leads : placeOf? spot = some place) :
    ∃ directory name, files.hasDirectory directory = true ∧ place = directory ++ [name] ∧
      spot = files.spotAt place := by
  induction parts generalizing start with
  | nil =>
      cases walk
      contradiction
  | cons part rest ih =>
      simp only [Files.walk, arrive_eq] at walk
      split at walk
      · exact ih there walk
      · split at walk
        · exact ih (hasDirectory_parent there) walk
        · split at walk
          · rename_i further
            exact ih further walk
          · split at walk
            · split at walk
              · contradiction
              · cases walk
                rw [placeOf?_spotAt] at leads
                cases leads
                exact ⟨start, part, there, rfl, rfl⟩
            · split at walk <;> cases walk
              contradiction

/-- Writing into a directory leaves every path to a place leading there. -/
theorem walk_put {directory : Place} (there : files.hasDirectory directory = true)
    (name : String) (content : List UInt8) {start place : Place} {parts : List String}
    {spot : Spot} (walk : files.walk start parts = .ok spot) (leads : placeOf? spot = some place) :
    (files.put (directory ++ [name]) content).walk start parts =
      .ok ((files.put (directory ++ [name]) content).spotAt place) := by
  induction parts generalizing start with
  | nil =>
      cases walk
      contradiction
  | cons part rest ih =>
      -- The same directories are there, so both walks take the same turn at this part.
      simp only [Files.walk, arrive_eq, hasDirectory_put there] at walk ⊢
      split at walk
      · rename_i skipped
        rw [if_pos skipped]
        exact ih walk
      · rename_i not_skipped
        rw [if_neg not_skipped]
        split at walk
        · rename_i upwards
          rw [if_pos upwards]
          exact ih walk
        · rename_i not_upwards
          rw [if_neg not_upwards]
          split at walk
          · rename_i further
            rw [if_pos further]
            exact ih walk
          · rename_i not_further
            rw [if_neg not_further]
            split at walk
            · rename_i last
              rw [if_pos last]
              split at walk
              · contradiction
              · rename_i short
                cases walk
                rw [placeOf?_spotAt] at leads
                cases leads
                rw [if_neg short]
            · split at walk <;> cases walk
              contradiction

/-- The directory from which a path is followed. -/
def origin (path : String) : Place :=
  if path.startsWith "/" then ["/"] else []

theorem hasDirectory_origin (path : String) : files.hasDirectory (origin path) = true := by
  apply hasDirectory_iff.2
  unfold origin
  split <;> exact .inl (by decide)

/-- A path that leads anywhere is followed from its origin, in any files. -/
theorem find_eq_walk {path : String} {spot : Spot} (found : files.find path = .ok spot)
    (others : Files) : others.find path = others.walk (origin path) (partsOf path) := by
  unfold find at found ⊢
  by_cases nul : path.contains '\x00' = true
  · rw [if_pos nul] at found
    contradiction
  · rw [if_neg nul] at found ⊢
    by_cases empty : path.isEmpty = true
    · rw [if_pos empty] at found
      contradiction
    · rw [if_neg empty] at found ⊢
      by_cases long : maxPathLength < path.utf8ByteSize
      · rw [if_pos long] at found
        contradiction
      · rw [if_neg long]
        rfl

theorem find_cases {path : String} {spot : Spot} {place : Place}
    (found : files.find path = .ok spot) (leads : placeOf? spot = some place) :
    ∃ directory name, files.hasDirectory directory = true ∧ place = directory ++ [name] ∧
      spot = files.spotAt place := by
  rw [find_eq_walk found] at found
  exact walk_cases (hasDirectory_origin path) found leads

theorem find_put {directory : Place} (there : files.hasDirectory directory = true)
    (name : String) (content : List UInt8) {path : String} {spot : Spot} {place : Place}
    (found : files.find path = .ok spot) (leads : placeOf? spot = some place) :
    (files.put (directory ++ [name]) content).find path =
      .ok ((files.put (directory ++ [name]) content).spotAt place) := by
  rw [find_eq_walk found]
  rw [find_eq_walk found] at found
  exact walk_put there name content found leads

/-! ## Reading and writing -/

theorem read_eq_ok_iff {path : String} {content : List UInt8} :
    files.read path = .ok content ↔ ∃ place, files.find path = .ok (.file place content) := by
  unfold read
  constructor
  · intro readable
    split at readable <;> cases readable
    exact ⟨_, by assumption⟩
  · rintro ⟨place, found⟩
    rw [found]

theorem write_eq_ok_iff {path : String} {content : List UInt8} {after : Files} :
    files.write path content = .ok after ↔
      ∃ spot place, files.find path = .ok spot ∧ placeOf? spot = some place ∧
        after = files.put place content := by
  unfold write
  constructor
  · intro written
    split at written <;> cases written
    · exact ⟨_, _, by assumption, rfl, rfl⟩
    · exact ⟨_, _, by assumption, rfl, rfl⟩
  · rintro ⟨spot, place, found, leads, rfl⟩
    rw [found]
    cases spot <;> cases leads <;> rfl

/-- Whatever is at the place to which a path leads is read. -/
theorem read_of_spotAt {path : String} {place : Place} {content : List UInt8}
    (found : files.find path = .ok (files.spotAt place))
    (here : files.content? place = some content) : files.read path = .ok content := by
  rw [spotAt, here] at found
  exact read_eq_ok_iff.2 ⟨place, found⟩

/-- What was written along a path is read along it. -/
theorem read_write {path : String} {content : List UInt8} {after : Files}
    (written : files.write path content = .ok after) : after.read path = .ok content := by
  obtain ⟨spot, place, found, leads, rfl⟩ := write_eq_ok_iff.1 written
  obtain ⟨directory, name, there, rfl, _⟩ := find_cases found leads
  apply read_of_spotAt (find_put there name content found leads)
  rw [content?_put, if_pos rfl]

/-- Along another path a file is read as before, or it has been written over. -/
theorem read_behind_write {path other : String} {content old : List UInt8} {after : Files}
    (written : files.write path content = .ok after) (readable : files.read other = .ok old) :
    after.read other = .ok old ∨ after.read other = .ok content := by
  obtain ⟨_, place, found, leads, rfl⟩ := write_eq_ok_iff.1 written
  obtain ⟨directory, name, there, rfl, _⟩ := find_cases found leads
  obtain ⟨place, other_found⟩ := read_eq_ok_iff.1 readable
  obtain ⟨_, _, _, _, spot_eq⟩ := find_cases other_found rfl
  have found_after := find_put there name content other_found rfl
  by_cases same : place = directory ++ [name]
  · refine .inr (read_of_spotAt found_after ?_)
    rw [content?_put, if_pos same]
  · refine .inl (read_of_spotAt found_after ?_)
    rw [content?_put, if_neg same]
    unfold spotAt at spot_eq
    split at spot_eq <;> cases spot_eq
    assumption

end ActorScript.Files
