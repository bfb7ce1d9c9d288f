import ActorScript.Text.Split

/-!
# Joining and splitting text

Pieces without separators are given back by splitting what they were joined to.
-/

namespace ActorScript.Text

variable {separates : Char → Bool}

/-- Even the empty text has a piece. -/
theorem splitWhen_ne_nil (text : List Char) : splitWhen separates text ≠ [] := by
  cases text with
  | nil => simp
  | cons char rest =>
      rw [splitWhen_cons]
      split
      · simp
      · cases splitWhen separates rest <;> simp [pushFirst]

/-- A separator cuts a text in two. -/
theorem splitWhen_append_cons {separator : Char} (separating : separates separator = true)
    (front back : List Char) :
    splitWhen separates (front ++ separator :: back) =
      splitWhen separates front ++ splitWhen separates back := by
  induction front with
  | nil => simp [splitWhen_cons, separating]
  | cons char front ih =>
      rw [List.cons_append, splitWhen_cons, splitWhen_cons, ih]
      split
      · rfl
      · cases split_eq : splitWhen separates front with
        | nil => exact absurd split_eq (splitWhen_ne_nil front)
        | cons piece pieces => rfl

/-- A text without separators is one piece. -/
theorem splitWhen_of_forall {text : List Char} (plain : ∀ char ∈ text, separates char = false) :
    splitWhen separates text = [text] := by
  induction text with
  | nil => rfl
  | cons char rest ih =>
      obtain ⟨here, later⟩ := List.forall_mem_cons.1 plain
      rw [splitWhen_cons, ih later, here]
      rfl

/-! ## Lines -/

/-- Lines, joined and ended by line breaks, are given back with an empty one behind them. -/
theorem lines_join {first : List Char} {rest : List (List Char)}
    (plain : ∀ line ∈ first :: rest, '\n' ∉ line) :
    lines (['\n'].intercalate (first :: rest) ++ ['\n']) = first :: rest ++ [[]] := by
  unfold lines
  have whole : ∀ line : List Char, '\n' ∉ line →
      splitWhen (· == '\n') line = [line] := by
    intro line plain
    apply splitWhen_of_forall
    intro char member
    rw [beq_eq_false_iff_ne]
    rintro rfl
    exact plain member
  rw [splitWhen_append_cons (by rfl)]
  congr 1
  induction rest generalizing first with
  | nil => simpa using whole first (plain first List.mem_cons_self)
  | cons second rest ih =>
      obtain ⟨here, later⟩ := List.forall_mem_cons.1 plain
      rw [List.intercalate_cons_cons, List.append_assoc, List.singleton_append,
        splitWhen_append_cons (by rfl), whole first here, ih later]
      rfl

/-! ## Words -/

/-- A blank cuts a line in two. -/
theorem words_append_cons {blank : Char} (blank_eq : isBlank blank = true)
    (front back : List Char) : words (front ++ blank :: back) = words front ++ words back := by
  simp only [words, splitWhen_append_cons blank_eq, List.filter_append]

/-- A text without blanks is one word. -/
theorem words_of_forall {text : List Char} (present : text ≠ [])
    (plain : ∀ char ∈ text, isBlank char = false) : words text = [text] := by
  simp [words, splitWhen_of_forall plain, present]

end ActorScript.Text
