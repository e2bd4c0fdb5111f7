import ContractWorks.Text.Search
import Mathlib.Data.List.Infix

namespace ContractWorks.Text

/-- This function counts the places where one run of characters stands inside another. -/
def occurrences (needle : List Char) : List Char → Nat
  | [] => 0
  | character :: rest =>
    (if needle.isPrefixOf (character :: rest) then 1 else 0) + occurrences needle rest

/-- A run is absent when it stands nowhere. -/
theorem occurrences_eq_zero_iff {needle characters : List Char} (nonempty : needle ≠ []) :
    occurrences needle characters = 0 ↔ ¬ needle <:+: characters := by
  induction characters with
  | nil => simp [occurrences, nonempty]
  | cons character rest inductionHypothesis =>
    simp [occurrences, inductionHypothesis, List.infix_cons_iff]

/-- A text holds another as soon as that one stands somewhere. -/
theorem contains_iff_occurrences_ne_zero {text needle : String} (nonempty : needle.toList ≠ []) :
    contains text needle = true ↔ occurrences needle.toList text.toList ≠ 0 := by
  rw [Ne, occurrences_eq_zero_iff nonempty, not_not, contains, occursIn_iff]

/-- This function counts the places where a run stands that begins with the character of a code. -/
def occurrencesFrom (code : Nat) (more : List Char) : List Char → Nat
  | [] => 0
  | character :: rest =>
    bif Nat.beq character.toNat code && more.isPrefixOf rest then occurrencesFrom code more rest + 1
    else occurrencesFrom code more rest

/-- The count looks at one code before anything else, which lets it be evaluated quickly. -/
theorem occurrences_cons (first : Char) (more characters : List Char) :
    occurrences (first :: more) characters = occurrencesFrom first.toNat more characters := by
  induction characters with
  | nil => rfl
  | cons character rest inductionHypothesis =>
    have same : (first == character) = Nat.beq character.toNat first.toNat := by
      rw [Bool.eq_iff_iff, beq_iff_eq, Nat.beq_eq, eq_comm, Char.toNat_inj]
    rw [occurrences, occurrencesFrom, inductionHypothesis, List.isPrefixOf, same]
    cases Nat.beq character.toNat first.toNat && more.isPrefixOf rest with
    | false => exact Nat.zero_add _
    | true => exact Nat.add_comm ..

/-- A run crosses from one text into the next when it begins in the first and ends in the second. -/
def Crosses (needle left right : List Char) : Prop :=
  ∃ front back, front ≠ [] ∧ back ≠ [] ∧ needle = front ++ back ∧ front <:+ left ∧ back <+: right

/-- Where a run does not cross, both sides count for themselves. -/
theorem occurrences_append {needle left right : List Char} (nonempty : needle ≠ [])
    (apart : ¬ Crosses needle left right) :
    occurrences needle (left ++ right) = occurrences needle left + occurrences needle right := by
  induction left with
  | nil => simp [occurrences]
  | cons character left inductionHypothesis =>
    have further : ¬ Crosses needle left right := by
      rintro ⟨front, back, begun, ended, split, suffix, start⟩
      exact apart ⟨front, back, begun, ended, split, suffix.trans (List.suffix_cons ..), start⟩
    have here : needle <+: (character :: left) ++ right ↔ needle <+: character :: left := by
      refine ⟨fun start => ?_, fun start => start.trans (List.prefix_append ..)⟩
      rcases List.prefix_or_prefix_of_prefix start (List.prefix_append ..) with within | ⟨back, rfl⟩
      · exact within
      · by_cases ended : back = []
        · simp [ended]
        · exact absurd ⟨_, back, by simp, ended, rfl, List.suffix_rfl,
            (List.prefix_append_right_inj _).mp start⟩ apart
    simp only [← List.isPrefixOf_iff_prefix, List.cons_append] at here
    simp only [List.cons_append, occurrences, inductionHypothesis further, here, Nat.add_assoc]

/-- This test asks whether a text begins with a proper end of a run. -/
def finishes (needle characters : List Char) : Bool :=
  needle.tail.tails.any fun back => !back.isEmpty && back.isPrefixOf characters

/-- This test asks whether a text ends with a proper start of a run, or lies within such a start. -/
def opens (needle characters : List Char) : Bool :=
  needle.reverse.tail.tails.any fun front =>
    !front.isEmpty && (front.isPrefixOf characters.reverse || characters.reverse.isPrefixOf front)

/-- No run crosses into a text that does not finish it. -/
theorem not_crosses_of_finishes {needle left right : List Char} (fresh : finishes needle right = false) :
    ¬ Crosses needle left right := by
  rintro ⟨front, back, begun, ended, rfl, -, start⟩
  rw [← Bool.not_eq_true, finishes, List.any_eq_true] at fresh
  refine fresh ⟨back, ?_, by simpa [ended] using start⟩
  rw [List.mem_tails, List.tail_append_of_ne_nil begun]
  exact List.suffix_append ..

/-- No run crosses out of a text that does not open it, whatever came before. -/
theorem not_crosses_of_opens {needle characters : List Char} (before right : List Char)
    (closed : opens needle characters = false) : ¬ Crosses needle (before ++ characters) right := by
  rintro ⟨front, back, begun, ended, rfl, suffix, -⟩
  rw [← Bool.not_eq_true, opens, List.any_eq_true] at closed
  refine closed ⟨front.reverse, ?_, ?_⟩
  · rw [List.mem_tails, List.reverse_append, List.tail_append_of_ne_nil (by simpa using ended)]
    exact List.suffix_append ..
  · simpa [begun] using List.suffix_or_suffix_of_suffix suffix (List.suffix_append ..)

/-- No run crosses the end of a line that it has no part of. -/
theorem not_crosses_of_lineEnd {needle line right : List Char} (oneLine : '\n' ∉ needle) :
    ¬ Crosses needle (line ++ ['\n']) right := by
  rintro ⟨front, back, begun, -, rfl, suffix, -⟩
  rcases List.suffix_concat_iff.mp suffix with rfl | ⟨front, rfl, -⟩
  · exact begun rfl
  · simp at oneLine

/-- Blanks in front of a text do not count for a run that begins with something else. -/
theorem occurrences_indented {needle : List Char} (nonempty : needle ≠ []) (flush : needle.head? ≠ some ' ')
    (depth : Nat) (characters : List Char) :
    occurrences needle (List.replicate depth ' ' ++ characters) = occurrences needle characters := by
  obtain ⟨first, needle, rfl⟩ := List.exists_cons_of_ne_nil nonempty
  have other : first ≠ ' ' := by simpa using flush
  induction depth with
  | zero => simp
  | succ depth inductionHypothesis =>
    simpa [List.replicate_succ, occurrences, other] using inductionHypothesis

/-- Digits do not count for a run that holds something else. -/
theorem occurrences_toDigits {needle : List Char} (worded : ∃ character ∈ needle, character.isDigit = false)
    (number : Nat) : occurrences needle (Nat.toDigits 10 number) = 0 := by
  obtain ⟨character, mem, letter⟩ := worded
  rw [occurrences_eq_zero_iff (List.ne_nil_of_mem mem)]
  intro inside
  have digit := Nat.isDigit_of_mem_toDigits (by decide) (by decide) (inside.subset mem)
  simp [letter] at digit

end ContractWorks.Text
