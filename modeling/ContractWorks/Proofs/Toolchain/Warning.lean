import ContractWorks.Toolchain.Cargo
import Mathlib.Data.List.Infix
import Mathlib.Data.List.TakeWhile

namespace ContractWorks

namespace Text

/-- The rows of a text are what stands between its line feeds, without the blanks around it. -/
def rows (text : String) : List String :=
  (text.toList.splitOn '\n').map fun line => trim (String.ofList line)

/-- A blank at the end of a text is trimmed. -/
theorem trim_concat {blank : Char} (isBlank : isBlank blank = true) (front : List Char) :
    trim (String.ofList (front ++ [blank])) = trim (String.ofList front) := by
  have shorter : dropTrailingBlanks (dropBlanks (front ++ [blank])) = dropTrailingBlanks (dropBlanks front) := by
    rw [dropBlanks, List.dropWhile_append, List.dropWhile_cons_of_pos isBlank, List.dropWhile_nil]
    cases left : front.dropWhile Text.isBlank with
    | nil => rw [dropBlanks, left]; rfl
    | cons first rest =>
      rw [dropBlanks, left, List.isEmpty_cons, if_neg (by decide), dropTrailingBlanks, List.reverse_concat,
        List.dropWhile_cons_of_pos isBlank, dropTrailingBlanks]
  rw [trim, trim, String.toList_ofList, String.toList_ofList, shorter]

theorem trim_dropReturn (line : List Char) :
    trim (String.ofList (dropReturn line)) = trim (String.ofList line) := by
  rw [dropReturn]
  split
  · next ends =>
    have whole := List.dropLast_append_getLast? '\r' ends
    exact (trim_concat (by decide) _).symm.trans (congrArg (fun text => trim (String.ofList text)) whole)
  · rfl

/-- The lines of a text are the parts between its line feeds, but for an empty one at the end. -/
theorem splitLines_cases (text : List Char) :
    text.splitOn '\n' = splitLines text ∨ text.splitOn '\n' = splitLines text ++ [[]] := by
  induction text with
  | nil => exact .inr rfl
  | cons character rest inductionHypothesis =>
    rw [splitLines]
    by_cases ends : character = '\n'
    · have split : (character :: rest).splitOn '\n' = [] :: rest.splitOn '\n' := by
        rw [List.splitOn, List.splitOnP_cons_eq_if_modifyHead, if_pos (by simpa using ends), List.splitOn]
      rw [if_pos ends, split]
      exact inductionHypothesis.imp (congrArg ([] :: ·)) (congrArg ([] :: ·))
    · have split : (character :: rest).splitOn '\n' = (rest.splitOn '\n').modifyHead (character :: ·) := by
        rw [List.splitOn, List.splitOnP_cons_eq_if_modifyHead, if_neg (by simpa using ends), List.splitOn]
      rw [if_neg ends, split]
      rcases inductionHypothesis with same | longer
      · rw [same]
        cases lines : splitLines rest with
        | nil => exact absurd (same.trans lines) (List.splitOnP_ne_nil _ _)
        | cons line lines => exact .inl rfl
      · rw [longer]
        cases splitLines rest with
        | nil => exact .inl rfl
        | cons line lines => exact .inr rfl

/-- A test that no empty line passes finds the same among the lines and among the rows. -/
theorem filter_lines {test : String → Bool} (shown : test "" = false) (text : String) :
    ((lines text).map trim).filter test = (rows text).filter test := by
  have trimmed : (lines text).map trim = (splitLines text.toList).map fun line => trim (String.ofList line) := by
    rw [lines, List.map_map]
    exact List.map_congr_left fun line _ => trim_dropReturn line
  rw [trimmed, rows]
  rcases splitLines_cases text.toList with same | longer
  · rw [same]
  · have bare : trim (String.ofList []) = "" := rfl
    rw [longer, List.map_append, List.filter_append, List.map_singleton, bare,
      List.filter_cons_of_neg (Bool.eq_false_iff.mp shown), List.filter_nil, List.append_nil]

section Marks

variable {mark text : List Char} {test : List Char → Bool}

/-- This test holds of a mark with something that passes a test behind it. -/
def opensWith (mark : List Char) (test : List Char → Bool) (text : List Char) : Bool :=
  mark.isPrefixOf text && test (text.drop mark.length)

/-- This test holds of a text with a mark in it that something that passes a test stands behind. -/
def leadsTo (mark : List Char) (test : List Char → Bool) (text : List Char) : Bool :=
  text.tails.any (opensWith mark test)

theorem opensWith_iff : opensWith mark test text = true ↔ ∃ behind, text = mark ++ behind ∧ test behind = true := by
  rw [opensWith, Bool.and_eq_true, List.isPrefixOf_iff_prefix]
  constructor
  · rintro ⟨⟨behind, rfl⟩, passes⟩
    rw [List.drop_left] at passes
    exact ⟨behind, rfl, passes⟩
  · rintro ⟨behind, rfl, passes⟩
    rw [List.drop_left]
    exact ⟨List.prefix_append mark behind, passes⟩

theorem leadsTo_iff :
    leadsTo mark test text = true ↔ ∃ front behind, text = front ++ (mark ++ behind) ∧ test behind = true := by
  rw [leadsTo, List.any_eq_true]
  simp only [List.mem_tails, opensWith_iff]
  constructor
  · rintro ⟨-, ⟨front, rfl⟩, behind, rfl, passes⟩
    exact ⟨front, behind, rfl, passes⟩
  · rintro ⟨front, behind, rfl, passes⟩
    exact ⟨mark ++ behind, List.suffix_append front _, behind, rfl, passes⟩

end Marks

end Text

namespace Cargo

open Text (rows opensWith opensWith_iff leadsTo leadsTo_iff)

/-- This test holds of an optional note, which is nothing or begins with a blank. -/
def isNote (text : List Char) : Bool :=
  text.head?.all (· = ' ')

/-- This test holds of a number of warnings with an optional note. -/
def countsWarnings (text : List Char) : Bool :=
  !(text.takeWhile Char.isDigit).isEmpty &&
    opensWith " warning".toList (fun rest => isNote rest || opensWith ['s'] isNote rest) (text.dropWhile Char.isDigit)

/-- A tally is a line that counts the warnings of a package. -/
def isTally (line : String) : Bool :=
  opensWith "warning: `".toList (leadsTo "` (".toList (leadsTo ") generated ".toList countsWarnings)) line.toList

/-- The diagnostics of an output are its rows that warn and are no tallies. -/
def diagnostics (stderr : String) : List String :=
  (rows stderr).filter fun line => Text.startsWith line "warning:" && !isTally line

section Tally

variable {text : List Char} {line : String}

theorem isNote_iff : isNote text = true ↔ text = [] ∨ ∃ rest, text = ' ' :: rest := by
  cases text with
  | nil => simp [isNote]
  | cons first rest => simp [isNote]

/-- A number of warnings is written with digits, the noun for it and an optional note. -/
theorem countsWarnings_iff : countsWarnings text = true ↔ ∃ number noun note,
    text = number ++ (noun ++ note) ∧ number ≠ [] ∧ (∀ digit ∈ number, digit.isDigit = true) ∧
    (noun = " warning".toList ∨ noun = " warnings".toList) ∧ (note = [] ∨ ∃ rest, note = ' ' :: rest) := by
  rw [countsWarnings, Bool.and_eq_true, opensWith_iff, Bool.not_eq_true', List.isEmpty_eq_false_iff]
  simp only [Bool.or_eq_true, opensWith_iff, isNote_iff]
  constructor
  · rintro ⟨nonempty, behind, shape, ends⟩
    have whole : text = text.takeWhile Char.isDigit ++ (" warning".toList ++ behind) := by
      rw [← shape, List.takeWhile_append_dropWhile]
    have digits : ∀ digit ∈ text.takeWhile Char.isDigit, digit.isDigit = true := fun _ => List.mem_takeWhile_imp
    rcases ends with note | ⟨note, rfl, optional⟩
    · exact ⟨_, " warning".toList, behind, whole, nonempty, digits, .inl rfl, note⟩
    · exact ⟨_, " warnings".toList, note, whole, nonempty, digits, .inr rfl, optional⟩
  · rintro ⟨number, noun, note, rfl, nonempty, digits, written, optional⟩
    obtain ⟨ending, shape, ends⟩ : ∃ ending, noun ++ note = " warning".toList ++ ending ∧
        ((ending = [] ∨ ∃ rest, ending = ' ' :: rest) ∨
          ∃ rest, ending = ['s'] ++ rest ∧ (rest = [] ∨ ∃ further, rest = ' ' :: further)) := by
      rcases written with rfl | rfl
      · exact ⟨note, rfl, .inl optional⟩
      · exact ⟨'s' :: note, rfl, .inr ⟨note, rfl, optional⟩⟩
    have taken : (number ++ (noun ++ note)).takeWhile Char.isDigit = number := by
      rw [shape, List.takeWhile_append_of_pos digits]
      exact List.append_nil number
    have left : (number ++ (noun ++ note)).dropWhile Char.isDigit = " warning".toList ++ ending := by
      rw [shape, List.dropWhile_append_of_pos digits]
      rfl
    rw [taken, left]
    exact ⟨nonempty, ending, rfl, ends⟩

/-- A tally has the form in which the warnings of a package and a target are counted. -/
theorem isTally_iff : isTally line = true ↔ ∃ package target number noun note,
    line.toList = "warning: `".toList ++ (package ++ ("` (".toList ++ (target ++ (") generated ".toList ++
      (number ++ (noun ++ note)))))) ∧ number ≠ [] ∧ (∀ digit ∈ number, digit.isDigit = true) ∧
    (noun = " warning".toList ∨ noun = " warnings".toList) ∧ (note = [] ∨ ∃ rest, note = ' ' :: rest) := by
  rw [isTally, opensWith_iff]
  simp only [leadsTo_iff, countsWarnings_iff]
  constructor
  · rintro ⟨-, shape, package, -, rfl, target, -, rfl, number, noun, note, rfl, form⟩
    exact ⟨package, target, number, noun, note, shape, form⟩
  · rintro ⟨package, target, number, noun, note, shape, form⟩
    exact ⟨_, shape, package, _, rfl, target, _, rfl, number, noun, note, rfl, form⟩

/-- The sign that a line counts warnings stands in every tally. -/
theorem contains_of_isTally (tally : isTally line = true) : Text.contains line ") generated " = true := by
  obtain ⟨package, target, number, noun, note, shape, -⟩ := isTally_iff.mp tally
  rw [Text.contains, Text.occursIn_iff, shape]
  exact ⟨"warning: `".toList ++ (package ++ ("` (".toList ++ target)), number ++ (noun ++ note), by
    simp only [List.append_assoc]⟩

theorem isWarning_eq (line : String) : isWarning line =
    (!Text.contains line ") generated " && (Text.startsWith line "warning:" && !isTally line)) := by
  cases mentions : Text.contains line ") generated " with
  | true => rw [isWarning, mentions, Bool.not_true, Bool.and_false, Bool.false_and]
  | false =>
    have other : isTally line = false := by
      rw [Bool.eq_false_iff]
      exact fun tally => absurd (contains_of_isTally tally) (Bool.eq_false_iff.mp mentions)
    rw [isWarning, mentions, other, Bool.not_false, Bool.and_true, Bool.true_and]

end Tally

/-- The warnings of an output are its diagnostics, in their order and as often as they stand there, without those that
hold the sign that a line counts warnings. So no tally is among them, and none of the diagnostics is lost just when none
holds that sign. -/
theorem warnings_exact (stderr : String) :
    warnings stderr = (diagnostics stderr).filter (fun line => !Text.contains line ") generated ") ∧
    (∀ line ∈ warnings stderr, Text.startsWith line "warning:" = true ∧ isTally line = false) ∧
    (warnings stderr = diagnostics stderr ↔
      ∀ line ∈ diagnostics stderr, Text.contains line ") generated " = false) := by
  have filtered : warnings stderr = (diagnostics stderr).filter fun line => !Text.contains line ") generated " := by
    rw [warnings, Text.filter_lines (by decide), diagnostics, List.filter_filter]
    exact List.filter_congr fun line _ => isWarning_eq line
  refine ⟨filtered, fun line member => ?announced, ?whole⟩
  case announced =>
    rw [filtered] at member
    have passes := (List.mem_filter.mp (List.mem_filter.mp member).1).2
    rwa [Bool.and_eq_true, Bool.not_eq_true'] at passes
  case whole =>
    rw [filtered, List.filter_eq_self]
    simp only [Bool.not_eq_true']

/-- The compiler complains here that a function is deprecated. -/
def deprecation : String :=
  "warning: use of deprecated function `mint`: the (v2) generated one is safe"

/-- A diagnostic that is no tally is lost for the words in it. -/
theorem diagnostic_dropped : diagnostics deprecation = [deprecation] ∧ warnings deprecation = [] := by
  have chars : deprecation.toList = _ := String.toList_ofList
  have whole : rows deprecation = [deprecation] := by
    simp only [rows, Text.trim, String.toList_ofList, chars]
    rfl
  have starts : Text.startsWith deprecation "warning:" = true := by
    rw [Text.startsWith, chars]
    rfl
  have other : isTally deprecation = false := by
    rw [isTally, chars]
    rfl
  have mentions : Text.contains deprecation ") generated " = true := by
    rw [Text.contains, chars]
    rfl
  constructor
  · rw [diagnostics, whole, List.filter_cons_of_pos (by rw [starts, other]; rfl), List.filter_nil]
  · have refused : ¬ isWarning deprecation = true := by
      rw [isWarning, starts, mentions]
      decide
    rw [warnings, Text.filter_lines (by decide), whole, List.filter_cons_of_neg refused, List.filter_nil]

end Cargo

end ContractWorks
