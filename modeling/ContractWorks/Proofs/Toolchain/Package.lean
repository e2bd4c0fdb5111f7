import ContractWorks.Proofs.Toolchain.Errand
import Mathlib.Computability.RegularExpressions

namespace ContractWorks

namespace Path

theorem names_append (before behind : List Char) :
    names (String.ofList (before ++ '/' :: behind)) =
      names (String.ofList before) ++ names (String.ofList behind) := by
  simp only [names, String.toList_ofList, splitSlash_append, List.filterMap_append]

/-- The last name of a path is the one that was put behind it. -/
theorem fileName?_join {base name : String} (proper : isProper name = true) : fileName? (join base name) = some name := by
  have single := not_mem_of_proper ⟨name, proper⟩
  have own : names name = [name] := by
    simp only [isProper, Bool.and_eq_true, decide_eq_true_eq, ne_eq] at proper
    obtain ⟨⟨⟨full, point⟩, -⟩, -⟩ := proper
    have shown : ¬ (name.toList = [] ∨ name.toList = ['.']) := by
      rw [← String.toList_inj] at full point
      exact fun short => short.elim full point
    rw [names, splitSlash_of_not_mem single, List.filterMap_cons, if_neg shown, String.ofList_toList]
    rfl
  have whole : join base name = String.ofList (stem base ++ name.toList) := by
    rw [← toList_join (head_ne_slash single), String.ofList_toList]
  rw [fileName?, whole]
  rcases stem_cases base with empty | ⟨before, shape⟩
  · rw [empty, List.nil_append, String.ofList_toList, own]
    rfl
  · rw [shape, List.append_assoc, List.singleton_append, names_append, String.ofList_toList, own]
    exact List.getLast?_concat

end Path

namespace Cargo

/-- This function splits a text at each character that is no letter or digit. -/
def stretches (text : List Char) : List (List Char) :=
  text.splitOnP fun character => !character.isAlphanum

/-- The runs of a text are its longest stretches of letters and digits, in their order. -/
def runs (text : List Char) : List (List Char) :=
  (stretches text).filter fun run => !run.isEmpty

/-- The words of a name are its runs in lower case. -/
def words (name : String) : List (List Char) :=
  (runs name.toList).map (List.map Char.toLower)

/-- Runs are leaderless when there are none, and when the first one begins with a digit. -/
def leaderless : List (List Char) → Bool
  | [] => true
  | run :: _ => run.head?.any Char.isDigit

/-- Leaderless runs get a word in front. -/
def packageWords (name : String) : List (List Char) :=
  if leaderless (runs name.toList) then "contract".toList :: words name else words name

section Hyphens

/-- This function puts hyphens between words. -/
def hyphenate (words : List (List Char)) : List Char :=
  ['-'].intercalate words

/-- This function writes a hyphen in front of each word. -/
def hyphensBefore (words : List (List Char)) : List Char :=
  words.flatMap ('-' :: ·)

theorem hyphenate_cons_cons (word next : List Char) (words : List (List Char)) :
    hyphenate (word :: next :: words) = word ++ '-' :: hyphenate (next :: words) := by
  rw [hyphenate, List.intercalate_cons_cons, List.append_assoc, List.singleton_append, hyphenate]

theorem hyphenate_cons (word : List Char) (words : List (List Char)) :
    hyphenate (word :: words) = word ++ hyphensBefore words := by
  induction words generalizing word with
  | nil => simp [hyphenate, hyphensBefore]
  | cons next words inductionHypothesis =>
    rw [hyphenate_cons_cons, inductionHypothesis]
    simp [hyphensBefore]

end Hyphens

section Fold

/-- This function gives the words of stretches that were split apart. -/
def wordsOf (stretches : List (List Char)) : List (List Char) :=
  (stretches.filter fun run => !run.isEmpty).map (List.map Char.toLower)

/-- This function gives what is left of a reversed package name at the end of the text. -/
def ended (reversed : List Char) : List Char :=
  (reversed.dropWhile (· = '-')).reverse

variable {character last : Char} {text before first : List Char} {rest : List (List Char)}

theorem ended_cons (plain : last ≠ '-') (before : List Char) : ended (last :: before) = before.reverse ++ [last] := by
  rw [ended, List.dropWhile_cons_of_neg (by simpa using plain), List.reverse_cons]

theorem toLower_ne_hyphen (allowed : character.isAlphanum = true) : character.toLower ≠ '-' := by
  intro same
  have cases := toLower_cases allowed
  rw [same] at cases
  revert cases
  decide

theorem addChar_of_isAlphanum (allowed : character.isAlphanum = true) (reversed : List Char) :
    addChar reversed character = character.toLower :: reversed := by
  rw [addChar.eq_def, if_pos allowed]

theorem addChar_of_plain (other : character.isAlphanum = false) (plain : last ≠ '-') (before : List Char) :
    addChar (last :: before) character = '-' :: last :: before := by
  rw [addChar.eq_def, if_neg (Bool.eq_false_iff.mp other)]
  split
  · next absent => cases absent
  · next same => exact absurd (List.cons.inj same).1 plain
  · rfl

theorem addChar_of_hyphen (other : character.isAlphanum = false) (before : List Char) :
    addChar ('-' :: before) character = '-' :: before := by
  rw [addChar.eq_def, if_neg (Bool.eq_false_iff.mp other)]
  rfl

theorem exists_stretches (text : List Char) : ∃ first rest, stretches text = first :: rest :=
  List.exists_cons_of_ne_nil (List.splitOnP_ne_nil _ _)

theorem stretches_of_isAlphanum (allowed : character.isAlphanum = true) (split : stretches text = first :: rest) :
    stretches (character :: text) = (character :: first) :: rest := by
  rw [stretches, List.splitOnP_cons_eq_if_modifyHead, allowed]
  rw [stretches] at split
  simp [split]

theorem stretches_of_other (other : character.isAlphanum = false) (text : List Char) :
    stretches (character :: text) = [] :: stretches text := by
  rw [stretches, List.splitOnP_cons_eq_if_modifyHead, other]
  rfl

/-- A name that is read on goes on with what is left of the run it is in, or with a hyphen if it stands at one, and then
with the words that follow. -/
theorem ended_foldl (text : List Char) : ∀ {last : Char} (before : List Char), last ≠ '-' →
    (∀ {first : List Char} {rest : List (List Char)}, stretches text = first :: rest →
      ended (text.foldl addChar (last :: before)) =
        before.reverse ++ last :: (first.map Char.toLower ++ hyphensBefore (wordsOf rest))) ∧
    ended (text.foldl addChar ('-' :: last :: before)) =
      before.reverse ++ last :: hyphensBefore (wordsOf (stretches text)) := by
  -- A hyphen stays only if a run follows it, so a name that stands at one is carried along beside one that does not.
  induction text with
  | nil =>
    intro last before plain
    have bare : ended ('-' :: last :: before) = before.reverse ++ [last] := by
      rw [← ended_cons plain before, ended, List.dropWhile_cons_of_pos (by simp), ended]
    refine ⟨fun {first rest} split => ?_, bare⟩
    obtain ⟨rfl, rfl⟩ := List.cons.inj split
    exact ended_cons plain before
  | cons character text inductionHypothesis =>
    intro last before plain
    obtain ⟨next, more, split⟩ := exists_stretches text
    cases allowed : character.isAlphanum with
    | true =>
      have further {left : List Char} := (inductionHypothesis left (toLower_ne_hyphen allowed)).1 split
      refine ⟨fun {first rest} whole => ?_, ?_⟩
      · rw [stretches_of_isAlphanum allowed split] at whole
        obtain ⟨rfl, rfl⟩ := List.cons.inj whole
        rw [List.foldl_cons, addChar_of_isAlphanum allowed, further]
        simp
      · rw [List.foldl_cons, addChar_of_isAlphanum allowed, further, stretches_of_isAlphanum allowed split]
        simp [wordsOf, hyphensBefore]
    | false =>
      have further := (inductionHypothesis before plain).2
      refine ⟨fun {first rest} whole => ?_, ?_⟩
      · rw [stretches_of_other allowed] at whole
        obtain ⟨rfl, rfl⟩ := List.cons.inj whole
        rw [List.foldl_cons, addChar_of_plain allowed plain, further]
        rfl
      · rw [List.foldl_cons, addChar_of_hyphen allowed, further, stretches_of_other allowed]
        rfl

/-- A contract name is read as its words with hyphens between them. -/
theorem hyphenated_eq (contractName : String) : hyphenated contractName = hyphenate (words contractName) := by
  have read (text : List Char) : ended (text.foldl addChar []) = hyphenate (wordsOf (stretches text)) := by
    induction text with
    | nil => rfl
    | cons character text inductionHypothesis =>
      obtain ⟨next, more, split⟩ := exists_stretches text
      cases allowed : character.isAlphanum with
      | true =>
        have further := (ended_foldl text [] (toLower_ne_hyphen allowed)).1 split
        rw [List.foldl_cons, addChar_of_isAlphanum allowed, further, stretches_of_isAlphanum allowed split]
        exact (hyphenate_cons ((character :: next).map Char.toLower) (wordsOf more)).symm
      | false =>
        rw [List.foldl_cons, addChar.eq_def, if_neg (Bool.eq_false_iff.mp allowed), stretches_of_other allowed]
        exact inductionHypothesis
  exact read contractName.toList

end Fold

section Letters

variable {character : Char}

theorem isLower_iff : character.isLower = true ↔ 97 ≤ character.toNat ∧ character.toNat ≤ 122 := by
  have tests : character.isLower = true ↔ 'a'.val ≤ character.val ∧ character.val ≤ 'z'.val :=
    Bool.and_eq_true_iff.trans (and_congr decide_eq_true_iff decide_eq_true_iff)
  exact tests.trans (and_congr UInt32.le_iff_toNat_le UInt32.le_iff_toNat_le)

theorem isUpper_iff : character.isUpper = true ↔ 65 ≤ character.toNat ∧ character.toNat ≤ 90 := by
  have tests : character.isUpper = true ↔ 'A'.val ≤ character.val ∧ character.val ≤ 'Z'.val := decide_eq_true_iff
  exact tests.trans (and_congr UInt32.le_iff_toNat_le UInt32.le_iff_toNat_le)

theorem isDigit_iff : character.isDigit = true ↔ 48 ≤ character.toNat ∧ character.toNat ≤ 57 :=
  Char.isDigit_iff_toNat

theorem isDigit_of_isLower (small : character.isLower = true) : character.isDigit = false := by
  rw [Bool.eq_false_iff, Ne, isDigit_iff]
  have bounds := isLower_iff.mp small
  omega

/-- The characters of words are small letters and digits. -/
def IsPlain (character : Char) : Prop :=
  character.isLower = true ∨ character.isDigit = true

theorem IsPlain.ne_hyphen (plain : IsPlain character) : character ≠ '-' := by
  rintro rfl
  rcases plain with small | digit
  · exact absurd small (by decide)
  · exact absurd digit (by decide)

theorem IsPlain.isAlphanum (plain : IsPlain character) : character.isAlphanum = true := by
  rcases plain with small | digit
  · have letter : character.isAlpha = true := Bool.or_eq_true_iff.mpr (.inr small)
    exact Bool.or_eq_true_iff.mpr (.inl letter)
  · exact Bool.or_eq_true_iff.mpr (.inr digit)

theorem toLower_of_not_isUpper (other : character.isUpper = false) : character.toLower = character :=
  dif_neg fun capital => absurd (decide_eq_true capital) (Bool.eq_false_iff.mp other)

theorem IsPlain.toLower (plain : IsPlain character) : character.toLower = character := by
  apply toLower_of_not_isUpper
  rw [Bool.eq_false_iff, Ne, isUpper_iff]
  rcases plain with small | digit
  · have bounds := isLower_iff.mp small
    omega
  · have bounds := isDigit_iff.mp digit
    omega

/-- Lower case makes no digit and takes none away. -/
theorem isDigit_toLower (character : Char) : character.toLower.isDigit = character.isDigit := by
  cases upper : character.isUpper with
  | false => rw [toLower_of_not_isUpper upper]
  | true =>
    have digit : character.isDigit = false := by
      rw [Bool.eq_false_iff, Ne, isDigit_iff]
      have bounds := isUpper_iff.mp upper
      omega
    rw [isDigit_of_isLower (isLower_toLower upper), digit]

end Letters

section Words

variable {character : Char} {contractName : String} {word run text : List Char} {list : List (List Char)}

/-- A word of a package name has small letters and digits, and nothing else. -/
structure IsWord (word : List Char) : Prop where
  nonempty : word ≠ []
  plain : ∀ character ∈ word, IsPlain character

/-- Words make a package name when the first one begins with a letter. -/
structure Made (list : List (List Char)) : Prop where
  words : ∀ word ∈ list, IsWord word
  led : ∃ letter rest more, list = (letter :: rest) :: more ∧ letter.isLower = true

theorem isAlphanum_of_mem_stretches (text : List Char) :
    ∀ run ∈ stretches text, ∀ character ∈ run, character.isAlphanum = true := by
  induction text with
  | nil =>
    intro run member
    obtain rfl : run = [] := List.mem_singleton.mp member
    simp
  | cons first text inductionHypothesis =>
    cases allowed : first.isAlphanum with
    | true =>
      obtain ⟨next, more, split⟩ := exists_stretches text
      rw [split] at inductionHypothesis
      rw [stretches_of_isAlphanum allowed split]
      obtain ⟨here, further⟩ := List.forall_mem_cons.mp inductionHypothesis
      exact List.forall_mem_cons.mpr ⟨List.forall_mem_cons.mpr ⟨allowed, here⟩, further⟩
    | false =>
      rw [stretches_of_other allowed]
      exact List.forall_mem_cons.mpr ⟨by simp, inductionHypothesis⟩

theorem isWord_of_mem_runs (member : run ∈ runs text) : IsWord (run.map Char.toLower) := by
  obtain ⟨inside, nonempty⟩ := List.mem_filter.mp member
  refine ⟨by simpa using nonempty, fun character present => ?_⟩
  obtain ⟨former, there, rfl⟩ := List.mem_map.mp present
  exact toLower_cases (isAlphanum_of_mem_stretches text run inside former there)

/-- Where a text has runs, the first one has a first character. -/
theorem runs_cases (text : List Char) : runs text = [] ∨ ∃ first rest more, runs text = (first :: rest) :: more := by
  cases shape : runs text with
  | nil => exact .inl rfl
  | cons run more =>
    have member : run ∈ runs text := by rw [shape]; exact List.mem_cons_self
    have nonempty : run ≠ [] := by simpa using (List.mem_filter.mp member).2
    obtain ⟨first, rest, rfl⟩ := List.exists_cons_of_ne_nil nonempty
    exact .inr ⟨first, rest, more, rfl⟩

theorem isWord_contract : IsWord "contract".toList where
  nonempty := by decide
  plain character member := .inl (List.all_eq_true.mp (by decide : "contract".toList.all Char.isLower) character member)

/-- The words of a package name make one, whatever the contract is called. -/
theorem made_packageWords (contractName : String) : Made (packageWords contractName) := by
  have own : ∀ word ∈ words contractName, IsWord word := by
    intro word member
    obtain ⟨run, inside, rfl⟩ := List.mem_map.mp member
    exact isWord_of_mem_runs inside
  rw [packageWords]
  cases leaderless : leaderless (runs contractName.toList) with
  | true => exact ⟨List.forall_mem_cons.mpr ⟨isWord_contract, own⟩, 'c', "ontract".toList, _, rfl, by decide⟩
  | false =>
    refine ⟨own, ?_⟩
    rw [words] at own ⊢
    rcases runs_cases contractName.toList with none | ⟨first, rest, more, shape⟩
    · rw [none] at leaderless
      exact absurd leaderless (by decide)
    · rw [shape] at leaderless own ⊢
      have letter : ¬ first.toLower.isDigit = true := by
        rw [isDigit_toLower]
        simpa [Cargo.leaderless] using leaderless
      have plain := (own _ List.mem_cons_self).plain first.toLower List.mem_cons_self
      exact ⟨first.toLower, rest.map Char.toLower, _, rfl, plain.resolve_right letter⟩

/-- A package name is its words with hyphens between them. -/
theorem toList_packageName (contractName : String) :
    (packageName contractName).toList = hyphenate (packageWords contractName) := by
  rw [packageName, hyphenated_eq, packageWords, words]
  rcases runs_cases contractName.toList with none | ⟨first, rest, more, shape⟩
  · rw [none]
    decide
  · have plain : hyphenate (((first :: rest) :: more).map (List.map Char.toLower)) =
        first.toLower :: (rest.map Char.toLower ++ hyphensBefore (more.map (List.map Char.toLower))) :=
      hyphenate_cons _ _
    rw [shape, plain]
    dsimp only
    rw [isDigit_toLower, leaderless, List.head?_cons, Option.any_some]
    cases first.isDigit with
    | true =>
      have front (further : List Char) : "contract-".toList ++ further = "contract".toList ++ '-' :: further := rfl
      rw [if_pos rfl, if_pos rfl, hyphenate_cons, String.toList_append, front]
      exact congrArg (fun further => "contract".toList ++ '-' :: further) String.toList_ofList
    | false => rw [if_neg (by decide), if_neg (by decide), String.toList_ofList, plain]

theorem stretches_hyphenate (made : ∀ word ∈ list, IsWord word) : ∀ {word : List Char}, IsWord word →
    stretches (hyphenate (word :: list)) = word :: list := by
  have passes {word : List Char} (isWord : IsWord word) : ∀ character ∈ word, (!character.isAlphanum) = false :=
    fun character member => by rw [(isWord.plain character member).isAlphanum]; rfl
  induction list with
  | nil =>
    intro word isWord
    rw [hyphenate_cons, hyphensBefore, List.flatMap_nil, List.append_nil]
    exact List.splitOnP_eq_singleton (passes isWord)
  | cons next list inductionHypothesis =>
    intro word isWord
    obtain ⟨nextIsWord, further⟩ := List.forall_mem_cons.mp made
    rw [hyphenate_cons_cons, stretches, List.splitOnP_append_cons_of_forall_mem (passes isWord) '-' (by decide)]
    exact congrArg (word :: ·) (inductionHypothesis further nextIsWord)

/-- The words that make a package name are its runs. -/
theorem runs_hyphenate (made : Made list) : runs (hyphenate list) = list := by
  obtain ⟨words, letter, rest, more, rfl, -⟩ := made
  obtain ⟨first, others⟩ := List.forall_mem_cons.mp words
  rw [runs, stretches_hyphenate others first, List.filter_eq_self]
  exact fun word member => by simpa using (words word member).nonempty

/-- A text that is made of words as a package name is a package name as it stands. -/
theorem packageName_of_made (made : Made list) :
    packageName (String.ofList (hyphenate list)) = String.ofList (hyphenate list) := by
  apply String.toList_inj.mp
  have own : runs (String.ofList (hyphenate list)).toList = list := by rw [String.toList_ofList, runs_hyphenate made]
  obtain ⟨isWords, letter, rest, more, rfl, small⟩ := made
  have lowered : ∀ word ∈ (letter :: rest) :: more, word.map Char.toLower = word := by
    intro word member
    have kept : ∀ character ∈ word, character.toLower = character :=
      fun character present => ((isWords word member).plain character present).toLower
    rw [List.map_congr_left kept, List.map_id']
  rw [toList_packageName, packageWords, words, own, leaderless, List.head?_cons, Option.any_some,
    isDigit_of_isLower small, if_neg (by decide), List.map_congr_left lowered, List.map_id', String.toList_ofList]

end Words

section Shape

variable {character : Char} {characters text : List Char} {list : List (List Char)}

/-- This function gives the characters from one to another. -/
def between (first last : Char) : List Char :=
  (List.range' first.toNat (last.toNat + 1 - first.toNat)).map Char.ofNat

/-- This function gives the expression for one of some characters. -/
def oneOf (characters : List Char) : RegularExpression Char :=
  characters.foldr (fun character others => .char character + others) 0

/-- This expression is `[a-z]`. -/
def smallLetter : RegularExpression Char :=
  oneOf (between 'a' 'z')

/-- This expression is `[a-z0-9]`. -/
def smallLetterOrDigit : RegularExpression Char :=
  smallLetter + oneOf (between '0' '9')

/-- This expression is `[a-z][a-z0-9]*(-[a-z0-9]+)*`. -/
def packageShape : RegularExpression Char :=
  smallLetter * smallLetterOrDigit.star * (.char '-' * (smallLetterOrDigit * smallLetterOrDigit.star)).star

theorem mem_oneOf : text ∈ (oneOf characters).matches' ↔ ∃ character ∈ characters, text = [character] := by
  induction characters with
  | nil =>
    rw [oneOf, List.foldr_nil, RegularExpression.matches'_zero]
    simp
  | cons first others inductionHypothesis =>
    rw [oneOf, List.foldr_cons, ← oneOf, RegularExpression.matches'_add, Language.mem_add, inductionHypothesis,
      RegularExpression.matches'_char, List.exists_mem_cons_iff]
    rfl

theorem mem_between {first last : Char} (lower : first.toNat ≤ character.toNat) (upper : character.toNat ≤ last.toNat) :
    character ∈ between first last :=
  List.mem_map.mpr ⟨character.toNat, List.mem_range'_1.mpr ⟨lower, by omega⟩, Char.ofNat_toNat character⟩

theorem mem_smallLetter :
    text ∈ smallLetter.matches' ↔ ∃ character, text = [character] ∧ character.isLower = true := by
  have listed (character : Char) : character ∈ between 'a' 'z' ↔ character.isLower = true := by
    refine ⟨List.all_eq_true.mp (by decide : (between 'a' 'z').all Char.isLower) character, fun small => ?_⟩
    exact mem_between (isLower_iff.mp small).1 (isLower_iff.mp small).2
  rw [smallLetter, mem_oneOf]
  simp only [listed, and_comm]

theorem mem_smallLetterOrDigit :
    text ∈ smallLetterOrDigit.matches' ↔ ∃ character, text = [character] ∧ IsPlain character := by
  have listed (character : Char) : character ∈ between '0' '9' ↔ character.isDigit = true := by
    refine ⟨List.all_eq_true.mp (by decide : (between '0' '9').all Char.isDigit) character, fun digit => ?_⟩
    exact mem_between (isDigit_iff.mp digit).1 (isDigit_iff.mp digit).2
  rw [smallLetterOrDigit, RegularExpression.matches'_add, Language.mem_add, mem_smallLetter, mem_oneOf]
  simp only [listed, IsPlain, and_comm, or_and_right, exists_or]

theorem mem_star (text : List Char) :
    text ∈ smallLetterOrDigit.star.matches' ↔ ∀ character ∈ text, IsPlain character := by
  rw [RegularExpression.matches'_star, Language.mem_kstar]
  constructor
  · rintro ⟨parts, rfl, single⟩ character member
    obtain ⟨part, inside, there⟩ := List.mem_flatten.mp member
    obtain ⟨only, rfl, plain⟩ := mem_smallLetterOrDigit.mp (single part inside)
    rwa [List.mem_singleton.mp there]
  · intro plain
    refine ⟨text.map ([·]), ?_, fun part member => ?_⟩
    · rw [← List.flatMap_def, List.flatMap_singleton']
    · obtain ⟨character, inside, rfl⟩ := List.mem_map.mp member
      exact mem_smallLetterOrDigit.mpr ⟨character, rfl, plain character inside⟩

theorem mem_plus (word : List Char) :
    word ∈ (smallLetterOrDigit * smallLetterOrDigit.star).matches' ↔ IsWord word := by
  rw [RegularExpression.matches'_mul, Language.mem_mul]
  constructor
  · rintro ⟨front, single, back, many, rfl⟩
    obtain ⟨first, rfl, plain⟩ := mem_smallLetterOrDigit.mp single
    exact ⟨List.cons_ne_nil _ _, List.forall_mem_cons.mpr ⟨plain, (mem_star back).mp many⟩⟩
  · rintro ⟨nonempty, plain⟩
    obtain ⟨first, back, rfl⟩ := List.exists_cons_of_ne_nil nonempty
    obtain ⟨here, further⟩ := List.forall_mem_cons.mp plain
    exact ⟨[first], mem_smallLetterOrDigit.mpr ⟨first, rfl, here⟩, back, (mem_star back).mpr further, rfl⟩

theorem mem_hyphens (text : List Char) :
    text ∈ (RegularExpression.char '-' * (smallLetterOrDigit * smallLetterOrDigit.star)).star.matches' ↔
      ∃ list, (∀ word ∈ list, IsWord word) ∧ text = hyphensBefore list := by
  have part (piece : List Char) :
      piece ∈ (RegularExpression.char '-' * (smallLetterOrDigit * smallLetterOrDigit.star)).matches' ↔
        ∃ word, IsWord word ∧ piece = '-' :: word := by
    rw [RegularExpression.matches'_mul, Language.mem_mul]
    constructor
    · rintro ⟨front, hyphen, word, isWord, rfl⟩
      obtain rfl : front = ['-'] := hyphen
      exact ⟨word, (mem_plus word).mp isWord, rfl⟩
    · rintro ⟨word, isWord, rfl⟩
      exact ⟨['-'], rfl, word, (mem_plus word).mpr isWord, rfl⟩
  rw [RegularExpression.matches'_star, Language.mem_kstar]
  constructor
  · rintro ⟨pieces, rfl, each⟩
    induction pieces with
    | nil => exact ⟨[], by simp, rfl⟩
    | cons piece pieces inductionHypothesis =>
      obtain ⟨here, further⟩ := List.forall_mem_cons.mp each
      obtain ⟨word, isWord, rfl⟩ := (part piece).mp here
      obtain ⟨list, isWords, same⟩ := inductionHypothesis further
      refine ⟨word :: list, List.forall_mem_cons.mpr ⟨isWord, isWords⟩, ?_⟩
      rw [List.flatten_cons, same]
      rfl
  · rintro ⟨list, isWords, rfl⟩
    refine ⟨list.map ('-' :: ·), List.flatMap_def, fun piece member => ?_⟩
    obtain ⟨word, inside, rfl⟩ := List.mem_map.mp member
    exact (part _).mpr ⟨word, isWords word inside, rfl⟩

/-- The texts of the shape of a package name are those that are made of words as one. -/
theorem mem_packageShape : text ∈ packageShape.matches' ↔ ∃ list, Made list ∧ text = hyphenate list := by
  rw [packageShape, RegularExpression.matches'_mul, RegularExpression.matches'_mul, Language.mem_mul]
  simp only [Language.mem_mul, mem_hyphens, mem_star, mem_smallLetter]
  constructor
  · rintro ⟨-, ⟨-, ⟨letter, rfl, small⟩, rest, plain, rfl⟩, -, ⟨more, isWords, rfl⟩, rfl⟩
    have isWord : IsWord (letter :: rest) := ⟨List.cons_ne_nil _ _, List.forall_mem_cons.mpr ⟨.inl small, plain⟩⟩
    have made : Made ((letter :: rest) :: more) :=
      ⟨List.forall_mem_cons.mpr ⟨isWord, isWords⟩, letter, rest, more, rfl, small⟩
    exact ⟨_, made, (hyphenate_cons _ _).symm⟩
  · rintro ⟨-, ⟨isWords, letter, rest, more, rfl, small⟩, rfl⟩
    obtain ⟨isWord, others⟩ := List.forall_mem_cons.mp isWords
    have plain := (List.forall_mem_cons.mp isWord.plain).2
    exact ⟨letter :: rest, ⟨[letter], ⟨letter, rfl, small⟩, rest, plain, rfl⟩, hyphensBefore more, ⟨more, others, rfl⟩,
      (hyphenate_cons _ _).symm⟩

end Shape

section Hyphenation

variable {word text : List Char} {list : List (List Char)}

/-- A text is tidy when no hyphen leads it, ends it or follows another. -/
structure Tidy (text : List Char) : Prop where
  nonempty : text ≠ []
  front : text.head? ≠ some '-'
  back : text.getLast? ≠ some '-'
  apart : text.IsChain fun character next => ¬ (character = '-' ∧ next = '-')

theorem Tidy.not_infix (tidy : Tidy text) : ¬ ['-', '-'] <:+: text := by
  intro doubled
  simpa using tidy.apart.infix doubled

theorem IsWord.tidy (isWord : IsWord word) : Tidy word where
  nonempty := isWord.nonempty
  front leads := (isWord.plain _ (List.mem_of_mem_head? leads)).ne_hyphen rfl
  back ends := (isWord.plain _ (List.mem_of_getLast? ends)).ne_hyphen rfl
  apart := by
    refine List.Pairwise.isChain (List.pairwise_of_forall_mem_list fun character present next _ both => ?_)
    exact (isWord.plain character present).ne_hyphen both.1

theorem Tidy.join (first : Tidy word) (second : Tidy text) : Tidy (word ++ '-' :: text) where
  nonempty := by simp
  front := by
    rw [List.head?_append_of_ne_nil _ first.nonempty]
    exact first.front
  back := by
    rw [List.getLast?_append_of_ne_nil _ (by simp), List.getLast?_cons_of_ne_nil second.nonempty]
    exact second.back
  apart := by
    refine List.isChain_append.mpr ⟨first.apart, List.isChain_cons.mpr ⟨?_, second.apart⟩, ?_⟩
    · rintro next leads ⟨-, rfl⟩
      exact second.front leads
    · rintro character ends next - ⟨rfl, -⟩
      exact first.back ends

theorem tidy_hyphenate (isWords : ∀ word ∈ list, IsWord word) : ∀ {word : List Char}, IsWord word →
    Tidy (hyphenate (word :: list)) := by
  induction list with
  | nil =>
    intro word isWord
    rw [hyphenate_cons, hyphensBefore, List.flatMap_nil, List.append_nil]
    exact isWord.tidy
  | cons next list inductionHypothesis =>
    intro word isWord
    obtain ⟨nextIsWord, further⟩ := List.forall_mem_cons.mp isWords
    rw [hyphenate_cons_cons]
    exact isWord.tidy.join (inductionHypothesis further nextIsWord)

end Hyphenation

/-- Which case the letters of a name are in does not decide whether it gets a word in front. -/
theorem leaderless_map (runs : List (List Char)) : leaderless (runs.map (List.map Char.toLower)) = leaderless runs := by
  rcases runs with - | ⟨- | ⟨first, rest⟩, more⟩
  · rfl
  · rfl
  · exact isDigit_toLower first

theorem packageName_congr {contractName other : String} (same : words other = words contractName) :
    packageName other = packageName contractName := by
  have leads : leaderless (runs other.toList) = leaderless (runs contractName.toList) := by
    rw [← leaderless_map, ← words, same, words, leaderless_map]
  rw [← String.toList_inj, toList_packageName, toList_packageName, packageWords, packageWords, leads, same]

/-- A package has a name of the shape that packages need, whatever the contract is called. It keeps the words of that name
in their order, with a word in front just when there are none or the first one begins with a digit, and it depends on
nothing else. The name of a package is its own package name, and the file of the binary has that name with underscores. -/
theorem packageName_normal (contractName : String) :
    (packageName contractName).toList ∈ packageShape.matches' ∧
    Tidy (packageName contractName).toList ∧ ¬ ['-', '-'] <:+: (packageName contractName).toList ∧
    packageName (packageName contractName) = packageName contractName ∧
    (∀ other, words other = words contractName → packageName other = packageName contractName) ∧
    runs (packageName contractName).toList =
      (if leaderless (runs contractName.toList) then "contract".toList :: words contractName else words contractName) ∧
    ∀ target directory, Path.fileName? (wasmPath target directory (packageName contractName)) =
      some (String.ofList ((packageName contractName).toList.map fun character =>
        if character = '-' then '_' else character) ++ ".wasm") := by
  have made := made_packageWords contractName
  have shape := toList_packageName contractName
  have tidy : Tidy (packageName contractName).toList := by
    obtain ⟨isWords, letter, rest, more, same, -⟩ := made
    rw [shape, same]
    rw [same] at isWords
    exact tidy_hyphenate (List.forall_mem_cons.mp isWords).2 (List.forall_mem_cons.mp isWords).1
  refine ⟨mem_packageShape.mpr ⟨_, made, shape⟩, tidy, tidy.not_infix, ?again, fun _ => packageName_congr, ?kept,
    fun target directory => Path.fileName?_join (isProper_wasmName contractName)⟩
  case again =>
    have own := packageName_of_made made
    rwa [← shape, String.ofList_toList] at own
  case kept => rw [shape, runs_hyphenate made, packageWords]

/-- Two names that differ in their case, and in what is between their words, share a package; it has a word in front, for
their first word begins with a digit. -/
theorem packageName_normal_club :
    words "42--cLUB" = words "42 Club!" ∧ packageName "42--cLUB" = packageName "42 Club!" ∧
    leaderless (runs "42 Club!".toList) = true ∧ packageName "42 Club!" = "contract-42-club" ∧
    packageName "contract-42-club" = "contract-42-club" := by
  have same : words "42--cLUB" = words "42 Club!" := by decide
  have named : packageName "42 Club!" = "contract-42-club" := by decide
  obtain ⟨-, -, -, again, shares, -⟩ := packageName_normal "42 Club!"
  rw [named] at again
  exact ⟨same, shares _ same, by decide, named, again⟩

end Cargo

end ContractWorks
