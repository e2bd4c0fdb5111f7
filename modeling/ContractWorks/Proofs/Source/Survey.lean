import ContractWorks.Contract.Plan
import ContractWorks.Proofs.Text.Occurrence
import ContractWorks.Source.Gate
import ContractWorks.Source.Line
import Mathlib.Algebra.Ring.Nat

namespace ContractWorks.Source

open Text

/-- This function gives what the program itself wrote in a piece; a number or a given text is a hole. -/
def Piece.shape : Piece → Option (List Char)
  | .fixed text => some text.toList
  | .number _ => none
  | .given _ => none

/-- This function gives the texts of users in a piece. -/
def Piece.givenTexts : Piece → List String
  | .given text => [text]
  | _ => []

/-- This function gives the pieces of a line up to its end. -/
def Line.pieces : Line → List Piece
  | .text pieces => pieces ++ [.fixed "\n"]
  | .blank => [.fixed "\n"]
  | .opening pieces => pieces ++ [.fixed " \x7b\n"]
  | .closing => [.fixed "\x7d\n"]

/-- This function gives the characters of a line up to its end. -/
def Line.chars (line : Line) : List Char :=
  line.pieces.flatMap Piece.chars

/-- A line is written behind some blanks. -/
theorem Line.print_eq (depth : Nat) (line : Line) :
    ∃ spaces, line.print depth = List.replicate spaces ' ' ++ line.chars := by
  have indented (depth : Nat) (characters : List Char) :
      ∃ spaces, written depth characters = List.replicate spaces ' ' ++ (characters ++ ['\n']) := by
    rw [written]
    split
    · next nothing => exact ⟨0, by simp [nothing]⟩
    · exact ⟨4 * depth, by simp [indentation]⟩
  cases line with
  | text pieces => simpa [Line.print, Line.chars, Line.pieces, Piece.chars] using indented depth _
  | blank => exact ⟨0, rfl⟩
  | opening pieces =>
    simpa [Line.print, Line.chars, Line.pieces, Piece.chars] using
      indented depth (pieces.flatMap Piece.chars ++ [' ', '\x7b'])
  | closing => exact indented (depth - 1) _

theorem Line.chars_ends (line : Line) : ∃ front, line.chars = front ++ ['\n'] := by
  cases line with
  | text pieces => exact ⟨pieces.flatMap Piece.chars, by simp [Line.chars, Line.pieces, Piece.chars]⟩
  | blank => exact ⟨[], rfl⟩
  | opening pieces =>
    exact ⟨pieces.flatMap Piece.chars ++ [' ', '\x7b'], by simp [Line.chars, Line.pieces, Piece.chars]⟩
  | closing => exact ⟨['\x7d'], rfl⟩

/-- This function gives the texts of users in some lines. -/
def givenTexts (lines : List Line) : List String :=
  lines.flatMap fun line => line.pieces.flatMap Piece.givenTexts

/-- This function counts a run by the quick way. -/
def counted : List Char → List Char → Nat
  | [], _ => 0
  | first :: more, characters => occurrencesFrom first.toNat more characters

theorem counted_eq {needle : List Char} (nonempty : needle ≠ []) (characters : List Char) :
    counted needle characters = occurrences needle characters := by
  obtain ⟨first, more, rfl⟩ := List.exists_cons_of_ne_nil nonempty
  exact (occurrences_cons ..).symm

/-- This function counts a run in the fixed characters of a line. The last characters since a hole wait as
`fixed`, and `holed` tells whether there was a hole. It gives nothing when the run might reach into a hole. -/
def surveyFrom (needle : List Char) : Bool → List Char → List (Option (List Char)) → Option Nat
  | holed, fixed, [] => if holed && finishes needle fixed then none else some (counted needle fixed)
  | holed, fixed, some more :: shapes => surveyFrom needle holed (fixed ++ more) shapes
  | holed, fixed, none :: shapes =>
    if (holed && finishes needle fixed) || opens needle fixed then none
    else (surveyFrom needle true [] shapes).map (counted needle fixed + ·)

/-- This function gives what the program itself wrote in some lines. -/
def shapes (lines : List Line) : List (List (Option (List Char))) :=
  lines.map fun line => line.pieces.map Piece.shape

/-- This function adds up the surveys of the lines. -/
def surveyShapes (needle : List Char) : List (List (Option (List Char))) → Option Nat
  | [] => some 0
  | shape :: shapes =>
    (surveyFrom needle false [] shape).bind fun count => (surveyShapes needle shapes).map (count + ·)

/-- This function counts a text in the fixed characters of some lines, unless it might reach into a hole. -/
def survey (needle : String) (lines : List Line) : Option Nat :=
  surveyShapes needle.toList (shapes lines)

/-- The surveys of two groups of lines add up. -/
theorem survey_append (needle : String) (front back : List Line) :
    survey needle (front ++ back) =
      (survey needle front).bind fun first => (survey needle back).map (first + ·) := by
  simp only [survey, shapes, List.map_append]
  generalize front.map _ = front
  induction front with
  | nil => simp [surveyShapes]
  | cons shape front inductionHypothesis =>
    rw [List.cons_append, surveyShapes, surveyShapes, inductionHypothesis]
    cases surveyFrom needle.toList false [] shape <;> cases surveyShapes needle.toList front <;>
      simp [Option.map_map, Function.comp_def, Nat.add_assoc]

theorem survey_add {needle : String} {front back : List Line} {first second : Nat}
    (ahead : survey needle front = some first) (behind : survey needle back = some second) :
    survey needle (front ++ back) = some (first + second) := by
  rw [survey_append, ahead, behind, Option.bind_some, Option.map_some]

/-- The survey of a block is that of its braces and that of what they hold. -/
theorem survey_block {needle : String} {header : List Piece} {body : List Line} {braces inner : Nat}
    (outside : survey needle (block header []) = some braces) (inside : survey needle body = some inner) :
    survey needle (block header body) = some (braces + inner) := by
  have split (body : List Line) : block header body = [.opening header] ++ (body ++ [.closing]) := rfl
  rw [split, List.nil_append, survey_append] at outside
  obtain ⟨first, opened, outside⟩ := Option.bind_eq_some_iff.mp outside
  obtain ⟨last, closed, rfl⟩ := Option.map_eq_some_iff.mp outside
  rw [split, survey_add opened (survey_add inside closed), Nat.add_comm inner, Nat.add_assoc]

/-- Texts that every part holds once or not at all stand in all parts together as often as there are parts of
the first kind. -/
theorem survey_flatMap {α : Type} {needle : String} {items : List α} {part : α → List Line} {holds : α → Bool}
    (each : ∀ item ∈ items, survey needle (part item) = some (holds item).toNat) :
    survey needle (items.flatMap part) = some (items.countP holds) := by
  induction items with
  | nil => rfl
  | cons item items inductionHypothesis =>
    rw [List.flatMap_cons, survey_add (each item List.mem_cons_self)
      (inductionHypothesis fun other mem => each other (List.mem_cons_of_mem _ mem)), List.countP_cons,
      Nat.add_comm]
    cases holds item <;> rfl

/-- Lines are quiet when none of some texts stands in their fixed characters or reaches into a hole. -/
def Quiet (texts : List String) (lines : List Line) : Prop :=
  ∀ text ∈ texts, survey text lines = some 0

/-- What is quiet can be seen from the shapes of the lines. -/
theorem quiet_of_shapes {texts : List String} {lines : List Line}
    (absent : ∀ needle ∈ texts.map String.toList, surveyShapes needle (shapes lines) = some 0) :
    Quiet texts lines :=
  fun _ mem => absent _ (List.mem_map_of_mem mem)

theorem quiet_nil (texts : List String) : Quiet texts [] :=
  fun _ _ => rfl

/-- Two groups of lines are quiet together when both are. -/
theorem quiet_append {texts : List String} {front back : List Line} :
    Quiet texts (front ++ back) ↔ Quiet texts front ∧ Quiet texts back := by
  simp only [Quiet, survey_append, Option.bind_eq_some_iff, Option.map_eq_some_iff]
  grind

theorem quiet_cons {texts : List String} {line : Line} {lines : List Line} :
    Quiet texts (line :: lines) ↔ Quiet texts [line] ∧ Quiet texts lines := by
  rw [← quiet_append, List.singleton_append]

theorem quiet_together {texts : List String} {groups : List (List Line)} :
    Quiet texts (together groups) ↔ ∀ group ∈ groups, Quiet texts group := by
  induction groups with
  | nil => simp [together, quiet_nil]
  | cons group groups inductionHypothesis =>
    rw [together, List.flatten_cons, quiet_append, ← together, inductionHypothesis, List.forall_mem_cons]

theorem Quiet.block {texts : List String} {header : List Piece} {body : List Line}
    (outside : Quiet texts (block header [])) (inside : Quiet texts body) :
    Quiet texts (Source.block header body) :=
  fun text mem => survey_block (outside text mem) (inside text mem)

theorem Quiet.only {texts : List String} {lines : List Line} (quiet : Quiet texts lines) (condition : Bool) :
    Quiet texts (only condition lines) := by
  cases condition
  · exact quiet_nil texts
  · exact quiet

/-- Parts with blank lines between them are quiet when each part is. -/
theorem Quiet.joined {texts : List String} (blank : Quiet texts [.blank]) {parts : List (List Line)}
    (each : ∀ part ∈ parts, Quiet texts part) : Quiet texts (joined parts) := by
  induction parts using joined.induct with
  | case1 => exact quiet_nil texts
  | case2 part => exact each part List.mem_cons_self
  | case3 part parts more inductionHypothesis =>
    rw [Source.joined]
    · have rest := inductionHypothesis fun other mem => each other (List.mem_cons_of_mem _ mem)
      exact quiet_append.mpr ⟨each part List.mem_cons_self, quiet_cons.mpr ⟨blank, rest⟩⟩
    · exact more

/-- Counts of marked texts can be seen from the shapes of the lines. -/
theorem surveys_of_shapes {κ : Type} {marks : List (κ × String)} {lines : List Line} (count : κ → Nat)
    (counts : ∀ mark ∈ marks.map fun mark => (mark.1, mark.2.toList),
      surveyShapes mark.2 (shapes lines) = some (count mark.1)) :
    ∀ mark ∈ marks, survey mark.2 lines = some (count mark.1) :=
  fun _ mem => counts _ (List.mem_map_of_mem mem)

theorem mem_givenTexts_nil {text : String} : text ∈ givenTexts [] ↔ False := by
  simp [givenTexts]

theorem mem_givenTexts_cons {text : String} {line : Line} {lines : List Line} :
    text ∈ givenTexts (line :: lines) ↔
      text ∈ line.pieces.flatMap Piece.givenTexts ∨ text ∈ givenTexts lines := by
  rw [givenTexts, List.flatMap_cons, List.mem_append, ← givenTexts]

theorem givenTexts_append (front back : List Line) :
    givenTexts (front ++ back) = givenTexts front ++ givenTexts back :=
  List.flatMap_append

theorem mem_givenTexts_flatMap {α : Type} {text : String} {items : List α} {part : α → List Line} :
    text ∈ givenTexts (items.flatMap part) ↔ ∃ item ∈ items, text ∈ givenTexts (part item) := by
  simp only [givenTexts, List.mem_flatMap]
  grind

theorem mem_givenTexts_block {text : String} {header : List Piece} {body : List Line} :
    text ∈ givenTexts (block header body) ↔
      text ∈ header.flatMap Piece.givenTexts ∨ text ∈ givenTexts body := by
  simp [block, givenTexts, Line.pieces, Piece.givenTexts]

theorem mem_givenTexts_together {text : String} {groups : List (List Line)} :
    text ∈ givenTexts (together groups) ↔ ∃ group ∈ groups, text ∈ givenTexts group := by
  simp only [together, givenTexts, List.mem_flatMap, List.mem_flatten]
  grind

theorem mem_givenTexts_only {text : String} {condition : Bool} {lines : List Line} :
    text ∈ givenTexts (only condition lines) ↔ condition = true ∧ text ∈ givenTexts lines := by
  cases condition <;> simp [only, givenTexts]

theorem mem_givenTexts_joined {text : String} {parts : List (List Line)} :
    text ∈ givenTexts (joined parts) ↔ ∃ part ∈ parts, text ∈ givenTexts part := by
  induction parts using joined.induct with
  | case1 => simp [joined, givenTexts]
  | case2 part => simp [joined]
  | case3 part parts more inductionHypothesis =>
    have blank : givenTexts (.blank :: joined parts) = givenTexts (joined parts) := rfl
    rw [joined, givenTexts_append, blank, List.mem_append, inductionHypothesis]
    · simp
    · exact more

theorem infix_joined {parts : List (List Line)} {part : List Line} (mem : part ∈ parts) :
    part <:+: joined parts := by
  induction parts using joined.induct with
  | case1 => simp at mem
  | case2 only => rw [joined, ← List.mem_singleton.mp mem]
  | case3 first parts more inductionHypothesis =>
    rw [joined]
    · rcases List.mem_cons.mp mem with rfl | later
      · exact (List.prefix_append ..).isInfix
      · exact ((inductionHypothesis later).trans (List.suffix_cons ..).isInfix).trans
          (List.suffix_append ..).isInfix
    · exact more

theorem infix_block {header : List Piece} {part body : List Line} (within : part <:+: body) :
    part <:+: block header body :=
  (within.trans (List.prefix_append ..).isInfix).trans (List.suffix_cons ..).isInfix

/-- A text can be surveyed when line ends, indentation and digits cannot be part of it, begin it or make it
up. -/
def searchable (needle : List Char) : Bool :=
  !needle.contains '\n' && needle.head? != some ' ' && needle.any fun character => !character.isDigit

/-- This function adds up the places where a run stands inside given texts. -/
def given (needle : List Char) (texts : List String) : Nat :=
  (texts.map fun text => occurrences needle text.toList).sum

theorem given_append (needle : List Char) (texts more : List String) :
    given needle (texts ++ more) = given needle texts + given needle more := by
  simp [given]

/-- Given texts count nothing when none of them holds a text. -/
theorem given_eq_zero_iff {needle : String} (nonempty : needle.toList ≠ []) {texts : List String} :
    given needle.toList texts = 0 ↔ ∀ text ∈ texts, contains text needle = false := by
  simp only [given, List.sum_eq_zero_iff_forall_eq_nat, List.mem_map, forall_exists_index, and_imp,
    forall_apply_eq_imp_iff₂, occurrences_eq_zero_iff nonempty, ← occursIn_iff, Bool.not_eq_true, contains]

section Sound

variable {needle : List Char} (surveyable : searchable needle = true)
include surveyable

theorem searchable_worded : ∃ character ∈ needle, character.isDigit = false := by
  simp only [searchable, Bool.and_eq_true, List.any_eq_true, Bool.not_eq_true'] at surveyable
  exact surveyable.2

theorem searchable_nonempty : needle ≠ [] :=
  let ⟨_, mem, _⟩ := searchable_worded surveyable
  List.ne_nil_of_mem mem

theorem searchable_oneLine : '\n' ∉ needle := by
  simp only [searchable, Bool.and_eq_true, Bool.not_eq_true', List.contains_eq_mem,
    decide_eq_false_iff_not] at surveyable
  exact surveyable.1.1

theorem searchable_flush : needle.head? ≠ some ' ' := by
  simp only [searchable, Bool.and_eq_true, bne_iff_ne] at surveyable
  exact surveyable.1.2

/-- A hole counts what its user gave. -/
theorem occurrences_hole {piece : Piece} (hole : piece.shape = none) :
    occurrences needle piece.chars = given needle piece.givenTexts := by
  cases piece with
  | fixed text => simp [Piece.shape] at hole
  | number value =>
    simp [Piece.chars, Piece.givenTexts, given, occurrences_toDigits (searchable_worded surveyable)]
  | given text => simp [Piece.chars, Piece.givenTexts, given]

/-- The survey of the rest of a line counts what its fixed characters add to what came before, and the users'
texts count for themselves. -/
theorem occurrences_surveyFrom {pieces : List Piece} :
    ∀ {holed : Bool} (before : List Char) {fixed : List Char} {count : Nat}, (holed = false → before = []) →
      surveyFrom needle holed fixed (pieces.map Piece.shape) = some count →
      occurrences needle (before ++ fixed ++ pieces.flatMap Piece.chars) =
        occurrences needle before + count + given needle (pieces.flatMap Piece.givenTexts) := by
  have nonempty := searchable_nonempty surveyable
  have joined {holed : Bool} {before fixed : List Char} (start : holed = false → before = [])
      (fresh : ¬ (holed && finishes needle fixed) = true) :
      occurrences needle (before ++ fixed) = occurrences needle before + occurrences needle fixed := by
    cases holed with
    | false => simp [start rfl, occurrences]
    | true => exact occurrences_append nonempty (not_crosses_of_finishes (by simpa using fresh))
  induction pieces with
  | nil =>
    intro holed before fixed count start surveyed
    simp only [List.map_nil, surveyFrom] at surveyed
    split at surveyed
    · simp at surveyed
    · next fresh =>
      obtain rfl := Option.some.inj surveyed
      simpa [given, counted_eq nonempty] using joined start fresh
  | cons piece pieces inductionHypothesis =>
    intro holed before fixed count start surveyed
    cases shape : piece.shape with
    | some more =>
      obtain ⟨text, rfl, rfl⟩ : ∃ text, piece = .fixed text ∧ text.toList = more := by
        cases piece <;> simp_all [Piece.shape]
      simp only [List.map_cons, shape, surveyFrom] at surveyed
      simpa [Piece.chars, Piece.givenTexts] using inductionHypothesis before start surveyed
    | none =>
      simp only [List.map_cons, shape, surveyFrom] at surveyed
      split at surveyed
      · simp at surveyed
      · next fresh =>
        rw [Bool.or_eq_true, not_or, Bool.not_eq_true (opens ..)] at fresh
        obtain ⟨rest, counted, rfl⟩ := Option.map_eq_some_iff.mp surveyed
        have follows := inductionHypothesis (before ++ fixed ++ piece.chars) (by simp) counted
        have apart := not_crosses_of_opens before piece.chars fresh.2
        rw [List.append_nil, occurrences_append nonempty apart, joined start fresh.1,
          occurrences_hole surveyable shape] at follows
        rw [List.flatMap_cons, List.flatMap_cons, given_append, ← List.append_assoc, follows,
          counted_eq nonempty]
        omega

/-- The survey of a line counts what the line adds to the users' texts in it. -/
theorem occurrences_line {line : Line} {count : Nat}
    (surveyed : surveyFrom needle false [] (line.pieces.map Piece.shape) = some count) :
    occurrences needle line.chars = count + given needle (line.pieces.flatMap Piece.givenTexts) := by
  simpa [Line.chars, occurrences] using
    occurrences_surveyFrom surveyable [] (fun _ => rfl) surveyed

/-- The survey of some lines counts what they add to the users' texts in them, at any depth. -/
theorem occurrences_printFrom {lines : List Line} :
    ∀ {depth count : Nat}, surveyShapes needle (shapes lines) = some count →
      occurrences needle (printFrom depth lines) = count + given needle (givenTexts lines) := by
  have nonempty := searchable_nonempty surveyable
  induction lines with
  | nil =>
    intro depth count surveyed
    obtain rfl := Option.some.inj surveyed
    simp [printFrom, occurrences, givenTexts, given]
  | cons line lines inductionHypothesis =>
    intro depth count surveyed
    obtain ⟨first, counted, surveyed⟩ := Option.bind_eq_some_iff.mp surveyed
    obtain ⟨rest, counts, rfl⟩ := Option.map_eq_some_iff.mp surveyed
    obtain ⟨spaces, printed⟩ := line.print_eq depth
    obtain ⟨front, ended⟩ := line.chars_ends
    have apart : ¬ Crosses needle (List.replicate spaces ' ' ++ line.chars)
        (printFrom (line.depthAfter depth) lines) := by
      rw [ended, ← List.append_assoc]
      exact not_crosses_of_lineEnd (searchable_oneLine surveyable)
    rw [printFrom, printed, occurrences_append nonempty apart,
      occurrences_indented nonempty (searchable_flush surveyable), occurrences_line surveyable counted,
      inductionHypothesis counts]
    simp only [givenTexts, List.flatMap_cons, given_append]
    omega

end Sound

theorem printFrom_append (depth : Nat) (front back : List Line) :
    printFrom depth (front ++ back) =
      printFrom depth front ++ printFrom (front.foldl Line.depthAfter depth) back := by
  induction front generalizing depth with
  | nil => rfl
  | cons line front inductionHypothesis =>
    simp [printFrom, inductionHypothesis]

/-- A part of a source stands in it as it is printed at some depth. -/
theorem exists_printFrom_infix {part whole : List Line} (within : part <:+: whole) :
    ∃ depth, printFrom depth part <:+: (print whole).toList := by
  obtain ⟨front, back, rfl⟩ := within
  rw [print, String.toList_ofList, printFrom_append, printFrom_append]
  exact ⟨_, List.infix_append ..⟩

/-- A survey of a source counts a text, and the users' texts count for themselves. -/
theorem occurrences_print {needle : String} (surveyable : searchable needle.toList = true)
    {lines : List Line} {count : Nat} (surveyed : survey needle lines = some count) :
    occurrences needle.toList (print lines).toList = count + given needle.toList (givenTexts lines) := by
  rw [print, String.toList_ofList]
  exact occurrences_printFrom surveyable surveyed

end ContractWorks.Source

namespace ContractWorks

namespace Source

/-- By these texts one sees where a contract lets others use a feature. -/
def entryPoints : Language → List (BlockType × String)
  | .solidity =>
    [(.mint, "function mint("), (.burn, "function burn("), (.pausable, "function pause()"),
     (.capped, "function cap()"), (.whitelist, "function addToWhitelist("),
     (.royalty, "function royaltyInfo(")]
  | .soroban =>
    [(.mint, "pub fn mint("), (.burn, "pub fn burn("), (.pausable, "pub fn pause("),
     (.capped, "pub fn cap("), (.whitelist, "pub fn add_to_whitelist("),
     (.royalty, "pub fn royalty_info(")]

/-- By these texts one sees where a contract declares what a guard looks at. -/
def declarations : Language → List (BlockType × String)
  | .solidity =>
    [(.pausable, "bool public paused"), (.whitelist, "mapping(address => bool) public whitelisted"),
     (.capped, "uint256 public constant MAX_SUPPLY")]
  | .soroban =>
    [(.pausable, "pub enum PausableKey"), (.whitelist, "pub enum WhitelistKey"),
     (.capped, "pub const MAX_SUPPLY")]

/-- These words name what the guards look at. -/
def guardItems : Language → List (BlockType × String)
  | .solidity => [(.pausable, "paused"), (.whitelist, "whitelisted"), (.capped, "MAX_SUPPLY")]
  | .soroban => [(.pausable, "PausableKey"), (.whitelist, "WhitelistKey"), (.capped, "MAX_SUPPLY")]

/-- By these texts one sees the guards: the first two in what runs before a transfer, the last where the supply
grows. -/
def guardChecks (isNft : Bool) : Language → List (BlockType × String)
  | .solidity =>
    [(.pausable, "require(!paused, "), (.whitelist, "require(to == address(0) || whitelisted[to], "),
     (.capped,
      if isNft then "require(totalSupply < MAX_SUPPLY, " else "require(totalSupply + amount <= MAX_SUPPLY, ")]
  | .soroban =>
    [(.pausable, "if env.storage().instance().get::<_, bool>(&PausableKey::Paused).unwrap_or(false) \x7b"),
     (.whitelist, ".get(&WhitelistKey::Allowed(to.clone()))"),
     (.capped, if isNft then "if supply as u64 >= MAX_SUPPLY \x7b" else "if supply + amount > MAX_SUPPLY \x7b")]

/-- This function tells whether the guard of a block type is switched on. -/
def asks (guards : Guards) : BlockType → Bool
  | .pausable => guards.pausable
  | .whitelist => guards.whitelist
  | .capped => guards.capped
  | _ => false

/-- This list holds the marks of the other language and the words of all guards but that of one feature. -/
def unsaidBy (language : Language) (feature : Feature) : List String :=
  foreignMarkers language ++
    ((guardItems language).filter fun item => item.1 ≠ feature.blockType).map Prod.snd

/-- These guards are all switched off. -/
def unguarded : Guards :=
  ⟨false, false, false⟩

/-- This list holds what a skeleton with some guards does not say: the marks of the other language, the
landmarks of features, and the words of the guards that are off. -/
def unsaid (language : Language) (guards : Guards) : List String :=
  foreignMarkers language ++
    (entryPoints language ++ declarations language ++
      (guardItems language).filter fun item => !asks guards item.1).map Prod.snd

theorem unsaid_subset {language : Language} {fewer more : Guards}
    (within : ∀ blockType, asks fewer blockType = true → asks more blockType = true) :
    unsaid language more ⊆ unsaid language fewer := by
  intro text mem
  simp only [unsaid, List.map_append, List.mem_append, List.mem_map, List.mem_filter] at mem ⊢
  grind

/-- What is fit for some guards is fit for more of them. -/
theorem Quiet.widen {language : Language} {lines : List Line} {fewer : Guards}
    (quiet : Quiet (unsaid language fewer) lines) (more : Guards)
    (within : ∀ blockType, asks fewer blockType = true → asks more blockType = true) :
    Quiet (unsaid language more) lines :=
  fun text mem => quiet text (unsaid_subset within mem)

theorem asks_unguarded {guards : Guards} (blockType : BlockType) (asked : asks unguarded blockType = true) :
    asks guards blockType = true := by
  cases blockType <;> simp [asks, unguarded] at asked

/-- What is fit without guards is fit with any. -/
theorem Quiet.guard {language : Language} {lines : List Line}
    (quiet : Quiet (unsaid language unguarded) lines) (guards : Guards) :
    Quiet (unsaid language guards) lines :=
  quiet.widen guards asks_unguarded

end Source

/-- These texts of users stand in a base. -/
def Base.userTexts : Base → List String
  | .token _ _ => []
  | .nft baseUri => [baseUri]

/-- These texts of users stand in a feature. -/
def Feature.userTexts : Feature → List String
  | .royalty (some receiver) _ => [receiver]
  | _ => []

/-- These texts of users stand in a plan. -/
def Plan.userTexts (plan : Plan) : List String :=
  plan.contractName :: plan.symbol :: (plan.base.userTexts ++ plan.features.flatMap Feature.userTexts)

theorem Plan.mem_userTexts {plan : Plan} {text : String} :
    text ∈ plan.userTexts ↔
      text = plan.contractName ∨ text = plan.symbol ∨ text ∈ plan.base.userTexts ∨
        ∃ feature ∈ plan.features, text ∈ feature.userTexts := by
  simp [userTexts]

end ContractWorks
