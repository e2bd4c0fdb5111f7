import ContractWorks.Proofs.Settings.Overlay
import ContractWorks.Settings.Variable
import Mathlib.Data.List.Induction

namespace ContractWorks

namespace SettingStep

section Fold

variable {character : Char} {text : String}

/-- A character is folded when it is neither a capital letter nor the sign for kelvin. -/
def IsSmall (character : Char) : Prop :=
  character.isUpper = false ∧ character ≠ '\u212A'

theorem toLower_of_not_isUpper (other : character.isUpper = false) : character.toLower = character :=
  dif_neg fun capital => absurd (decide_eq_true capital) (Bool.eq_false_iff.mp other)

theorem IsSmall.smallLetter (small : IsSmall character) : SettingStep.smallLetter character = character := by
  rw [SettingStep.smallLetter, if_neg small.2, toLower_of_not_isUpper small.1]

theorem isSmall_smallLetter (character : Char) : IsSmall (smallLetter character) := by
  rw [smallLetter]
  split
  · exact ⟨by decide, by decide⟩
  · next other =>
    by_cases capital : character.val ≥ 'A'.val ∧ character.val ≤ 'Z'.val
    · have lowered : character.toLower.val = character.val + ('a'.val - 'A'.val) := congrArg Char.val (dif_pos capital)
      have first : 65 ≤ character.val.toNat := UInt32.le_iff_toNat_le.mp capital.1
      have last : character.val.toNat ≤ 90 := UInt32.le_iff_toNat_le.mp capital.2
      have moved : character.toLower.val.toNat = character.val.toNat + 32 := by
        rw [lowered, UInt32.toNat_add]
        exact Nat.mod_eq_of_lt (Nat.lt_of_le_of_lt (Nat.add_le_add_right last 32) (by decide))
      refine ⟨decide_eq_false fun big => ?_, fun kelvin => ?_⟩
      · have beyond : character.toLower.val.toNat ≤ 90 := UInt32.le_iff_toNat_le.mp big.2
        omega
      · rw [kelvin] at moved
        have far : ('\u212A').val.toNat = 8490 := by decide
        omega
    · have same : character.toLower = character := dif_neg capital
      rw [same]
      exact ⟨decide_eq_false capital, other⟩

/-- A text is its own folded form when all its characters are folded. -/
theorem fold_eq_self_iff : fold text = text ↔ ∀ character ∈ text.toList, IsSmall character := by
  rw [fold, ← String.toList_inj, String.toList_ofList]
  constructor
  · intro same character member
    rw [← same] at member
    obtain ⟨former, -, rfl⟩ := List.mem_map.mp member
    exact isSmall_smallLetter former
  · exact fun small =>
      (List.map_congr_left fun character member => (small character member).smallLetter).trans (List.map_id' _)

theorem fold_fold (text : String) : fold (fold text) = fold text := by
  rw [fold_eq_self_iff, fold, String.toList_ofList]
  intro character member
  obtain ⟨former, -, rfl⟩ := List.mem_map.mp member
  exact isSmall_smallLetter former

end Fold

section Path

theorem readName_eq_some {characters rest : List Char} {step : SettingStep} (read : readName characters = some (step, rest)) :
    ∃ name : String, step = .name name ∧ characters = name.toList ++ rest := by
  rw [readName] at read
  split at read
  · simp at read
  · obtain ⟨rfl, rfl⟩ := Prod.mk.inj (Option.some.inj read)
    refine ⟨_, rfl, ?_⟩
    rw [String.toList_ofList]
    exact (List.prefix_iff_eq_append.mp (List.takeWhile_prefix isNameChar)).symm

/-- The rest of a path has a step unless nothing is left of the key. -/
theorem readRest_cases {fuel : Nat} {characters : List Char} {steps : List SettingStep}
    (read : readRest fuel characters = some steps) :
    characters = [] ∧ steps = [] ∨
      ∃ mark behind step rest more others, characters = mark :: behind ∧ steps = step :: others ∧
        (mark = '.' ∧ readName behind = some (step, rest) ∨ mark = '[' ∧ readIndex behind = some (step, rest)) ∧
          readRest more rest = some others := by
  rw [readRest.eq_def] at read
  split at read
  · exact .inl ⟨rfl, (Option.some.inj read).symm⟩
  · obtain ⟨⟨step, rest⟩, named, others⟩ := Option.bind_eq_some_iff.mp read
    obtain ⟨others, remaining, same⟩ := Option.bind_eq_some_iff.mp others
    exact .inr ⟨_, _, step, rest, _, others, rfl, (Option.some.inj same).symm, .inl ⟨rfl, named⟩, remaining⟩
  · obtain ⟨⟨step, rest⟩, indexed, others⟩ := Option.bind_eq_some_iff.mp read
    obtain ⟨others, remaining, same⟩ := Option.bind_eq_some_iff.mp others
    exact .inr ⟨_, _, step, rest, _, others, rfl, (Option.some.inj same).symm, .inr ⟨rfl, indexed⟩, remaining⟩
  · simp at read

theorem readIndex_ne_name {characters rest : List Char} {name : String} :
    readIndex characters ≠ some (.name name, rest) := by
  have sized (negative : Bool) (digits : List Char) : readSize negative digits ≠ some (.name name, rest) := by
    rw [readSize]
    split
    · split
      · simp
      · split
        · split <;> simp
        · split <;> simp
    · simp
  rw [readIndex]
  split
  · exact sized true _
  · exact sized false _

/-- A path of two names is written with a point between them. -/
theorem eq_of_ofKey {key first second : String} (path : ofKey key = [.name first, .name second]) :
    key = first ++ "." ++ second := by
  rw [ofKey] at path
  cases named : readName key.toList with
  | none => simp [named] at path
  | some found =>
    obtain ⟨step, behind⟩ := found
    cases others : readRest behind.length behind with
    | none => simp [named, others] at path
    | some steps =>
      have whole : step :: steps = [.name first, .name second] := by simpa [named, others] using path
      obtain ⟨rfl, rfl⟩ := List.cons.inj whole
      obtain ⟨name, same, front⟩ := readName_eq_some named
      obtain rfl := SettingStep.name.inj same
      rcases readRest_cases others with ⟨-, none⟩ | ⟨mark, left, step, rest, more, remaining, rfl, listed, marked, final⟩
      · simp at none
      · obtain ⟨rfl, rfl⟩ := List.cons.inj listed
        rcases readRest_cases final with ⟨rfl, -⟩ | ⟨_, _, _, _, _, _, -, some, -⟩
        · rcases marked with ⟨rfl, last⟩ | ⟨rfl, indexed⟩
          · obtain ⟨name, same, rfl⟩ := readName_eq_some last
            obtain rfl := SettingStep.name.inj same
            rw [← String.toList_inj, front]
            simp
          · exact absurd indexed readIndex_ne_name
        · simp at some

end Path

end SettingStep

namespace SettingTree

open SettingStep (fold ofKey)

section Key

/-- This function gives the key that a variable of a folded name sets, if it sets one. -/
def keyOf (lower : String) : Option String :=
  if Text.startsWith lower variableStart then
    some (String.ofList (pointed (lower.toList.drop variableStart.length)))
  else none

/-- The case of letters in the name of a variable does not matter. -/
theorem variableKey_eq (name : String) : variableKey name = keyOf (fold name) :=
  rfl

theorem mem_pointed {characters : List Char} {character : Char} (member : character ∈ pointed characters) :
    character = '.' ∨ character ∈ characters := by
  fun_induction pointed characters with
  | case1 rest inductionHypothesis =>
    rcases List.mem_cons.mp member with rfl | later
    · exact .inl rfl
    · exact (inductionHypothesis later).imp_right fun inside => List.mem_cons_of_mem _ (List.mem_cons_of_mem _ inside)
  | case2 first rest _ inductionHypothesis =>
    rcases List.mem_cons.mp member with rfl | later
    · exact .inr List.mem_cons_self
    · exact (inductionHypothesis later).imp_right fun inside => List.mem_cons_of_mem _ inside
  | case3 => simp at member

/-- The key of a variable is folded. -/
theorem fold_variableKey {name key : String} (sets : variableKey name = some key) : fold key = key := by
  rw [variableKey_eq, keyOf] at sets
  split at sets
  · rw [← Option.some.inj sets, SettingStep.fold_eq_self_iff, String.toList_ofList]
    intro character member
    rcases mem_pointed member with rfl | inside
    · exact ⟨by decide, by decide⟩
    · exact SettingStep.fold_eq_self_iff.mp (SettingStep.fold_fold name) character (List.mem_of_mem_drop inside)
  · simp at sets

/-- A text without a point has none from underscores either. -/
theorem pointed_eq_self {characters : List Char} (plain : '.' ∉ pointed characters) :
    pointed characters = characters := by
  fun_induction pointed characters with
  | case1 rest => exact absurd List.mem_cons_self plain
  | case2 first rest _ inductionHypothesis =>
    rw [inductionHypothesis fun member => plain (List.mem_cons_of_mem _ member)]
  | case3 => rfl

/-- The one point between two names stood there before, or two underscores did. -/
theorem eq_of_pointed {characters first second : List Char} (same : pointed characters = first ++ '.' :: second)
    (plainFirst : '.' ∉ first) (plainSecond : '.' ∉ second) :
    characters = first ++ '_' :: '_' :: second ∨ characters = first ++ '.' :: second := by
  fun_induction pointed characters generalizing first with
  | case1 rest =>
    cases first with
    | nil =>
      have behind : pointed rest = second := (List.cons.inj same).2
      exact .inl (by rw [← behind, pointed_eq_self (behind ▸ plainSecond), List.nil_append])
    | cons letter first => exact absurd ((List.cons.inj same).1 ▸ List.mem_cons_self) plainFirst
  | case2 letter rest _ inductionHypothesis =>
    cases first with
    | nil =>
      obtain ⟨rfl, behind⟩ := List.cons.inj same
      exact .inr (by rw [← behind, pointed_eq_self (behind ▸ plainSecond), List.nil_append])
    | cons other first =>
      obtain ⟨rfl, behind⟩ := List.cons.inj same
      have before := inductionHypothesis behind fun member => plainFirst (List.mem_cons_of_mem _ member)
      exact before.imp (congrArg (letter :: ·)) (congrArg (letter :: ·))
  | case3 => simp at same

/-- A part and a key make a place when their names, with a point between them, are read as a path of the two, and two
underscores between them make that point and are the only ones that make one. -/
structure IsPlace (part key : String) : Prop where
  path : ofKey (part ++ "." ++ key) = [.name part, .name key]
  foldPart : fold part = part
  foldKey : fold key = key
  plainPart : '.' ∉ part.toList
  plainKey : '.' ∉ key.toList
  underscores : pointed (part.toList ++ '_' :: '_' :: key.toList) = part.toList ++ '.' :: key.toList
  points : pointed (part.toList ++ '.' :: key.toList) = part.toList ++ '.' :: key.toList

/-- A variable is for a place when its name is the common start, the part and the key, in any case, with two underscores
between part and key, or a point. -/
def isFor (part key name : String) : Bool :=
  fold name = variableStart ++ part ++ "__" ++ key || fold name = variableStart ++ part ++ "." ++ key

/-- The variables for a place are the ones that lead there. -/
theorem IsPlace.isFor_iff {part key : String} (place : IsPlace part key) {name : String} :
    isFor part key name = true ↔ variableKey name = some (part ++ "." ++ key) := by
  rw [isFor, Bool.or_eq_true, decide_eq_true_iff, decide_eq_true_iff]
  refine Iff.symm ?_
  have behind (between : String) (rest : List Char) (long : rest.take variableStart.length = variableStart.toList) :
      rest.drop variableStart.length = part.toList ++ between.toList ++ key.toList ↔
        rest = (variableStart ++ part ++ between ++ key).toList := by
    simp only [String.toList_append, List.append_assoc]
    conv_rhs => rw [← List.take_append_drop variableStart.length rest, long, List.append_right_inj]
  rw [variableKey_eq, keyOf, Text.startsWith]
  by_cases starts : variableStart.toList.isPrefixOf (fold name).toList = true
  · rw [if_pos starts, Option.some_inj, ← String.toList_inj, String.toList_ofList]
    have long : (fold name).toList.take variableStart.length = variableStart.toList := by
      have taken := List.prefix_iff_eq_take.mp (List.isPrefixOf_iff_prefix.mp starts)
      rw [String.length_toList] at taken
      exact taken.symm
    rw [← String.toList_inj, ← String.toList_inj, ← behind "__" _ long, ← behind "." _ long]
    simp only [String.toList_append, String.reduceToList, List.append_assoc, List.cons_append, List.nil_append]
    constructor
    · exact fun same => eq_of_pointed same place.plainPart place.plainKey
    · rintro (same | same)
      · rw [same, place.underscores]
      · rw [same, place.points]
  · rw [if_neg starts]
    refine iff_of_false (by simp) ?_
    rintro (same | same) <;>
    · refine starts (List.isPrefixOf_iff_prefix.mpr ?_)
      simp only [same, String.toList_append, List.append_assoc]
      exact List.prefix_append _ _

/-- Only one key leads to a place. -/
theorem IsPlace.eq_iff {part key written : String} (place : IsPlace part key) (folded : fold written = written) :
    written = part ++ "." ++ key ↔
      ∃ first second, ofKey written = [.name first, .name second] ∧ part = fold first ∧ key = fold second := by
  constructor
  · rintro rfl
    exact ⟨part, key, place.path, place.foldPart.symm, place.foldKey.symm⟩
  · rintro ⟨first, second, path, rfl, rfl⟩
    obtain rfl := SettingStep.eq_of_ofKey path
    rw [SettingStep.fold_eq_self_iff] at folded
    have firstFolded : fold first = first :=
      SettingStep.fold_eq_self_iff.mpr fun character member => folded character (by simp [member])
    have secondFolded : fold second = second :=
      SettingStep.fold_eq_self_iff.mpr fun character member => folded character (by simp [member])
    rw [firstFolded, secondFolded]

end Key

section Cell

/-- A path replaces a part when it ends there, or when an index follows. -/
def replaces (part : String) : List SettingStep → Bool
  | .name _ :: .name _ :: _ => false
  | .name first :: _ => part = fold first
  | _ => false

/-- A path enters a part when it ends there or leads below it. -/
def enters (part : String) : List SettingStep → Bool
  | .name first :: _ => part = fold first
  | _ => false

/-- This function gives what stands under a key of a part after a member was laid over the tree. -/
def cellStep (part key : String) (there : Option SettingTree) (member : String × SettingTree) : Option SettingTree :=
  match ofKey member.1 with
  | .name first :: .name second :: rest =>
    if part = fold first ∧ key = fold second then some (putBelow member.2 rest there) else there
  | _ => there

/-- This function gives what stands under a key of what is there. -/
def cell? (there : Option SettingTree) (key : String) : Option SettingTree :=
  there.bind (·.child? key)

variable {part key : String} {there : Option SettingTree} {members : List (String × SettingTree)}

/-- A path that starts at a part without replacing it goes on to a key of the part. -/
theorem exists_key_of_not_replaces {first : String} {rest : List SettingStep}
    (apart : replaces part (.name first :: rest) = false) (here : part = fold first) :
    ∃ second deeper, rest = .name second :: deeper := by
  rcases rest with _ | ⟨second | _, deeper⟩
  · exact absurd here (of_decide_eq_false apart)
  · exact ⟨second, deeper, rfl⟩
  · exact absurd here (of_decide_eq_false apart)

theorem cell?_childStep {member : String × SettingTree} (apart : replaces part (ofKey member.1) = false) :
    cell? (childStep part there member) key = cellStep part key (cell? there key) member := by
  obtain ⟨first, rest, path⟩ := SettingStep.exists_ofKey member.1
  rw [path] at apart
  simp only [childStep, cellStep, path]
  by_cases here : part = fold first
  · obtain ⟨second, deeper, rfl⟩ := exists_key_of_not_replaces apart here
    have below (place : Option SettingTree) : cell? place key = (place.getD .unset).child? key := by
      cases place <;> rfl
    rw [if_pos here, below (some _), Option.getD_some, putBelow, child?_putAt, below]
    simp only [here, true_and]
  · rw [if_neg here]
    rcases rest with _ | ⟨second | _, deeper⟩
    · rfl
    · exact (if_neg fun both => here both.1).symm
    · rfl

/-- As long as no member replaces a part, what stands under its keys depends on what stood there before. -/
theorem cell?_foldl (apart : ∀ member ∈ members, replaces part (ofKey member.1) = false) :
    cell? (members.foldl (childStep part) there) key = members.foldl (cellStep part key) (cell? there key) := by
  induction members generalizing there with
  | nil => rfl
  | cons member members inductionHypothesis =>
    obtain ⟨first, others⟩ := List.forall_mem_cons.mp apart
    rw [List.foldl_cons, List.foldl_cons, inductionHypothesis others, cell?_childStep first]

theorem childStep_of_not_enters {member : String × SettingTree} (elsewhere : enters part (ofKey member.1) = false) :
    childStep part there member = there := by
  obtain ⟨first, rest, path⟩ := SettingStep.exists_ofKey member.1
  rw [path] at elsewhere
  simp only [childStep, path]
  exact if_neg (of_decide_eq_false elsewhere)

/-- A part that no member enters stays as it was. -/
theorem foldl_of_not_enters (elsewhere : ∀ member ∈ members, enters part (ofKey member.1) = false) :
    members.foldl (childStep part) there = there := by
  induction members generalizing there with
  | nil => rfl
  | cons member members inductionHypothesis =>
    obtain ⟨first, others⟩ := List.forall_mem_cons.mp elsewhere
    rw [List.foldl_cons, inductionHypothesis others, childStep_of_not_enters first]

theorem exists_group_of_enters {member : String × SettingTree} (apart : replaces part (ofKey member.1) = false)
    (inside : enters part (ofKey member.1) = true) : ∃ table, childStep part there member = some (.group table) := by
  obtain ⟨first, rest, path⟩ := SettingStep.exists_ofKey member.1
  rw [path] at apart inside
  have here : part = fold first := of_decide_eq_true inside
  obtain ⟨second, deeper, rfl⟩ := exists_key_of_not_replaces apart here
  simp only [childStep, path]
  exact ⟨_, (if_pos here).trans (congrArg some (putAt_name ..))⟩

/-- A part that members enter without replacing it becomes a group, whatever it was. -/
theorem exists_group_foldl (apart : ∀ member ∈ members, replaces part (ofKey member.1) = false)
    (inside : (∃ table, there = some (.group table)) ∨ ∃ member ∈ members, enters part (ofKey member.1) = true) :
    ∃ table, members.foldl (childStep part) there = some (.group table) := by
  induction members generalizing there with
  | nil => exact inside.resolve_right (by simp)
  | cons member members inductionHypothesis =>
    obtain ⟨first, others⟩ := List.forall_mem_cons.mp apart
    refine inductionHypothesis others ?_
    by_cases enter : enters part (ofKey member.1) = true
    · exact .inl (exists_group_of_enters first enter)
    · rw [childStep_of_not_enters (Bool.eq_false_iff.mpr enter)]
      refine inside.imp_right ?_
      rintro ⟨found, present, within⟩
      rcases List.mem_cons.mp present with rfl | later
      · exact absurd within enter
      · exact ⟨found, later, within⟩

end Cell

section Environment

/-- These are the settings that variables stand for, each under its key. -/
def assignments (environment : List (String × String)) : List (String × SettingTree) :=
  environment.filterMap fun entry => (variableKey entry.1).map fun key => (key, ofVariable entry.2)

/-- This function gives the text of the last variable for a place. -/
def variableText? (environment : List (String × String)) (part key : String) : Option String :=
  ((environment.filter fun entry => isFor part key entry.1).getLast?).map Prod.snd

variable {environment : List (String × String)} {part key : String}

/-- A part stands apart when no variable sets the part itself, or an item of it. -/
def Apart (environment : List (String × String)) (part : String) : Prop :=
  ∀ entry ∈ environment, ∀ key ∈ variableKey entry.1, replaces part (ofKey key) = false

/-- This test asks whether a variable leads to a part or below it. -/
def entered (environment : List (String × String)) (part : String) : Bool :=
  environment.any fun entry => (variableKey entry.1).any fun key => enters part (ofKey key)

theorem mem_assignments {member : String × SettingTree} :
    member ∈ assignments environment ↔
      ∃ entry ∈ environment, ∃ key, variableKey entry.1 = some key ∧ (key, ofVariable entry.2) = member := by
  simp only [assignments, List.mem_filterMap, Option.map_eq_some_iff]

theorem Apart.replaces_eq_false (apart : Apart environment part) {member : String × SettingTree}
    (present : member ∈ assignments environment) : replaces part (ofKey member.1) = false := by
  obtain ⟨entry, inside, key, sets, rfl⟩ := mem_assignments.mp present
  exact apart entry inside key sets

theorem entered_eq : entered environment part = (assignments environment).any fun member => enters part (ofKey member.1) := by
  rw [entered, assignments, List.any_filterMap]
  refine congrArg (List.any environment) (funext fun entry => ?_)
  cases variableKey entry.1 <;> rfl

theorem withEnvironment_eq (root : SettingTree) (environment : List (String × String)) :
    root.withEnvironment environment = root.overlay (assignments environment) :=
  rfl

theorem isSingle_ofVariable (text : String) : (ofVariable text).IsSingle := by
  rw [ofVariable]
  split
  · trivial
  · trivial
  · split
    · trivial
    · split <;> trivial

/-- What a path leads below is a group or a list. -/
theorem not_isSingle_putAt (value root : SettingTree) (step : SettingStep) (rest : List SettingStep) :
    ¬ (putAt value (step :: rest) root).IsSingle := by
  cases step with
  | name key =>
    rw [putAt_name]
    exact id
  | item index =>
    cases rest <;>
    · simp only [putAt]
      exact id

theorem layOver_single {value : SettingTree} (single : value.IsSingle) (there : Option SettingTree) :
    layOver there value = value := by
  cases value <;> first | rfl | exact single.elim

theorem assignments_append (earlier : List (String × String)) (last : String × String) :
    assignments (earlier ++ [last]) =
      assignments earlier ++ ((variableKey last.1).map fun key => (key, ofVariable last.2)).toList := by
  rw [assignments, assignments, List.filterMap_append]
  cases keyed : variableKey last.1 <;> simp [keyed]

theorem variableText?_append (earlier : List (String × String)) (last : String × String) (part key : String) :
    variableText? (earlier ++ [last]) part key =
      if isFor part key last.1 then some last.2 else variableText? earlier part key := by
  rw [variableText?, variableText?, List.filter_append]
  by_cases sets : isFor part key last.1 = true <;> simp [sets]

/-- A variable fills the place that its key leads to, and hides what was there in a group or a list if its key leads
below it. -/
theorem cellStep_variable (place : IsPlace part key) (there : Option SettingTree) (text : String) {written : String}
    (folded : fold written = written) :
    (∃ tree, cellStep part key there (written, ofVariable text) = some tree ∧ ¬ tree.IsSingle) ∨
      cellStep part key there (written, ofVariable text) =
        if written = part ++ "." ++ key then some (ofVariable text) else there := by
  simp only [cellStep]
  split
  · next first second rest path =>
    split
    · next here =>
      cases rest with
      | nil =>
        rw [if_pos ((place.eq_iff folded).mpr ⟨first, second, path, here⟩)]
        exact .inr (congrArg some (layOver_single (isSingle_ofVariable text) there))
      | cons step rest =>
        refine .inl ⟨_, rfl, ?_⟩
        rw [putBelow]
        exact not_isSingle_putAt _ _ step rest
    · next elsewhere =>
      refine .inr (if_neg fun same => ?_).symm
      obtain ⟨_, _, whole, here⟩ := (place.eq_iff folded).mp same
      obtain ⟨rfl, rfl, -⟩ : _ ∧ _ ∧ _ := by simpa using path.symm.trans whole
      exact elsewhere here
  · next other =>
    refine .inr (if_neg fun same => ?_).symm
    obtain ⟨first, second, path, -⟩ := (place.eq_iff folded).mp same
    exact other first second [] path

/-- After all variables a place holds the value of the last variable that sets it, or what was there before; if a
variable leads below it, it may also hold a group or a list. -/
theorem foldl_assignments (environment : List (String × String)) (place : IsPlace part key)
    (there : Option SettingTree) :
    (∃ tree, (assignments environment).foldl (cellStep part key) there = some tree ∧ ¬ tree.IsSingle) ∨
      (assignments environment).foldl (cellStep part key) there =
        ((variableText? environment part key).map ofVariable).or there := by
  -- The last variable decides, so the induction goes from the end of the list.
  induction environment using List.reverseRecOn with
  | nil => exact .inr rfl
  | append_singleton earlier last inductionHypothesis =>
    rw [assignments_append, variableText?_append, List.foldl_append]
    generalize (assignments earlier).foldl (cellStep part key) there = before at inductionHypothesis ⊢
    cases keyed : variableKey last.1 with
    | none =>
      have other : isFor part key last.1 = false := Bool.eq_false_iff.mpr fun sets => by
        simpa [keyed] using place.isFor_iff.mp sets
      simpa [other] using inductionHypothesis
    | some written =>
      have folded := fold_variableKey keyed
      have sets : isFor part key last.1 = true ↔ written = part ++ "." ++ key := by
        rw [place.isFor_iff, keyed, Option.some_inj]
      rcases cellStep_variable place before last.2 folded with below | same
      · exact .inl below
      · simp only [Option.map_some, Option.toList_some, List.foldl_cons, List.foldl_nil, same, sets]
        split
        · exact .inr rfl
        · exact inductionHypothesis

end Environment

end SettingTree

end ContractWorks
