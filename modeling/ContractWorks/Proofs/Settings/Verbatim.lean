import ContractWorks.Proofs.Number.Shortest
import ContractWorks.Proofs.Settings.Layers
import ContractWorks.Proofs.Text.Digits

namespace ContractWorks

namespace SettingTree

/-- This function gives the text that a setting of text gets from a variable, whose text is read as a value first and
then written again. -/
def arrived (text : String) : String :=
  ((ofVariable text).toText?).getD text

/-- A text is kept when it is read as text, or is the one that the value it is read as is written as: a truth value in
small letters, the shortest numeral of a whole number, or what the quantity is written as. -/
inductive Kept (text : String) : Prop where
  | unread (read : ofVariable text = .text text)
  | truth (value : Bool) (written : text = if value then "true" else "false")
  | whole (number : Int) (low : -0x8000000000000000 ≤ number) (high : number < 0x8000000000000000)
    (written : text = toString number)
  | quantity (value : Quantity) (read : ofVariable text = .quantity value) (written : text = value.text)

section Whole

open Text.Digits

theorem foldl_cast (digits : List Char) : ∀ start : Nat,
    digits.foldl (fun (value : Int) digit => value * 10 + (digit.toNat - 48 : Nat)) start =
      (digits.foldl (fun value digit => value * 10 + (digit.toNat - 48)) start : Nat) := by
  induction digits with
  | nil => exact fun start => rfl
  | cons digit digits inductionHypothesis =>
    intro start
    rw [List.foldl_cons, List.foldl_cons, ← inductionHypothesis]
    push_cast
    rfl

variable {digits : List Char}

/-- Digits without a sign are read as their number. -/
theorem readWhole_digits (nonempty : digits ≠ []) (all : ∀ digit ∈ digits, digit.isDigit = true)
    (small : value digits < 0x8000000000000000) : readWhole digits = some (value digits : Int) := by
  have size : digits.foldl (fun (value : Int) digit => value * 10 + (digit.toNat - 48 : Nat)) 0 = value digits :=
    foldl_cast digits 0
  have accepted : (digits.isEmpty || !digits.all Char.isDigit) = false := by
    simp [nonempty, List.all_eq_true.mpr all]
  cases digits with
  | nil => exact absurd rfl nonempty
  | cons first rest =>
    have digit := all first List.mem_cons_self
    unfold readWhole
    split
    next negative digits sign =>
    obtain ⟨rfl, rfl⟩ : negative = false ∧ digits = first :: rest := by
      split at sign <;> simp_all
    rw [accepted]
    simp only [Bool.false_eq_true, if_false, size]
    rw [if_pos ⟨by omega, by omega⟩]

/-- Digits behind a minus are read as their number with the other sign. -/
theorem readWhole_minus (nonempty : digits ≠ []) (all : ∀ digit ∈ digits, digit.isDigit = true)
    (small : value digits ≤ 0x8000000000000000) : readWhole ('-' :: digits) = some (-(value digits : Int)) := by
  have size : digits.foldl (fun (value : Int) digit => value * 10 + (digit.toNat - 48 : Nat)) 0 = value digits :=
    foldl_cast digits 0
  have accepted : (digits.isEmpty || !digits.all Char.isDigit) = false := by
    simp [nonempty, List.all_eq_true.mpr all]
  unfold readWhole
  simp only [accepted, Bool.false_eq_true, if_false, if_true, size]
  rw [if_pos ⟨by omega, by omega⟩]

/-- A number of 64 bits is read from its shortest numeral. -/
theorem readWhole_toString {number : Int} (low : -0x8000000000000000 ≤ number) (high : number < 0x8000000000000000) :
    readWhole (toString number).toList = some number := by
  have digits (size : Nat) : ∀ digit ∈ Nat.toDigits 10 size, digit.isDigit = true := fun _ =>
    isDigit_of_mem_toDigits size
  rw [Int.toString_eq_repr, Int.repr_eq_if]
  split
  · next up =>
    have small : value (Nat.toDigits 10 number.toNat) < 0x8000000000000000 := by
      rw [value_toDigits]
      omega
    rw [Nat.toList_repr, readWhole_digits Nat.toDigits_ne_nil (digits _) small, value_toDigits, Int.toNat_of_nonneg up]
  · next down =>
    have small : value (Nat.toDigits 10 (-number).toNat) ≤ 0x8000000000000000 := by
      rw [value_toDigits]
      omega
    rw [String.toList_append, Nat.toList_repr]
    refine (readWhole_minus Nat.toDigits_ne_nil (digits _) small).trans ?_
    rw [value_toDigits, Int.toNat_of_nonneg (by omega), Int.neg_neg]

/-- A numeral has no letters, so that its case does not matter. -/
theorem toLower_toString (number : Int) : (toString number).toLower = toString number := by
  have plain : ∀ character ∈ (toString number).toList, character.toLower = character := by
    intro character member
    have kind : character = '-' ∨ character.isDigit = true := by
      rw [Int.toString_eq_repr, Int.repr_eq_if] at member
      split at member
      · rw [Nat.toList_repr] at member
        exact .inr (isDigit_of_mem_toDigits _ member)
      · rw [String.toList_append, Nat.toList_repr] at member
        exact (List.mem_cons.mp member).imp_right (isDigit_of_mem_toDigits _)
    refine SettingStep.toLower_of_not_isUpper (Bool.eq_false_iff.mpr fun upper => ?_)
    rcases kind with rfl | digit
    · exact absurd upper (by decide)
    · have first : 'A'.val ≤ character.val := (of_decide_eq_true upper).1
      have last : character.val ≤ '9'.val := (Bool.and_eq_true_iff.mp digit).2 |> of_decide_eq_true
      exact absurd (UInt32.le_trans first last) (by decide)
  have mapped : (toString number).toLower = (toString number).map Char.toLower := rfl
  rw [mapped, ← String.toList_inj, String.toList_map]
  exact List.map_congr_left plain |>.trans (List.map_id _)

theorem ofVariable_toString {number : Int} (low : -0x8000000000000000 ≤ number)
    (high : number < 0x8000000000000000) : ofVariable (toString number) = .whole number := by
  have read := readWhole_toString low high
  have other (word : String) (unread : readWhole word.toList = none) : (toString number).toLower ≠ word := by
    rw [toLower_toString]
    rintro rfl
    exact Option.some_ne_none number (read.symm.trans unread)
  rw [ofVariable]
  split
  · next same => exact absurd same (other "true" (by decide))
  · next same => exact absurd same (other "false" (by decide))
  · rw [read]

end Whole

section Arrival

variable {text : String}

theorem toText?_ofVariable (text : String) : (ofVariable text).toText? = some (arrived text) := by
  have single := isSingle_ofVariable text
  have set : ofVariable text ≠ .unset := by
    rw [ofVariable]
    split
    · simp
    · simp
    · split
      · simp
      · split <;> simp
  rw [arrived]
  cases read : ofVariable text <;> rw [read] at single <;>
    first | rfl | exact absurd read set | exact single.elim

theorem arrived_of_read {tree : SettingTree} {written : String} (read : ofVariable text = tree)
    (writes : tree.toText? = some written) : arrived text = written := by
  rw [arrived, read, writes, Option.getD_some]

/-- What is read as a whole number fits 64 bits. -/
theorem bounds_of_readWhole {characters : List Char} {number : Int} (read : readWhole characters = some number) :
    -0x8000000000000000 ≤ number ∧ number < 0x8000000000000000 := by
  unfold readWhole at read
  split at read
  split at read
  · simp at read
  · simp only [Option.ite_none_right_eq_some, Option.some.injEq] at read
    obtain ⟨bounds, rfl⟩ := read
    exact bounds

/-- A value that is read is a truth value, a whole number, a quantity or the text itself. -/
theorem eq_of_ofVariable {tree : SettingTree} (read : ofVariable text = tree) :
    (∃ value, tree = .truth value) ∨ (∃ number, readWhole text.toList = some number ∧ tree = .whole number) ∨
      (∃ value, tree = .quantity value) ∨ tree = .text text := by
  rw [ofVariable] at read
  split at read
  · exact .inl ⟨true, read.symm⟩
  · exact .inl ⟨false, read.symm⟩
  · split at read
    · next number whole => exact .inr (.inl ⟨number, whole, read.symm⟩)
    · split at read
      · next value _ => exact .inr (.inr (.inl ⟨value, read.symm⟩))
      · exact .inr (.inr (.inr read.symm))

theorem eq_of_ofVariable_text {written : String} (read : ofVariable text = .text written) : written = text := by
  rcases eq_of_ofVariable read with ⟨value, other⟩ | ⟨number, -, other⟩ | ⟨value, other⟩ | same
  · simp at other
  · simp at other
  · simp at other
  · exact SettingTree.text.inj same

/-- The texts that arrive as they are. -/
theorem arrived_eq_iff : arrived text = text ↔ Kept text := by
  constructor
  · intro same
    rcases eq_of_ofVariable rfl with ⟨value, read⟩ | ⟨number, whole, read⟩ | ⟨value, read⟩ | read
    · exact .truth value (same.symm.trans (arrived_of_read read rfl))
    · obtain ⟨low, high⟩ := bounds_of_readWhole whole
      exact .whole number low high (same.symm.trans (arrived_of_read read rfl))
    · exact .quantity value read (same.symm.trans (arrived_of_read read rfl))
    · exact .unread read
  · rintro (read | ⟨value, rfl⟩ | ⟨number, low, high, rfl⟩ | ⟨value, read, written⟩)
    · exact arrived_of_read read rfl
    · cases value <;> decide +kernel
    · exact arrived_of_read (ofVariable_toString low high) rfl
    · exact (arrived_of_read read rfl).trans written.symm

end Arrival

section Zero

open Text.Digits

theorem getLast?_toDigits (number : Nat) : (Nat.toDigits 10 number).getLast? = some (Nat.digitChar (number % 10)) := by
  rw [Nat.toDigits_eq_if (by decide)]
  split
  · next small => rw [Nat.mod_eq_of_lt small, List.getLast?_singleton]
  · rw [List.getLast?_append, List.getLast?_singleton, Option.some_or]

theorem digitChar_ne_zero : ∀ digit < 10, digit ≠ 0 → Nat.digitChar digit ≠ '0' := by
  decide

/-- Digits with a point among them end in the last digit. -/
theorem getLast?_positional {digits : List Char} {power : Int} (nonempty : digits ≠ []) (down : power < 0) :
    (Quantity.positional digits power).getLast? = digits.getLast? := by
  rw [Quantity.positional, if_neg (Int.not_le.mpr down)]
  split
  · next inside =>
    have short : ((digits.length : Int) + power).toNat < digits.length := by omega
    rw [List.getLast?_append, List.getLast?_drop, if_neg (Nat.not_le.mpr short)]
    cases last : digits.getLast? with
    | none => exact absurd (List.getLast?_eq_none_iff.mp last) nonempty
    | some digit => rfl
  · cases last : digits.getLast? with
    | none => exact absurd (List.getLast?_eq_none_iff.mp last) nonempty
    | some digit => rw [List.getLast?_append, last, Option.some_or]

/-- What is written with a point does not end in a zero. -/
theorem getLast?_text {value : Binary64} (finite : value.Finite) (point : '.' ∈ (Quantity.finite value).text.toList) :
    (Quantity.finite value).text.toList.getLast? ≠ some '0' := by
  rw [Quantity.text, String.toList_ofList] at point ⊢
  have digits (size : Nat) (mark : '.' ∈ Nat.toDigits 10 size) : False :=
    absurd (isDigit_of_mem_toDigits size mark) (by decide)
  by_cases zero : value.mantissa = 0
  · have shortest : value.shortest = (0, 0) := by rw [Binary64.shortest, if_pos zero]
    rw [shortest] at point
    cases value.negative <;> simp [Quantity.positional] at point
  · have last := Binary64.mod_shortest finite zero
    generalize value.shortest = decimal at last point ⊢
    obtain ⟨size, power⟩ := decimal
    by_cases down : power < 0
    · simp only at last ⊢
      rw [List.getLast?_append, getLast?_positional Nat.toDigits_ne_nil down, getLast?_toDigits, Option.some_or]
      exact fun same => digitChar_ne_zero _ (Nat.mod_lt _ (by decide)) last (Option.some.inj same)
    · have up : 0 ≤ power := Int.not_lt.mp down
      simp only [Quantity.positional, if_pos up, List.mem_append] at point
      rcases point with sign | mark | zeros
      · split at sign <;> simp at sign
      · exact (digits size mark).elim
      · exact absurd (List.eq_of_mem_replicate zeros) (by decide)

theorem finite_of_ofDecimal {negative : Bool} {digits : List Nat} {power : Int} {value : Binary64}
    (read : Quantity.ofDecimal negative digits power = .finite value) : value.Finite := by
  rw [Quantity.ofDecimal] at read
  split at read
  · rw [← Quantity.finite.inj read]
    exact ⟨by norm_num, by norm_num⟩
  · split at read
    · simp at read
    · simp only at read
      split at read
      · next found rounded =>
        rw [← Quantity.finite.inj read]
        exact (Binary64.finite_of_ofFraction (Binary64.scale_pos (by decide) _ Nat.one_pos) rounded).1
      · simp at read

theorem finite_of_readQuantity {characters : List Char} {value : Binary64}
    (read : readQuantity characters = some (.finite value)) : value.Finite := by
  unfold readQuantity at read
  split at read
  split at read
  · simp at read
  · simp at read
  · simp at read
  · unfold readDecimal at read
    simp only at read
    split at read <;>
    · simp only [Option.ite_none_left_eq_some, Option.map_eq_some_iff] at read
      obtain ⟨-, power, -, rounded⟩ := read
      exact finite_of_ofDecimal rounded

theorem finite_of_ofVariable {text : String} {value : Binary64} (read : ofVariable text = .quantity (.finite value)) :
    value.Finite := by
  rw [ofVariable] at read
  split at read
  · simp at read
  · simp at read
  · split at read
    · simp at read
    · split at read
      · next found quantity =>
        obtain rfl := SettingTree.quantity.inj read
        exact finite_of_readQuantity quantity
      · simp at read

/-- A number with a point that ends in a zero does not arrive as it was written. -/
theorem arrived_ne_of_zero {text : String} {value : Quantity} (read : ofVariable text = .quantity value)
    (point : '.' ∈ text.toList) (zero : text.toList.getLast? = some '0') : arrived text ≠ text := by
  intro same
  have written : value.text = text := (arrived_of_read read rfl).symm.trans same
  rw [← written] at point zero
  cases value with
  | finite value => exact getLast?_text (finite_of_ofVariable read) point zero
  | infinite negative => cases negative <;> exact absurd point (by decide)
  | undefined => exact absurd point (by decide)

end Zero

section Assign

/-- This function gives the variables for a place another text. -/
def assign (part key text : String) (environment : List (String × String)) : List (String × String) :=
  environment.map fun entry => if isFor part key entry.1 then (entry.1, text) else entry

variable {part key first second : String} {environment : List (String × String)}

/-- Two runs of a step over the variables, with one text or another for a place, stay related when each step keeps the
relation, also the steps for the place. -/
theorem foldl_assign (place : IsPlace part key) {step : Option SettingTree → String × SettingTree → Option SettingTree}
    {related : Option SettingTree → Option SettingTree → Prop}
    (same : ∀ one other, related one other → ∀ written text,
      related (step one (written, ofVariable text)) (step other (written, ofVariable text)))
    (set : ∀ one other, related one other → related (step one (part ++ "." ++ key, ofVariable first))
      (step other (part ++ "." ++ key, ofVariable second))) :
    ∀ {one other : Option SettingTree}, related one other →
      related ((assignments (assign part key first environment)).foldl step one)
        ((assignments (assign part key second environment)).foldl step other) := by
  induction environment with
  | nil => exact fun before => before
  | cons entry environment inductionHypothesis =>
    intro one other before
    rw [assign, assign, List.map_cons, List.map_cons, assignments, assignments, List.filterMap_cons,
      List.filterMap_cons]
    by_cases sets : isFor part key entry.1 = true
    · rw [if_pos sets, if_pos sets]
      simp only [place.isFor_iff.mp sets, Option.map_some, List.foldl_cons]
      exact inductionHypothesis (set one other before)
    · rw [if_neg sets, if_neg sets]
      cases variableKey entry.1 with
      | none => exact inductionHypothesis before
      | some written => exact inductionHypothesis (same one other before written entry.2)

theorem variableText?_assign (given : ∃ entry ∈ environment, isFor part key entry.1 = true) (text : String) :
    variableText? (assign part key text environment) part key = some text := by
  induction environment using List.reverseRecOn with
  | nil => simp at given
  | append_singleton earlier last inductionHypothesis =>
    rw [assign, List.map_append, List.map_singleton, variableText?_append]
    by_cases sets : isFor part key last.1 = true
    · rw [if_pos sets, if_pos sets]
    · rw [if_neg sets, if_neg sets]
      refine inductionHypothesis ?_
      obtain ⟨entry, member, sets'⟩ := given
      rcases List.mem_append.mp member with early | late
      · exact ⟨entry, early, sets'⟩
      · rw [List.mem_singleton] at late
        exact absurd (late ▸ sets') sets

theorem Apart.assign {other : String} (apart : Apart environment other) (part key text : String) :
    Apart (assign part key text environment) other := by
  intro entry member
  obtain ⟨before, present, rfl⟩ := List.mem_map.mp member
  have name : (if isFor part key before.1 then (before.1, text) else before).1 = before.1 := by
    split <;> rfl
  rw [name]
  exact apart before present

/-- Another text for a place changes nothing under other names. -/
theorem childStep_assign (place : IsPlace part key) {other : String} (elsewhere : other ≠ part)
    (there : Option SettingTree) (value : SettingTree) :
    childStep other there (part ++ "." ++ key, value) = there := by
  refine childStep_of_not_enters ?_
  rw [place.path]
  exact decide_eq_false fun same => elsewhere (same.trans place.foldPart)

/-- Another text for a place changes nothing at other places. -/
theorem cellStep_assign (place : IsPlace part key) {otherPart otherKey : String}
    (elsewhere : (otherPart, otherKey) ≠ (part, key)) (there : Option SettingTree) (value : SettingTree) :
    cellStep otherPart otherKey there (part ++ "." ++ key, value) = there := by
  simp only [cellStep, place.path, place.foldPart, place.foldKey]
  exact if_neg fun same => elsewhere (Prod.ext same.1 same.2)

/-- Two places hold the same, or the one text and the other. -/
def Exchanged (first second : String) (one other : Option SettingTree) : Prop :=
  one = other ∨ one = some (ofVariable first) ∧ other = some (ofVariable second)

/-- A variable keeps two places the same but for the exchanged texts. -/
theorem Exchanged.cellStep {one other : Option SettingTree} (before : Exchanged first second one other)
    (part key written text : String) :
    Exchanged first second (cellStep part key one (written, ofVariable text))
      (cellStep part key other (written, ofVariable text)) := by
  rcases before with rfl | ⟨rfl, rfl⟩
  · exact .inl rfl
  · simp only [SettingTree.cellStep]
    split
    · next rest _ =>
      split
      · cases rest with
        | nil =>
          have single := isSingle_ofVariable text
          exact .inl (congrArg some ((layOver_single single _).trans (layOver_single single _).symm))
        | cons step rest =>
          have one := (isSingle_ofVariable first).bare
          have other := (isSingle_ofVariable second).bare
          exact .inl (congrArg some (putAt_congr _ step rest (one.1.trans other.1.symm) (one.2.trans other.2.symm)))
      · exact .inr ⟨rfl, rfl⟩
    · exact .inr ⟨rfl, rfl⟩

/-- The variables for a place leave one text or the other there, unless a variable leads below it; then both leave the
same group or list. -/
theorem exchanged_assign (place : IsPlace part key) (given : ∃ entry ∈ environment, isFor part key entry.1 = true)
    (first second : String) (there : Option SettingTree) :
    (∃ tree, ¬ tree.IsSingle ∧
      (assignments (assign part key first environment)).foldl (SettingTree.cellStep part key) there = some tree ∧
      (assignments (assign part key second environment)).foldl (SettingTree.cellStep part key) there = some tree) ∨
    (assignments (assign part key first environment)).foldl (SettingTree.cellStep part key) there =
        some (ofVariable first) ∧
      (assignments (assign part key second environment)).foldl (SettingTree.cellStep part key) there =
        some (ofVariable second) := by
  have exchanged : Exchanged first second
      ((assignments (assign part key first environment)).foldl (SettingTree.cellStep part key) there)
      ((assignments (assign part key second environment)).foldl (SettingTree.cellStep part key) there) := by
    refine foldl_assign place (fun one other before => before.cellStep part key) ?_ (.inl rfl)
    intro one other _
    simp only [SettingTree.cellStep, place.path, place.foldPart, place.foldKey, and_self, if_true, putBelow,
      layOver_single (isSingle_ofVariable _)]
    exact .inr ⟨rfl, rfl⟩
  have ends (text : String) := foldl_assignments (assign part key text environment) place there
  simp only [variableText?_assign given, Option.map_some, Option.some_or] at ends
  rcases exchanged with same | both
  · rcases ends first with ⟨tree, found, compound⟩ | found
    · exact .inl ⟨tree, compound, found, same ▸ found⟩
    · rcases ends second with ⟨tree, other, compound⟩ | other
      · obtain rfl := Option.some.inj (found.symm.trans (same.trans other))
        exact absurd (isSingle_ofVariable first) compound
      · exact .inr ⟨found, other⟩
  · exact .inr both

end Assign

end SettingTree

namespace Settings

open SettingTree (Apart IsPlace arrived assign assignments cell? isFor ofVariable)

section Assign

variable {part key first second : String} {environment : List (String × String)} (temporary : String)
  (members : List (String × SettingTree))

/-- Another text for a place leaves the other parts as they are. -/
theorem child?_assign_of_ne (place : IsPlace part key) {other : String} (elsewhere : other ≠ part) :
    (layered temporary members (assign part key first environment)).child? other =
      (layered temporary members (assign part key second environment)).child? other := by
  rw [child?_layered, child?_layered]
  refine SettingTree.foldl_assign place (fun one other same written text => by rw [same]) (fun one other same => ?_) rfl
  rw [SettingTree.childStep_assign place elsewhere, SettingTree.childStep_assign place elsewhere, same]

variable (place : IsPlace part key) (given : ∃ entry ∈ environment, isFor part key entry.1 = true)
  (apart : Apart environment part)

include place given apart

/-- The part of a place that a variable is for is a group. -/
theorem exists_child?_assign (text : String) : ∃ table,
    (layered temporary members (assign part key text environment)).child? part = some (.group table) := by
  rw [child?_layered]
  refine SettingTree.exists_group_foldl (fun _ => (apart.assign part key text).replaces_eq_false) (.inr ?_)
  obtain ⟨entry, member, sets⟩ := given
  refine ⟨(part ++ "." ++ key, ofVariable text), SettingTree.mem_assignments.mpr ⟨(entry.1, text), ?_, ?_⟩, ?_⟩
  · exact List.mem_map.mpr ⟨entry, member, if_pos sets⟩
  · exact ⟨_, place.isFor_iff.mp sets, rfl⟩
  · simp [place.path, SettingTree.enters, place.foldPart]

theorem at?_assign (text otherKey : String) :
    (layered temporary members (assign part key text environment)).at? part otherKey =
      (assignments (assign part key text environment)).foldl (SettingTree.cellStep part otherKey)
        (cell? (members.foldl (SettingTree.childStep part) ((builtIn temporary).child? part)) otherKey) := by
  obtain ⟨table, group⟩ := exists_child?_assign temporary members place given apart text
  rw [← SettingTree.cell?_foldl fun _ => (apart.assign part key text).replaces_eq_false, ← child?_layered,
    at?_eq_held?, group]
  rfl

/-- Another text for a place leaves the other places as they are. -/
theorem at?_assign_of_ne {otherPart otherKey : String} (elsewhere : (otherPart, otherKey) ≠ (part, key))
    (first second : String) :
    (layered temporary members (assign part key first environment)).at? otherPart otherKey =
      (layered temporary members (assign part key second environment)).at? otherPart otherKey := by
  by_cases same : otherPart = part
  · subst same
    rw [at?_assign temporary members place given apart, at?_assign temporary members place given apart]
    refine SettingTree.foldl_assign place (fun one other same written text => by rw [same]) (fun one other same => ?_) rfl
    rw [SettingTree.cellStep_assign place elsewhere, SettingTree.cellStep_assign place elsewhere, same]
  · rw [at?_eq_held?, at?_eq_held?, child?_assign_of_ne temporary members place same]

/-- At the place of a variable stands what it says, unless another variable leads below it. -/
theorem at?_assign_cases (first second : String) :
    (∃ tree, ¬ tree.IsSingle ∧
      (layered temporary members (assign part key first environment)).at? part key = some tree ∧
      (layered temporary members (assign part key second environment)).at? part key = some tree) ∨
    (layered temporary members (assign part key first environment)).at? part key = some (ofVariable first) ∧
      (layered temporary members (assign part key second environment)).at? part key = some (ofVariable second) := by
  rw [at?_assign temporary members place given apart, at?_assign temporary members place given apart]
  exact SettingTree.exchanged_assign place given first second _

end Assign

section Texts

theorem texts_take {entry : Entry String} (member : entry ∈ Entry.texts) (temporary text : String) :
    entry.Takes temporary (some (ofVariable text)) (arrived text) := by
  have decodes : ∀ entry ∈ Entry.texts, entry.shape = .text ∧ ∀ text, entry.decode (.text text) = .ok text := by
    simp only [Entry.texts, List.forall_mem_cons]
    exact ⟨⟨rfl, fun _ => rfl⟩, ⟨rfl, fun _ => rfl⟩, ⟨rfl, fun _ => rfl⟩, ⟨rfl, fun _ => rfl⟩, ⟨rfl, fun _ => rfl⟩,
      ⟨rfl, fun _ => rfl⟩, ⟨rfl, fun _ => rfl⟩, by simp⟩
  obtain ⟨shape, decode⟩ := decodes entry member
  rw [Entry.Takes, shape, SettingTree.toShape, SettingTree.toText?_ofVariable]
  exact decode _

/-- No two entries share a place. -/
theorem eq_of_place {one other : Sigma Entry} (member : one ∈ Entry.all) (also : other ∈ Entry.all)
    (same : (one.2.part, one.2.key) = (other.2.part, other.2.key)) : one = other := by
  have distinct : (Entry.all.map fun entry => (entry.2.part, entry.2.key)).Nodup := by decide
  exact List.inj_on_of_nodup_map distinct member also same

/-- The storage is none of the entries. -/
theorem field_storage {config : ServiceConfig} {storage : StorageConfig} :
    ∀ entry ∈ Entry.all, entry.2.field { config with storage } = entry.2.field config := by
  simp only [Entry.all, Entry.ofServer, Entry.ofQueue, Entry.ofWorkspace, Entry.ofToolchain, Entry.ofLogging,
    List.cons_append, List.nil_append, List.forall_mem_cons]
  refine ⟨?_, ?_, ?_, ?_, ?_, ?_, ?_, ?_, ?_, ?_, ?_, ?_, ?_, ?_, ?_, ?_, ?_, by simp⟩ <;> trivial

variable {temporary : String} {disk : Disk} {path : Option String} {environment : List (String × String)}
  {config : ServiceConfig} {first : String}

/-- If all entries take something with one text in the variable for an entry of text, that entry takes what arrives of
another text, and the other entries take what they took. -/
theorem takes_assign {entry : Entry String} (member : entry ∈ Entry.texts)
    (given : ∃ pair ∈ environment, isFor entry.part entry.key pair.1 = true) (apart : Apart environment entry.part)
    {members : List (String × SettingTree)}
    (entries : ∀ other ∈ Entry.all, other.2.Takes temporary
      ((layered temporary members (assign entry.part entry.key first environment)).at? other.2.part other.2.key)
      (other.2.field config)) (second : String) :
    entry.Takes temporary
        ((layered temporary members (assign entry.part entry.key second environment)).at? entry.part entry.key)
        (arrived second) ∧
      ∀ other ∈ Entry.all, (other.2.part, other.2.key) ≠ (entry.part, entry.key) → other.2.Takes temporary
        ((layered temporary members (assign entry.part entry.key second environment)).at? other.2.part other.2.key)
        (other.2.field config) := by
  have inside := Entry.mem_all_of_mem_texts member
  have place : IsPlace entry.part entry.key := isPlace_of_mem (mem_places inside)
  constructor
  · rcases at?_assign_cases temporary members place given apart first second with ⟨tree, compound, found, -⟩ | both
    · exact absurd (found ▸ entries _ inside) (Layers.not_takes_of_not_single temporary inside compound _)
    · exact both.2 ▸ texts_take member temporary second
  · intro other among elsewhere
    exact at?_assign_of_ne temporary members place given apart elsewhere first second ▸ entries other among

/-- If the settings load with one text in the variable for an entry of text, they load with every other text: the entry
has what arrives of it, and all else is as before. -/
theorem exists_load_assign {entry : Entry String} (member : entry ∈ Entry.texts)
    (given : ∃ pair ∈ environment, isFor entry.part entry.key pair.1 = true)
    (apart : Apart environment entry.part)
    (loads : load temporary disk path (assign entry.part entry.key first environment) = some config) (second : String) :
    ∃ changed, load temporary disk path (assign entry.part entry.key second environment) = some changed ∧
      entry.field changed = arrived second ∧
      (∀ other ∈ Entry.all, (other.2.part, other.2.key) ≠ (entry.part, entry.key) →
        other.2.field changed = other.2.field config) ∧
      changed.storage = config.storage := by
  obtain ⟨members, file, read⟩ := load_eq_some_iff.mp loads
  obtain ⟨parts, entries, storage⟩ := SettingTree.toConfig_iff.mp read
  have inside := Entry.mem_all_of_mem_texts member
  have place : IsPlace entry.part entry.key := isPlace_of_mem (mem_places inside)
  have apartStorage : "storage" ≠ entry.part :=
    (by decide : ∀ entry ∈ Entry.texts, "storage" ≠ entry.part) entry member
  obtain ⟨here, others⟩ := takes_assign member given apart entries second
  have stored : (layered temporary members (assign entry.part entry.key first environment)).child? "storage" =
      (layered temporary members (assign entry.part entry.key second environment)).child? "storage" :=
    child?_assign_of_ne temporary members place apartStorage
  obtain ⟨changed, again⟩ : ∃ changed,
      (layered temporary members (assign entry.part entry.key second environment)).toConfig temporary = .ok changed := by
    refine SettingTree.exists_toConfig_of_takes ?_ ?_ (stored ▸ storage)
    · intro part among tree found
      by_cases same : part = entry.part
      · subst same
        obtain ⟨table, group⟩ := exists_child?_assign temporary members place given apart second
        obtain rfl := Option.some.inj (group.symm.trans found)
        rfl
      · exact parts part among tree ((child?_assign_of_ne temporary members place same).trans found)
    · intro other among
      by_cases same : (other.2.part, other.2.key) = (entry.part, entry.key)
      · obtain rfl : other = ⟨_, entry⟩ := eq_of_place among inside same
        exact ⟨_, here⟩
      · exact ⟨_, others other among same⟩
  obtain ⟨-, newEntries, newStorage⟩ := SettingTree.toConfig_iff.mp again
  refine ⟨changed, load_eq_some_iff.mpr ⟨members, file, again⟩, ?_, ?_, ?_⟩
  · exact (newEntries _ inside).unique here
  · exact fun other among elsewhere => (newEntries other among).unique (others other among elsewhere)
  · exact newStorage.unique (stored ▸ storage)

section Path

variable (given : ∃ pair ∈ environment, isFor "storage" "path" pair.1 = true) (apart : Apart environment "storage")

include given apart

/-- Another text for the path of the storage leaves its kind, and each text stands there unless a variable leads below. -/
theorem exists_storage_assign (temporary : String) (members : List (String × SettingTree)) (first second : String) :
    ∃ table other,
      (layered temporary members (assign "storage" "path" first environment)).child? "storage" = some (.group table) ∧
      (layered temporary members (assign "storage" "path" second environment)).child? "storage" =
        some (.group other) ∧
      Table.get? "type" table = Table.get? "type" other ∧
      ((∃ tree, ¬ tree.IsSingle ∧ Table.get? "path" table = some tree ∧ Table.get? "path" other = some tree) ∨
        Table.get? "path" table = some (ofVariable first) ∧ Table.get? "path" other = some (ofVariable second)) := by
  have place : IsPlace "storage" "path" := isPlace_of_mem storagePath_mem
  obtain ⟨table, group⟩ := exists_child?_assign temporary members place given apart first
  obtain ⟨other, otherGroup⟩ := exists_child?_assign temporary members place given apart second
  have held {text : String} {found : Table String SettingTree}
      (stands : (layered temporary members (assign "storage" "path" text environment)).child? "storage" =
        some (.group found)) (key : String) :
      (layered temporary members (assign "storage" "path" text environment)).at? "storage" key =
        Table.get? key found := by
    rw [at?_eq_held?, stands]
    rfl
  have kind := at?_assign_of_ne temporary members place given apart
    (by decide : ("storage", "type") ≠ ("storage", "path")) first second
  have paths := at?_assign_cases temporary members place given apart first second
  rw [held group, held otherGroup] at kind paths
  exact ⟨table, other, group, otherGroup, kind, paths⟩

/-- Another text for the path of the storage changes nothing but the storage. -/
theorem load_assign_of_takes {members : List (String × SettingTree)} {second : String} {storage : StorageConfig}
    (file : setByFile disk path = some members)
    (read : (layered temporary members (assign "storage" "path" first environment)).toConfig temporary = .ok config)
    (taken : (Field.withDefault "storage" StorageConfig.decode .memory).Takes
      (((layered temporary members (assign "storage" "path" second environment)).child? "storage").map
        SettingTree.storageDraft) storage) :
    load temporary disk path (assign "storage" "path" second environment) = some { config with storage } := by
  have place : IsPlace "storage" "path" := isPlace_of_mem storagePath_mem
  have apartParts : ∀ part ∈ SettingTree.sections.map Prod.fst, part ≠ "storage" := by decide
  have apartEntries : ∀ entry ∈ Entry.all, entry.2.part ≠ "storage" := by decide
  obtain ⟨parts, entries, -⟩ := SettingTree.toConfig_iff.mp read
  refine load_eq_some_iff.mpr ⟨members, file, SettingTree.toConfig_iff.mpr ⟨?_, ?_, taken⟩⟩
  · intro part among tree found
    exact parts part among tree ((child?_assign_of_ne temporary members place (apartParts part among)).trans found)
  · intro entry among
    have elsewhere : (entry.2.part, entry.2.key) ≠ ("storage", "path") := fun same =>
      apartEntries entry among (Prod.mk.inj same).1
    have same := at?_assign_of_ne temporary members place given apart elsewhere first second
    rw [field_storage entry among, ← same]
    exact entries entry among

/-- The place of the path of the storage is like every other. If the settings load with one text in its variable, they load
with another one when the storage is in memory; for files both are paths only if nothing else is read in them. -/
theorem load_assign_path
    (loads : load temporary disk path (assign "storage" "path" first environment) = some config) (second : String) :
    config.storage = .memory ∧ load temporary disk path (assign "storage" "path" second environment) = some config ∨
      config.storage = .file first ∧ ofVariable first = .text first ∧
        (ofVariable second = .text second →
          load temporary disk path (assign "storage" "path" second environment) =
            some { config with storage := .file second }) ∧
        (ofVariable second ≠ .text second →
          load temporary disk path (assign "storage" "path" second environment) = none) := by
  obtain ⟨members, file, read⟩ := load_eq_some_iff.mp loads
  have storage := (SettingTree.toConfig_iff.mp read).2.2
  obtain ⟨table, other, group, otherGroup, kind, paths⟩ :=
    exists_storage_assign given apart temporary members first second
  have reads {storage : StorageConfig}
      (taken : StorageConfig.decode (SettingTree.storageDraft (.group other)) = .ok storage) :
      load temporary disk path (assign "storage" "path" second environment) = some { config with storage } :=
    load_assign_of_takes given apart file read (otherGroup ▸ taken)
  rw [group] at storage
  rcases StorageConfig.decode_group_iff.mp storage with ⟨memory, inMemory⟩ | ⟨text, files, held, inFiles⟩
  · refine .inl ⟨inMemory, ?_⟩
    rw [reads (StorageConfig.decode_group_iff.mpr (.inl ⟨kind ▸ memory, rfl⟩)), ← inMemory]
  · rw [held] at paths
    rcases paths with ⟨tree, compound, found, -⟩ | ⟨readFirst, readSecond⟩
    · obtain rfl := Option.some.inj found
      exact absurd trivial compound
    · have same := Option.some.inj readFirst
      obtain rfl := SettingTree.eq_of_ofVariable_text same.symm
      refine .inr ⟨inFiles, same.symm, fun whole => ?_, fun changed => ?_⟩
      · exact reads (StorageConfig.decode_group_iff.mpr (.inr ⟨second, kind ▸ files, whole ▸ readSecond, rfl⟩))
      · rw [Option.eq_none_iff_forall_ne_some]
        intro later loaded
        obtain ⟨others, fileAgain, readAgain⟩ := load_eq_some_iff.mp loaded
        obtain rfl := Option.some.inj (file.symm.trans fileAgain)
        have taken := (SettingTree.toConfig_iff.mp readAgain).2.2
        rw [otherGroup] at taken
        rcases StorageConfig.decode_group_iff.mp taken with ⟨memory, -⟩ | ⟨written, -, heldAgain, -⟩
        · simp [← kind, files] at memory
        · have text := Option.some.inj (readSecond.symm.trans heldAgain)
          exact changed (SettingTree.eq_of_ofVariable_text text ▸ text)

end Path

/-- What a variable for a setting of text leads to, in any environment where the settings load with some text in it: the
setting has the text that arrives, nothing else changes, and this is the text of the variable just when it is one of
those that are kept. A number with a point that ends in a zero is none of them. The path of the storage is not written
again: the settings load only with a text that is read as text. -/
theorem text_arrives (temporary : String) (disk : Disk) (path : Option String) (environment : List (String × String))
    (other text : String) :
    (∀ entry ∈ Entry.texts, ∀ config, (∃ pair ∈ environment, isFor entry.part entry.key pair.1 = true) →
      Apart environment entry.part →
      load temporary disk path (assign entry.part entry.key other environment) = some config →
        ∃ changed, load temporary disk path (assign entry.part entry.key text environment) = some changed ∧
          entry.field changed = arrived text ∧
          (∀ rest ∈ Entry.all, (rest.2.part, rest.2.key) ≠ (entry.part, entry.key) →
            rest.2.field changed = rest.2.field config) ∧
          changed.storage = config.storage) ∧
    (∀ config, (∃ pair ∈ environment, isFor "storage" "path" pair.1 = true) → Apart environment "storage" →
      load temporary disk path (assign "storage" "path" other environment) = some config →
        config.storage = .memory ∧ load temporary disk path (assign "storage" "path" text environment) = some config ∨
        config.storage = .file other ∧ ofVariable other = .text other ∧
          (ofVariable text = .text text → load temporary disk path (assign "storage" "path" text environment) =
            some { config with storage := .file text }) ∧
          (ofVariable text ≠ .text text →
            load temporary disk path (assign "storage" "path" text environment) = none)) ∧
    (arrived text = text ↔ SettingTree.Kept text) ∧
    (∀ value, ofVariable text = .quantity value → '.' ∈ text.toList → text.toList.getLast? = some '0' →
      arrived text ≠ text) :=
  ⟨fun _ member _ given apart loads => exists_load_assign member given apart loads text,
    fun _ given apart loads => load_assign_path given apart loads text, SettingTree.arrived_eq_iff,
    fun _ => SettingTree.arrived_ne_of_zero⟩

/-- The default version may be replaced by every other one, but a zero at its end gets lost. -/
theorem text_arrives_withoutZero :
    ∃ changed, load "/tmp" Disk.empty none [("FORGE_TOOLCHAIN__SOROBAN_SDK_VERSION", "22.10")] = some changed ∧
      changed.toolchain.sorobanSdkVersion = "22.1" ∧ changed.storage = .memory := by
  have loads : load "/tmp" Disk.empty none [("FORGE_TOOLCHAIN__SOROBAN_SDK_VERSION", "22.0.0")] =
      some (.default "/tmp") := by
    decide +kernel
  have given : ∃ pair ∈ [("FORGE_TOOLCHAIN__SOROBAN_SDK_VERSION", "22.10")],
      isFor "toolchain" "soroban_sdk_version" pair.1 = true := by
    decide +kernel
  have apart : Apart [("FORGE_TOOLCHAIN__SOROBAN_SDK_VERSION", "22.10")] "toolchain" := by
    simp only [Apart, List.forall_mem_singleton]
    decide +kernel
  have arrives : arrived "22.10" = "22.1" := by decide +kernel
  obtain ⟨changed, loaded, version, -, storage⟩ := (text_arrives "/tmp" Disk.empty none _ "22.0.0" "22.10").1
    Entry.sorobanSdkVersion (by simp [Entry.texts]) (.default "/tmp") given apart loads
  exact ⟨changed, loaded, version.trans arrives, storage⟩

/-- A version that ends in a zero, a name of digits and a name that is a truth value arrive as other texts, and the settings
do not load with a number as the path of the storage, though each is a text that a file may give as it is. -/
theorem text_rewritten :
    (load "/tmp" Disk.empty none [("FORGE_TOOLCHAIN__SOROBAN_SDK_VERSION", "22.10")]).map
        (·.toolchain.sorobanSdkVersion) = some "22.1" ∧
      (load "/tmp" Disk.empty none [("FORGE_WORKSPACE__PREFIX", "007")]).map (·.workspace.namePrefix) = some "7" ∧
      (load "/tmp" Disk.empty none [("FORGE_WORKSPACE__PREFIX", "TRUE")]).map (·.workspace.namePrefix) = some "true" ∧
      load "/tmp" Disk.empty none [("FORGE_STORAGE__TYPE", "file"), ("FORGE_STORAGE__PATH", "2024")] = none ∧
      (load "/tmp" (oneFile "\x7b\"toolchain\":\x7b\"soroban_sdk_version\":\"22.10\"\x7d\x7d") (some "/forge.json")
        []).map (·.toolchain.sorobanSdkVersion) = some "22.10" ∧
      (load "/tmp" (oneFile "\x7b\"storage\":\x7b\"type\":\"file\",\"path\":\"2024\"\x7d\x7d")
        (some "/forge.json") []).map (·.storage) = some (.file "2024") := by
  refine ⟨?_, ?_, ?_, ?_, ?_, ?_⟩ <;> decide +kernel

end Texts

end Settings

end ContractWorks
