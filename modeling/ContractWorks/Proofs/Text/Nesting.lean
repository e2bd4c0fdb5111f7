import Mathlib.Data.List.Basic

namespace ContractWorks.Text

/-- This function gives the bracket that ends what an opening bracket begins. -/
def partner? : Char → Option Char
  | '(' => some ')'
  | '[' => some ']'
  | '\x7b' => some '\x7d'
  | _ => none

/-- This test asks for a closing bracket. -/
def closes (character : Char) : Bool :=
  character = ')' || character = ']' || character = '\x7d'

/-- This test asks for a bracket. -/
def isBracket (character : Char) : Bool :=
  (partner? character).isSome || closes character

/-- Characters are nested when every bracket that is opened is closed by its partner, with nested characters between
them, and no other bracket is closed. -/
inductive Nested : List Char → Prop where
  | nil : Nested []
  | plain {character : Char} {rest : List Char} (apart : isBracket character = false) (nested : Nested rest) :
    Nested (character :: rest)
  | enclosed {opening closing : Char} {inner rest : List Char} (pair : partner? opening = some closing)
    (inside : Nested inner) (nested : Nested rest) : Nested (opening :: (inner ++ closing :: rest))

/-- This function reads one character and keeps the brackets that are awaited, the innermost first. It gives nothing
when a bracket is closed that is not the one awaited next. -/
def await (awaited : List Char) (character : Char) : Option (List Char) :=
  match partner? character with
  | some closing => some (closing :: awaited)
  | none =>
    if closes character then
      match awaited with
      | [] => none
      | next :: outer => if next = character then some outer else none
    else some awaited

/-- This function reads characters from left to right. -/
def awaitedAfter (awaited characters : List Char) : Option (List Char) :=
  characters.foldlM await awaited

section Reading

variable {character opening closing : Char} {awaited characters : List Char}

theorem awaitedAfter_append (awaited front back : List Char) :
    awaitedAfter awaited (front ++ back) = (awaitedAfter awaited front).bind fun left => awaitedAfter left back :=
  List.foldlM_append

theorem awaitedAfter_cons (awaited : List Char) (character : Char) (rest : List Char) :
    awaitedAfter awaited (character :: rest) = (await awaited character).bind fun left => awaitedAfter left rest :=
  List.foldlM_cons

theorem await_of_plain (apart : isBracket character = false) : await awaited character = some awaited := by
  obtain ⟨opens, ends⟩ := Bool.or_eq_false_iff.mp apart
  have none : partner? character = none := Option.not_isSome_iff_eq_none.mp (Bool.eq_false_iff.mp opens)
  simp [await, none, ends]

theorem await_of_opening (pair : partner? opening = some closing) :
    await awaited opening = some (closing :: awaited) := by
  simp [await, pair]

theorem closes_of_pair (pair : partner? opening = some closing) : partner? closing = none ∧ closes closing = true := by
  unfold partner? at pair
  split at pair <;> cases pair <;> decide

theorem await_of_closing (pair : partner? opening = some closing) :
    await (closing :: awaited) closing = some awaited := by
  obtain ⟨none, ends⟩ := closes_of_pair pair
  simp [await, none, ends]

/-- Nothing is awaited after nested characters but what was awaited before. -/
theorem Nested.awaitedAfter (nested : Nested characters) (awaited : List Char) :
    awaitedAfter awaited characters = some awaited := by
  induction nested generalizing awaited with
  | nil => rfl
  | plain apart _ inductionHypothesis =>
    rw [awaitedAfter_cons, await_of_plain apart, Option.bind_some, inductionHypothesis]
  | enclosed pair _ _ inside after =>
    rw [awaitedAfter_cons, await_of_opening pair, Option.bind_some, awaitedAfter_append, inside, Option.bind_some,
      awaitedAfter_cons, await_of_closing pair, Option.bind_some, after]

end Reading

theorem Nested.append {front back : List Char} (first : Nested front) (second : Nested back) :
    Nested (front ++ back) := by
  induction first with
  | nil => exact second
  | plain apart _ inductionHypothesis => exact .plain apart inductionHypothesis
  | enclosed pair inside _ _ after =>
    rw [List.cons_append, List.append_assoc, List.cons_append]
    exact .enclosed pair inside after

/-- Characters close what is awaited when nested characters stand before each awaited bracket and after the last. -/
def ClosesAll : List Char → List Char → Prop
  | [], characters => Nested characters
  | next :: outer, characters =>
    ∃ inner rest, characters = inner ++ next :: rest ∧ Nested inner ∧ ClosesAll outer rest

theorem ClosesAll.behind {awaited front back : List Char} (first : Nested front) (second : ClosesAll awaited back) :
    ClosesAll awaited (front ++ back) := by
  cases awaited with
  | nil => exact first.append second
  | cons next outer =>
    obtain ⟨inner, rest, rfl, nested, closed⟩ := second
    exact ⟨front ++ inner, rest, by rw [List.append_assoc], first.append nested, closed⟩

theorem closesAll_of_awaitedAfter {characters : List Char} : ∀ {awaited : List Char},
    awaitedAfter awaited characters = some [] → ClosesAll awaited characters := by
  induction characters with
  | nil =>
    intro awaited read
    obtain rfl : awaited = [] := Option.some.inj read
    exact .nil
  | cons character rest inductionHypothesis =>
    intro awaited read
    obtain ⟨left, first, read⟩ := Option.bind_eq_some_iff.mp (awaitedAfter_cons .. ▸ read)
    have closed := inductionHypothesis read
    unfold await at first
    split at first
    · next closing pair =>
      obtain rfl := Option.some.inj first
      obtain ⟨inner, after, rfl, nested, outside⟩ := closed
      have group : Nested (character :: (inner ++ [closing])) := .enclosed pair nested .nil
      simpa using outside.behind group
    · next opens =>
      split at first
      · split at first
        · cases first
        · next next outer =>
          obtain ⟨rfl, same⟩ := Option.ite_none_right_eq_some.mp first
          obtain rfl := Option.some.inj same
          exact ⟨[], rest, rfl, .nil, closed⟩
      · next ends =>
        obtain rfl := Option.some.inj first
        have apart : isBracket character = false := by simp [isBracket, opens, ends]
        exact closed.behind (.plain apart .nil)

/-- Characters are nested exactly when reading them closes nothing that is not open and leaves nothing open. -/
theorem nested_iff {characters : List Char} : Nested characters ↔ awaitedAfter [] characters = some [] :=
  ⟨fun nested => nested.awaitedAfter [], closesAll_of_awaitedAfter⟩

instance (characters : List Char) : Decidable (Nested characters) :=
  decidable_of_iff _ nested_iff.symm

example : Nested "f(a[0]) \x7b g(\x7b\x7d); \x7d".toList := by decide

/-- Only brackets count for what is awaited. -/
theorem awaitedAfter_filter (characters awaited : List Char) :
    awaitedAfter awaited (characters.filter isBracket) = awaitedAfter awaited characters := by
  induction characters generalizing awaited with
  | nil => rfl
  | cons character rest inductionHypothesis =>
    rw [awaitedAfter_cons]
    cases bracket : isBracket character with
    | true =>
      rw [List.filter_cons_of_pos bracket, awaitedAfter_cons]
      simp only [inductionHypothesis]
    | false =>
      rw [List.filter_cons_of_neg (by simp [bracket]), await_of_plain bracket, Option.bind_some, inductionHypothesis]

theorem nested_filter {characters : List Char} : Nested (characters.filter isBracket) ↔ Nested characters := by
  rw [nested_iff, nested_iff, awaitedAfter_filter]

theorem nested_of_plain {characters : List Char} (plain : ∀ character ∈ characters, isBracket character = false) :
    Nested characters := by
  induction characters with
  | nil => exact .nil
  | cons character rest inductionHypothesis =>
    obtain ⟨first, others⟩ := List.forall_mem_cons.mp plain
    exact .plain first (inductionHypothesis others)

theorem isBracket_of_isDigit {character : Char} (digit : character.isDigit = true) : isBracket character = false := by
  have opens : partner? character = none := by
    unfold partner?
    split <;> first | rfl | cases digit
  have ends : closes character = false := by
    simp only [closes, Bool.or_eq_false_iff, decide_eq_false_iff_not]
    refine ⟨⟨?_, ?_⟩, ?_⟩ <;> rintro rfl <;> cases digit
  rw [isBracket, opens, ends]
  rfl

end ContractWorks.Text
