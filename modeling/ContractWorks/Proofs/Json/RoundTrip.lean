import ContractWorks.Json.Draft
import ContractWorks.Json.Printer
import ContractWorks.Proofs.Json.Fits

namespace ContractWorks.Draft

open Json (escapeChar textChars)

/-- This spelling has not read anything yet. -/
def Spelling.start : Spelling :=
  ⟨[], none, true⟩

/-- This function adds characters in order. -/
def Spelling.pushAll (spelling : Spelling) (characters : List Char) : Spelling :=
  characters.foldl Spelling.push spelling

@[simp] theorem Spelling.half_push (spelling : Spelling) (character : Char) :
    (spelling.push character).half = none :=
  rfl

theorem Spelling.pushAll_eq (characters : List Char) :
    ∀ {spelling : Spelling}, spelling.half = none →
      spelling.pushAll characters =
        ⟨characters.reverse ++ spelling.reversed, none, spelling.readable⟩ := by
  induction characters with
  | nil =>
    intro spelling whole
    cases spelling
    simp_all [pushAll]
  | cons character characters inductionHypothesis =>
    intro spelling whole
    have next := inductionHypothesis (spelling.half_push character)
    simp only [pushAll, List.foldl_cons] at next ⊢
    rw [next]
    simp [push, whole]

/-- The characters of a finished text come out in the order in which they went in. -/
theorem Spelling.key_pushAll (characters : List Char) :
    (Spelling.start.pushAll characters).key = some (String.ofList characters) := by
  rw [pushAll_eq characters rfl]
  simp [key, start]

theorem Spelling.draft_pushAll (characters : List Char) :
    (Spelling.start.pushAll characters).draft = .text (String.ofList characters) := by
  rw [pushAll_eq characters rfl]
  simp [draft, start]

/-- The escape of a control character holds its code in four hexadecimal digits. -/
theorem hexCode_octet {code : Nat} (small : code < 256) :
    hexCode '0' '0' (Text.Hex.digit (code / 16)) (Text.Hex.digit (code % 16)) = some code := by
  have zero : Text.Hex.value? '0'.toNat = some 0 := by decide
  have high := Text.Hex.value?_digit (code / 16) (by omega)
  have low := Text.Hex.value?_digit (code % 16) (by omega)
  simp only [hexCode, zero, high, low, bind, Option.bind, pure]
  congr 1
  omega

/-- The code of a character that is no half of a pair is pushed as that character. -/
theorem Spelling.pushUnit_toNat {spelling : Spelling} {character : Char} (whole : spelling.half = none)
    (small : character.toNat < 0x20) :
    spelling.pushUnit character.toNat = spelling.push character := by
  unfold pushUnit
  rw [whole]
  simp only
  rw [if_neg (by omega), if_neg (by omega), Char.ofNat_toNat]

theorem readText_plain {spelling : Spelling} {character : Char} (rest : List Char)
    (quote : character ≠ '"') (backslash : character ≠ '\\') (visible : ¬character.toNat < 0x20) :
    readText spelling (character :: rest) = readText (spelling.push character) rest := by
  rw [readText.eq_def]
  split
  · next none => exact absurd none (by simp)
  · next same => exact absurd (List.cons.inj same).1 quote
  · next same => exact absurd (List.cons.inj same).1 backslash
  · next same => exact absurd (List.cons.inj same).1 backslash
  · next same =>
    obtain ⟨rfl, rfl⟩ := List.cons.inj same
    rw [if_neg visible]

theorem readText_marked {spelling : Spelling} {mark character : Char} (rest : List Char)
    (marked : markedChar mark = some character) :
    readText spelling ('\\' :: mark :: rest) = readText (spelling.push character) rest := by
  rw [readText.eq_def]
  split
  · next none => exact absurd none (by simp)
  · next same => exact absurd (List.cons.inj same).1 (by decide)
  · next same =>
    simp only [List.cons.injEq] at same
    rw [same.2.1] at marked
    simp [markedChar] at marked
  · next same =>
    simp only [List.cons.injEq, true_and] at same
    obtain ⟨rfl, rfl⟩ := same
    rw [marked]
  · next noMark same =>
    exact (noMark _ _ (List.cons.inj same).1.symm (List.cons.inj same).2.symm).elim

theorem readText_coded {spelling : Spelling} {character : Char} (rest : List Char)
    (whole : spelling.half = none) (small : character.toNat < 0x20) :
    readText spelling (['\\', 'u', '0', '0'] ++ Text.Hex.octet (UInt8.ofNat character.toNat) ++ rest) =
      readText (spelling.push character) rest := by
  have code : (UInt8.ofNat character.toNat).toNat = character.toNat := by
    rw [UInt8.toNat_ofNat']
    omega
  simp only [Text.Hex.octet, code, List.cons_append, List.nil_append]
  rw [readText, hexCode_octet (by omega)]
  simp only [Spelling.pushUnit_toNat whole small]

/-- What stands for a character is read as that character. -/
theorem readText_escapeChar {spelling : Spelling} (character : Char) (rest : List Char)
    (whole : spelling.half = none) :
    readText spelling (escapeChar character ++ rest) = readText (spelling.push character) rest := by
  unfold escapeChar
  iterate 7
    split
    · next same => subst same; exact readText_marked rest (by decide)
  split
  · next small => exact readText_coded rest whole small
  · next visible => exact readText_plain rest (by assumption) (by assumption) visible

/-- A text is read back up to its closing quote. -/
theorem readText_escaped (characters rest : List Char) :
    ∀ {spelling : Spelling}, spelling.half = none →
      readText spelling (characters.flatMap escapeChar ++ '"' :: rest) =
        some (spelling.pushAll characters, rest) := by
  induction characters with
  | nil =>
    intro spelling _
    rw [List.flatMap_nil, List.nil_append, readText]
    rfl
  | cons character characters inductionHypothesis =>
    intro spelling whole
    rw [List.flatMap_cons, List.append_assoc, readText_escapeChar character _ whole]
    exact inductionHypothesis (spelling.half_push character)

end ContractWorks.Draft

namespace ContractWorks

namespace Draft

open Json (Layout chars itemChars memberChars textChars escapeChar Printable Readable FitsItems FitsMembers)

/-- A lead is a gap that stands before a part. -/
def Lead (lead : List Char) : Prop :=
  ∀ character ∈ lead, isGap character = true

theorem lead_nil : Lead [] := by
  simp [Lead]

theorem lead_gap (layout : Layout) (depth : Nat) : Lead (layout.gap depth) := by
  intro character member
  cases layout with
  | compact => simp [Layout.gap] at member
  | indented =>
    simp only [Layout.gap, List.mem_cons, List.mem_replicate] at member
    rcases member with rfl | ⟨_, rfl⟩ <;> decide

theorem dropGap_lead {lead rest : List Char} {first : Char} (gap : Lead lead)
    (visible : isGap first = false) : dropGap (lead ++ first :: rest) = first :: rest := by
  rw [dropGap, List.dropWhile_append_of_pos gap, List.dropWhile_cons, visible]
  rfl

theorem dropGap_visible {first : Char} {rest : List Char} (visible : isGap first = false) :
    dropGap (first :: rest) = first :: rest :=
  dropGap_lead lead_nil visible

theorem stops_comma (rest : List Char) : Stops (',' :: rest) := by
  intro character head
  rw [List.head?_cons, Option.mem_some_iff] at head
  exact .inr (.inl head.symm)

theorem stops_gap {first : Char} {rest : List Char} (layout : Layout) (depth : Nat)
    (stop : first = ',' ∨ first = ']' ∨ first = '\x7d') : Stops (layout.gap depth ++ first :: rest) := by
  intro character head
  cases layout with
  | compact =>
    simp only [Layout.gap, List.nil_append, List.head?_cons, Option.mem_some_iff] at head
    exact .inr (head ▸ stop)
  | indented =>
    simp only [Layout.gap, List.cons_append, List.head?_cons, Option.mem_some_iff] at head
    exact .inl (head ▸ rfl)

/-- This condition holds of the characters that a value may start with. -/
def Opens (character : Char) : Prop :=
  isGap character = false ∧ character ≠ ']' ∧ character ≠ '\x7d'

instance (character : Char) : Decidable (Opens character) :=
  inferInstanceAs (Decidable (_ ∧ _ ∧ _))

theorem opens_of_isDigit {character : Char} (digit : character.isDigit = true) : Opens character := by
  refine ⟨?_, ?_, ?_⟩
  · rw [Bool.eq_false_iff, ne_eq, isGap_iff]
    rintro (rfl | rfl | rfl | rfl) <;> exact absurd digit (by decide)
  · rintro rfl
    exact absurd digit (by decide)
  · rintro rfl
    exact absurd digit (by decide)

theorem toList_wholeText (number : Nat) :
    (Json.Number.text (.whole (number : Int))).toList = Nat.toDigits 10 number := by
  rw [Json.Number.text, Int.toString_eq_repr, Int.repr_eq_if, if_pos (by omega), Int.toNat_natCast,
    Nat.toList_repr]

/-- A negative number is written as a minus and its digits. -/
theorem toList_negativeText {number : Nat} (positive : 0 < number) :
    (Json.Number.text (.whole (-(number : Int)))).toList = '-' :: Nat.toDigits 10 number := by
  rw [Json.Number.text, Int.toString_eq_repr, Int.repr_eq_if, if_neg (by omega), Int.neg_neg,
    Int.toNat_natCast, String.toList_append, Nat.toList_repr]
  rfl

theorem eq_cast_or_neg (value : Int) :
    (∃ number : Nat, value = number) ∨ ∃ number : Nat, 0 < number ∧ value = -(number : Int) := by
  by_cases negative : value < 0
  · exact .inr ⟨value.natAbs, by omega, by omega⟩
  · exact .inl ⟨value.toNat, by omega⟩

/-- A fraction is written as its sign and its digits. -/
theorem toList_fractionText (value : Binary64) :
    (Json.Number.text (.real value)).toList = (if value.negative then ['-'] else []) ++
      Binary64.layout (Nat.toDigits 10 value.shortest.1) value.shortest.2 :=
  String.toList_ofList

/-- No value starts with a gap or with what closes a container. -/
theorem chars_eq_cons (layout : Layout) (depth : Nat) {value : Json} (printable : Printable depth value) :
    ∃ first others, chars layout depth value = first :: others ∧ Opens first := by
  cases value with
  | null => exact ⟨_, _, by rw [chars], by decide⟩
  | bool value => cases value <;> exact ⟨_, _, by rw [chars], by decide⟩
  | number number =>
    cases number with
    | real value =>
      rw [chars, toList_fractionText]
      cases value.negative with
      | true => exact ⟨_, _, rfl, by decide⟩
      | false =>
        have finite : value.Finite := printable
        obtain ⟨_, _, read⟩ := @readNumber_layout false value finite
        obtain ⟨first, others, shape, digit⟩ := isDigit_of_readNumber (read [] (by simp [Stops]))
        rw [List.append_nil] at shape
        exact ⟨first, others, shape, opens_of_isDigit digit⟩
    | whole value =>
      rcases eq_cast_or_neg value with ⟨number, rfl⟩ | ⟨number, positive, rfl⟩
      · obtain ⟨first, others, shape⟩ := List.exists_cons_of_ne_nil
          (Nat.toDigits_ne_nil (n := number) (b := 10))
        have digit : first.isDigit = true :=
          Text.Digits.isDigit_of_mem_toDigits number (by simp [shape])
        exact ⟨first, others, by rw [chars, toList_wholeText, shape], opens_of_isDigit digit⟩
      · exact ⟨_, _, by rw [chars, toList_negativeText positive], by decide⟩
  | text value => exact ⟨_, _, by rw [chars, textChars], by decide⟩
  | array items => cases items <;> exact ⟨_, _, by rw [chars], by decide⟩
  | object members => rcases members with _ | ⟨⟨key, value⟩, members⟩ <;> exact ⟨_, _, by rw [chars], by decide⟩

section Opening

variable (steps depth : Nat) (rest : List Char)

/-- A value is read from the first character that is not in a gap. -/
theorem readValue_lead {lead rest : List Char} {first : Char} (gap : Lead lead) (visible : isGap first = false) :
    readValue (steps + 1) depth (lead ++ first :: rest) = readValue (steps + 1) depth (first :: rest) := by
  rw [readValue, readValue, dropGap_lead gap visible, dropGap_visible visible]

theorem readValue_minus : readValue (steps + 1) depth ('-' :: rest) = readNumber true rest :=
  rfl

theorem readValue_quote :
    readValue (steps + 1) depth ('"' :: rest) =
      match readText ⟨[], none, true⟩ rest with
      | none => (.fault, none)
      | some (spelling, rest) => (spelling.draft, some rest) :=
  rfl

theorem readValue_bracket :
    readValue (steps + 1) depth ('[' :: rest) =
      match dropGap rest with
      | ']' :: rest => (limit depth (.array []), some rest)
      | rest =>
        let (items, left) := readItems steps (depth + 1) rest
        (limit depth (.array items), left) :=
  rfl

theorem readValue_brace :
    readValue (steps + 1) depth ('\x7b' :: rest) =
      match dropGap rest with
      | '\x7d' :: rest => (limit depth (.object []), some rest)
      | rest =>
        let (members, left) := readMembers steps (depth + 1) rest
        (limit depth (.object members), left) :=
  rfl

end Opening

theorem readValue_number {steps depth : Nat} {characters rest : List Char} {first : Char}
    (digit : first.isDigit = true) (shown : dropGap characters = first :: rest) :
    readValue (steps + 1) depth characters = readNumber false (first :: rest) := by
  rw [readValue, shown]
  split <;> first
    | rfl
    | (next same => rw [(List.cons.inj same).1] at digit; exact absurd digit (by decide))

theorem readValue_whole {steps depth : Nat} {lead rest : List Char} {value : Int} (gap : Lead lead)
    (stops : Stops rest) (inRange : -2 ^ 63 ≤ value ∧ value ≤ maxWord) :
    readValue (steps + 1) depth (lead ++ ((Json.Number.text (.whole value)).toList ++ rest)) =
      (.number (.whole value), some rest) := by
  rcases eq_cast_or_neg value with ⟨number, rfl⟩ | ⟨number, positive, rfl⟩
  · rw [toList_wholeText]
    obtain ⟨first, others, shape⟩ := List.exists_cons_of_ne_nil
      (Nat.toDigits_ne_nil (n := number) (b := 10))
    have digit : first.isDigit = true :=
      Text.Digits.isDigit_of_mem_toDigits number (by simp [shape])
    have shown : dropGap (lead ++ first :: (others ++ rest)) = first :: (others ++ rest) :=
      dropGap_lead gap (opens_of_isDigit digit).1
    rw [shape, List.cons_append, readValue_number digit shown, ← List.cons_append, ← shape,
      readNumber_toDigits number stops, wholeNumber_positive (by omega)]
  · rw [toList_negativeText positive, List.cons_append, readValue_lead _ _ gap (by decide), readValue_minus,
      readNumber_toDigits number stops, wholeNumber_negative positive (by omega)]

/-- The text of a fraction is read as a fraction. -/
theorem readValue_fraction {value : Binary64} (finite : value.Finite) :
    ∃ again : Binary64, again.Finite ∧ ∀ {steps depth : Nat} {lead rest : List Char}, Lead lead → Stops rest →
      readValue (steps + 1) depth (lead ++ ((Json.Number.text (.real value)).toList ++ rest)) =
        (.number (.real again), some rest) := by
  obtain ⟨again, sound, read⟩ := @readNumber_layout value.negative value finite
  refine ⟨again, sound, fun {steps depth lead rest} gap stops => ?_⟩
  have number := read rest stops
  obtain ⟨first, others, shape, digit⟩ := isDigit_of_readNumber number
  rw [toList_fractionText, List.append_assoc]
  cases negative : value.negative with
  | true =>
    rw [negative] at number
    rw [if_pos rfl, List.singleton_append, readValue_lead _ _ gap (by decide), readValue_minus]
    exact number
  | false =>
    rw [negative] at number
    rw [shape] at number ⊢
    rw [if_neg (by decide), List.nil_append, readValue_number digit (dropGap_lead gap (opens_of_isDigit digit).1)]
    exact number

theorem stops_nil : Stops [] := by
  simp [Stops]

/-- The text of a fraction is read as the same fraction wherever it stands. -/
theorem readValue_real {steps depth : Nat} {lead rest : List Char} {value : Binary64} (gap : Lead lead)
    (stops : Stops rest) (finite : value.Finite) :
    readValue (steps + 1) depth (lead ++ ((Json.Number.text (.real value)).toList ++ rest)) =
      (.number (Json.Number.reread (.real value)), some rest) := by
  obtain ⟨again, _, read⟩ := readValue_fraction finite
  have alone : Draft.read (Json.Number.text (.real value)) = .number (.real again) := by
    have whole := @read (2 * (Json.Number.text (.real value)).toList.length + 1) 0 [] [] lead_nil stops_nil
    rw [List.append_nil, List.nil_append] at whole
    rw [Draft.read, readStart, whole]
    rfl
  have text : value.text = Json.Number.text (.real value) := rfl
  rw [read gap stops, Json.Number.reread, text, alone]

theorem readText_textChars (text : String) (rest : List Char) :
    readText ⟨[], none, true⟩ (text.toList.flatMap escapeChar ++ '"' :: rest) =
      some (Spelling.start.pushAll text.toList, rest) :=
  readText_escaped text.toList rest rfl

theorem readValue_text {steps depth : Nat} {lead : List Char} (text : String) (rest : List Char)
    (gap : Lead lead) :
    readValue (steps + 1) depth (lead ++ (textChars text ++ rest)) = (.text text, some rest) := by
  rw [textChars, List.cons_append, readValue_lead _ _ gap (by decide), readValue_quote, List.append_assoc,
    List.singleton_append, readText_textChars]
  simp only [Spelling.draft_pushAll, String.ofList_toList]

theorem readValue_array {steps depth : Nat} {lead inner shown rest : List Char} {first : Char}
    {items : List Draft} (gap : Lead lead) (room : depth < maxDepth) (opens : Opens first)
    (starts : dropGap inner = first :: shown)
    (read : readItems steps (depth + 1) (first :: shown) = (items, some rest)) :
    readValue (steps + 1) depth (lead ++ '[' :: inner) = (.array items, some rest) := by
  rw [readValue_lead _ _ gap (by decide), readValue_bracket, starts]
  split
  · next closed => exact absurd (List.cons.inj closed).1 opens.2.1
  · simp only [read, limit, if_pos room]

theorem readValue_object {steps depth : Nat} {lead inner shown rest : List Char} {first : Char}
    {members : List (Option String × Draft)} (gap : Lead lead) (room : depth < maxDepth)
    (opens : Opens first) (starts : dropGap inner = first :: shown)
    (read : readMembers steps (depth + 1) (first :: shown) = (members, some rest)) :
    readValue (steps + 1) depth (lead ++ '\x7b' :: inner) = (.object members, some rest) := by
  rw [readValue_lead _ _ gap (by decide), readValue_brace, starts]
  split
  · next closed => exact absurd (List.cons.inj closed).1 opens.2.2
  · simp only [read, limit, if_pos room]

theorem readValue_emptyArray {steps depth : Nat} {lead : List Char} (rest : List Char) (gap : Lead lead)
    (room : depth < maxDepth) :
    readValue (steps + 1) depth (lead ++ '[' :: ']' :: rest) = (.array [], some rest) := by
  rw [readValue_lead _ _ gap (by decide), readValue_bracket, dropGap_visible (by decide)]
  simp only [limit, if_pos room]

theorem readValue_emptyObject {steps depth : Nat} {lead : List Char} (rest : List Char)
    (gap : Lead lead) (room : depth < maxDepth) :
    readValue (steps + 1) depth (lead ++ '\x7b' :: '\x7d' :: rest) = (.object [], some rest) := by
  rw [readValue_lead _ _ gap (by decide), readValue_brace, dropGap_visible (by decide)]
  simp only [limit, if_pos room]

/-- This condition says that a value is read back wherever it stands, up to what comes behind it. -/
def ReadsBack (layout : Layout) (depth : Nat) (value : Json) : Prop :=
  ∀ {steps : Nat} {lead rest : List Char}, Lead lead → Stops rest →
    2 * (chars layout depth value).length ≤ steps →
      readValue steps depth (lead ++ (chars layout depth value ++ rest)) = (value.reread.draft, some rest)

theorem readItems_last {steps depth : Nat} {characters behind rest : List Char} {item : Draft}
    (read : readValue steps depth characters = (item, some behind))
    (closed : dropGap behind = ']' :: rest) :
    readItems (steps + 1) depth characters = ([item], some rest) := by
  rw [readItems, read]
  simp only [closed]

theorem readItems_more {steps depth : Nat} {characters behind left rest : List Char} {item : Draft}
    {items : List Draft} (read : readValue steps depth characters = (item, some behind))
    (goesOn : dropGap behind = ',' :: left)
    (others : readItems steps depth left = (items, some rest)) :
    readItems (steps + 1) depth characters = (item :: items, some rest) := by
  rw [readItems, read]
  simp only [goesOn, others]

theorem colon_append (layout : Layout) (rest : List Char) :
    layout.colon ++ rest = ':' :: (layout.colon.tail ++ rest) := by
  cases layout <;> rfl

theorem readMembers_last {steps depth : Nat} {lead characters behind rest : List Char} {key : String}
    {value : Draft} (layout : Layout) (gap : Lead lead)
    (read : readValue steps depth (layout.colon.tail ++ characters) = (value, some behind))
    (closed : dropGap behind = '\x7d' :: rest) :
    readMembers (steps + 1) depth (lead ++ (textChars key ++ (layout.colon ++ characters))) =
      ([(some key, value)], some rest) := by
  have colon : dropGap (':' :: (layout.colon.tail ++ characters)) = ':' :: (layout.colon.tail ++ characters) :=
    dropGap_visible (by decide)
  rw [textChars, colon_append, List.cons_append, List.append_assoc, List.singleton_append, readMembers,
    dropGap_lead gap (by decide)]
  simp only [readText_textChars, colon, read, closed, Spelling.key_pushAll, String.ofList_toList]

theorem readMembers_more {steps depth : Nat} {lead characters behind left rest : List Char} {key : String}
    {value : Draft} {members : List (Option String × Draft)} (layout : Layout) (gap : Lead lead)
    (read : readValue steps depth (layout.colon.tail ++ characters) = (value, some behind))
    (goesOn : dropGap behind = ',' :: left)
    (others : readMembers steps depth left = (members, some rest)) :
    readMembers (steps + 1) depth (lead ++ (textChars key ++ (layout.colon ++ characters))) =
      ((some key, value) :: members, some rest) := by
  have colon : dropGap (':' :: (layout.colon.tail ++ characters)) = ':' :: (layout.colon.tail ++ characters) :=
    dropGap_visible (by decide)
  rw [textChars, colon_append, List.cons_append, List.append_assoc, List.singleton_append, readMembers,
    dropGap_lead gap (by decide)]
  simp only [readText_textChars, colon, read, goesOn, others, Spelling.key_pushAll, String.ofList_toList]

theorem lead_colon (layout : Layout) : Lead layout.colon.tail := by
  intro character member
  cases layout with
  | compact => simp [Layout.colon] at member
  | indented =>
    simp only [Layout.colon, List.tail_cons, List.mem_singleton] at member
    exact member ▸ rfl

mutual

/-- A value that can be printed is read back. -/
theorem readsBack (layout : Layout) : (value : Json) → ∀ {depth : Nat},
    Printable depth value → ReadsBack layout depth value := by
  intro value depth printable steps lead rest gap stops enough
  obtain ⟨first, others, shape, _⟩ := chars_eq_cons layout depth printable
  cases steps with
  | zero => simp [shape] at enough
  | succ steps =>
    match value with
    | .null =>
      rw [chars, List.cons_append, readValue_lead _ _ gap (by decide)]
      rfl
    | .bool true =>
      rw [chars, List.cons_append, readValue_lead _ _ gap (by decide)]
      rfl
    | .bool false =>
      rw [chars, List.cons_append, readValue_lead _ _ gap (by decide)]
      rfl
    | .number (.real value) =>
      rw [chars]
      exact readValue_real gap stops printable
    | .number (.whole value) =>
      rw [chars]
      exact readValue_whole gap stops printable
    | .text value =>
      rw [chars]
      exact readValue_text value rest gap
    | .array [] =>
      rw [chars]
      exact readValue_emptyArray rest gap printable.1
    | .array (item :: items) =>
      obtain ⟨first, others, shape, opens⟩ := chars_eq_cons layout (depth + 1) printable.2.1
      simp only [chars, List.length_cons, List.length_append] at enough
      have read := readItems_chars layout items steps depth rest
        (readsBack layout item printable.2.1) printable.2.2 lead_nil (by omega)
      rw [chars, List.cons_append]
      simp only [List.append_assoc, List.nil_append, shape, List.cons_append]
        at read ⊢
      exact readValue_array gap printable.1 opens
        (dropGap_lead (lead_gap layout (depth + 1)) opens.1) read
    | .object [] =>
      rw [chars]
      exact readValue_emptyObject rest gap printable.1
    | .object ((key, value) :: members) =>
      simp only [chars, List.length_cons, List.length_append] at enough
      have read := readMembers_chars layout members key steps depth rest
        (readsBack layout value printable.2.2.1) printable.2.2.2 lead_nil (by omega)
      rw [chars, List.cons_append]
      simp only [List.append_assoc, List.nil_append, textChars, List.cons_append]
        at read ⊢
      exact readValue_object gap printable.1 (by decide)
        (dropGap_lead (lead_gap layout (depth + 1)) (by decide)) read

/-- Items that can be read back are read back up to the end of their array. -/
theorem readItems_chars (layout : Layout) : (items : List Json) →
    ∀ {item : Json} {depth : Nat} {lead : List Char} (steps closing : Nat) (rest : List Char),
      ReadsBack layout depth item → FitsItems Json.Number.InRange (fun _ => True) depth items → Lead lead →
        2 * ((chars layout depth item).length + (itemChars layout depth items).length) + 1 ≤ steps →
          readItems steps depth (lead ++ (chars layout depth item ++
            (itemChars layout depth items ++ (layout.gap closing ++ ']' :: rest)))) =
              (item.reread.draft :: Json.draftItems (Json.rereadItems items), some rest) := by
  intro items item depth lead steps closing rest reads printable gap enough
  cases steps with
  | zero => omega
  | succ steps =>
    match items with
    | [] =>
      rw [itemChars, List.nil_append]
      exact readItems_last (reads gap (stops_gap layout closing (by simp)) (by omega))
        (dropGap_lead (lead_gap layout closing) (by decide))
    | next :: items =>
      rw [itemChars, List.length_cons, List.length_append, List.length_append] at enough
      rw [itemChars, List.cons_append]
      apply readItems_more (reads gap (stops_comma _) (by omega)) (dropGap_visible (by decide))
      have others := readItems_chars layout items steps closing rest
        (readsBack layout next printable.1) printable.2 (lead_gap layout depth) (by omega)
      simpa only [List.append_assoc, Json.rereadItems, Json.draftItems] using others

/-- Members whose values can be read back are read back up to the end of their object. -/
theorem readMembers_chars (layout : Layout) : (members : List (String × Json)) →
    ∀ {value : Json} {depth : Nat} {lead : List Char} (key : String) (steps closing : Nat)
      (rest : List Char), ReadsBack layout depth value → FitsMembers Json.Number.InRange (fun _ => True) depth members → Lead lead →
        2 * ((chars layout depth value).length + (memberChars layout depth members).length) + 1 ≤ steps →
          readMembers steps depth (lead ++ (textChars key ++ (layout.colon ++
            (chars layout depth value ++
              (memberChars layout depth members ++ (layout.gap closing ++ '\x7d' :: rest)))))) =
                ((some key, value.reread.draft) :: Json.draftMembers (Json.rereadMembers members), some rest) := by
  intro members value depth lead key steps closing rest reads printable gap enough
  cases steps with
  | zero => omega
  | succ steps =>
    match members with
    | [] =>
      rw [memberChars, List.nil_append]
      exact readMembers_last layout gap
        (reads (lead_colon layout) (stops_gap layout closing (by simp)) (by omega))
        (dropGap_lead (lead_gap layout closing) (by decide))
    | (name, next) :: members =>
      rw [memberChars, List.length_cons, List.length_append, List.length_append, List.length_append,
        List.length_append] at enough
      rw [memberChars, List.cons_append]
      apply readMembers_more layout gap
        (reads (lead_colon layout) (stops_comma _) (by omega))
        (dropGap_visible (by decide))
      have others := readMembers_chars layout members name steps closing rest
        (readsBack layout next printable.1) printable.2 (lead_gap layout depth) (by omega)
      simpa only [List.append_assoc, Json.rereadMembers, Json.draftMembers] using others

end

/-- The text of a value is read as that value, in either layout, apart from fractions. -/
theorem read_chars (layout : Layout) {value : Json} (printable : Printable 0 value) :
    read (String.ofList (chars layout 0 value)) = value.reread.draft := by
  have whole : readValue (2 * (chars layout 0 value).length + 2) 0 ([] ++ (chars layout 0 value ++ [])) =
      (value.reread.draft, some []) :=
    readsBack layout value printable lead_nil stops_nil (by omega)
  rw [List.append_nil, List.nil_append] at whole
  rw [read, readStart, String.toList_ofList, whole]
  rfl

/-- The text of a value whose numbers are exact is read as that value, in either layout. -/
theorem read_written (layout : Layout) {value : Json} (readable : Readable 0 value) :
    read (String.ofList (chars layout 0 value)) = value.draft := by
  have printable : Printable 0 value :=
    readable.mono (fun number exact => Json.Number.inRange_of_exact exact) (fun _ _ => trivial) value (Nat.le_refl 0)
  rw [read_chars layout printable, Json.reread_eq_self value readable]

/-- The file text of a value whose numbers are exact is read as that value. -/
theorem read_indented {value : Json} (readable : Readable 0 value) : read value.indented = value.draft :=
  read_written .indented readable

end Draft

end ContractWorks
