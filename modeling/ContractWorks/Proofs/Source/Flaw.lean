import ContractWorks.Queue.Submit

namespace ContractWorks

namespace Source

/-- A flaw is a reason to refuse a source. -/
inductive Flaw where
  | blank
  | tooLarge
  | foreign (marker : String)
  | lacksImport
  | lacksMarker
  deriving DecidableEq

namespace Flaw

/-- A source has a flaw when it holds blank characters only, has more octets than it may have, holds a mark of the
other language, or lacks one of its own. -/
def Mars (maxBytes : Nat) (source : String) : Flaw → Prop
  | .blank => ∀ character ∈ source.toList, Text.isBlank character = true
  | .tooLarge => maxBytes < source.utf8ByteSize
  | .foreign marker => marker.toList <:+: source.toList
  | .lacksImport => ¬ "soroban_sdk".toList <:+: source.toList
  | .lacksMarker => ¬ "#[contractimpl]".toList <:+: source.toList

/-- This list holds the flaws of a language in the order in which they are looked for. -/
def order : Language → List Flaw
  | .solidity => [.blank, .tooLarge, .foreign "soroban_sdk", .foreign "#[contractimpl]"]
  | .soroban =>
    [.blank, .tooLarge, .foreign "pragma solidity", .foreign "msg.sender", .lacksImport, .lacksMarker]

/-- This function gives the code that a flaw is reported with. -/
def code : Flaw → ErrorCode
  | .blank => .emptySource
  | .tooLarge => .tooLarge
  | .foreign _ => .crossDomain
  | .lacksImport => .missingSdkImport
  | .lacksMarker => .missingContractMarker

/-- This function gives the text that a flaw is reported with. -/
def message (maxBytes : Nat) (source : String) (language : Language) : Flaw → String
  | .blank => "empty source"
  | .tooLarge =>
    "source is " ++ toString source.utf8ByteSize ++ " bytes, limit is " ++ toString maxBytes ++ " bytes"
  | .foreign marker => language.name ++ " source contains foreign marker `" ++ marker ++ "`"
  | .lacksImport => "missing import: `soroban_sdk`"
  | .lacksMarker => "missing contract marker: `#[contractimpl]`"

/-- A flaw comes first when a source has it, but none of those that are looked for before it. -/
def ComesFirst (maxBytes : Nat) (source : String) (language : Language) (flaw : Flaw) : Prop :=
  ∃ before after, order language = before ++ flaw :: after ∧ flaw.Mars maxBytes source ∧
    ∀ earlier ∈ before, ¬ earlier.Mars maxBytes source

/-- This test looks for a flaw in a source. -/
def isIn (maxBytes : Nat) (source : String) : Flaw → Bool
  | .blank => Text.allBlank source
  | .tooLarge => maxBytes < source.utf8ByteSize
  | .foreign marker => Text.contains source marker
  | .lacksImport => !Text.contains source "soroban_sdk"
  | .lacksMarker => !Text.contains source "#[contractimpl]"

variable {maxBytes : Nat} {source : String} {language : Language} {flaw : Flaw}

/-- The test finds exactly the flaws that a source has. -/
theorem isIn_iff : flaw.isIn maxBytes source = true ↔ flaw.Mars maxBytes source := by
  cases flaw with
  | blank => exact List.all_eq_true
  | tooLarge => exact decide_eq_true_iff
  | foreign marker => exact Text.occursIn_iff
  | lacksImport => exact Bool.not_eq_true' _ ▸ Bool.eq_false_iff.trans (not_congr Text.occursIn_iff)
  | lacksMarker => exact Bool.not_eq_true' _ ▸ Bool.eq_false_iff.trans (not_congr Text.occursIn_iff)

theorem comesFirst_iff_find? : flaw.ComesFirst maxBytes source language ↔
    (order language).find? (isIn maxBytes source) = some flaw := by
  rw [List.find?_eq_some_iff_append]
  simp only [ComesFirst, Bool.not_eq_true', Bool.eq_false_iff, ne_eq, isIn_iff]
  constructor
  · rintro ⟨before, after, shape, mars, spared⟩
    exact ⟨mars, before, after, shape, spared⟩
  · rintro ⟨mars, before, after, shape, spared⟩
    exact ⟨before, after, shape, mars, spared⟩

/-- At most one flaw comes first. -/
theorem ComesFirst.eq {other : Flaw} (first : flaw.ComesFirst maxBytes source language)
    (second : other.ComesFirst maxBytes source language) : flaw = other :=
  Option.some.inj ((comesFirst_iff_find?.mp first).symm.trans (comesFirst_iff_find?.mp second))

/-- Where there is a flaw, one comes first. -/
theorem exists_comesFirst (some : ∃ flaw ∈ order language, flaw.Mars maxBytes source) :
    ∃ flaw, ComesFirst maxBytes source language flaw := by
  simp only [comesFirst_iff_find?, ← Option.isSome_iff_exists, List.find?_isSome, isIn_iff]
  exact some

/-- Every flaw is reported with a code of the gate, whose name says so. -/
theorem isValidation_code (flaw : Flaw) :
    flaw.code.isValidation = true ∧ ∃ kind, flaw.code.name = "VALIDATION_" ++ kind := by
  cases flaw with
  | blank => exact ⟨rfl, "EMPTY_SOURCE", by decide⟩
  | tooLarge => exact ⟨rfl, "TOO_LARGE", by decide⟩
  | foreign marker => exact ⟨rfl, "CROSS_DOMAIN", rfl⟩
  | lacksImport => exact ⟨rfl, "MISSING_SDK_IMPORT", by decide⟩
  | lacksMarker => exact ⟨rfl, "MISSING_CONTRACT_MARKER", by decide⟩

end Flaw

open Flaw (ComesFirst)

variable {maxBytes larger : Nat} {source : String} {language : Language} {flaw : Flaw}

/-- The gate reports the first flaw that it finds. -/
theorem validate_eq (maxBytes : Nat) (source : String) (language : Language) :
    validate maxBytes source language =
      match (Flaw.order language).find? (Flaw.isIn maxBytes source) with
      | some flaw => .invalid flaw.code (flaw.message maxBytes source language)
      | none => .ok := by
  have import_text : "missing import: `" ++ "soroban_sdk" ++ "`" = "missing import: `soroban_sdk`" := by decide
  have marker_text : "missing contract marker: `" ++ "#[contractimpl]" ++ "`" =
      "missing contract marker: `#[contractimpl]`" := by decide
  rw [validate]
  -- The checks stand in the order of the flaws, so each of them is decided in turn on both sides.
  cases language with
  | solidity =>
    simp only [Flaw.order, List.find?_cons, List.find?_nil, Flaw.isIn, foreignMarkers, sdkImport, contractMarker,
      if_true]
    split
    · next visible => simp [visible, Flaw.code, Flaw.message]
    · next visible =>
      split
      · next exceeds => simp [visible, exceeds, Flaw.code, Flaw.message]
      · next fits =>
        cases Text.contains source "soroban_sdk" <;> cases Text.contains source "#[contractimpl]" <;>
          simp [visible, fits, Flaw.code, Flaw.message]
  | soroban =>
    simp only [Flaw.order, List.find?_cons, List.find?_nil, Flaw.isIn, foreignMarkers, sdkImport, contractMarker,
      import_text, marker_text, reduceCtorEq, if_false]
    split
    · next visible => simp [visible, Flaw.code, Flaw.message]
    · next visible =>
      split
      · next exceeds => simp [visible, exceeds, Flaw.code, Flaw.message]
      · next fits =>
        cases Text.contains source "pragma solidity" <;> cases Text.contains source "msg.sender" <;>
          cases Text.contains source "soroban_sdk" <;> cases Text.contains source "#[contractimpl]" <;>
            simp [visible, fits, Flaw.code, Flaw.message]

/-- A source without flaws passes, and any other one is refused for its first flaw. -/
theorem validate_outcome (maxBytes : Nat) (source : String) (language : Language) :
    ((∀ flaw ∈ Flaw.order language, ¬ flaw.Mars maxBytes source) ∧ validate maxBytes source language = .ok) ∨
      ∃ flaw : Flaw, flaw.ComesFirst maxBytes source language ∧
        validate maxBytes source language = .invalid flaw.code (flaw.message maxBytes source language) := by
  rw [validate_eq]
  cases found : (Flaw.order language).find? (Flaw.isIn maxBytes source) with
  | none =>
    refine .inl ⟨fun flaw member mars => ?_, rfl⟩
    exact List.find?_eq_none.mp found flaw member (Flaw.isIn_iff.mpr mars)
  | some flaw => exact .inr ⟨flaw, Flaw.comesFirst_iff_find?.mpr found, rfl⟩

theorem validate_of_comesFirst (first : flaw.ComesFirst maxBytes source language) :
    validate maxBytes source language = .invalid flaw.code (flaw.message maxBytes source language) := by
  rw [validate_eq, Flaw.comesFirst_iff_find?.mp first]

theorem valid_iff_flawless : (validate maxBytes source language).valid = true ↔
    ∀ flaw ∈ Flaw.order language, ¬ flaw.Mars maxBytes source := by
  rcases validate_outcome maxBytes source language with ⟨flawless, passes⟩ | ⟨flaw, first, refused⟩
  · rw [passes]
    exact iff_of_true rfl flawless
  · rw [refused]
    obtain ⟨before, after, shape, mars, -⟩ := first
    refine iff_of_false Bool.false_ne_true fun flawless => flawless flaw ?_ mars
    rw [shape]
    exact List.mem_append_right _ List.mem_cons_self

theorem refused_iff_comesFirst : (validate maxBytes source language).valid = false ↔
    ∃ flaw : Flaw, flaw.ComesFirst maxBytes source language := by
  rcases validate_outcome maxBytes source language with ⟨flawless, passes⟩ | ⟨flaw, first, told⟩
  · refine iff_of_false (by simp [passes, ValidationOutcome.ok]) ?_
    rintro ⟨flaw, before, after, shape, mars, -⟩
    exact flawless flaw (shape ▸ List.mem_append_right _ List.mem_cons_self) mars
  · exact iff_of_true (by simp [told, ValidationOutcome.invalid]) ⟨flaw, first⟩

/-- An outcome tells an error and a code of the gate just when it refuses. -/
theorem validate_tells (maxBytes : Nat) (source : String) (language : Language) :
    ((validate maxBytes source language).error.isSome = !(validate maxBytes source language).valid) ∧
    ((validate maxBytes source language).code.isSome = !(validate maxBytes source language).valid) ∧
    ∀ code, (validate maxBytes source language).code = some code →
      code.isValidation = true ∧ ∃ kind, code.name = "VALIDATION_" ++ kind := by
  rcases validate_outcome maxBytes source language with ⟨-, passes⟩ | ⟨flaw, -, told⟩
  · rw [passes]
    exact ⟨rfl, rfl, fun code coded => by simp [ValidationOutcome.ok] at coded⟩
  · rw [told]
    exact ⟨rfl, rfl, fun code coded => Option.some.inj coded ▸ flaw.isValidation_code⟩

/-- A larger bound changes the outcome only where the source was too large. -/
theorem validate_of_le (raised : maxBytes ≤ larger) (source : String) (language : Language) :
    validate larger source language = validate maxBytes source language ∨
      (validate maxBytes source language).code = some .tooLarge := by
  rw [validate.eq_def larger, validate.eq_def maxBytes]
  by_cases visible : Text.allBlank source = true
  · rw [if_pos visible, if_pos visible]
    exact .inl rfl
  · rw [if_neg visible, if_neg visible]
    by_cases exceeds : maxBytes < source.utf8ByteSize
    · rw [if_pos exceeds]
      exact .inr rfl
    · rw [if_neg exceeds, if_neg (by omega)]
      exact .inl rfl

/-- What passes under a bound passes under every larger one. -/
theorem valid_of_le (raised : maxBytes ≤ larger) (passes : (validate maxBytes source language).valid = true) :
    (validate larger source language).valid = true := by
  rcases validate_of_le raised source language with same | exceeds
  · rwa [same]
  · have coded := (validate_tells maxBytes source language).2.1
    rw [exceeds, passes] at coded
    cases coded

/-- No source passes the gates of both languages, since the one has to hold a mark that the other must not. -/
theorem not_valid_for_both (first second : Nat) (source : String) :
    ¬ ((validate first source .solidity).valid = true ∧ (validate second source .soroban).valid = true) := by
  rintro ⟨solidity, soroban⟩
  have absent := valid_iff_flawless.mp solidity (.foreign "soroban_sdk") (by simp [Flaw.order])
  have present := valid_iff_flawless.mp soroban .lacksImport (by simp [Flaw.order])
  exact present absent

/-- A submission that the gate refuses is answered with the code and the text of its outcome. -/
theorem beginSubmit_of_refused {setting : Setting} {kind : JobKind} {input : JobInput}
    (refused : (setting.gate kind input).valid = false) (world : World) (number : Nat) :
    ∃ code message, setting.gate kind input = .invalid code message ∧ code.isValidation = true ∧
      world.beginSubmit setting number kind input =
        world.answer number (.submitted (.error (.validation code message))) := by
  obtain ⟨flaw, first⟩ := refused_iff_comesFirst.mp refused
  have told : setting.gate kind input = .invalid flaw.code _ := validate_of_comesFirst first
  refine ⟨flaw.code, _, told, flaw.isValidation_code.1, ?_⟩
  rw [World.beginSubmit, told]
  rfl

/-- A source is refused for the first of its flaws, with the code and the text of that, and passes when it has none. An
outcome has a code and a text just when it refuses, and the code is one of the gate, so a submission that is refused
never falls back on another one. A larger bound lets all pass that passed, and changes only outcomes for sources that
were too large. No source passes for both languages, whatever the bounds. -/
theorem first_flaw_decides (maxBytes : Nat) (source : String) (language : Language) :
    (∀ flaw : Flaw, flaw.ComesFirst maxBytes source language →
      validate maxBytes source language = .invalid flaw.code (flaw.message maxBytes source language)) ∧
    ((validate maxBytes source language).valid = true ↔
      ∀ flaw ∈ Flaw.order language, ¬ flaw.Mars maxBytes source) ∧
    ((validate maxBytes source language).valid = false ↔
      ∃ flaw : Flaw, flaw.ComesFirst maxBytes source language) ∧
    ((validate maxBytes source language).error.isSome = !(validate maxBytes source language).valid) ∧
    ((validate maxBytes source language).code.isSome = !(validate maxBytes source language).valid) ∧
    (∀ code, (validate maxBytes source language).code = some code →
      code.isValidation = true ∧ ∃ kind, code.name = "VALIDATION_" ++ kind) ∧
    (∀ (setting : Setting) (world : World) (number : Nat) (kind : JobKind) (input : JobInput),
      (setting.gate kind input).valid = false → ∃ code message,
        setting.gate kind input = .invalid code message ∧ code.isValidation = true ∧
          world.beginSubmit setting number kind input =
            world.answer number (.submitted (.error (.validation code message)))) ∧
    (∀ larger, maxBytes ≤ larger →
      ((validate maxBytes source language).valid = true → (validate larger source language).valid = true) ∧
      (validate larger source language ≠ validate maxBytes source language →
        (validate maxBytes source language).code = some .tooLarge)) ∧
    ∀ other, ¬ ((validate maxBytes source .solidity).valid = true ∧ (validate other source .soroban).valid = true) := by
  obtain ⟨errors, codes, named⟩ := validate_tells maxBytes source language
  refine ⟨fun flaw first => validate_of_comesFirst first, valid_iff_flawless, refused_iff_comesFirst, errors, codes,
    named, ?submit, fun larger raised => ⟨valid_of_le raised, ?changed⟩,
    fun other => not_valid_for_both maxBytes other source⟩
  case submit =>
    intro setting world number kind input refused
    exact beginSubmit_of_refused refused world number
  case changed =>
    exact (validate_of_le raised source language).resolve_left

/-- This source uses the library of Soroban contracts, but mentions the sender of a message too. -/
def mixedSource : String :=
  "soroban_sdk msg.sender"

theorem size_mixedSource : mixedSource.utf8ByteSize = 22 := by decide

theorem visible_mixedSource (maxBytes : Nat) : ¬ Flaw.blank.Mars maxBytes mixedSource := by
  have chars : mixedSource.toList = _ := String.toList_ofList
  intro blank
  rw [Flaw.Mars, chars] at blank
  exact absurd (blank 's' (by simp)) (by decide)

theorem tooLarge_mixedSource : Flaw.tooLarge.ComesFirst 20 mixedSource .soroban := by
  refine ⟨[.blank], _, rfl, ?_, ?_⟩
  · rw [Flaw.Mars, size_mixedSource]
    decide
  · simpa using visible_mixedSource 20

theorem foreign_mixedSource : (Flaw.foreign "msg.sender").ComesFirst 30 mixedSource .soroban := by
  have chars : mixedSource.toList = _ := String.toList_ofList
  refine ⟨[.blank, .tooLarge, .foreign "pragma solidity"], _, rfl, ?_, ?_⟩
  · rw [Flaw.Mars, ← Text.occursIn_iff, chars]
    rfl
  · simp only [List.forall_mem_cons, List.not_mem_nil, false_imp_iff, implies_true, and_true]
    refine ⟨visible_mixedSource 30, by rw [Flaw.Mars, size_mixedSource]; decide, ?_⟩
    rw [Flaw.Mars, ← Text.occursIn_iff, chars]
    exact Bool.false_ne_true

/-- This source has no flaw as a Solidity contract. -/
def plainSource : String :=
  "contract C \x7b\x7d"

theorem flawless_plainSource : ∀ flaw ∈ Flaw.order .solidity, ¬ flaw.Mars 13 plainSource := by
  have chars : plainSource.toList = _ := String.toList_ofList
  simp only [Flaw.order, List.forall_mem_cons, List.not_mem_nil, false_imp_iff, implies_true, and_true,
    ← Flaw.isIn_iff, Flaw.isIn, Text.allBlank, Text.contains, chars]
  exact ⟨by decide, by decide, Bool.false_ne_true, Bool.false_ne_true⟩

/-- A setting lets sources of at most twenty octets pass. -/
def narrowSetting : Setting :=
  ⟨{ maxSourceBytes := 20 }, ⟨"work", "job-"⟩, fun _ _ _ _ disk => (disk, .brokeOff)⟩

/-- A queue starts here with nothing in its stores. -/
def narrowWorld : World :=
  .new narrowSetting .empty (.memory []) (.memory [])

/-- A source with two flaws is refused for the first of them, and for the other one when it has room; a source without
flaws passes also when it has more room. -/
theorem first_flaw_decides_mixed :
    (Flaw.tooLarge.ComesFirst 20 mixedSource .soroban ∧
      validate 20 mixedSource .soroban = .invalid .tooLarge "source is 22 bytes, limit is 20 bytes") ∧
    ((Flaw.foreign "msg.sender").ComesFirst 30 mixedSource .soroban ∧
      validate 30 mixedSource .soroban =
        .invalid .crossDomain "rust-soroban source contains foreign marker `msg.sender`") ∧
    ((narrowSetting.gate .stellar ⟨mixedSource, "Coin", none, none⟩).valid = false ∧
      narrowWorld.beginSubmit narrowSetting 0 .stellar ⟨mixedSource, "Coin", none, none⟩ =
        narrowWorld.answer 0
          (.submitted (.error (.validation .tooLarge "source is 22 bytes, limit is 20 bytes")))) ∧
    (20 ≤ 30 ∧ validate 30 mixedSource .soroban ≠ validate 20 mixedSource .soroban ∧
      (validate 20 mixedSource .soroban).code = some .tooLarge) ∧
    ((∀ flaw ∈ Flaw.order .solidity, ¬ flaw.Mars 13 plainSource) ∧ (validate 13 plainSource .solidity).valid = true ∧
      (validate 20 plainSource .solidity).valid = true) := by
  obtain ⟨decides, -, -, -, -, -, submits, raises, -⟩ := first_flaw_decides 20 mixedSource .soroban
  have small : validate 20 mixedSource .soroban = .invalid .tooLarge "source is 22 bytes, limit is 20 bytes" := by
    rw [decides _ tooLarge_mixedSource, Flaw.message, size_mixedSource]
    rfl
  have large : validate 30 mixedSource .soroban =
      .invalid .crossDomain "rust-soroban source contains foreign marker `msg.sender`" :=
    (first_flaw_decides 30 mixedSource .soroban).1 _ foreign_mixedSource
  have changed : validate 30 mixedSource .soroban ≠ validate 20 mixedSource .soroban := by
    rw [small, large]
    decide
  have refused : (narrowSetting.gate .stellar ⟨mixedSource, "Coin", none, none⟩).valid = false :=
    congrArg ValidationOutcome.valid small
  obtain ⟨code, message, told, -, answered⟩ := submits narrowSetting narrowWorld 0 .stellar _ refused
  have same : ValidationOutcome.invalid code message = .invalid .tooLarge "source is 22 bytes, limit is 20 bytes" :=
    told.symm.trans small
  simp only [ValidationOutcome.invalid, ValidationOutcome.mk.injEq, Option.some.injEq, true_and] at same
  obtain ⟨rfl, rfl⟩ := same
  obtain ⟨-, passes, -, -, -, -, -, widens, -⟩ := first_flaw_decides 13 plainSource .solidity
  have plain : (validate 13 plainSource .solidity).valid = true := passes.mpr flawless_plainSource
  exact ⟨⟨tooLarge_mixedSource, small⟩, ⟨foreign_mixedSource, large⟩, ⟨refused, answered⟩,
    ⟨by decide, changed, (raises 30 (by decide)).2 changed⟩, flawless_plainSource, plain, (widens 20 (by decide)).1 plain⟩

end Source

end ContractWorks
