import ContractWorks.Proofs.Toolchain.Naming
import ContractWorks.Proofs.Toolchain.Product
import Mathlib.Data.List.TakeWhile

namespace ContractWorks

namespace Text

/-- A text is trimmed at its end when blank characters are left out there, and all of them. -/
def EndTrimmed (text trimmed : String) : Prop :=
  (∃ blanks, text.toList = trimmed.toList ++ blanks ∧ ∀ blank ∈ blanks, isBlank blank = true) ∧
    ∀ last ∈ trimmed.toList.getLast?, isBlank last = false

theorem endTrimmed_trimEnd (text : String) : EndTrimmed text (trimEnd text) := by
  rw [EndTrimmed, trimEnd, String.toList_ofList, dropTrailingBlanks]
  refine ⟨⟨(text.toList.reverse.takeWhile isBlank).reverse, ?_, fun blank member => ?_⟩, fun last member => ?_⟩
  · rw [← List.reverse_append, List.takeWhile_append_dropWhile, List.reverse_reverse]
  · exact List.mem_takeWhile_imp (List.mem_reverse.mp member)
  · rw [List.getLast?_reverse] at member
    have ahead := List.head?_dropWhile_not isBlank text.toList.reverse
    rw [Option.mem_def.mp member] at ahead
    simpa using ahead

end Text

namespace Json

variable {value : Json} {text : String} {items : List Json}

theorem text?_eq_some : value.text? = some text ↔ value = .text text := by
  cases value <;> simp [text?]

theorem items?_eq_some : value.items? = some items ↔ value = .array items := by
  cases value <;> simp [items?]

theorem members?_eq_some {members : List (String × Json)} :
    value.members? = some members ↔ value = .object members := by
  cases value <;> simp [members?]

theorem bind_text?_eq_some {held : Option Json} : held.bind Json.text? = some text ↔ held = some (.text text) := by
  cases held <;> simp [text?_eq_some]

end Json

namespace Solc

open Json (Fits FitsMembers FitsItems Sorted)

/-- A document lists entries when it has them as the array of its errors; without such an array it lists none. -/
inductive Lists (document : Json) : List Json → Prop where
  | array {entries : List Json} (held : document.member? "errors" = some (.array entries)) : Lists document entries
  | nothing (absent : ∀ entries, document.member? "errors" ≠ some (.array entries)) : Lists document []

/-- An entry is grave when its severity is that of an error. -/
def Grave (entry : Json) : Prop :=
  entry.member? "severity" = some (.text "error")

/-- An entry is worded by its formatted message, else by its message, else by nothing. -/
inductive Worded (entry : Json) : String → Prop where
  | formatted {text : String} (held : entry.member? "formattedMessage" = some (.text text)) : Worded entry text
  | plain {text : String} (bare : ∀ other, entry.member? "formattedMessage" ≠ some (.text other))
    (held : entry.member? "message" = some (.text text)) : Worded entry text
  | silent (bare : ∀ other, entry.member? "formattedMessage" ≠ some (.text other))
    (mute : ∀ other, entry.member? "message" ≠ some (.text other)) : Worded entry ""

/-- An entry is shown as its wording without the blanks at the end. -/
def Shown (entry : Json) (shown : String) : Prop :=
  ∃ wording, Worded entry wording ∧ Text.EndTrimmed wording shown

/-- A document holds contracts for a file when they are the members of an object under its name. -/
def Holds (document : Json) (fileName : String) (contracts : List (String × Json)) : Prop :=
  ∃ files, document.member? "contracts" = some files ∧ files.member? fileName = some (.object contracts)

/-- A contract deploys as a code when this is the text of its bytecode, and not empty. -/
def Deploys (contract : Json) (code : String) : Prop :=
  ∃ evm bytecode, contract.member? "evm" = some evm ∧ evm.member? "bytecode" = some bytecode ∧
    bytecode.member? "object" = some (.text code) ∧ code ≠ ""

/-- An interface is that of a contract, which is null where the contract has none. -/
def Exposes (contract abi : Json) : Prop :=
  contract.member? "abi" = some abi ∨ contract.member? "abi" = none ∧ abi = .null

/-- A contract is picked when it deploys and has the requested name, or when no contract of this name deploys and its
own name is the first of those that do. -/
structure Picked (contracts : List (String × Json)) (requested : String) (entry : String × Json) (code : String) :
    Prop where
  listed : entry ∈ contracts
  deploys : Deploys entry.2 code
  named : (∃ contract, (requested, contract) ∈ contracts ∧ ∃ code, Deploys contract code) → entry.1 = requested
  first : (∀ contract, (requested, contract) ∈ contracts → ∀ code, ¬ Deploys contract code) →
    ∀ other ∈ contracts, (∃ code, Deploys other.2 code) → entry.1 ≤ other.1

section Entries

variable {document entry : Json} {entries : List Json}

theorem isError_iff : isError entry = true ↔ Grave entry := by
  rw [isError, decide_eq_true_iff, Json.bind_text?_eq_some, Grave]

instance : DecidablePred Grave :=
  fun _ => decidable_of_iff _ isError_iff

theorem lists_diagnostics (document : Json) : Lists document (diagnostics document) := by
  rw [diagnostics]
  cases listed : (document.member? "errors").bind Json.items? with
  | some entries =>
    obtain ⟨held, isHeld, array⟩ := Option.bind_eq_some_iff.mp listed
    rw [Json.items?_eq_some.mp array] at isHeld
    exact .array isHeld
  | none =>
    refine .nothing fun entries held => ?_
    rw [held] at listed
    cases listed

theorem shown_diagnosticText (entry : Json) : Shown entry (diagnosticText entry) := by
  refine ⟨_, ?_, Text.endTrimmed_trimEnd _⟩
  have absent {held : Option Json} (none : held.bind Json.text? = none) (text : String) : held ≠ some (.text text) :=
    fun present => by rw [present] at none; cases none
  cases formatted : (entry.member? "formattedMessage").bind Json.text? with
  | some text => exact .formatted (Json.bind_text?_eq_some.mp formatted)
  | none =>
    cases plain : (entry.member? "message").bind Json.text? with
    | some text => exact .plain (absent formatted) (Json.bind_text?_eq_some.mp plain)
    | none => exact .silent (absent formatted) (absent plain)

theorem shown_map (entries : List Json) : List.Forall₂ Shown entries (entries.map diagnosticText) :=
  List.forall₂_map_right_iff.mpr (List.forall₂_same.mpr fun entry _ => shown_diagnosticText entry)

theorem filter_isError (entries : List Json) : entries.filter isError = entries.filter fun entry => Grave entry :=
  List.filter_congr fun entry _ => by rw [Bool.eq_iff_iff, isError_iff, decide_eq_true_iff]

end Entries

section Contracts

variable {document contract abi : Json} {code fileName requested : String} {contracts : List (String × Json)}

theorem bytecode?_eq_some : bytecode? contract = some code ↔ Deploys contract code := by
  simp only [bytecode?, Option.bind_eq_bind, Option.bind_eq_some_iff, Option.ite_none_left_eq_some, Option.some.injEq,
    Json.text?_eq_some, Deploys]
  grind

theorem bytecode?_eq_none : bytecode? contract = none ↔ ∀ code, ¬ Deploys contract code := by
  simp only [← bytecode?_eq_some, Option.eq_none_iff_forall_ne_some, ne_eq]

theorem deployable?_eq_some (chosen : deployable? contract = some (abi, code)) :
    Deploys contract code ∧ Exposes contract abi := by
  obtain ⟨_, deploys, same⟩ := Option.map_eq_some_iff.mp chosen
  obtain ⟨rfl, rfl⟩ := Prod.mk.inj same
  refine ⟨bytecode?_eq_some.mp deploys, ?_⟩
  rw [Exposes]
  cases contract.member? "abi" <;> simp

theorem deployable?_eq_none : deployable? contract = none ↔ ∀ code, ¬ Deploys contract code := by
  rw [deployable?, Option.map_eq_none_iff, bytecode?_eq_none]

theorem holds_iff :
    (((document.member? "contracts").bind fun files => files.member? fileName).bind Json.members?) = some contracts ↔
      Holds document fileName contracts := by
  simp only [Option.bind_eq_some_iff, Json.members?_eq_some, Holds]
  grind

/-- The contracts of a file have names that ascend, once the document was read. -/
theorem sorted_of_holds {stdout : String} (read : Json.read stdout = some document)
    (holds : Holds document fileName contracts) : (contracts.map Prod.fst).Pairwise (· < ·) := by
  obtain ⟨files, inDocument, inFiles⟩ := holds
  have canonical : Json.Canonical 2 (.object contracts) :=
    ((Draft.canonical_of_read read).member? inDocument).member? inFiles
  exact canonical.2.1

theorem choose_eq_none : choose contracts requested = none ↔ ∀ entry ∈ contracts, ∀ code, ¬ Deploys entry.2 code := by
  simp only [choose, Option.or_eq_none_iff, List.findSome?_eq_none_iff, deployable?_eq_none]
  refine ⟨fun none => none.2, fun none => ⟨?_, none⟩⟩
  cases looked : contracts.lookup requested with
  | none => rfl
  | some contract => exact deployable?_eq_none.mpr (none _ (Json.mem_of_lookup looked))

/-- Where names ascend, a contract is found by its own. -/
theorem lookup_of_sorted (sorted : (contracts.map Prod.fst).Pairwise (· < ·))
    (present : (requested, contract) ∈ contracts) : contracts.lookup requested = some contract := by
  obtain ⟨front, back, rfl⟩ := List.append_of_mem present
  refine List.lookup_eq_some_iff.mpr ⟨front, back, rfl, fun other ahead => ?_⟩
  rw [List.map_append, List.pairwise_append] at sorted
  have before := sorted.2.2 other.1 (List.mem_map_of_mem ahead) requested List.mem_cons_self
  exact bne_iff_ne.mpr (String.ne_of_lt before).symm

/-- What is chosen among contracts whose names ascend is the code and the interface of the one that is picked. -/
theorem picked_of_choose (sorted : (contracts.map Prod.fst).Pairwise (· < ·))
    (chosen : choose contracts requested = some (abi, code)) :
    ∃ entry, Picked contracts requested entry code ∧ Exposes entry.2 abi := by
  rw [choose, Option.or_eq_some_iff] at chosen
  rcases chosen with named | ⟨unnamed, chosen⟩
  · obtain ⟨contract, looked, deploys⟩ := Option.bind_eq_some_iff.mp named
    obtain ⟨deploys, exposes⟩ := deployable?_eq_some deploys
    have present := Json.mem_of_lookup looked
    exact ⟨(requested, contract), ⟨present, deploys, fun _ => rfl, fun never => absurd deploys (never _ present _)⟩,
      exposes⟩
  · obtain ⟨front, entry, back, rfl, deploys, passed⟩ := List.findSome?_eq_some_iff.mp chosen
    obtain ⟨deploys, exposes⟩ := deployable?_eq_some deploys
    refine ⟨entry, ⟨List.mem_append_right _ List.mem_cons_self, deploys, ?_, ?_⟩, exposes⟩
    · rintro ⟨contract, present, code, able⟩
      rw [lookup_of_sorted sorted present, Option.bind_some] at unnamed
      exact absurd able (deployable?_eq_none.mp unnamed code)
    · rintro - other present ⟨code, able⟩
      rw [List.map_append, List.map_cons, List.pairwise_append, List.pairwise_cons] at sorted
      rcases List.mem_append.mp present with ahead | behind
      · exact absurd able (deployable?_eq_none.mp (passed other ahead) code)
      · rcases List.mem_cons.mp behind with rfl | later
        · exact String.le_refl _
        · exact String.not_lt.mp (String.lt_asymm (sorted.2.1.1 other.1 (List.mem_map_of_mem later)))

end Contracts

section Outcomes

variable {document : Json} {stdout fileName requested : String} {contracts : List (String × Json)}

theorem parse_eq_select (read : Json.read stdout = some document) :
    parse stdout fileName requested = select document fileName requested := by
  rw [parse, read]

/-- Errors decide before anything else. -/
theorem select_of_errors (grave : (diagnostics document).filter isError ≠ []) :
    select document fileName requested =
      .error (.failed ("solc reported " ++ toString ((diagnostics document).filter isError).length ++ " error(s)")
        ("\n".intercalate (((diagnostics document).filter isError).map diagnosticText))) := by
  rw [select, if_pos grave]

theorem select_of_unknown (calm : (diagnostics document).filter isError = [])
    (unknown : ∀ contracts, ¬ Holds document fileName contracts) :
    select document fileName requested = .error (.parse ("no contracts for " ++ fileName)) := by
  have none := Option.eq_none_iff_forall_ne_some.mpr fun contracts held => unknown contracts (holds_iff.mp held)
  rw [select, if_neg (not_not_intro calm), none]

/-- Without errors the contracts of the file decide. -/
theorem select_of_holds (calm : (diagnostics document).filter isError = [])
    (holds : Holds document fileName contracts) :
    select document fileName requested =
      match choose contracts requested with
      | none => .error (.failed ("no deployable contract named " ++ requested ++ " in output") "")
      | some (abi, bytecode) => .ok ⟨abi, bytecode,
        ((diagnostics document).filter fun diagnostic => !isError diagnostic).map diagnosticText⟩ := by
  rewrite [select, if_neg (not_not_intro calm), holds_iff.mpr holds]
  rfl

end Outcomes

/-- What the output of the compiler is taken for. Entries that are errors come first: the run failed, and shows all of
them. Without errors, a document that holds no contracts for the file is not understood. Where no contract deploys, the
run failed with nothing to show. Else the code and the interface are those of the contract that is picked, and all other
entries are warnings. -/
theorem parse_outcome {stdout : String} {document : Json} (read : Json.read stdout = some document)
    (fileName requested : String) :
    ∃ entries, Lists document entries ∧
      ((∃ entry ∈ entries, Grave entry) →
        ∃ shown, List.Forall₂ Shown (entries.filter fun entry => Grave entry) shown ∧
          parse stdout fileName requested =
            .error (.failed ("solc reported " ++ toString shown.length ++ " error(s)") ("\n".intercalate shown))) ∧
      ((∀ entry ∈ entries, ¬ Grave entry) →
        ((∀ contracts, ¬ Holds document fileName contracts) →
          parse stdout fileName requested = .error (.parse ("no contracts for " ++ fileName))) ∧
        ∀ contracts, Holds document fileName contracts →
          ((∀ entry ∈ contracts, ∀ code, ¬ Deploys entry.2 code) →
            parse stdout fileName requested =
              .error (.failed ("no deployable contract named " ++ requested ++ " in output") "")) ∧
          ((∃ entry ∈ contracts, ∃ code, Deploys entry.2 code) →
            ∃ parsed entry, parse stdout fileName requested = .ok parsed ∧
              Picked contracts requested entry parsed.bytecode ∧ Exposes entry.2 parsed.abi ∧
                List.Forall₂ Shown (entries.filter fun entry => ¬ Grave entry) parsed.warnings)) := by
  refine ⟨diagnostics document, lists_diagnostics document, ?_, fun calm => ?_⟩
  · rintro ⟨entry, present, grave⟩
    have errors : (diagnostics document).filter isError ≠ [] :=
      List.ne_nil_of_mem (List.mem_filter.mpr ⟨present, isError_iff.mpr grave⟩)
    refine ⟨((diagnostics document).filter isError).map diagnosticText, ?_, ?_⟩
    · rw [← filter_isError]
      exact shown_map _
    · rw [parse_eq_select read, select_of_errors errors, List.length_map]
  · have none : (diagnostics document).filter isError = [] :=
      List.filter_eq_nil_iff.mpr fun entry present => by simpa [isError_iff] using calm entry present
    have all : ((diagnostics document).filter fun entry => !isError entry) =
        (diagnostics document).filter fun entry => ¬ Grave entry :=
      List.filter_congr fun entry _ => by simp [← isError_iff]
    rw [parse_eq_select read]
    refine ⟨select_of_unknown none, fun contracts holds => ⟨fun never => ?_, fun able => ?_⟩⟩
    · rw [select_of_holds none holds, choose_eq_none.mpr never]
    · cases chosen : choose contracts requested with
      | none =>
        obtain ⟨entry, present, code, deploys⟩ := able
        exact absurd deploys (choose_eq_none.mp chosen entry present code)
      | some found =>
        obtain ⟨entry, picked, exposes⟩ := picked_of_choose (sorted_of_holds read holds) chosen
        refine ⟨_, entry, by rw [select_of_holds none holds, chosen], picked, exposes, ?_⟩
        rw [← all]
        exact shown_map _

/-- This contract has a code and no interface. -/
def compiled (code : String) : Json :=
  .object [("evm", .object [("bytecode", .object [("object", .text code)])])]

/-- Of these contracts the one called `Base` has no code, and two others have some. -/
def candidates : List (String × Json) :=
  [("Base", compiled ""), ("Coin", compiled "6001"), ("Token", compiled "6002")]

/-- This output holds them, and a warning. -/
def fallback : Json :=
  .object
    [("contracts", .object [("Token.sol", .object candidates)]),
     ("errors", .array [.object [("message", .text "unused \n"), ("severity", .text "warning")]])]

theorem read_fallback : Json.read fallback.compact = some fallback := by
  apply Json.read_compact
  have outer : Sorted ["contracts", "errors"] := by
    simp only [Sorted, String.lt_iff_toList_lt]
    decide
  have names : Sorted ["Base", "Coin", "Token"] := by
    simp only [Sorted, String.lt_iff_toList_lt]
    decide
  have entry : Sorted ["message", "severity"] := by
    simp only [Sorted, String.lt_iff_toList_lt]
    decide
  have single (key : String) : Sorted [key] := List.pairwise_singleton _ key
  simp [fallback, candidates, compiled, Fits, FitsMembers, FitsItems, Draft.maxDepth, outer, names, entry, single]

/-- One of the others is picked when `Base` is requested. -/
theorem parse_outcome_fallback : Json.read fallback.compact = some fallback ∧
    ∃ parsed entry, parse fallback.compact "Token.sol" "Base" = .ok parsed ∧
      Picked candidates "Base" entry parsed.bytecode ∧ Exposes entry.2 parsed.abi := by
  have held : Holds fallback "Token.sol" candidates := ⟨_, rfl, rfl⟩
  have able : Deploys (compiled "6001") "6001" := ⟨_, _, rfl, rfl, rfl, by decide⟩
  obtain ⟨entries, listed, -, calm⟩ := parse_outcome read_fallback "Token.sol" "Base"
  have quiet : ∀ entry ∈ entries, ¬ Grave entry := by
    cases listed with
    | array held =>
      cases held
      rintro entry present grave
      rw [List.mem_singleton.mp present] at grave
      exact absurd grave (by decide)
    | nothing => simp
  obtain ⟨parsed, entry, done, picked, exposes, -⟩ :=
    ((calm quiet).2 _ held).2 ⟨("Coin", compiled "6001"), by simp [candidates], _, able⟩
  exact ⟨read_fallback, parsed, entry, done, picked, exposes⟩

end Solc

end ContractWorks
