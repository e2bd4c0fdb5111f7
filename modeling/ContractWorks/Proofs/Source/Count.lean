import ContractWorks.Proofs.Source.Solidity
import ContractWorks.Proofs.Source.Soroban
import ContractWorks.Source.Generated

namespace ContractWorks.Source

open Text

/-- This function gives the lines of a feature. -/
def featureLines (language : Language) (plan : Plan) (feature : Feature) : List Line :=
  match language with
  | .solidity => Solidity.part plan.contractName plan.isNft plan.decimals feature
  | .soroban => Soroban.part plan.contractName plan.isNft plan.decimals feature

/-- What a skeleton does not say stands in a contract as often as in its features. -/
theorem lines_survey {language : Language} {plan : Plan} {text : String}
    (silent : text ∈ unsaid language plan.guards) {holds : Feature → Bool}
    (each : ∀ feature ∈ plan.features,
      survey text (featureLines language plan feature) = some (holds feature).toNat) :
    survey text (lines language plan) = some (plan.features.countP holds) := by
  cases language with
  | solidity => exact Solidity.lines_survey plan silent each
  | soroban => exact Soroban.lines_survey plan silent each

theorem featureLines_survey {language : Language} (plan : Plan) (feature : Feature) {mark : BlockType × String}
    (mem : mark ∈ entryPoints language ++ declarations language) :
    survey mark.2 (featureLines language plan feature) = some (feature.blockType == mark.1).toNat := by
  cases language with
  | solidity => exact Solidity.part_survey _ _ _ _ mark mem
  | soroban => exact Soroban.part_survey _ _ _ _ mark mem

theorem featureLines_quiet (language : Language) (plan : Plan) (feature : Feature) :
    Quiet (unsaidBy language feature) (featureLines language plan feature) := by
  cases language with
  | solidity => exact Solidity.part_quiet _ _ _ _
  | soroban => exact Soroban.part_quiet _ _ _ _

theorem mem_givenTexts_lines {language : Language} {plan : Plan} {text : String} :
    text ∈ givenTexts (lines language plan) ↔ text ∈ plan.userTexts := by
  cases language with
  | solidity => exact Solidity.mem_givenTexts_lines
  | soroban => exact Soroban.mem_givenTexts_lines

/-- All landmarks, marks and words can be surveyed. -/
theorem searchable_unsaid {language : Language} {guards : Guards} :
    ∀ text ∈ unsaid language guards, searchable text.toList = true := by
  have all : ∀ needle ∈ (unsaid language unguarded).map String.toList, searchable needle = true := by
    cases language <;>
    · simp only [unsaid, unguarded, asks, entryPoints, declarations, guardItems, foreignMarkers, sdkImport,
        contractMarker, List.filter, Bool.not_false, List.map_cons, List.map_nil, List.cons_append,
        List.nil_append]
      repeat rw [String.toList_ofList]
      decide
  intro text mem
  exact all _ (List.mem_map_of_mem (unsaid_subset asks_unguarded mem))

/-- What a skeleton does not say counts in a contract for its features and for its users' texts. -/
theorem occurrences_emit {language : Language} {plan : Plan} {text : String}
    (silent : text ∈ unsaid language plan.guards) {holds : Feature → Bool}
    (each : ∀ feature ∈ plan.features,
      survey text (featureLines language plan feature) = some (holds feature).toNat) :
    occurrences text.toList (emit language plan).toList =
      plan.features.countP holds + given text.toList (givenTexts (lines language plan)) :=
  occurrences_print (searchable_unsaid text silent) (lines_survey silent each)

/-- Where no user's text holds it, what a skeleton does not say counts for the features alone. -/
theorem occurrences_emit_of_plain {language : Language} {plan : Plan} {text : String}
    (silent : text ∈ unsaid language plan.guards) {holds : Feature → Bool}
    (each : ∀ feature ∈ plan.features,
      survey text (featureLines language plan feature) = some (holds feature).toNat)
    (plain : ∀ user ∈ plan.userTexts, contains user text = false) :
    occurrences text.toList (emit language plan).toList = plan.features.countP holds := by
  have nothing : given text.toList (givenTexts (lines language plan)) = 0 :=
    (given_eq_zero_iff (searchable_nonempty (searchable_unsaid text silent))).mpr
      fun user mem => plain user (mem_givenTexts_lines.mp mem)
  rw [occurrences_emit silent each, nothing, Nat.add_zero]

/-- What neither a skeleton nor a feature says stands in a contract when a user gave it. -/
theorem contains_emit_iff {language : Language} {plan : Plan} {text : String}
    (silent : text ∈ unsaid language plan.guards)
    (each : ∀ feature ∈ plan.features, survey text (featureLines language plan feature) = some 0) :
    contains (emit language plan) text = true ↔ ∃ user ∈ plan.userTexts, contains user text = true := by
  have nonempty := searchable_nonempty (searchable_unsaid text silent)
  have absent : ∀ feature ∈ plan.features,
      survey text (featureLines language plan feature) = some false.toNat := each
  rw [contains_iff_occurrences_ne_zero nonempty, occurrences_emit silent absent, List.countP_false,
    Function.const_apply, Nat.zero_add, Ne, given_eq_zero_iff nonempty]
  simp [mem_givenTexts_lines]

end ContractWorks.Source
