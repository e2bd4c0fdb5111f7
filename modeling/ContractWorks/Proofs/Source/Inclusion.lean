import ContractWorks.Proofs.Contract.Plan
import ContractWorks.Proofs.Source.Count

namespace ContractWorks.Source

open Text

/-- These lines hold the guard of a block type. -/
def guardLines (language : Language) (plan : Plan) (blockType : BlockType) : List Line :=
  match language with
  | .solidity => Solidity.guardLines plan.contractName plan.isNft plan.guards blockType
  | .soroban => Soroban.guardLines plan.isNft plan.guards blockType

theorem infix_guardLines (language : Language) (plan : Plan) (blockType : BlockType) :
    guardLines language plan blockType <:+: lines language plan := by
  cases language with
  | solidity => exact Solidity.infix_guardLines plan blockType
  | soroban => exact Soroban.infix_guardLines plan blockType

theorem guardLines_survey {language : Language} (plan : Plan) {check : BlockType × String}
    (mem : check ∈ guardChecks plan.isNft language) :
    survey check.2 (guardLines language plan check.1) = some (asks plan.guards check.1).toNat := by
  cases language with
  | solidity => exact Solidity.guardLines_survey _ _ _ check mem
  | soroban => exact Soroban.guardLines_survey _ _ check mem

theorem mem_givenTexts_guardLines {language : Language} {plan : Plan} {blockType : BlockType} {text : String}
    (mem : text ∈ givenTexts (guardLines language plan blockType)) : text ∈ plan.userTexts := by
  cases language with
  | solidity => exact Plan.mem_userTexts.mpr (.inl (Solidity.mem_givenTexts_guardLines mem))
  | soroban => exact absurd mem Soroban.not_mem_givenTexts_guardLines

theorem searchable_guardChecks {language : Language} {isNft : Bool} :
    ∀ check ∈ guardChecks isNft language, searchable check.2.toList = true := by
  have all : ∀ needle ∈ (guardChecks isNft language).map fun check => check.2.toList,
      searchable needle = true := by
    cases language <;> cases isNft <;>
    · simp only [guardChecks, List.map_cons, List.map_nil, Bool.false_eq_true, if_true, if_false]
      repeat rw [String.toList_ofList]
      decide
  exact fun check mem => all _ (List.mem_map_of_mem mem)

/-- A guard of a plan is switched on when the plan has its feature. -/
theorem asks_guards (plan : Plan) {blockType : BlockType}
    (guarded : blockType = .pausable ∨ blockType = .whitelist ∨ blockType = .capped) :
    asks plan.guards blockType = plan.has blockType := by
  rcases guarded with rfl | rfl | rfl
  · rfl
  · rfl
  · exact plan.isSome_maxSupply

theorem guarded_of_mem_guardItems {language : Language} {item : BlockType × String}
    (mem : item ∈ guardItems language) :
    item.1 = .pausable ∨ item.1 = .whitelist ∨ item.1 = .capped := by
  cases language <;> simp only [guardItems, List.mem_cons, List.not_mem_nil, or_false] at mem <;>
    rcases mem with rfl | rfl | rfl <;> simp

theorem guarded_of_mem_guardChecks {language : Language} {isNft : Bool} {check : BlockType × String}
    (mem : check ∈ guardChecks isNft language) :
    check.1 = .pausable ∨ check.1 = .whitelist ∨ check.1 = .capped := by
  cases language <;> simp only [guardChecks, List.mem_cons, List.not_mem_nil, or_false] at mem <;>
    rcases mem with rfl | rfl | rfl <;> simp

theorem isBase_of_mem_landmarks {language : Language} {mark : BlockType × String}
    (mem : mark ∈ entryPoints language ++ declarations language) : mark.1.isBase = false := by
  cases language <;>
    simp only [entryPoints, declarations, List.cons_append, List.nil_append, List.mem_cons, List.not_mem_nil,
      or_false] at mem <;>
    rcases mem with rfl | rfl | rfl | rfl | rfl | rfl | rfl | rfl | rfl <;> rfl

/-- What a guard looks at is named where it is declared. -/
theorem exists_declaration {language : Language} {item : BlockType × String}
    (mem : item ∈ guardItems language) :
    ∃ mark ∈ declarations language, mark.1 = item.1 ∧ contains mark.2 item.2 = true := by
  have all : ∀ item ∈ (guardItems language).map fun item => (item.1, item.2.toList),
      ∃ mark ∈ (declarations language).map fun mark => (mark.1, mark.2.toList),
        mark.1 = item.1 ∧ occursIn item.2 mark.2 = true := by
    cases language <;>
    · simp only [guardItems, declarations, List.map_cons, List.map_nil]
      repeat rw [String.toList_ofList]
      decide
  obtain ⟨_, isMark, type, inside⟩ := all _ (List.mem_map_of_mem mem)
  obtain ⟨mark, isDeclared, rfl⟩ := List.mem_map.mp isMark
  exact ⟨mark, isDeclared, type, inside⟩

theorem contains_trans {text middle needle : String} (outer : contains text middle = true)
    (inner : contains middle needle = true) : contains text needle = true := by
  rw [contains, occursIn_iff] at outer inner ⊢
  exact inner.trans outer

section Planned

variable {blocks : List Block} {plan : Plan} (planned : Plan.ofBlocks blocks = some plan)
  {language : Language}
include planned

/-- A landmark stands in a contract once when a block of its type is enabled, and else not at all. -/
theorem occurrences_landmark {mark : BlockType × String}
    (mem : mark ∈ entryPoints language ++ declarations language)
    (plain : ∀ user ∈ plan.userTexts, contains user mark.2 = false) :
    occurrences mark.2.toList (emit language plan).toList = (Plan.enables blocks mark.1).toNat := by
  have silent : mark.2 ∈ unsaid language plan.guards :=
    List.mem_append_right _ (List.mem_map_of_mem (List.mem_append_left _ mem))
  rw [occurrences_emit_of_plain silent (fun feature _ => featureLines_survey plan feature mem) plain]
  exact Plan.countOf_ofBlocks (isBase_of_mem_landmarks mem) planned

/-- A declaration stands in a contract when a block of its type is enabled, whatever users gave. -/
theorem contains_declaration {mark : BlockType × String} (mem : mark ∈ declarations language)
    (enabled : Plan.enables blocks mark.1 = true) : contains (emit language plan) mark.2 = true := by
  have isLandmark := List.mem_append_right (entryPoints language) mem
  have silent : mark.2 ∈ unsaid language plan.guards :=
    List.mem_append_right _ (List.mem_map_of_mem (List.mem_append_left _ isLandmark))
  have count := Plan.countOf_ofBlocks (isBase_of_mem_landmarks isLandmark) planned
  have total := occurrences_emit silent fun feature _ => featureLines_survey plan feature isLandmark
  rw [contains_iff_occurrences_ne_zero (searchable_nonempty (searchable_unsaid _ silent)), total]
  rw [Plan.countOf, enabled, Bool.toNat_true] at count
  omega

/-- A guard stands in its lines exactly when a block of its type is enabled. -/
theorem occurrences_guard {check : BlockType × String} (mem : check ∈ guardChecks plan.isNft language)
    (plain : ∀ user ∈ plan.userTexts, contains user check.2 = false) (depth : Nat) :
    occurrences check.2.toList (printFrom depth (guardLines language plan check.1)) =
      (Plan.enables blocks check.1).toNat := by
  have surveyable := searchable_guardChecks check mem
  have guarded := guarded_of_mem_guardChecks mem
  have addition : check.1.isBase = false := by rcases guarded with type | type | type <;> rw [type] <;> rfl
  have nothing : given check.2.toList (givenTexts (guardLines language plan check.1)) = 0 :=
    (given_eq_zero_iff (searchable_nonempty surveyable)).mpr
      fun user isUser => plain user (mem_givenTexts_guardLines isUser)
  rw [occurrences_printFrom surveyable (guardLines_survey plan mem), nothing, Nat.add_zero,
    asks_guards plan guarded, Plan.has_ofBlocks addition planned]

/-- What a guard looks at is spoken of exactly when a block of its type is enabled. -/
theorem contains_guardItem_iff {item : BlockType × String} (mem : item ∈ guardItems language)
    (plain : ∀ user ∈ plan.userTexts, contains user item.2 = false) :
    contains (emit language plan) item.2 = true ↔ Plan.enables blocks item.1 = true := by
  have guarded := guarded_of_mem_guardItems mem
  have addition : item.1.isBase = false := by rcases guarded with type | type | type <;> rw [type] <;> rfl
  have has := Plan.has_ofBlocks addition planned
  constructor
  · intro spoken
    by_contra disabled
    rw [Bool.not_eq_true, ← has] at disabled
    have silent : item.2 ∈ unsaid language plan.guards := by
      refine List.mem_append_right _ (List.mem_map_of_mem (List.mem_append_right _ (List.mem_filter.mpr ?_)))
      rw [asks_guards plan guarded, disabled]
      exact ⟨mem, rfl⟩
    have each : ∀ feature ∈ plan.features, survey item.2 (featureLines language plan feature) = some 0 := by
      intro feature isFeature
      refine featureLines_quiet language plan feature item.2 (List.mem_append_right _ ?_)
      refine List.mem_map_of_mem (List.mem_filter.mpr ⟨mem, decide_eq_true fun same => ?_⟩)
      simp only [Plan.has, List.any_eq_false, decide_eq_true_eq] at disabled
      exact disabled feature isFeature same.symm
    obtain ⟨user, isUser, given⟩ := (contains_emit_iff silent each).mp spoken
    rw [plain user isUser] at given
    exact absurd given Bool.false_ne_true
  · intro enabled
    obtain ⟨mark, isMark, type, named⟩ := exists_declaration mem
    exact contains_trans (contains_declaration planned isMark (type ▸ enabled)) named

end Planned

/-- A block list with an enabled base makes a contract that has what its enabled blocks ask for, once, and
nothing of what no block asks for: the entry points and declarations of features, and the guards in what runs
before a transfer and where the supply grows. What a guard looks at is spoken of only where it is declared. -/
theorem features_as_enabled {blocks : List Block} (based : ∃ block ∈ blocks, block.enabled ∧ block.isBase)
    (language : Language) :
    ∃ plan, Plan.ofBlocks blocks = some plan ∧ (generate blocks language).text = emit language plan ∧
      (∀ mark ∈ entryPoints language ++ declarations language,
        (∀ user ∈ plan.userTexts, contains user mark.2 = false) →
          occurrences mark.2.toList (generate blocks language).text.toList =
            if Plan.enables blocks mark.1 then 1 else 0) ∧
      (∀ check ∈ guardChecks plan.isNft language,
        (∀ user ∈ plan.userTexts, contains user check.2 = false) →
          ∃ depth, printFrom depth (guardLines language plan check.1) <:+:
              (generate blocks language).text.toList ∧
            occurrences check.2.toList (printFrom depth (guardLines language plan check.1)) =
              if Plan.enables blocks check.1 then 1 else 0) ∧
      ∀ item ∈ guardItems language,
        (∀ user ∈ plan.userTexts, contains user item.2 = false) →
          (contains (generate blocks language).text item.2 = true ↔ Plan.enables blocks item.1 = true) := by
  obtain ⟨plan, planned⟩ := Plan.exists_ofBlocks based
  have written : (generate blocks language).text = emit language plan := by
    obtain ⟨block, mem, -⟩ := based
    have some : blocks.isEmpty = false := by simpa using List.ne_nil_of_mem mem
    rw [generate, some, if_neg Bool.false_ne_true, planned]
  refine ⟨plan, planned, written, ?_, ?_, ?_⟩
  · intro mark mem plain
    rw [written, occurrences_landmark planned mem plain]
    cases Plan.enables blocks mark.1 <;> rfl
  · intro check mem plain
    obtain ⟨depth, inside⟩ := exists_printFrom_infix (infix_guardLines language plan check.1)
    refine ⟨depth, written ▸ inside, ?_⟩
    rw [occurrences_guard planned mem plain depth]
    cases Plan.enables blocks check.1 <;> rfl
  · intro item mem plain
    rw [written]
    exact contains_guardItem_iff planned mem plain

/-- This list asks for pauses twice and for minting by a disabled block only. -/
def pausedTwice : List Block :=
  [⟨"1", "Coin", true, .erc20 {}⟩, ⟨"2", "", true, .pausable⟩, ⟨"3", "", true, .pausable⟩,
   ⟨"4", "", false, .mint⟩]

/-- The token of that list can be paused by one function, and no one can mint. -/
theorem features_as_enabled_pausedTwice :
    (∃ block ∈ pausedTwice, block.enabled ∧ block.isBase) ∧
      occurrences "function pause()".toList (generate pausedTwice .solidity).text.toList = 1 ∧
      occurrences "bool public paused".toList (generate pausedTwice .solidity).text.toList = 1 ∧
      occurrences "function mint(".toList (generate pausedTwice .solidity).text.toList = 0 ∧
      (∃ depth, printFrom depth (Solidity.transferHook "Coin" ⟨true, false, false⟩) <:+:
          (generate pausedTwice .solidity).text.toList ∧
        occurrences "require(!paused, ".toList
          (printFrom depth (Solidity.transferHook "Coin" ⟨true, false, false⟩)) = 1) ∧
      contains (generate pausedTwice .solidity).text "whitelisted" = false := by
  have based : ∃ block ∈ pausedTwice, block.enabled ∧ block.isBase := ⟨_, List.mem_cons_self, rfl, rfl⟩
  obtain ⟨plan, planned, -, marks, checks, items⟩ := features_as_enabled based .solidity
  obtain rfl : ⟨"Coin", "TKN", .token 18 0, [.pausable]⟩ = plan := Option.some.inj planned
  have plain (needle : String) (first : contains "Coin" needle = false) (second : contains "TKN" needle = false) :
      ∀ user ∈ Plan.userTexts ⟨"Coin", "TKN", .token 18 0, [.pausable]⟩, contains user needle = false := by
    simp [Plan.userTexts, Base.userTexts, Feature.userTexts, first, second]
  refine ⟨based, ?_, ?_, ?_, ?_, ?_⟩
  · exact marks (.pausable, "function pause()") (by simp [entryPoints]) (plain "function pause()" (by cbv) (by cbv))
  · exact marks (.pausable, "bool public paused") (by simp [declarations]) (plain "bool public paused" (by cbv) (by cbv))
  · exact marks (.mint, "function mint(") (by simp [entryPoints]) (plain "function mint(" (by cbv) (by cbv))
  · exact checks (.pausable, "require(!paused, ") (by simp [guardChecks]) (plain "require(!paused, " (by cbv) (by cbv))
  · have spoken := items (.whitelist, "whitelisted") (by simp [guardItems]) (plain "whitelisted" (by cbv) (by cbv))
    exact Bool.eq_false_iff.mpr fun inside => absurd (spoken.mp inside) (by decide)

end ContractWorks.Source
