import ContractWorks.Proofs.Contract.Plan
import ContractWorks.Proofs.Queue.Resolution

namespace ContractWorks

namespace Plan

/-- This function gives the name that a base block is configured with. -/
def configuredName : BlockKind → Option String
  | .erc20 config => config.name
  | .nft config => config.name
  | _ => none

/-- This type says that the first enabled base is configured with the empty name. -/
def Unnamed (blocks : List Block) : Prop :=
  ∃ block, IsFirst selects blocks block ∧ configuredName block.kind = some ""

/-- A chosen name is empty only when it was configured so. -/
theorem chooseName_eq_empty {configured : Option String} {blockName fallback : String} (spare : fallback ≠ "") :
    chooseName configured blockName fallback = "" ↔ configured = some "" := by
  rw [chooseName.eq_def]
  cases configured with
  | some name => simp
  | none =>
    refine iff_of_false ?_ (by simp)
    dsimp only
    split
    · exact spare
    · assumption

theorem name_of_header {block : Block} {name symbol : String} {base : Base}
    (headed : header block = some (name, symbol, base)) : name = "" ↔ configuredName block.kind = some "" := by
  obtain ⟨id, blockName, enabled, kind⟩ := block
  cases kind with
  | erc20 config =>
    obtain ⟨rfl, -, -⟩ : chooseName config.name blockName "MyToken" = name ∧ _ := by simpa [header] using headed
    exact chooseName_eq_empty (by decide)
  | nft config =>
    obtain ⟨rfl, -, -⟩ : chooseName config.name blockName "MyNFT" = name ∧ _ := by simpa [header] using headed
    exact chooseName_eq_empty (by decide)
  | _ => simp [header] at headed

theorem contractName_ofBlocks {blocks : List Block} {plan : Plan} (planned : ofBlocks blocks = some plan) :
    plan.contractName = "" ↔ Unnamed blocks := by
  obtain ⟨⟨block, first, headed⟩, -⟩ := ofBlocks_eq_some.mp planned
  rw [name_of_header headed]
  constructor
  · exact fun empty => ⟨block, first, empty⟩
  · rintro ⟨other, otherFirst, empty⟩
    have same : some block = some other := by
      rw [← isFirst_iff_find?.mp first, isFirst_iff_find?.mp otherFirst]
    rwa [Option.some.inj same]

end Plan

namespace Source

open Plan

/-- These texts stand for a contract that cannot be written. -/
def placeholders : List String :=
  [emptyPlaceholder, noBasePlaceholder]

/-- Every contract begins with its licence, which no placeholder does. -/
theorem emit_notMem_placeholders (language : Language) (plan : Plan) : emit language plan ∉ placeholders := by
  have start : (emit language plan).toList.take 4 = "// S".toList := by
    cases language <;> rw [emit, print, String.toList_ofList] <;> rfl
  intro placeholder
  rcases List.mem_pair.mp placeholder with same | same <;> rw [same] at start <;> revert start <;> decide

theorem generate_of_none {blocks : List Block} (unplanned : ofBlocks blocks = none) (language : Language) :
    (generate blocks language).text ∈ placeholders ∧ (generate blocks language).contractName = "" := by
  rw [generate, unplanned]
  split
  · exact ⟨List.mem_cons_self, rfl⟩
  · exact ⟨List.mem_cons_of_mem _ List.mem_cons_self, rfl⟩

theorem generate_of_some {blocks : List Block} {plan : Plan} (planned : ofBlocks blocks = some plan)
    (language : Language) : generate blocks language = ⟨language, emit language plan, plan.contractName⟩ := by
  rw [generate, planned]
  split
  · next empty =>
    rw [List.isEmpty_iff.mp empty] at planned
    cases planned
  · rfl

/-- The text is a placeholder exactly when there is no enabled base. -/
theorem text_mem_placeholders (blocks : List Block) (language : Language) :
    (generate blocks language).text ∈ placeholders ↔ ¬ ∃ block ∈ blocks, block.enabled ∧ block.isBase := by
  rw [← isSome_ofBlocks]
  cases planned : ofBlocks blocks with
  | none => exact iff_of_true (generate_of_none planned language).1 (by decide)
  | some plan =>
    rw [generate_of_some planned language]
    exact iff_of_false (emit_notMem_placeholders language plan) (by simp)

/-- A contract is taken for a placeholder when there is no enabled base, and when the first one is configured with
the empty name. -/
theorem isPlaceholder_iff (blocks : List Block) (language : Language) :
    (generate blocks language).isPlaceholder = true ↔
      (¬ ∃ block ∈ blocks, block.enabled ∧ block.isBase) ∨ Unnamed blocks := by
  rw [← isSome_ofBlocks, GeneratedSource.isPlaceholder, decide_eq_true_iff]
  cases planned : ofBlocks blocks with
  | none => exact iff_of_true (generate_of_none planned language).2 (.inl (by decide))
  | some plan => simpa [generate_of_some planned language] using contractName_ofBlocks planned

end Source

namespace Submission

open Plan Source

/-- A submission of blocks that pass their check is refused for want of a base when it is taken for a placeholder. -/
theorem resolve_eq_noBase {submission : Submission} {blocks : List Block} (alone : submission.source = none)
    (given : submission.blocks = some blocks) (checked : checkBlocks blocks = .ok ()) :
    submission.resolve = .error (.invalidInput "block list has no enabled base block") ↔
      (generate blocks submission.kind.language).isPlaceholder = true := by
  have content : submission.content =
      if (generate blocks submission.kind.language).isPlaceholder then
        .error (.invalidInput "block list has no enabled base block")
      else .ok ((generate blocks submission.kind.language).text,
        submission.requestedName.getD (generate blocks submission.kind.language).contractName) := by
    simp only [Submission.content, alone, given, checked]
  rw [resolve_eq, content]
  cases (generate blocks submission.kind.language).isPlaceholder with
  | true => exact iff_of_true rfl rfl
  | false =>
    refine iff_of_false ?_ (by decide)
    simp only [Bool.false_eq_true, if_false]
    split <;> simp

end Submission

namespace Source

open Plan

/-- The text is a placeholder exactly when there is no enabled base. But what is taken for a placeholder, and refused
for want of a base, is also a contract whose first enabled base is configured with the empty name. -/
theorem placeholder_recognised (blocks : List Block) (language : Language) :
    ((generate blocks language).text ∈ placeholders ↔ ¬ ∃ block ∈ blocks, block.enabled ∧ block.isBase) ∧
    ((generate blocks language).isPlaceholder = true ↔
      (¬ ∃ block ∈ blocks, block.enabled ∧ block.isBase) ∨ Unnamed blocks) ∧
    ∀ submission : Submission, submission.source = none → submission.blocks = some blocks →
      checkBlocks blocks = .ok () →
        (submission.resolve = .error (.invalidInput "block list has no enabled base block") ↔
          (¬ ∃ block ∈ blocks, block.enabled ∧ block.isBase) ∨ Unnamed blocks) := by
  refine ⟨text_mem_placeholders blocks language, isPlaceholder_iff blocks language,
    fun submission alone given checked => ?_⟩
  rw [Submission.resolve_eq_noBase alone given checked, isPlaceholder_iff]

/-- This list has a base that is switched off. -/
def switchedOff : List Block :=
  [⟨"base", "Coin", false, .erc20 {}⟩]

/-- A base that is switched off is no base. -/
theorem placeholder_recognised_switchedOff :
    checkBlocks switchedOff = .ok () ∧
      (Submission.ofBlocks .evm switchedOff).resolve =
        .error (.invalidInput "block list has no enabled base block") := by
  refine ⟨by decide, ?_⟩
  exact ((placeholder_recognised switchedOff .solidity).2.2 (.ofBlocks .evm switchedOff) rfl rfl (by decide)).mpr
    (.inl (by decide))

/-- This list has a base that is configured with the empty name. -/
def unnamed : List Block :=
  [⟨"base", "", true, .erc20 { name := some "" }⟩]

/-- The contract of that list is written, but it is taken for a placeholder and the list is refused for want of a
base. -/
theorem placeholder_unnamed :
    (∃ block ∈ unnamed, block.enabled ∧ block.isBase) ∧
      (generate unnamed .solidity).text ∉ placeholders ∧
      (generate unnamed .solidity).isPlaceholder = true ∧
      checkBlocks unnamed = .ok () ∧
      (Submission.ofBlocks .evm unnamed).resolve =
        .error (.invalidInput "block list has no enabled base block") := by
  have based : ∃ block ∈ unnamed, block.enabled ∧ block.isBase := ⟨_, List.mem_cons_self, rfl, rfl⟩
  have taken : (generate unnamed .solidity).isPlaceholder = true :=
    (isPlaceholder_iff unnamed .solidity).mpr (.inr ⟨_, ⟨[], [], rfl, rfl, by simp⟩, rfl⟩)
  exact ⟨based, fun placeholder => (text_mem_placeholders _ _).mp placeholder based, taken, by decide,
    (Submission.resolve_eq_noBase rfl rfl (by decide)).mpr taken⟩

end Source

end ContractWorks
