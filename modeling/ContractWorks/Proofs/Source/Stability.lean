import ContractWorks.Proofs.Contract.Plan
import ContractWorks.Source.Generated

namespace ContractWorks

namespace Plan

/-- A block adds nothing after others when it is disabled or when an enabled block before it took its part. -/
def redundant (front : List Block) (block : Block) : Bool :=
  !block.enabled || front.any fun earlier =>
    earlier.enabled && if block.isBase then earlier.isBase else earlier.blockType == block.blockType

/-- This relation removes any choice of redundant blocks from the blocks that stand after `front`. -/
inductive Thins : List Block → List Block → List Block → Prop where
  | nil (front : List Block) : Thins front [] []
  | keep {front blocks kept : List Block} (block : Block) (rest : Thins (front ++ [block]) blocks kept) :
    Thins front (block :: blocks) (block :: kept)
  | drop {front blocks kept : List Block} {block : Block} (adds : redundant front block = true)
    (rest : Thins (front ++ [block]) blocks kept) : Thins front (block :: blocks) kept

/-- This function removes every redundant block from the blocks that stand after `front`. -/
def prunedFrom (front : List Block) : List Block → List Block
  | [] => []
  | block :: blocks =>
    if redundant front block then prunedFrom (front ++ [block]) blocks
    else block :: prunedFrom (front ++ [block]) blocks

/-- Two blocks do the same when they differ in their ids, and also in their names unless they are bases. -/
structure Relabels (block other : Block) : Prop where
  enabled : other.enabled = block.enabled
  kind : other.kind = block.kind
  name : block.isBase = true → other.name = block.name

/-- The order of the bases and the order of the other blocks stay the same. -/
structure Interleaves (blocks moved : List Block) : Prop where
  bases : moved.filter Block.isBase = blocks.filter Block.isBase
  additions : (moved.filter fun block => !block.isBase) = blocks.filter fun block => !block.isBase

/-- A plan depends on the head of the first enabled base and on the features. -/
theorem ofBlocks_congr {blocks others : List Block}
    (headed : (others.find? selects).bind header = (blocks.find? selects).bind header)
    (features : collected others = collected blocks) : ofBlocks others = ofBlocks blocks := by
  have split (blocks : List Block) : ofBlocks blocks = ((blocks.find? selects).bind header).bind fun parts =>
      some ⟨parts.1, parts.2.1, parts.2.2, collected blocks⟩ := (Option.bind_assoc ..).symm
  rw [split, split, headed, features]

section Thinning

variable {front blocks kept : List Block}

theorem thins_prunedFrom : Thins front blocks (prunedFrom front blocks) := by
  induction blocks generalizing front with
  | nil => exact .nil front
  | cons block blocks inductionHypothesis =>
    rw [prunedFrom]
    split
    · next adds => exact .drop adds inductionHypothesis
    · exact .keep block inductionHypothesis

section Redundant

variable {block : Block} (adds : redundant front block = true)
include adds

theorem collected_of_redundant : collected (front ++ [block]) = collected front := by
  rw [collected_concat]
  rcases addFeature_cases (collected front) block with ⟨same, -⟩ | ⟨new, enabled, found, fresh, -⟩
  · exact same
  · have type : new.blockType = block.blockType := blockType_of_feature? found
    have addition : block.isBase = false := by rw [Block.isBase, ← type, isBase_blockType]
    obtain ⟨earlier, mem, brought⟩ :
        ∃ earlier ∈ front, earlier.enabled = true ∧ earlier.blockType = block.blockType := by
      simpa [redundant, enabled, addition] using adds
    have unseen := List.find?_eq_none.mp (find?_of_fresh mem_collected fresh) earlier mem
    exact absurd (brings_iff.mpr (type ▸ brought)) unseen

theorem find?_of_redundant : (front ++ [block]).find? selects = front.find? selects := by
  rw [find?_concat]
  split
  · next selected =>
    obtain ⟨enabled, isBase⟩ := Bool.and_eq_true_iff.mp selected
    obtain ⟨earlier, mem, taken⟩ : ∃ earlier ∈ front, earlier.enabled = true ∧ earlier.isBase = true := by
      simpa [redundant, enabled, isBase] using adds
    obtain ⟨first, found⟩ : ∃ first, front.find? selects = some first :=
      Option.isSome_iff_exists.mp (List.find?_isSome.mpr ⟨earlier, mem, Bool.and_eq_true_iff.mpr taken⟩)
    rw [found, Option.some_or]
  · rw [Option.or_none]

end Redundant

/-- The features stay when redundant blocks go. -/
theorem collected_of_thins (thins : Thins front blocks kept) :
    collected (front ++ kept) = collected (front ++ blocks) := by
  induction thins with
  | nil => rfl
  | @keep front blocks kept block _ inductionHypothesis =>
    rwa [List.append_cons, List.append_cons front block blocks]
  | @drop front blocks kept block adds _ inductionHypothesis =>
    rw [List.append_cons, ← inductionHypothesis, collected, collected, List.foldl_append, List.foldl_append]
    exact congrArg (kept.foldl addFeature) (collected_of_redundant adds).symm

/-- The first enabled base stays when redundant blocks go. -/
theorem find?_of_thins (thins : Thins front blocks kept) :
    (front ++ kept).find? selects = (front ++ blocks).find? selects := by
  induction thins with
  | nil => rfl
  | @keep front blocks kept block _ inductionHypothesis =>
    rwa [List.append_cons, List.append_cons front block blocks]
  | @drop front blocks kept block adds _ inductionHypothesis =>
    rw [List.append_cons, ← inductionHypothesis, List.find?_append, List.find?_append, find?_of_redundant adds]

theorem ofBlocks_of_thins (thins : Thins [] blocks kept) : ofBlocks kept = ofBlocks blocks :=
  ofBlocks_congr (congrArg (Option.bind · header) (find?_of_thins thins)) (collected_of_thins thins)

end Thinning

section Relabeling

variable {block other : Block}

theorem Relabels.isBase (relabels : Relabels block other) : other.isBase = block.isBase :=
  congrArg (fun kind => kind.blockType.isBase) relabels.kind

theorem Relabels.selects (relabels : Relabels block other) : selects other = selects block := by
  rw [Plan.selects, relabels.enabled, relabels.isBase, Plan.selects]

theorem Relabels.addFeature (relabels : Relabels block other) (features : List Feature) :
    addFeature features other = addFeature features block := by
  rw [Plan.addFeature, relabels.enabled, relabels.kind, Plan.addFeature]

theorem Relabels.header (relabels : Relabels block other) (isBase : block.isBase = true) :
    header other = header block := by
  rw [Plan.header, relabels.kind, relabels.name isBase, Plan.header]

variable {blocks others : List Block} (relabels : List.Forall₂ Relabels blocks others)
include relabels

theorem collected_of_relabels : collected others = collected blocks := by
  have folded (features : List Feature) :
      others.foldl Plan.addFeature features = blocks.foldl Plan.addFeature features := by
    induction relabels generalizing features with
    | nil => rfl
    | cons head _ inductionHypothesis => rw [List.foldl_cons, head.addFeature, inductionHypothesis, List.foldl_cons]
  exact folded []

theorem header_of_relabels :
    (others.find? Plan.selects).bind Plan.header = (blocks.find? Plan.selects).bind Plan.header := by
  induction relabels with
  | nil => rfl
  | @cons block other _ _ head _ inductionHypothesis =>
    rw [List.find?_cons, List.find?_cons, head.selects]
    cases chosen : Plan.selects block with
    | false => exact inductionHypothesis
    | true => exact head.header (Bool.and_eq_true_iff.mp chosen).2

theorem ofBlocks_of_relabels : ofBlocks others = ofBlocks blocks :=
  ofBlocks_congr (header_of_relabels relabels) (collected_of_relabels relabels)

end Relabeling

section Interleaving

/-- Only the bases of a list are asked for the head. -/
theorem find?_selects_filter (blocks : List Block) :
    (blocks.filter Block.isBase).find? selects = blocks.find? selects := by
  rw [List.find?_filter]
  congr 1
  funext block
  simp [selects]

/-- Only the other blocks of a list are asked for features. -/
theorem collected_filter (blocks : List Block) :
    collected (blocks.filter fun block => !block.isBase) = collected blocks := by
  rw [collected, collected, List.foldl_filter]
  congr 1
  funext features block
  split
  · rfl
  · next isBase =>
    rcases addFeature_cases features block with ⟨same, -⟩ | ⟨new, -, found, -, -⟩
    · exact same.symm
    · have addition : block.isBase = false := by
        rw [Block.isBase, Block.blockType, ← blockType_of_feature? found, isBase_blockType]
      simp [addition] at isBase

variable {blocks moved : List Block} (interleaves : Interleaves blocks moved)
include interleaves

/-- Bases and other blocks may pass each other. -/
theorem ofBlocks_of_interleaves : ofBlocks moved = ofBlocks blocks := by
  refine ofBlocks_congr ?_ ?_
  · rw [← find?_selects_filter, interleaves.bases, find?_selects_filter]
  · rw [← collected_filter, interleaves.additions, collected_filter]

theorem length_of_interleaves : moved.length = blocks.length := by
  rw [List.length_eq_length_filter_add Block.isBase, interleaves.bases, interleaves.additions,
    ← List.length_eq_length_filter_add]

end Interleaving

end Plan

namespace Source

open Plan

/-- A contract depends on the plan, and without a plan on whether there are blocks. -/
theorem generate_congr {blocks others : List Block} (empty : others = [] ↔ blocks = [])
    (planned : ofBlocks others = ofBlocks blocks) (language : Language) :
    generate others language = generate blocks language := by
  have same : others.isEmpty = blocks.isEmpty := by
    rw [Bool.eq_iff_iff, List.isEmpty_iff, List.isEmpty_iff, empty]
  rw [generate, same, planned, generate]

/-- A plan says of a block list what its first enabled base says and, in their order, what the first enabled block of
each other type says; so a contract stays the same when redundant blocks go, when ids and the names of features change,
and when bases and features pass each other. -/
theorem plan_extraction (blocks : List Block) :
    ((ofBlocks blocks).isSome ↔ ∃ block ∈ blocks, block.enabled ∧ block.isBase) ∧
    (∀ plan, ofBlocks blocks = some plan ↔ Extracts blocks plan) ∧
    ∀ language,
      (∀ kept, Thins [] blocks kept → kept ≠ [] → generate kept language = generate blocks language) ∧
      (prunedFrom [] blocks ≠ [] → generate (prunedFrom [] blocks) language = generate blocks language) ∧
      (∀ others, List.Forall₂ Relabels blocks others → generate others language = generate blocks language) ∧
      ∀ moved, Interleaves blocks moved → generate moved language = generate blocks language := by
  have thinned (language : Language) (kept : List Block) (thins : Thins [] blocks kept) (some : kept ≠ []) :
      generate kept language = generate blocks language := by
    refine generate_congr ⟨fun none => absurd none some, ?_⟩ (ofBlocks_of_thins thins) language
    rintro rfl
    cases thins
    rfl
  refine ⟨isSome_ofBlocks blocks, fun plan => ⟨extracts_of_ofBlocks, Extracts.ofBlocks⟩, fun language =>
    ⟨thinned language, thinned language _ thins_prunedFrom, fun others relabels => ?_, fun moved interleaves => ?_⟩⟩
  · have lengths := relabels.length_eq
    refine generate_congr ?_ (ofBlocks_of_relabels relabels) language
    rw [← List.length_eq_zero_iff, ← List.length_eq_zero_iff, lengths]
  · have lengths := length_of_interleaves interleaves
    refine generate_congr ?_ (ofBlocks_of_interleaves interleaves) language
    rw [← List.length_eq_zero_iff, ← List.length_eq_zero_iff, lengths]

/-- This block list has a disabled block, two bases and two caps. -/
def crowded : List Block :=
  [⟨"note", "Note", false, .burn⟩, ⟨"low", "Cap", true, .capped ⟨some 5⟩⟩, ⟨"coin", "Coin", true, .erc20 {}⟩,
   ⟨"art", "Art", true, .nft {}⟩, ⟨"high", "Cap", true, .capped ⟨some 7⟩⟩, ⟨"open", "Open", true, .mint⟩]

/-- The later base and the later cap count for nothing, and the first cap may follow the base under another name. -/
theorem plan_extraction_crowded :
    Extracts crowded ⟨"Coin", "TKN", .token 18 0, [.capped 5, .mint]⟩ ∧
    generate [⟨"low", "Cap", true, .capped ⟨some 5⟩⟩, ⟨"coin", "Coin", true, .erc20 {}⟩,
      ⟨"open", "Open", true, .mint⟩] .solidity = generate crowded .solidity ∧
    generate [⟨"coin", "Coin", true, .erc20 {}⟩, ⟨"note", "Note", false, .burn⟩, ⟨"0", "Limit", true, .capped ⟨some 5⟩⟩,
      ⟨"art", "Art", true, .nft {}⟩, ⟨"high", "Cap", true, .capped ⟨some 7⟩⟩, ⟨"open", "Open", true, .mint⟩] .soroban =
      generate crowded .soroban := by
  obtain ⟨-, extracted, stable⟩ := plan_extraction crowded
  refine ⟨(extracted _).mp (by decide), (stable .solidity).2.1 (by decide), ?_⟩
  have renamed := (stable .soroban).2.2.1
    [⟨"note", "Note", false, .burn⟩, ⟨"0", "Limit", true, .capped ⟨some 5⟩⟩, ⟨"coin", "Coin", true, .erc20 {}⟩,
     ⟨"art", "Art", true, .nft {}⟩, ⟨"high", "Cap", true, .capped ⟨some 7⟩⟩, ⟨"open", "Open", true, .mint⟩]
    (by repeat' first | exact ⟨rfl, rfl, by decide⟩ | constructor)
  rw [← renamed]
  exact ((plan_extraction _).2.2 .soroban).2.2.2 _ ⟨by decide, by decide⟩

end Source

end ContractWorks
