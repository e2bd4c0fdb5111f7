import ContractWorks.Contract.Plan
import Mathlib.Data.List.Induction
import Mathlib.Data.List.Sort

namespace ContractWorks.Plan

/-- This test asks whether a block of a type is enabled. -/
def enables (blocks : List Block) (blockType : BlockType) : Bool :=
  blocks.any fun block => block.enabled && block.blockType == blockType

/-- This function counts the features of a type. -/
def countOf (blockType : BlockType) (features : List Feature) : Nat :=
  features.countP fun feature => feature.blockType == blockType

theorem blockType_of_feature? {kind : BlockKind} {feature : Feature} (found : feature? kind = some feature) :
    feature.blockType = kind.blockType := by
  cases kind <;> simp [feature?] at found <;> subst found <;> rfl

theorem isBase_of_feature? {kind : BlockKind} (missing : feature? kind = none) :
    kind.blockType.isBase = true := by
  cases kind <;> simp_all [feature?, BlockKind.blockType, BlockType.isBase]

section Features

variable {blockType : BlockType} (addition : blockType.isBase = false)
include addition

/-- A block adds a feature of its own type when it is enabled and there is none yet. -/
theorem countOf_addFeature {features : List Feature} (single : countOf blockType features ≤ 1)
    (block : Block) :
    countOf blockType (addFeature features block) =
      if block.enabled && block.blockType == blockType then 1 else countOf blockType features := by
  rw [addFeature]
  cases block.enabled with
  | false => simp
  | true =>
    cases found : feature? block.kind with
    | none =>
      have other : block.blockType ≠ blockType := by
        rintro rfl
        simp [Block.blockType, isBase_of_feature? found] at addition
      simp [other]
    | some feature =>
      have type : block.blockType = feature.blockType := (blockType_of_feature? found).symm
      rw [type, Bool.true_and, if_pos rfl]
      dsimp only
      by_cases same : feature.blockType = blockType
      · subst same
        rw [beq_self_eq_true, if_pos rfl]
        split
        · next earlier =>
          have present : 0 < countOf feature.blockType features := by
            simpa [countOf, List.countP_pos_iff] using earlier
          omega
        · next earlier =>
          have absent : countOf feature.blockType features = 0 := by
            simpa [countOf, List.countP_eq_zero] using earlier
          rw [countOf] at absent ⊢
          simp [absent]
      · split <;> simp [countOf, same]

/-- A list of blocks adds one feature for each type that an enabled block has. -/
theorem countOf_features {features : List Feature} (single : countOf blockType features ≤ 1)
    (blocks : List Block) :
    countOf blockType (blocks.foldl addFeature features) =
      if enables blocks blockType then 1 else countOf blockType features := by
  induction blocks generalizing features with
  | nil => simp [enables]
  | cons block blocks inductionHypothesis =>
    have added := countOf_addFeature addition single block
    have split : enables (block :: blocks) blockType =
        ((block.enabled && block.blockType == blockType) || enables blocks blockType) := List.any_cons
    rw [List.foldl_cons, inductionHypothesis (by rw [added]; split <;> omega), added, split]
    cases block.enabled && block.blockType == blockType <;> simp

/-- A plan has one feature of each type that an enabled block has, and no others. -/
theorem countOf_ofBlocks {blocks : List Block} {plan : Plan} (planned : ofBlocks blocks = some plan) :
    countOf blockType plan.features = (enables blocks blockType).toNat := by
  obtain ⟨block, -, header⟩ := Option.bind_eq_some_iff.mp planned
  obtain ⟨⟨name, symbol, base⟩, -, rest⟩ := Option.bind_eq_some_iff.mp header
  obtain rfl := Option.some.inj rest
  rw [countOf_features addition (by simp [countOf])]
  cases enables blocks blockType <;> rfl

theorem has_ofBlocks {blocks : List Block} {plan : Plan} (planned : ofBlocks blocks = some plan) :
    plan.has blockType = enables blocks blockType := by
  have count := countOf_ofBlocks addition planned
  cases enabled : enables blocks blockType with
  | false =>
    rw [enabled, countOf] at count
    simpa [has, List.countP_eq_zero] using count
  | true =>
    have present : 0 < countOf blockType plan.features := by simp [count, enabled]
    simpa [has, countOf, List.countP_pos_iff] using present

end Features

/-- A block list with an enabled base has a plan. -/
theorem exists_ofBlocks {blocks : List Block} (based : ∃ block ∈ blocks, block.enabled ∧ block.isBase) :
    ∃ plan, ofBlocks blocks = some plan := by
  obtain ⟨block, found⟩ : ∃ block, blocks.find? (fun block => block.enabled && block.isBase) = some block := by
    rw [← Option.isSome_iff_exists, List.find?_isSome]
    simpa using based
  have selected := List.find?_some found
  obtain ⟨parts, headed⟩ : ∃ parts, header block = some parts := by
    obtain ⟨id, name, enabled, kind⟩ := block
    cases kind <;> simp [Block.isBase, Block.blockType, BlockKind.blockType, BlockType.isBase] at selected <;>
      exact ⟨_, rfl⟩
  exact ⟨⟨parts.1, parts.2.1, parts.2.2, blocks.foldl addFeature []⟩, by simp [ofBlocks, found, headed]⟩

/-- The bound on the supply is there exactly when a feature asks for it. -/
theorem isSome_maxSupply (plan : Plan) : plan.maxSupply.isSome = plan.has .capped := by
  rw [maxSupply, has, List.isSome_findSome?]
  congr 1
  funext feature
  cases feature <;> rfl

/-- A block is the first of a list that passes a test when it passes and none before it does. -/
def IsFirst (test : Block → Bool) (blocks : List Block) (block : Block) : Prop :=
  ∃ front back, blocks = front ++ block :: back ∧ test block = true ∧ ∀ earlier ∈ front, test earlier = false

theorem isFirst_iff_find? {test : Block → Bool} {blocks : List Block} {block : Block} :
    IsFirst test blocks block ↔ blocks.find? test = some block := by
  rw [List.find?_eq_some_iff_append]
  constructor
  · rintro ⟨front, back, rfl, passes, fail⟩
    exact ⟨passes, front, back, rfl, by simpa using fail⟩
  · rintro ⟨passes, front, back, rfl, fail⟩
    exact ⟨front, back, rfl, passes, by simpa using fail⟩

/-- This test asks whether a block selects the skeleton. -/
def selects (block : Block) : Bool :=
  block.enabled && block.isBase

/-- This test asks whether a block is an enabled one of a type. -/
def brings (blockType : BlockType) (block : Block) : Bool :=
  block.enabled && block.blockType == blockType

theorem brings_iff {blockType : BlockType} {block : Block} :
    brings blockType block = true ↔ block.enabled = true ∧ block.blockType = blockType := by
  simp [brings]

/-- This function gives the place of the first enabled block of a type. -/
def place (blocks : List Block) (blockType : BlockType) : Nat :=
  blocks.findIdx (brings blockType)

/-- This function gives the features of a block list. -/
def collected (blocks : List Block) : List Feature :=
  blocks.foldl addFeature []

/-- This type says how a plan is read off a block list. -/
structure Extracts (blocks : List Block) (plan : Plan) : Prop where
  based : ∃ block, IsFirst selects blocks block ∧
    header block = some (plan.contractName, plan.symbol, plan.base)
  distinct : (plan.features.map Feature.blockType).Nodup
  kinds : ∀ blockType, blockType ∈ plan.features.map Feature.blockType ↔
    blockType.isBase = false ∧ ∃ block ∈ blocks, block.enabled = true ∧ block.blockType = blockType
  ordered : plan.features.Pairwise fun earlier later =>
    place blocks earlier.blockType < place blocks later.blockType
  configured : ∀ feature ∈ plan.features, ∃ block,
    IsFirst (brings feature.blockType) blocks block ∧ feature? block.kind = some feature
  present : ∀ blockType, plan.has blockType = (!blockType.isBase && enables blocks blockType)
  bounded : ∀ cap, plan.maxSupply = some cap ↔ ∃ block config,
    IsFirst (brings .capped) blocks block ∧ block.kind = .capped config ∧
      cap = config.maxSupply.getD 18446744073709551615

section Collected

theorem isBase_blockType (feature : Feature) : feature.blockType.isBase = false := by
  cases feature <;> rfl

theorem exists_feature? {kind : BlockKind} (addition : kind.blockType.isBase = false) :
    ∃ feature, feature? kind = some feature := by
  cases found : feature? kind with
  | none => simp [isBase_of_feature? found] at addition
  | some feature => exact ⟨feature, rfl⟩

/-- A block adds a feature of a new type at the end, or its type is there already, or it has no feature. -/
theorem addFeature_cases (features : List Feature) (block : Block) :
    (addFeature features block = features ∧
      ∀ feature, block.enabled = true → feature? block.kind = some feature →
        ∃ earlier ∈ features, earlier.blockType = feature.blockType) ∨
    ∃ feature, block.enabled = true ∧ feature? block.kind = some feature ∧
      (∀ earlier ∈ features, earlier.blockType ≠ feature.blockType) ∧
      addFeature features block = features ++ [feature] := by
  rw [addFeature]
  cases block.enabled with
  | false => exact .inl ⟨rfl, by simp⟩
  | true =>
    cases feature? block.kind with
    | none => exact .inl ⟨rfl, by simp⟩
    | some feature =>
      by_cases earlier : features.any fun earlier => earlier.blockType = feature.blockType
      · refine .inl ⟨by simp [earlier], fun other _ same => ?_⟩
        obtain rfl := Option.some.inj same
        simpa using earlier
      · refine .inr ⟨feature, rfl, rfl, ?_, by simp [earlier]⟩
        simpa using earlier

theorem collected_concat (blocks : List Block) (block : Block) :
    collected (blocks ++ [block]) = addFeature (collected blocks) block :=
  List.foldl_concat ..

theorem find?_concat (test : Block → Bool) (blocks : List Block) (block : Block) :
    (blocks ++ [block]).find? test =
      (blocks.find? test).or (if test block then some block else none) := by
  rw [List.find?_append, List.find?_singleton]

theorem brings_of_feature? {block : Block} {feature : Feature} (enabled : block.enabled = true)
    (found : feature? block.kind = some feature) : brings feature.blockType block = true :=
  brings_iff.mpr ⟨enabled, (blockType_of_feature? found).symm⟩

/-- No enabled block has a type that is not there yet. -/
theorem find?_of_fresh {blocks : List Block} {features : List Feature} {new : Feature}
    (covered : ∀ {feature : Feature}, feature ∈ features ↔ ∃ block,
      blocks.find? (brings feature.blockType) = some block ∧ feature? block.kind = some feature)
    (fresh : ∀ earlier ∈ features, earlier.blockType ≠ new.blockType) :
    blocks.find? (brings new.blockType) = none := by
  cases earlier : blocks.find? (brings new.blockType) with
  | none => rfl
  | some first =>
    have type : first.kind.blockType = new.blockType := (brings_iff.mp (List.find?_some earlier)).2
    obtain ⟨other, offered⟩ := exists_feature? (type ▸ isBase_blockType new)
    have same : other.blockType = new.blockType := (blockType_of_feature? offered).trans type
    exact absurd same (fresh other (covered.mpr ⟨first, by rw [same, earlier], offered⟩))

/-- A feature is there exactly when it is the one of the first enabled block of its type. -/
theorem mem_collected {blocks : List Block} {feature : Feature} :
    feature ∈ collected blocks ↔ ∃ block,
      blocks.find? (brings feature.blockType) = some block ∧ feature? block.kind = some feature := by
  induction blocks using List.reverseRecOn generalizing feature with
  | nil => simp [collected]
  | append_singleton blocks block inductionHypothesis =>
    rw [collected_concat, find?_concat]
    rcases addFeature_cases (collected blocks) block with ⟨same, covered⟩ | ⟨new, enabled, found, fresh, added⟩
    · rw [same]
      constructor
      · rw [inductionHypothesis]
        rintro ⟨first, isFirst, kind⟩
        exact ⟨first, by simp [isFirst], kind⟩
      · rintro ⟨first, isFirst, kind⟩
        cases earlier : blocks.find? (brings feature.blockType) with
        | some other =>
          obtain rfl : other = first := by simpa [earlier] using isFirst
          exact inductionHypothesis.mpr ⟨other, earlier, kind⟩
        | none =>
          -- the block itself is the first of its type, so its type cannot be there already
          obtain ⟨brought, rfl⟩ : brings feature.blockType block = true ∧ block = first := by
            simpa [earlier] using isFirst
          obtain ⟨other, mem, type⟩ := covered feature (brings_iff.mp brought).1 kind
          obtain ⟨found, isFound, -⟩ := inductionHypothesis.mp mem
          simp [type, earlier] at isFound
    · have unseen := find?_of_fresh @inductionHypothesis fresh
      rw [added, List.mem_append, List.mem_singleton, inductionHypothesis]
      constructor
      · rintro (⟨first, isFirst, kind⟩ | rfl)
        · exact ⟨first, by simp [isFirst], kind⟩
        · exact ⟨block, by simp [unseen, brings_of_feature? enabled found], found⟩
      · rintro ⟨first, isFirst, kind⟩
        cases earlier : blocks.find? (brings feature.blockType) with
        | some other =>
          obtain rfl : other = first := by simpa [earlier] using isFirst
          exact .inl ⟨other, rfl, kind⟩
        | none =>
          obtain ⟨-, rfl⟩ : brings feature.blockType block = true ∧ block = first := by
            simpa [earlier] using isFirst
          exact .inr (Option.some.inj (kind.symm.trans found))

theorem place_lt_length {blocks : List Block} {feature : Feature} (mem : feature ∈ collected blocks) :
    place blocks feature.blockType < blocks.length := by
  obtain ⟨block, found, -⟩ := mem_collected.mp mem
  exact List.findIdx_lt_length.mpr ⟨block, List.mem_of_find?_eq_some found, List.find?_some found⟩

/-- A type that was there keeps its place when a block follows. -/
theorem place_concat {blocks : List Block} {blockType : BlockType} (before : place blocks blockType < blocks.length)
    (block : Block) : place (blocks ++ [block]) blockType = place blocks blockType := by
  rw [place, List.findIdx_append, if_pos (show blocks.findIdx _ < _ from before), place]

/-- The features stand in the order of the first blocks of their types. -/
theorem ordered_collected (blocks : List Block) :
    (collected blocks).Pairwise fun earlier later =>
      place blocks earlier.blockType < place blocks later.blockType := by
  induction blocks using List.reverseRecOn with
  | nil => exact .nil
  | append_singleton blocks block inductionHypothesis =>
    have kept : (collected blocks).Pairwise fun earlier later =>
        place (blocks ++ [block]) earlier.blockType < place (blocks ++ [block]) later.blockType := by
      refine inductionHypothesis.imp_of_mem fun isEarlier isLater before => ?_
      rwa [place_concat (place_lt_length isEarlier), place_concat (place_lt_length isLater)]
    rw [collected_concat]
    rcases addFeature_cases (collected blocks) block with ⟨same, -⟩ | ⟨new, enabled, found, fresh, added⟩
    · rwa [same]
    · rw [added]
      refine List.pairwise_append.mpr ⟨kept, List.pairwise_singleton .., fun earlier isEarlier later isLater => ?_⟩
      obtain rfl := List.mem_singleton.mp isLater
      -- the new type has no block before, so its place is the last one
      have last : place (blocks ++ [block]) later.blockType = blocks.length := by
        have unseen := List.find?_eq_none.mp (find?_of_fresh mem_collected fresh)
        have absent : blocks.findIdx (brings later.blockType) = blocks.length :=
          List.findIdx_eq_length.mpr (by simpa using unseen)
        rw [place, List.findIdx_append, absent, if_neg (Nat.lt_irrefl _), List.findIdx_singleton,
          if_pos (brings_of_feature? enabled found), Nat.zero_add]
      rw [place_concat (place_lt_length isEarlier), last]
      exact place_lt_length isEarlier

end Collected

/-- The first enabled base block gives the head of a plan and all blocks give its features. -/
theorem ofBlocks_eq_some {blocks : List Block} {plan : Plan} :
    ofBlocks blocks = some plan ↔
      (∃ block, IsFirst selects blocks block ∧
        header block = some (plan.contractName, plan.symbol, plan.base)) ∧
      plan.features = collected blocks := by
  obtain ⟨name, symbol, base, features⟩ := plan
  simp only [isFirst_iff_find?]
  constructor
  · intro planned
    obtain ⟨block, selected, rest⟩ := Option.bind_eq_some_iff.mp planned
    obtain ⟨⟨otherName, otherSymbol, otherBase⟩, headed, built⟩ := Option.bind_eq_some_iff.mp rest
    obtain ⟨rfl, rfl, rfl, rfl⟩ := Plan.mk.inj (Option.some.inj built)
    exact ⟨⟨block, selected, headed⟩, rfl⟩
  · rintro ⟨⟨block, selected, headed⟩, rfl⟩
    exact Option.bind_eq_some_iff.mpr ⟨block, selected, by rw [headed]; rfl⟩

theorem feature?_eq_capped {kind : BlockKind} {cap : UInt64} :
    feature? kind = some (.capped cap) ↔
      ∃ config, kind = .capped config ∧ cap = config.maxSupply.getD 18446744073709551615 := by
  cases kind <;> simp [feature?, eq_comm]

/-- The bound on the supply is the cap of a feature when no two features have one type. -/
theorem maxSupply_eq_some {plan : Plan} (distinct : (plan.features.map Feature.blockType).Nodup) {cap : UInt64} :
    plan.maxSupply = some cap ↔ .capped cap ∈ plan.features := by
  have mem_of_found {other : UInt64} (found : plan.maxSupply = some other) : .capped other ∈ plan.features := by
    obtain ⟨feature, mem, bound⟩ := List.exists_of_findSome?_eq_some found
    cases feature <;> simp_all [capOf]
  refine ⟨mem_of_found, fun mem => ?_⟩
  cases found : plan.maxSupply with
  | none => simpa [capOf] using List.findSome?_eq_none_iff.mp found _ mem
  | some other =>
    have same : Feature.capped other = .capped cap :=
      List.inj_on_of_nodup_map distinct (mem_of_found found) mem rfl
    rw [Feature.capped.inj same]

section Extracts

variable {blocks : List Block} {plan : Plan}

/-- A plan that a block list gives is read off the list. -/
theorem extracts_of_ofBlocks (planned : ofBlocks blocks = some plan) : Extracts blocks plan := by
  obtain ⟨based, features⟩ := ofBlocks_eq_some.mp planned
  have ordered := ordered_collected blocks
  have mem {feature : Feature} : feature ∈ plan.features ↔ ∃ block,
      IsFirst (brings feature.blockType) blocks block ∧ feature? block.kind = some feature := by
    simp only [features, mem_collected, isFirst_iff_find?]
  have distinct : (plan.features.map Feature.blockType).Nodup := by
    rw [features, List.Nodup, List.pairwise_map]
    exact ordered.imp fun before same => by simp [same] at before
  refine ⟨based, distinct, fun blockType => ?kinds, features ▸ ordered, fun _ => mem.mp,
    fun blockType => ?present, fun cap => ?bounded⟩
  case kinds =>
    simp only [List.mem_map, mem]
    constructor
    · rintro ⟨feature, ⟨block, first, -⟩, rfl⟩
      have found := isFirst_iff_find?.mp first
      exact ⟨isBase_blockType feature, block, List.mem_of_find?_eq_some found, brings_iff.mp (List.find?_some found)⟩
    · rintro ⟨addition, block, inside, brought⟩
      obtain ⟨first, found⟩ := Option.isSome_iff_exists.mp
        (List.find?_isSome.mpr ⟨block, inside, brings_iff.mpr brought⟩)
      obtain ⟨-, type⟩ := brings_iff.mp (List.find?_some found)
      obtain ⟨feature, kind⟩ := exists_feature? (congrArg BlockType.isBase type |>.trans addition)
      have same : feature.blockType = blockType := (blockType_of_feature? kind).trans type
      exact ⟨feature, ⟨first, isFirst_iff_find?.mpr (same ▸ found), kind⟩, same⟩
  case present =>
    cases addition : blockType.isBase with
    | false => rw [has_ofBlocks addition planned, Bool.not_false, Bool.true_and]
    | true =>
      rw [Bool.not_true, Bool.false_and, has, List.any_eq_false]
      intro feature _ same
      simp [← of_decide_eq_true same, isBase_blockType] at addition
  case bounded =>
    rw [maxSupply_eq_some distinct, mem]
    refine exists_congr fun block => ?_
    rw [exists_and_left]
    exact and_congr_right fun _ => feature?_eq_capped

theorem Extracts.mem_features (extracts : Extracts blocks plan) {feature : Feature} :
    feature ∈ plan.features ↔ feature ∈ collected blocks := by
  rw [mem_collected]
  constructor
  · intro mem
    obtain ⟨block, first, kind⟩ := extracts.configured feature mem
    exact ⟨block, isFirst_iff_find?.mp first, kind⟩
  · rintro ⟨block, found, kind⟩
    have brought := brings_iff.mp (List.find?_some found)
    obtain ⟨other, mem, type⟩ := List.mem_map.mp ((extracts.kinds feature.blockType).mpr
      ⟨isBase_blockType feature, block, List.mem_of_find?_eq_some found, brought⟩)
    obtain ⟨same, first, otherKind⟩ := extracts.configured other mem
    rw [type, isFirst_iff_find?, found, Option.some.injEq] at first
    subst first
    rwa [Option.some.inj (kind.symm.trans otherKind)]

/-- Only the plan that a block list gives can be read off the list. -/
theorem Extracts.ofBlocks (extracts : Extracts blocks plan) : ofBlocks blocks = some plan := by
  refine ofBlocks_eq_some.mpr ⟨extracts.based, ?_⟩
  have irreflexive : Std.Irrefl fun earlier later : Feature =>
      place blocks earlier.blockType < place blocks later.blockType := ⟨fun _ => Nat.lt_irrefl _⟩
  have antisymmetric : Std.Antisymm fun earlier later : Feature =>
      place blocks earlier.blockType < place blocks later.blockType :=
    ⟨fun _ _ before after => absurd after (Nat.lt_asymm before)⟩
  exact List.Pairwise.eq_of_mem_iff extracts.ordered (ordered_collected blocks) fun _ => extracts.mem_features

end Extracts

/-- A block list has a plan exactly when it has an enabled base. -/
theorem isSome_ofBlocks (blocks : List Block) :
    (ofBlocks blocks).isSome ↔ ∃ block ∈ blocks, block.enabled ∧ block.isBase := by
  constructor
  · intro planned
    obtain ⟨plan, planned⟩ := Option.isSome_iff_exists.mp planned
    obtain ⟨⟨block, first, -⟩, -⟩ := ofBlocks_eq_some.mp planned
    have found := isFirst_iff_find?.mp first
    have selected : selects block = true := List.find?_some found
    exact ⟨block, List.mem_of_find?_eq_some found, Bool.and_eq_true_iff.mp selected⟩
  · exact fun based => Option.isSome_iff_exists.mpr (exists_ofBlocks based)

end ContractWorks.Plan
