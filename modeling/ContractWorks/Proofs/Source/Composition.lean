import ContractWorks.Proofs.Contract.Plan
import ContractWorks.Proofs.Source.Survey
import ContractWorks.Source.Generated

namespace ContractWorks.Source

/-- This function gives the depth after some lines. -/
def depthAfter (depth : Nat) (lines : List Line) : Nat :=
  lines.foldl Line.depthAfter depth

section Depth

variable (depth : Nat)

@[simp] theorem depthAfter_nil : depthAfter depth [] = depth :=
  rfl

@[simp] theorem depthAfter_text (pieces : List Piece) (lines : List Line) :
    depthAfter depth (.text pieces :: lines) = depthAfter depth lines :=
  rfl

@[simp] theorem depthAfter_blank (lines : List Line) :
    depthAfter depth (.blank :: lines) = depthAfter depth lines :=
  rfl

@[simp] theorem depthAfter_append (front back : List Line) :
    depthAfter depth (front ++ back) = depthAfter (depthAfter depth front) back :=
  List.foldl_append

@[simp] theorem depthAfter_block (header : List Piece) (body : List Line) :
    depthAfter depth (block header body) = depthAfter (depth + 1) body - 1 := by
  rw [block, depthAfter, List.foldl_cons, List.foldl_append]
  rfl

@[simp] theorem depthAfter_only (condition : Bool) (lines : List Line) :
    depthAfter depth (only condition lines) = if condition then depthAfter depth lines else depth := by
  cases condition <;> rfl

@[simp] theorem depthAfter_together (groups : List (List Line)) :
    depthAfter depth (together groups) = groups.foldl depthAfter depth := by
  induction groups generalizing depth with
  | nil => rfl
  | cons group groups inductionHypothesis =>
    rw [List.foldl_cons, ← inductionHypothesis, ← depthAfter_append]
    rfl

/-- The blank lines between parts do not count. -/
@[simp] theorem depthAfter_joined (parts : List (List Line)) :
    depthAfter depth (joined parts) = parts.foldl depthAfter depth := by
  induction parts using joined.induct generalizing depth with
  | case1 => rfl
  | case2 part => rfl
  | case3 part parts more inductionHypothesis =>
    rw [joined, depthAfter_append, depthAfter_blank, inductionHypothesis, List.foldl_cons]
    exact more

end Depth

/-- Lines are level when they end at the depth where they began, whatever it is. -/
def Level (lines : List Line) : Prop :=
  ∀ depth, depthAfter depth lines = depth

namespace Solidity

@[simp] theorem depthAfter_demand (depth : Nat) (name condition reason : String) (lines : List Line) :
    depthAfter depth (demand name condition reason :: lines) = depthAfter depth lines :=
  rfl

theorem level_transferHook (name : String) (guards : Guards) : Level (transferHook name guards) := by
  intro depth
  rw [transferHook]
  split <;> simp

theorem level_skeleton (name symbol : String) (guards : Guards) (base : Base) :
    Level (skeleton name symbol guards base) := by
  intro depth
  have hook := level_transferHook name guards
  cases base with
  | token decimals initialSupply =>
    simp [skeleton, tokenSkeleton, tokenState, tokenTables, tokenEvents, onlyOwner, tokenConstructor, tokenTransfer,
      tokenApprove, tokenTransferFrom, transferOwnership, tokenMove, tokenMint, tokenBurn, hook _]
  | nft baseUri =>
    simp [skeleton, nftSkeleton, nftState, nftTables, nftEvents, onlyOwner, nftConstructor, nftOwnerOf, nftTokenUri,
      nftApprove, nftApproveAll, nftTransferFrom, transferOwnership, nftMint, nftBurn, nftDigits, hook _]

theorem level_fragment (name : String) (isNft : Bool) (decimals : UInt8) (feature : Feature) :
    Level (fragment name isNft decimals feature) := by
  intro depth
  cases feature with
  | mint => cases isNft <;> simp [fragment, mintFragment]
  | burn => cases isNft <;> simp [fragment, burnFragment]
  | pausable => simp [fragment, pausableFragment]
  | capped maxSupply => cases isNft <;> simp [fragment, cappedFragment]
  | whitelist => simp [fragment, whitelistFragment]
  | royalty receiver basisPoints => cases receiver <;> simp [fragment, royaltyFragment]

end Solidity

namespace Soroban

@[simp] theorem depthAfter_stop (depth : Nat) (message : String) (lines : List Line) :
    depthAfter depth (stop message :: lines) = depthAfter depth lines :=
  rfl

theorem level_beforeTransfer (guards : Guards) : Level (beforeTransfer guards) := by
  intro depth
  rw [beforeTransfer]
  split <;> simp [pausedCheck, whitelistCheck, refuse]

theorem level_skeleton (name symbol : String) (guards : Guards) (base : Base) :
    Level (skeleton name symbol guards base) := by
  intro depth
  have hook := level_beforeTransfer guards
  cases base with
  | token decimals initialSupply =>
    simp [skeleton, tokenSkeleton, stored, exported, refuse, getter, tokenKeys, declaration, tokenInterface,
      tokenSetup, tokenDecimals, tokenTotalSupply, tokenBalance, tokenAllowance, tokenApprove, tokenTransfer,
      tokenTransferFrom, admin, tokenInternals, requireAdmin, tokenReadBalance, tokenWriteBalance, tokenMove,
      tokenMint, tokenBurn, hook _]
  | nft baseUri =>
    simp [skeleton, nftSkeleton, stored, exported, refuse, getter, nftKeys, declaration, nftInterface, nftSetup,
      nftTotalSupply, nftOwnerOf, nftBalance, nftApproved, nftApprove, nftTransfer, nftTransferFrom, admin,
      nftInternals, requireAdmin, nftReadBalance, nftWriteBalance, nftMove, nftMint, nftBurn, hook _]

theorem level_fragment (name : String) (isNft : Bool) (decimals : UInt8) (feature : Feature) :
    Level (fragment name isNft decimals feature) := by
  intro depth
  cases feature with
  | mint => cases isNft <;> simp [fragment, mintFragment, exported]
  | burn => cases isNft <;> simp [fragment, burnFragment, exported, refuse]
  | pausable => simp [fragment, pausableFragment, stored, exported]
  | capped maxSupply => cases isNft <;> simp [fragment, cappedFragment, exported]
  | whitelist => simp [fragment, whitelistFragment, stored, exported]
  | royalty receiver basisPoints =>
    cases receiver <;> simp [fragment, royaltyFragment, defaultReceiver, stored, exported]

end Soroban

theorem level_flatMap {α : Type} {lines : α → List Line} (level : ∀ item, Level (lines item)) (items : List α) :
    Level (items.flatMap lines) := by
  intro depth
  induction items with
  | nil => rfl
  | cons item items inductionHypothesis =>
    rw [List.flatMap_cons, depthAfter_append, level item depth, inductionHypothesis]

/-- Level lines leave the depth of what follows them as it is. -/
theorem printFrom_append_of_level {front : List Line} (level : Level front) (depth : Nat) (back : List Line) :
    printFrom depth (front ++ back) = printFrom depth front ++ printFrom depth back := by
  have returns : front.foldl Line.depthAfter depth = depth := level depth
  rw [printFrom_append, returns]

theorem printFrom_flatMap {α : Type} {lines : α → List Line} (level : ∀ item, Level (lines item)) (depth : Nat)
    (items : List α) :
    printFrom depth (items.flatMap lines) = items.flatMap fun item => printFrom depth (lines item) := by
  induction items with
  | nil => rfl
  | cons item items inductionHypothesis =>
    rw [List.flatMap_cons, printFrom_append_of_level (level item), inductionHypothesis, List.flatMap_cons]

/-- This is the depth of the features: a Solidity contract encloses them in its braces. -/
def featureDepth : Language → Nat
  | .solidity => 1
  | .soroban => 0

/-- These lines come before the features of a contract. -/
def skeletonLines (language : Language) (name symbol : String) (base : Base) (guards : Guards) : List Line :=
  match language with
  | .solidity =>
    Solidity.preamble name ++
      .opening ["contract ", .given name] :: Solidity.skeleton name symbol guards base
  | .soroban => Soroban.preamble name ++ Soroban.skeleton name symbol guards base

/-- These lines belong to one feature. -/
def fragmentLines (language : Language) (name : String) (isNft : Bool) (decimals : UInt8) (feature : Feature) :
    List Line :=
  match language with
  | .solidity => Solidity.part name isNft decimals feature
  | .soroban => Soroban.part name isNft decimals feature

/-- These lines come after the features of a contract. -/
def footerLines : Language → List Line
  | .solidity => [.closing]
  | .soroban => []

/-- This function writes what comes before the features of a contract. -/
def skeletonText (language : Language) (name symbol : String) (base : Base) (guards : Guards) : String :=
  print (skeletonLines language name symbol base guards)

/-- This function writes one feature at the depth of the features. -/
def fragmentText (language : Language) (name : String) (isNft : Bool) (decimals : UInt8) (feature : Feature) :
    String :=
  String.ofList (printFrom (featureDepth language) (fragmentLines language name isNft decimals feature))

/-- This function writes what comes after the features of a contract. -/
def footerText (language : Language) : String :=
  String.ofList (printFrom (featureDepth language) (footerLines language))

/-- A contract consists of its skeleton, its features in their order, and its footer. -/
theorem lines_eq (language : Language) (plan : Plan) :
    lines language plan =
      skeletonLines language plan.contractName plan.symbol plan.base plan.guards ++
        (plan.features.flatMap (fragmentLines language plan.contractName plan.isNft plan.decimals) ++
          footerLines language) := by
  cases language with
  | solidity =>
    simp only [lines, Solidity.lines, skeletonLines, footerLines, block, List.append_assoc, List.cons_append]
    rfl
  | soroban =>
    simp only [lines, Soroban.lines, skeletonLines, footerLines, List.append_nil]
    rfl

/-- The skeleton leads to the depth of the features. -/
theorem depthAfter_skeletonLines (language : Language) (name symbol : String) (base : Base) (guards : Guards) :
    depthAfter 0 (skeletonLines language name symbol base guards) = featureDepth language := by
  cases language with
  | solidity =>
    rw [skeletonLines, depthAfter_append]
    exact Solidity.level_skeleton name symbol guards base 1
  | soroban =>
    rw [skeletonLines, depthAfter_append]
    exact Soroban.level_skeleton name symbol guards base 0

theorem level_fragmentLines (language : Language) (name : String) (isNft : Bool) (decimals : UInt8)
    (feature : Feature) : Level (fragmentLines language name isNft decimals feature) := by
  cases language with
  | solidity => exact Solidity.level_fragment name isNft decimals feature
  | soroban => exact Soroban.level_fragment name isNft decimals feature

/-- This function writes the skeleton of a plan. Of the features it is told only which types of guards occur. -/
def planSkeleton (language : Language) (plan : Plan) : String :=
  skeletonText language plan.contractName plan.symbol plan.base
    { pausable := plan.has .pausable, whitelist := plan.has .whitelist, capped := plan.has .capped }

/-- This function writes a feature of a plan. Of the base it is told only what amounts depend on. -/
def planFragment (language : Language) (plan : Plan) (feature : Feature) : String :=
  fragmentText language plan.contractName plan.isNft plan.decimals feature

theorem guards_eq (plan : Plan) :
    plan.guards =
      { pausable := plan.has .pausable, whitelist := plan.has .whitelist, capped := plan.has .capped } := by
  rw [Plan.guards, Plan.isSome_maxSupply]

/-- A contract is written as its skeleton, then its features one after the other, then its footer. -/
theorem emit_eq (language : Language) (plan : Plan) :
    emit language plan =
      planSkeleton language plan ++ String.join (plan.features.map (planFragment language plan)) ++
        footerText language := by
  have level := level_fragmentLines language plan.contractName plan.isNft plan.decimals
  have deep : (skeletonLines language plan.contractName plan.symbol plan.base plan.guards).foldl
      Line.depthAfter 0 = featureDepth language := depthAfter_skeletonLines ..
  rw [← String.toList_inj, emit, print, lines_eq, printFrom_append, deep,
    printFrom_append_of_level (level_flatMap level plan.features), printFrom_flatMap level, guards_eq]
  simp only [String.toList_append, String.toList_ofList, String.toList_join, List.flatMap_map, planSkeleton,
    skeletonText, print, planFragment, fragmentText, footerText, List.append_assoc]

/-- A skeleton is told of the features only which types occur. -/
theorem planSkeleton_congr {language : Language} {plan : Plan} {features : List Feature}
    (same : ∀ blockType ∈ [BlockType.pausable, .whitelist, .capped],
      ({ plan with features } : Plan).has blockType = plan.has blockType) :
    planSkeleton language { plan with features } = planSkeleton language plan := by
  simp only [List.forall_mem_cons, List.not_mem_nil, false_imp_iff, implies_true, and_true] at same
  obtain ⟨pausable, whitelist, capped⟩ := same
  rw [planSkeleton, pausable, whitelist, capped]
  rfl

/-- The order of the features says nothing of which types occur. -/
theorem has_of_perm {plan : Plan} {features : List Feature} (reordered : features.Perm plan.features)
    (blockType : BlockType) : ({ plan with features } : Plan).has blockType = plan.has blockType :=
  reordered.any_eq

/-- One more feature does not change whether a guard is asked for, when it asks for none or when its type occurs
already. -/
theorem has_of_insert {plan : Plan} {front back : List Feature} {feature : Feature}
    (whole : plan.features = front ++ back)
    (neutral : feature.blockType ∈ [BlockType.mint, .burn, .royalty] ∨ plan.has feature.blockType = true)
    {blockType : BlockType} (guarded : blockType ∈ [BlockType.pausable, .whitelist, .capped]) :
    ({ plan with features := front ++ feature :: back } : Plan).has blockType = plan.has blockType := by
  have grown : ({ plan with features := front ++ feature :: back } : Plan).has blockType =
      (decide (feature.blockType = blockType) || plan.has blockType) := by
    simp only [Plan.has, whole, List.any_append, List.any_cons, Bool.or_left_comm]
  rw [grown]
  by_cases same : feature.blockType = blockType
  · have apart : blockType ∉ [BlockType.mint, .burn, .royalty] := by cases blockType <;> simp_all
    have present : plan.has feature.blockType = true := neutral.resolve_left (same ▸ apart)
    rw [← same, present, Bool.or_true]
  · simp [same]

/-- Emission is compositional. A contract is a skeleton, then one fragment for each feature in the order of the
features, then a footer. Plans that differ in the order of their features have the same skeleton, and their
fragments come in the order of the features. One more feature that asks for no new guard adds its own fragment at
its place and changes nothing else. -/
theorem emission_compositional (language : Language) (plan : Plan) :
    emit language plan =
        planSkeleton language plan ++ String.join (plan.features.map (planFragment language plan)) ++
          footerText language ∧
      (∀ features, features.Perm plan.features →
        planSkeleton language { plan with features } = planSkeleton language plan ∧
          emit language { plan with features } =
            planSkeleton language plan ++ String.join (features.map (planFragment language plan)) ++
              footerText language) ∧
      ∀ front feature back, plan.features = front ++ back →
        feature.blockType ∈ [BlockType.mint, .burn, .royalty] ∨ plan.has feature.blockType = true →
          ∃ before behind,
            before = planSkeleton language plan ++ String.join (front.map (planFragment language plan)) ∧
              behind = String.join (back.map (planFragment language plan)) ++ footerText language ∧
              emit language plan = before ++ behind ∧
              emit language { plan with features := front ++ feature :: back } =
                before ++ planFragment language plan feature ++ behind := by
  refine ⟨emit_eq language plan, fun features reordered => ?_, fun front feature back whole neutral => ?_⟩
  · have skeleton : planSkeleton language { plan with features } = planSkeleton language plan :=
      planSkeleton_congr fun blockType _ => has_of_perm reordered blockType
    refine ⟨skeleton, ?_⟩
    rw [emit_eq, skeleton]
    rfl
  · have skeleton : planSkeleton language { plan with features := front ++ feature :: back } =
        planSkeleton language plan :=
      planSkeleton_congr fun _ guarded => has_of_insert whole neutral guarded
    refine ⟨_, _, rfl, rfl, ?_, ?_⟩
    · rw [emit_eq, whole, List.map_append, String.join_append]
      simp only [String.append_assoc]
    · rw [emit_eq, skeleton, List.map_append, List.map_cons, String.join_append, String.join_cons]
      simp only [String.append_assoc]
      rfl

/-- This token has a bound on its supply. -/
def boundedCoin : Plan :=
  ⟨"Coin", "TKN", .token 18 0, [.capped 5, .burn]⟩

/-- Burning may come first, and a second bound adds its own fragment. -/
theorem emission_compositional_boundedCoin :
    emit .soroban { boundedCoin with features := [.burn, .capped 5] } =
        planSkeleton .soroban boundedCoin ++
          String.join [planFragment .soroban boundedCoin .burn, planFragment .soroban boundedCoin (.capped 5)] ++
          footerText .soroban ∧
      ∃ before behind, emit .soroban boundedCoin = before ++ behind ∧
        emit .soroban { boundedCoin with features := [.capped 5, .capped 7, .burn] } =
          before ++ planFragment .soroban boundedCoin (.capped 7) ++ behind := by
  obtain ⟨-, reordered, inserted⟩ := emission_compositional .soroban boundedCoin
  obtain ⟨before, behind, -, -, without, within⟩ :=
    inserted [.capped 5] (.capped 7) [.burn] rfl (.inr (by decide))
  exact ⟨(reordered [.burn, .capped 5] (List.Perm.swap ..)).2, before, behind, without, within⟩

end ContractWorks.Source
