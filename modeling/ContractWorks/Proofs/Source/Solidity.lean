import ContractWorks.Proofs.Source.Survey
import ContractWorks.Source.Solidity

namespace ContractWorks.Source.Solidity

/-- What a token needs in any case says nothing of features. -/
theorem tokenParts_quiet (name : String) (decimals : UInt8) :
    Quiet (unsaid .solidity unguarded) <| together
      [[.blank], preamble name, block ["contract ", .given name] [], tokenState decimals, tokenTables,
        tokenEvents, onlyOwner name, tokenTransfer, tokenApprove, tokenTransferFrom name,
        transferOwnership name, tokenMove name, tokenBurn name] := by
  apply quiet_of_shapes
  simp only [shapes, unsaid, unguarded, asks, entryPoints, declarations, guardItems, foreignMarkers,
    sdkImport, contractMarker, preamble, tokenState, tokenTables, tokenEvents, onlyOwner, tokenTransfer,
    tokenApprove, tokenTransferFrom, transferOwnership, tokenMove, tokenBurn, demand, block, together,
    List.filter, Bool.not_false, List.map_cons, List.map_nil, List.flatten_cons, List.flatten_nil,
    List.cons_append, List.nil_append, Line.pieces, Piece.shape, String.toList_append]
  repeat rw [String.toList_ofList]
  decide

/-- What a collection needs in any case says nothing of features. -/
theorem nftParts_quiet (name : String) :
    Quiet (unsaid .solidity unguarded) <| together
      [nftState, nftTables, nftEvents, nftOwnerOf name, nftTokenUri, nftApprove name, nftApproveAll,
        nftTransferFrom name, nftBurn, nftDigits] := by
  apply quiet_of_shapes
  simp only [shapes, unsaid, unguarded, asks, entryPoints, declarations, guardItems, foreignMarkers,
    sdkImport, contractMarker, nftState, nftTables, nftEvents, nftOwnerOf, nftTokenUri, nftApprove,
    nftApproveAll, nftTransferFrom, nftBurn, nftDigits, demand, block, together, List.filter,
    Bool.not_false, List.map_cons, List.map_nil, List.flatten_cons, List.flatten_nil, List.cons_append,
    List.nil_append, Line.pieces, Piece.shape, String.toList_append]
  repeat rw [String.toList_ofList]
  decide

/-- The constructors speak of the list of recipients only when there is one. -/
theorem constructors_quiet (name symbol baseUri : String) (initialSupply : UInt64) (guards : Guards) :
    Quiet (unsaid .solidity ⟨false, guards.whitelist, false⟩) <| together
      [tokenConstructor name symbol initialSupply guards, nftConstructor name symbol baseUri guards] := by
  apply quiet_of_shapes
  simp only [tokenConstructor, nftConstructor]
  generalize decide (0 < initialSupply) = minted
  cases guards.whitelist <;> cases minted <;>
  · simp only [shapes, unsaid, asks, entryPoints, declarations, guardItems, foreignMarkers, sdkImport,
      contractMarker, block, together, only, List.filter, Bool.not_true, Bool.not_false, List.map_cons,
      List.map_nil, List.flatten_cons, List.flatten_nil, List.cons_append, List.nil_append, Line.pieces,
      Piece.shape, Bool.false_eq_true, if_true, if_false]
    repeat rw [String.toList_ofList]
    decide

/-- Minting speaks of the bound on the supply only when there is one. -/
theorem mints_quiet (name : String) (guards : Guards) :
    Quiet (unsaid .solidity ⟨false, false, guards.capped⟩) <|
      together [tokenMint name guards, nftMint name guards] := by
  apply quiet_of_shapes
  simp only [tokenMint, nftMint]
  cases guards.capped <;>
  · simp only [shapes, unsaid, asks, entryPoints, declarations, guardItems, foreignMarkers, sdkImport,
      contractMarker, demand, block, together, only, List.filter, Bool.not_true, Bool.not_false,
      List.map_cons, List.map_nil, List.flatten_cons, List.flatten_nil, List.cons_append, List.nil_append,
      Line.pieces, Piece.shape, String.toList_append, Bool.false_eq_true, if_true, if_false]
    repeat rw [String.toList_ofList]
    decide

/-- The hook speaks of pauses and of the list of recipients only when there are any. -/
theorem transferHook_quiet (name : String) (guards : Guards) :
    Quiet (unsaid .solidity ⟨guards.pausable, guards.whitelist, false⟩) (transferHook name guards) := by
  apply quiet_of_shapes
  rw [transferHook]
  cases guards.pausable <;> cases guards.whitelist <;>
  · simp only [shapes, unsaid, asks, entryPoints, declarations, guardItems, foreignMarkers, sdkImport,
      contractMarker, demand, block, together, only, Bool.or_true, Bool.or_false, List.filter,
      Bool.not_true, Bool.not_false, List.map_cons, List.map_nil, List.flatten_cons, List.flatten_nil,
      List.cons_append, List.nil_append, Line.pieces, Piece.shape, String.toList_append, Bool.false_eq_true,
      if_true, if_false]
    repeat rw [String.toList_ofList]
    decide

/-- A skeleton says only what its guards allow. -/
theorem skeleton_quiet (name symbol : String) (guards : Guards) (base : Base) :
    Quiet (unsaid .solidity guards) (skeleton name symbol guards base) := by
  have shared (decimals : UInt8) := quiet_together.mp ((tokenParts_quiet name decimals).guard guards)
  have constructors (baseUri : String) (initialSupply : UInt64) := quiet_together.mp <|
    (constructors_quiet name symbol baseUri initialSupply guards).widen guards
      fun blockType asked => by cases blockType <;> simp_all [asks]
  have mints := quiet_together.mp <| (mints_quiet name guards).widen guards
    fun blockType asked => by cases blockType <;> simp_all [asks]
  have hook := (transferHook_quiet name guards).widen guards
    fun blockType asked => by cases blockType <;> simp_all [asks]
  cases base with
  | token decimals initialSupply =>
    refine Quiet.joined (shared 0 _ (by simp)) ?_
    have parts := shared decimals
    have constructor := constructors "" initialSupply
    simp only [List.forall_mem_cons] at parts constructor mints ⊢
    simp [parts, constructor, mints, hook]
  | nft baseUri =>
    refine Quiet.joined (shared 0 _ (by simp)) ?_
    have parts := quiet_together.mp ((nftParts_quiet name).guard guards)
    have shared := shared 0
    have constructor := constructors baseUri 0
    simp only [List.forall_mem_cons] at parts shared constructor mints ⊢
    simp [parts, shared, constructor, mints, hook]

/-- A feature has its own landmarks once, and no others. -/
theorem part_survey (name : String) (isNft : Bool) (decimals : UInt8) (feature : Feature) :
    ∀ mark ∈ entryPoints .solidity ++ declarations .solidity,
      survey mark.2 (part name isNft decimals feature) = some (feature.blockType == mark.1).toNat := by
  apply surveys_of_shapes fun blockType => (feature.blockType == blockType).toNat
  rcases feature with _ | _ | _ | _ | _ | ⟨_ | _, _⟩ <;> cases isNft <;>
  · simp only [shapes, entryPoints, declarations, part, heading, Feature.blockType, BlockType.name,
      fragment, mintFragment, burnFragment, pausableFragment, cappedFragment, whitelistFragment,
      royaltyFragment, demand, block, together, List.map_cons, List.map_nil, List.flatten_cons,
      List.flatten_nil, List.cons_append, List.nil_append, Line.pieces, Piece.shape, String.toList_append,
      Bool.false_eq_true, if_true, if_false]
    repeat rw [String.toList_ofList]
    decide

/-- A feature speaks of no other feature's guard. -/
theorem part_quiet (name : String) (isNft : Bool) (decimals : UInt8) (feature : Feature) :
    Quiet (unsaidBy .solidity feature) (part name isNft decimals feature) := by
  apply quiet_of_shapes
  rcases feature with _ | _ | _ | _ | _ | ⟨_ | _, _⟩ <;> cases isNft <;>
  · simp only [shapes, unsaidBy, foreignMarkers, sdkImport, contractMarker, guardItems, List.filter,
      reduceCtorEq, ne_eq, not_true_eq_false, not_false_eq_true, decide_true, decide_false, part, heading,
      Feature.blockType, BlockType.name, fragment, mintFragment, burnFragment, pausableFragment,
      cappedFragment, whitelistFragment, royaltyFragment, demand, block, together, List.map_cons,
      List.map_nil, List.flatten_cons, List.flatten_nil, List.cons_append, List.nil_append, Line.pieces,
      Piece.shape, String.toList_append, Bool.false_eq_true, if_true, if_false]
    repeat rw [String.toList_ofList]
    decide

/-- What a skeleton does not say stands in a contract as often as in its features. -/
theorem lines_survey (plan : Plan) {text : String} (silent : text ∈ unsaid .solidity plan.guards)
    {holds : Feature → Bool}
    (each : ∀ feature ∈ plan.features,
      survey text (part plan.contractName plan.isNft plan.decimals feature) = some (holds feature).toNat) :
    survey text (lines plan) = some (plan.features.countP holds) := by
  have shared := quiet_together.mp ((tokenParts_quiet plan.contractName 0).guard plan.guards)
  have start := shared (preamble plan.contractName) (by simp) text silent
  have frame := shared (block ["contract ", .given plan.contractName] []) (by simp) text silent
  have inner := survey_add (skeleton_quiet plan.contractName plan.symbol plan.guards plan.base text silent)
    (survey_flatMap each)
  have total := survey_add start (survey_block frame inner)
  rwa [Nat.zero_add, Nat.zero_add, Nat.zero_add] at total

/-- The hook holds the name at most. -/
theorem mem_givenTexts_transferHook {text name : String} {guards : Guards}
    (mem : text ∈ givenTexts (transferHook name guards)) : text = name := by
  rw [transferHook] at mem
  split at mem <;>
    simp [demand, mem_givenTexts_nil, mem_givenTexts_cons, mem_givenTexts_block, mem_givenTexts_together,
      mem_givenTexts_only, Line.pieces, Piece.givenTexts] at mem
  tauto

/-- A skeleton holds the name, the symbol and what its base was given. -/
theorem mem_givenTexts_skeleton {text name symbol : String} {guards : Guards} {base : Base} :
    text ∈ givenTexts (skeleton name symbol guards base) ↔
      text = name ∨ text = symbol ∨ text ∈ base.userTexts := by
  have hook := @mem_givenTexts_transferHook text name guards
  cases base with
  | token decimals initialSupply =>
    simp [skeleton, tokenSkeleton, tokenState, tokenTables, tokenEvents, onlyOwner, tokenConstructor,
      tokenTransfer, tokenApprove, tokenTransferFrom, transferOwnership, tokenMove, tokenMint, tokenBurn,
      demand, mem_givenTexts_nil, mem_givenTexts_cons, mem_givenTexts_joined, mem_givenTexts_block,
      mem_givenTexts_together, mem_givenTexts_only, Line.pieces, Piece.givenTexts, Base.userTexts]
    tauto
  | nft baseUri =>
    simp [skeleton, nftSkeleton, nftState, nftTables, nftEvents, onlyOwner, nftConstructor, nftOwnerOf,
      nftTokenUri, nftApprove, nftApproveAll, nftTransferFrom, transferOwnership, nftMint, nftBurn,
      nftDigits, demand, mem_givenTexts_nil, mem_givenTexts_cons, mem_givenTexts_joined,
      mem_givenTexts_block, mem_givenTexts_together, mem_givenTexts_only, Line.pieces, Piece.givenTexts,
      Base.userTexts]
    tauto

/-- A feature holds the name at most, and what it was given. -/
theorem mem_givenTexts_part {text name : String} {isNft : Bool} {decimals : UInt8} {feature : Feature} :
    (text ∈ givenTexts (part name isNft decimals feature) → text = name ∨ text ∈ feature.userTexts) ∧
      (text ∈ feature.userTexts → text ∈ givenTexts (part name isNft decimals feature)) := by
  rcases feature with _ | _ | _ | _ | _ | ⟨_ | _, _⟩ <;> cases isNft <;>
    simp [part, heading, fragment, mintFragment, burnFragment, pausableFragment, cappedFragment,
      whitelistFragment, royaltyFragment, demand, mem_givenTexts_nil, mem_givenTexts_cons,
      mem_givenTexts_block, mem_givenTexts_together, Line.pieces, Piece.givenTexts, Feature.userTexts]
  all_goals exact Or.inr

/-- A contract holds the texts that its users gave, and no others. -/
theorem mem_givenTexts_lines {text : String} {plan : Plan} :
    text ∈ givenTexts (lines plan) ↔ text ∈ plan.userTexts := by
  have part := fun feature => @mem_givenTexts_part text plan.contractName plan.isNft plan.decimals feature
  rw [lines, preamble, givenTexts_append, List.mem_append, mem_givenTexts_block, givenTexts_append,
    List.mem_append, mem_givenTexts_skeleton, mem_givenTexts_flatMap, Plan.mem_userTexts]
  simp [mem_givenTexts_nil, mem_givenTexts_cons, Line.pieces, Piece.givenTexts]
  grind

/-- These lines hold the guard of a block type. -/
def guardLines (name : String) (isNft : Bool) (guards : Guards) : BlockType → List Line
  | .capped => if isNft then nftMint name guards else tokenMint name guards
  | _ => transferHook name guards

/-- A guard stands in its lines exactly when it is switched on. -/
theorem guardLines_survey (name : String) (isNft : Bool) (guards : Guards) :
    ∀ check ∈ guardChecks isNft .solidity,
      survey check.2 (guardLines name isNft guards check.1) = some (asks guards check.1).toNat := by
  simp only [guardChecks, List.forall_mem_cons, List.not_mem_nil, false_imp_iff, implies_true, and_true,
    guardLines, asks, survey]
  refine ⟨?_, ?_, ?_⟩
  · rw [transferHook]
    cases guards.pausable <;> cases guards.whitelist <;>
    · simp only [shapes, demand, block, together, only, Bool.or_true, Bool.or_false, List.map_cons,
        List.map_nil, List.flatten_cons, List.flatten_nil, List.cons_append, List.nil_append, Line.pieces,
        Piece.shape, String.toList_append, Bool.false_eq_true, if_true, if_false]
      repeat rw [String.toList_ofList]
      decide
  · rw [transferHook]
    cases guards.pausable <;> cases guards.whitelist <;>
    · simp only [shapes, demand, block, together, only, Bool.or_true, Bool.or_false, List.map_cons,
        List.map_nil, List.flatten_cons, List.flatten_nil, List.cons_append, List.nil_append, Line.pieces,
        Piece.shape, String.toList_append, Bool.false_eq_true, if_true, if_false]
      repeat rw [String.toList_ofList]
      decide
  · cases isNft <;> simp only [nftMint, tokenMint, Bool.false_eq_true, if_true, if_false] <;> cases guards.capped <;>
    · simp only [shapes, demand, block, together, only, List.map_cons, List.map_nil, List.flatten_cons,
        List.flatten_nil, List.cons_append, List.nil_append, Line.pieces, Piece.shape, String.toList_append,
        Bool.false_eq_true, if_true, if_false]
      repeat rw [String.toList_ofList]
      decide

/-- The lines of a guard hold the name at most. -/
theorem mem_givenTexts_guardLines {text name : String} {isNft : Bool} {guards : Guards}
    {blockType : BlockType} (mem : text ∈ givenTexts (guardLines name isNft guards blockType)) :
    text = name := by
  cases blockType with
  | capped =>
    cases isNft <;>
      simp [guardLines, nftMint, tokenMint, demand, mem_givenTexts_nil, mem_givenTexts_cons,
        mem_givenTexts_block, mem_givenTexts_together, mem_givenTexts_only, Line.pieces,
        Piece.givenTexts] at mem <;>
      tauto
  | _ => exact mem_givenTexts_transferHook mem

/-- The lines of every guard are part of a contract. -/
theorem infix_guardLines (plan : Plan) (blockType : BlockType) :
    guardLines plan.contractName plan.isNft plan.guards blockType <:+: lines plan := by
  have inSkeleton : guardLines plan.contractName plan.isNft plan.guards blockType <:+:
      skeleton plan.contractName plan.symbol plan.guards plan.base := by
    cases base : plan.base <;>
    · refine infix_joined ?_
      cases blockType <;> simp [guardLines, Plan.isNft, base]
  exact (infix_block (inSkeleton.trans (List.prefix_append ..).isInfix)).trans (List.suffix_append ..).isInfix

end ContractWorks.Source.Solidity
