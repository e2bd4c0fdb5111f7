import ContractWorks.Proofs.Source.Survey
import ContractWorks.Source.Soroban

namespace ContractWorks.Source.Soroban

/-- What both bases need in any case says nothing of features. -/
theorem sharedParts_quiet (name : String) :
    Quiet (unsaid .soroban unguarded) <| together
      [[.blank], preamble name, declaration name, exported name [], block ["impl ", .given name] [], admin,
        requireAdmin, getter "name" "Name", getter "symbol" "Symbol", getter "base_uri" "BaseUri"] := by
  apply quiet_of_shapes
  simp only [shapes, unsaid, unguarded, asks, entryPoints, declarations, guardItems, foreignMarkers,
    List.filter, Bool.not_false, preamble, declaration, exported, admin, requireAdmin, getter, block,
    together, List.map_cons, List.map_nil, List.flatten_cons, List.flatten_nil, List.cons_append,
    List.nil_append, Line.pieces, Piece.shape, String.toList_append]
  repeat rw [String.toList_ofList]
  decide

/-- What a token needs in any case says nothing of features. -/
theorem tokenParts_quiet :
    Quiet (unsaid .soroban unguarded) <| together
      [tokenKeys, tokenDecimals, tokenTotalSupply, tokenBalance, tokenAllowance, tokenApprove, tokenTransfer,
        tokenTransferFrom, tokenReadBalance, tokenWriteBalance, tokenMove, tokenBurn] := by
  apply quiet_of_shapes
  simp only [shapes, unsaid, unguarded, asks, entryPoints, declarations, guardItems, foreignMarkers,
    List.filter, Bool.not_false, tokenKeys, tokenDecimals, tokenTotalSupply, tokenBalance, tokenAllowance,
    tokenApprove, tokenTransfer, tokenTransferFrom, tokenReadBalance, tokenWriteBalance, tokenMove,
    tokenBurn, stored, refuse, stop, block, together, List.map_cons, List.map_nil, List.flatten_cons,
    List.flatten_nil, List.cons_append, List.nil_append, Line.pieces, Piece.shape, String.toList_append]
  repeat rw [String.toList_ofList]
  decide

/-- What a collection needs in any case says nothing of features. -/
theorem nftParts_quiet :
    Quiet (unsaid .soroban unguarded) <| together
      [nftKeys, nftTotalSupply, nftOwnerOf, nftBalance, nftApproved, nftApprove, nftTransfer, nftTransferFrom,
        nftReadBalance, nftWriteBalance, nftMove, nftBurn] := by
  apply quiet_of_shapes
  simp only [shapes, unsaid, unguarded, asks, entryPoints, declarations, guardItems, foreignMarkers,
    List.filter, Bool.not_false, nftKeys, nftTotalSupply, nftOwnerOf, nftBalance, nftApproved, nftApprove,
    nftTransfer, nftTransferFrom, nftReadBalance, nftWriteBalance, nftMove, nftBurn, stored, refuse, stop,
    block, together, List.map_cons, List.map_nil, List.flatten_cons, List.flatten_nil, List.cons_append,
    List.nil_append, Line.pieces, Piece.shape, String.toList_append]
  repeat rw [String.toList_ofList]
  decide

/-- The setup speaks of the list of recipients only when there is one. -/
theorem setups_quiet (name symbol baseUri : String) (decimals : UInt8) (initialSupply : UInt64)
    (guards : Guards) :
    Quiet (unsaid .soroban ⟨false, guards.whitelist, false⟩) <| together
      [tokenSetup name symbol decimals initialSupply guards, nftSetup name symbol baseUri guards] := by
  apply quiet_of_shapes
  simp only [tokenSetup, nftSetup]
  generalize decide (0 < initialSupply) = minted
  cases guards.whitelist <;> cases minted <;>
  · simp only [shapes, unsaid, asks, entryPoints, declarations, guardItems, foreignMarkers, List.filter,
      Bool.not_true, Bool.not_false, refuse, stop, block, together, only, List.map_cons, List.map_nil,
      List.flatten_cons, List.flatten_nil, List.cons_append, List.nil_append, Line.pieces, Piece.shape,
      String.toList_append, Bool.false_eq_true, if_true, if_false]
    repeat rw [String.toList_ofList]
    decide

/-- Minting speaks of the bound on the supply only when there is one. -/
theorem mints_quiet (guards : Guards) :
    Quiet (unsaid .soroban ⟨false, false, guards.capped⟩) <| together [tokenMint guards, nftMint guards] := by
  apply quiet_of_shapes
  simp only [tokenMint, nftMint]
  cases guards.capped <;>
  · simp only [shapes, unsaid, asks, entryPoints, declarations, guardItems, foreignMarkers, List.filter,
      Bool.not_true, Bool.not_false, refuse, stop, block, together, only, List.map_cons, List.map_nil,
      List.flatten_cons, List.flatten_nil, List.cons_append, List.nil_append, Line.pieces, Piece.shape,
      String.toList_append, Bool.false_eq_true, if_true, if_false]
    repeat rw [String.toList_ofList]
    decide

/-- The hook speaks of pauses and of the list of recipients only when there are any. -/
theorem beforeTransfer_quiet (guards : Guards) :
    Quiet (unsaid .soroban ⟨guards.pausable, guards.whitelist, false⟩) (beforeTransfer guards) := by
  apply quiet_of_shapes
  rw [beforeTransfer]
  cases guards.pausable <;> cases guards.whitelist <;>
  · simp only [shapes, unsaid, asks, entryPoints, declarations, guardItems, foreignMarkers, List.filter,
      Bool.not_true, Bool.not_false, pausedCheck, whitelistCheck, refuse, stop, block, together, only,
      Bool.or_true, Bool.or_false, List.map_cons, List.map_nil, List.flatten_cons, List.flatten_nil,
      List.cons_append, List.nil_append, Line.pieces, Piece.shape, String.toList_append, Bool.false_eq_true,
      if_true, if_false]
    repeat rw [String.toList_ofList]
    decide

/-- A skeleton says only what its guards allow. -/
theorem skeleton_quiet (name symbol : String) (guards : Guards) (base : Base) :
    Quiet (unsaid .soroban guards) (skeleton name symbol guards base) := by
  have shared := quiet_together.mp ((sharedParts_quiet name).guard guards)
  have setups (baseUri : String) (decimals : UInt8) (initialSupply : UInt64) := quiet_together.mp <|
    (setups_quiet name symbol baseUri decimals initialSupply guards).widen guards
      fun blockType asked => by cases blockType <;> simp_all [asks]
  have mints := quiet_together.mp <| (mints_quiet guards).widen guards
    fun blockType asked => by cases blockType <;> simp_all [asks]
  have hook := (beforeTransfer_quiet guards).widen guards
    fun blockType asked => by cases blockType <;> simp_all [asks]
  have blank := shared [.blank] (by simp)
  have inBlock {functions : List Line} (quiet : Quiet (unsaid .soroban guards) functions) :
      Quiet (unsaid .soroban guards) (block ["impl ", .given name] functions) :=
    Quiet.block (shared (block ["impl ", .given name] []) (by simp)) quiet
  have inExport {functions : List Line} (quiet : Quiet (unsaid .soroban guards) functions) :
      Quiet (unsaid .soroban guards) (exported name functions) :=
    quiet_cons.mpr ⟨(quiet_cons.mp (shared (exported name []) (by simp))).1, inBlock quiet⟩
  cases base with
  | token decimals initialSupply =>
    have parts := quiet_together.mp (tokenParts_quiet.guard guards)
    have setup := setups "" decimals initialSupply
    simp only [List.forall_mem_cons] at parts shared setup mints
    have interface : Quiet (unsaid .soroban guards)
        (tokenInterface name symbol decimals initialSupply guards) := by
      refine Quiet.joined blank ?_
      simp [parts, shared, setup]
    have internals : Quiet (unsaid .soroban guards) (tokenInternals guards) := by
      refine Quiet.joined blank ?_
      simp [parts, shared, mints, hook]
    refine Quiet.joined blank ?_
    simp [parts, shared, inExport interface, inBlock internals]
  | nft baseUri =>
    have parts := quiet_together.mp (nftParts_quiet.guard guards)
    have setup := setups baseUri 0 0
    simp only [List.forall_mem_cons] at parts shared setup mints
    have interface : Quiet (unsaid .soroban guards) (nftInterface name symbol baseUri guards) := by
      refine Quiet.joined blank ?_
      simp [parts, shared, setup]
    have internals : Quiet (unsaid .soroban guards) (nftInternals guards) := by
      refine Quiet.joined blank ?_
      simp [parts, shared, mints, hook]
    refine Quiet.joined blank ?_
    simp [parts, shared, inExport interface, inBlock internals]

/-- A feature has its own landmarks once, and no others. -/
theorem part_survey (name : String) (isNft : Bool) (decimals : UInt8) (feature : Feature) :
    ∀ mark ∈ entryPoints .soroban ++ declarations .soroban,
      survey mark.2 (part name isNft decimals feature) = some (feature.blockType == mark.1).toNat := by
  apply surveys_of_shapes fun blockType => (feature.blockType == blockType).toNat
  rcases feature with _ | _ | _ | _ | _ | ⟨_ | _, _⟩ <;> cases isNft <;>
  · simp only [shapes, entryPoints, declarations, part, heading, Feature.blockType, BlockType.name,
      fragment, mintFragment, burnFragment, pausableFragment, cappedFragment, whitelistFragment,
      royaltyFragment, defaultReceiver, exported, stored, refuse, stop, block, together, List.map_cons,
      List.map_nil, List.flatten_cons, List.flatten_nil, List.cons_append, List.nil_append, Line.pieces,
      Piece.shape, String.toList_append, Bool.false_eq_true, if_true, if_false]
    repeat rw [String.toList_ofList]
    decide

/-- A feature speaks of no other feature's guard. -/
theorem part_quiet (name : String) (isNft : Bool) (decimals : UInt8) (feature : Feature) :
    Quiet (unsaidBy .soroban feature) (part name isNft decimals feature) := by
  apply quiet_of_shapes
  rcases feature with _ | _ | _ | _ | _ | ⟨_ | _, _⟩ <;> cases isNft <;>
  · simp only [shapes, unsaidBy, foreignMarkers, guardItems, List.filter, reduceCtorEq, ne_eq,
      not_true_eq_false, not_false_eq_true, decide_true, decide_false, part, heading, Feature.blockType,
      BlockType.name, fragment, mintFragment, burnFragment, pausableFragment, cappedFragment,
      whitelistFragment, royaltyFragment, defaultReceiver, exported, stored, refuse, stop, block, together,
      List.map_cons, List.map_nil, List.flatten_cons, List.flatten_nil, List.cons_append, List.nil_append,
      Line.pieces, Piece.shape, String.toList_append, Bool.false_eq_true, if_true, if_false]
    repeat rw [String.toList_ofList]
    decide

/-- What a skeleton does not say stands in a contract as often as in its features. -/
theorem lines_survey (plan : Plan) {text : String} (silent : text ∈ unsaid .soroban plan.guards)
    {holds : Feature → Bool}
    (each : ∀ feature ∈ plan.features,
      survey text (part plan.contractName plan.isNft plan.decimals feature) = some (holds feature).toNat) :
    survey text (lines plan) = some (plan.features.countP holds) := by
  have shared := quiet_together.mp ((sharedParts_quiet plan.contractName).guard plan.guards)
  have start := shared (preamble plan.contractName) (by simp) text silent
  have base := skeleton_quiet plan.contractName plan.symbol plan.guards plan.base text silent
  have total := survey_add (survey_add start base) (survey_flatMap each)
  rwa [Nat.zero_add] at total

/-- The hook holds no text of a user. -/
theorem not_mem_givenTexts_beforeTransfer {text : String} {guards : Guards} :
    text ∉ givenTexts (beforeTransfer guards) := by
  rw [beforeTransfer]
  split <;>
    simp [pausedCheck, whitelistCheck, refuse, stop, mem_givenTexts_nil, mem_givenTexts_cons,
      mem_givenTexts_block, mem_givenTexts_together, mem_givenTexts_only, Line.pieces, Piece.givenTexts]

theorem mem_givenTexts_exported {text name : String} {functions : List Line} :
    text ∈ givenTexts (exported name functions) ↔ text = name ∨ text ∈ givenTexts functions := by
  simp [exported, mem_givenTexts_cons, mem_givenTexts_block, Line.pieces, Piece.givenTexts]

/-- A skeleton holds the name, the symbol and what its base was given. -/
theorem mem_givenTexts_skeleton {text name symbol : String} {guards : Guards} {base : Base} :
    text ∈ givenTexts (skeleton name symbol guards base) ↔
      text = name ∨ text = symbol ∨ text ∈ base.userTexts := by
  have hook := @not_mem_givenTexts_beforeTransfer text guards
  cases base with
  | token decimals initialSupply =>
    simp [skeleton, tokenSkeleton, tokenKeys, declaration, tokenInterface, tokenSetup, getter, tokenDecimals,
      tokenTotalSupply, tokenBalance, tokenAllowance, tokenApprove, tokenTransfer, tokenTransferFrom, admin,
      tokenInternals, requireAdmin, tokenReadBalance, tokenWriteBalance, tokenMove, tokenMint, tokenBurn,
      stored, refuse, stop, hook, mem_givenTexts_exported, mem_givenTexts_nil, mem_givenTexts_cons,
      mem_givenTexts_joined, mem_givenTexts_block, mem_givenTexts_together, mem_givenTexts_only, Line.pieces,
      Piece.givenTexts, Base.userTexts]
    tauto
  | nft baseUri =>
    simp [skeleton, nftSkeleton, nftKeys, declaration, nftInterface, nftSetup, getter, nftTotalSupply,
      nftOwnerOf, nftBalance, nftApproved, nftApprove, nftTransfer, nftTransferFrom, admin, nftInternals,
      requireAdmin, nftReadBalance, nftWriteBalance, nftMove, nftMint, nftBurn, stored, refuse, stop, hook,
      mem_givenTexts_exported, mem_givenTexts_nil, mem_givenTexts_cons, mem_givenTexts_joined,
      mem_givenTexts_block, mem_givenTexts_together, mem_givenTexts_only, Line.pieces, Piece.givenTexts,
      Base.userTexts]
    tauto

/-- A feature holds the name at most, and what it was given. -/
theorem mem_givenTexts_part {text name : String} {isNft : Bool} {decimals : UInt8} {feature : Feature} :
    (text ∈ givenTexts (part name isNft decimals feature) → text = name ∨ text ∈ feature.userTexts) ∧
      (text ∈ feature.userTexts → text ∈ givenTexts (part name isNft decimals feature)) := by
  rcases feature with _ | _ | _ | _ | _ | ⟨_ | _, _⟩ <;> cases isNft <;>
    simp [part, heading, fragment, mintFragment, burnFragment, pausableFragment, cappedFragment,
      whitelistFragment, royaltyFragment, defaultReceiver, stored, refuse, stop, mem_givenTexts_exported,
      mem_givenTexts_nil, mem_givenTexts_cons, mem_givenTexts_block, mem_givenTexts_together, Line.pieces,
      Piece.givenTexts, Feature.userTexts]
  all_goals exact Or.inr

/-- A contract holds the texts that its users gave, and no others. -/
theorem mem_givenTexts_lines {text : String} {plan : Plan} :
    text ∈ givenTexts (lines plan) ↔ text ∈ plan.userTexts := by
  have part := fun feature => @mem_givenTexts_part text plan.contractName plan.isNft plan.decimals feature
  rw [lines, preamble, givenTexts_append, givenTexts_append, List.mem_append, List.mem_append,
    mem_givenTexts_skeleton, mem_givenTexts_flatMap, Plan.mem_userTexts]
  simp [mem_givenTexts_nil, mem_givenTexts_cons, Line.pieces, Piece.givenTexts]
  grind

/-- These lines hold the guard of a block type. -/
def guardLines (isNft : Bool) (guards : Guards) : BlockType → List Line
  | .capped => if isNft then nftMint guards else tokenMint guards
  | _ => beforeTransfer guards

/-- A guard stands in its lines exactly when it is switched on. -/
theorem guardLines_survey (isNft : Bool) (guards : Guards) :
    ∀ check ∈ guardChecks isNft .soroban,
      survey check.2 (guardLines isNft guards check.1) = some (asks guards check.1).toNat := by
  simp only [guardChecks, List.forall_mem_cons, List.not_mem_nil, false_imp_iff, implies_true, and_true,
    guardLines, asks, survey]
  refine ⟨?_, ?_, ?_⟩
  · rw [beforeTransfer]
    cases guards.pausable <;> cases guards.whitelist <;>
    · simp only [shapes, pausedCheck, whitelistCheck, refuse, stop, block, together, only, Bool.or_true,
        Bool.or_false, List.map_cons, List.map_nil, List.flatten_cons, List.flatten_nil, List.cons_append,
        List.nil_append, Line.pieces, Piece.shape, String.toList_append, Bool.false_eq_true, if_true,
        if_false]
      repeat rw [String.toList_ofList]
      decide
  · rw [beforeTransfer]
    cases guards.pausable <;> cases guards.whitelist <;>
    · simp only [shapes, pausedCheck, whitelistCheck, refuse, stop, block, together, only, Bool.or_true,
        Bool.or_false, List.map_cons, List.map_nil, List.flatten_cons, List.flatten_nil, List.cons_append,
        List.nil_append, Line.pieces, Piece.shape, String.toList_append, Bool.false_eq_true, if_true,
        if_false]
      repeat rw [String.toList_ofList]
      decide
  · cases isNft <;> simp only [nftMint, tokenMint, Bool.false_eq_true, if_true, if_false] <;> cases guards.capped <;>
    · simp only [shapes, refuse, stop, block, together, only, List.map_cons, List.map_nil,
        List.flatten_cons, List.flatten_nil, List.cons_append, List.nil_append, Line.pieces, Piece.shape,
        String.toList_append, Bool.false_eq_true, if_true, if_false]
      repeat rw [String.toList_ofList]
      decide

/-- The lines of a guard hold no text of a user. -/
theorem not_mem_givenTexts_guardLines {text : String} {isNft : Bool} {guards : Guards}
    {blockType : BlockType} : text ∉ givenTexts (guardLines isNft guards blockType) := by
  cases blockType with
  | capped =>
    cases isNft <;>
      simp [guardLines, nftMint, tokenMint, refuse, stop, mem_givenTexts_nil, mem_givenTexts_cons,
        mem_givenTexts_block, mem_givenTexts_together, mem_givenTexts_only, Line.pieces, Piece.givenTexts]
  | _ => exact not_mem_givenTexts_beforeTransfer

/-- The lines of every guard are part of a contract. -/
theorem infix_guardLines (plan : Plan) (blockType : BlockType) :
    guardLines plan.isNft plan.guards blockType <:+: lines plan := by
  have inSkeleton : guardLines plan.isNft plan.guards blockType <:+:
      skeleton plan.contractName plan.symbol plan.guards plan.base := by
    cases base : plan.base with
    | token decimals initialSupply =>
      have internal : guardLines plan.isNft plan.guards blockType <:+: tokenInternals plan.guards := by
        refine infix_joined ?_
        cases blockType <;> simp [guardLines, Plan.isNft, base]
      exact (infix_block internal).trans (infix_joined (.tail _ (.tail _ (.tail _ (.head _)))))
    | nft baseUri =>
      have internal : guardLines plan.isNft plan.guards blockType <:+: nftInternals plan.guards := by
        refine infix_joined ?_
        cases blockType <;> simp [guardLines, Plan.isNft, base]
      exact (infix_block internal).trans (infix_joined (.tail _ (.tail _ (.tail _ (.head _)))))
  exact (inSkeleton.trans (List.suffix_append ..).isInfix).trans (List.prefix_append ..).isInfix

end ContractWorks.Source.Soroban
