import ContractWorks.Proofs.Source.Count
import ContractWorks.Proofs.Text.Nesting

namespace ContractWorks.Source

open Text

/-- This function gives the characters that the program itself wrote in a piece. -/
def Piece.fixedChars : Piece → List Char
  | .fixed text => text.toList
  | .number _ => []
  | .given _ => []

/-- This function gives the characters that the program itself wrote in some pieces. -/
def frame (pieces : List Piece) : List Char :=
  pieces.flatMap Piece.fixedChars

/-- This test asks for a line after which the lines are indented further. -/
def Line.isOpening : Line → Bool
  | .opening _ => true
  | _ => false

/-- This test asks for a line that ends what an opening line began. -/
def Line.isClosing : Line → Bool
  | .closing => true
  | _ => false

/-- This test holds of lines that may follow at a depth: every line is nested in itself, and every opening line, those
above included, has its own closing line. -/
def laidFrom : Nat → List Line → Bool
  | depth, [] => depth = 0
  | depth, .text pieces :: lines => Nested (frame pieces) && laidFrom depth lines
  | depth, .blank :: lines => laidFrom depth lines
  | depth, .opening pieces :: lines => Nested (frame pieces) && laidFrom (depth + 1) lines
  | 0, .closing :: _ => false
  | depth + 1, .closing :: lines => laidFrom depth lines

/-- Lines are laid out when they may stand on their own. -/
def Laid (lines : List Line) : Prop :=
  laidFrom 0 lines = true

section Layout

variable {front back body lines : List Line} {header : List Piece}

/-- What is laid out below some opening lines closes just these. -/
theorem laidFrom_append {inner : Nat} (laid : laidFrom inner front = true) (depth : Nat) (back : List Line) :
    laidFrom (inner + depth) (front ++ back) = laidFrom depth back := by
  induction front generalizing inner with
  | nil =>
    obtain rfl : inner = 0 := of_decide_eq_true laid
    rw [Nat.zero_add, List.nil_append]
  | cons line front inductionHypothesis =>
    cases line with
    | text pieces =>
      obtain ⟨nested, rest⟩ := Bool.and_eq_true_iff.mp laid
      rw [List.cons_append, laidFrom, nested, Bool.true_and, inductionHypothesis rest]
    | blank => exact inductionHypothesis laid
    | opening pieces =>
      obtain ⟨nested, rest⟩ := Bool.and_eq_true_iff.mp laid
      rw [List.cons_append, laidFrom, nested, Bool.true_and, ← inductionHypothesis rest, Nat.add_right_comm]
    | closing =>
      cases inner with
      | zero => cases laid
      | succ inner =>
        rw [Nat.add_right_comm]
        exact inductionHypothesis laid

theorem laid_nil : Laid [] :=
  rfl

theorem Laid.append (first : Laid front) (second : Laid back) : Laid (front ++ back) :=
  (laidFrom_append first 0 back).trans second

theorem Laid.block (nested : Nested (frame header)) (inside : Laid body) : Laid (block header body) := by
  rw [Laid, Source.block, laidFrom, decide_eq_true nested, Bool.true_and]
  exact (laidFrom_append inside 1 [.closing]).trans rfl

theorem Laid.blank (laid : Laid lines) : Laid (.blank :: lines) :=
  laid

theorem laid_flatMap {α : Type} {items : List α} {part : α → List Line} (each : ∀ item ∈ items, Laid (part item)) :
    Laid (items.flatMap part) := by
  induction items with
  | nil => exact laid_nil
  | cons item items inductionHypothesis =>
    obtain ⟨first, others⟩ := List.forall_mem_cons.mp each
    exact first.append (inductionHypothesis others)

theorem laid_joined {parts : List (List Line)} (each : ∀ part ∈ parts, Laid part) : Laid (joined parts) := by
  induction parts using joined.induct with
  | case1 => exact laid_nil
  | case2 part => exact each part List.mem_cons_self
  | case3 part parts more inductionHypothesis =>
    obtain ⟨first, others⟩ := List.forall_mem_cons.mp each
    rw [joined]
    · exact first.append (inductionHypothesis others).blank
    · exact more

end Layout

section Printing

/-- A text is plain when it has no brackets. -/
def Plain (text : String) : Prop :=
  ∀ character ∈ text.toList, isBracket character = false

instance (text : String) : Decidable (Plain text) :=
  List.decidableBAll (fun character => isBracket character = false) text.toList

variable {pieces : List Piece} {lines : List Line}

/-- Where users write no brackets, only the program does. -/
theorem brackets_pieces (plain : ∀ text ∈ pieces.flatMap Piece.givenTexts, Plain text) :
    (pieces.flatMap Piece.chars).filter isBracket = (frame pieces).filter isBracket := by
  rw [frame, List.filter_flatMap, List.filter_flatMap]
  refine List.flatMap_congr fun piece present => ?_
  cases piece with
  | fixed text => rfl
  | number value =>
    refine List.filter_eq_nil_iff.mpr fun character digit => ?_
    rw [isBracket_of_isDigit (Nat.isDigit_of_mem_toDigits (by decide) (by decide) digit)]
    decide
  | given text =>
    refine List.filter_eq_nil_iff.mpr fun character inside => ?_
    rw [plain text (List.mem_flatMap.mpr ⟨_, present, List.mem_singleton_self text⟩) character inside]
    decide

theorem nested_pieces (plain : ∀ text ∈ pieces.flatMap Piece.givenTexts, Plain text) (nested : Nested (frame pieces)) :
    Nested (pieces.flatMap Piece.chars) := by
  rwa [← nested_filter, brackets_pieces plain, nested_filter]

theorem nested_indentation (depth : Nat) : Nested (indentation depth) :=
  nested_of_plain fun character member => by rw [List.eq_of_mem_replicate member]; decide

/-- A line that is written is read like its characters. -/
theorem awaitedAfter_written (depth : Nat) (awaited characters : List Char) :
    awaitedAfter awaited (written depth characters) = awaitedAfter awaited characters := by
  have ended (left : List Char) : awaitedAfter left ['\n'] = some left := rfl
  rw [written]
  split
  · next nothing => rw [nothing]; rfl
  · simp only [awaitedAfter_append, (nested_indentation depth).awaitedAfter, Option.bind_some, ended,
      Option.bind_fun_some]

/-- Lines that are laid out below some braces close just these, at whatever depth they are written. -/
theorem awaitedAfter_printFrom (plain : ∀ text ∈ givenTexts lines, Plain text) {braces : Nat}
    (laid : laidFrom braces lines = true) (depth : Nat) :
    awaitedAfter (List.replicate braces '\x7d') (printFrom depth lines) = some [] := by
  induction lines generalizing braces depth with
  | nil =>
    obtain rfl : braces = 0 := of_decide_eq_true laid
    rfl
  | cons line lines inductionHypothesis =>
    have others : ∀ text ∈ givenTexts lines, Plain text := fun text member =>
      plain text (mem_givenTexts_cons.mpr (.inr member))
    have own : ∀ text ∈ line.pieces.flatMap Piece.givenTexts, Plain text := fun text member =>
      plain text (mem_givenTexts_cons.mpr (.inl member))
    rw [printFrom, awaitedAfter_append]
    cases line with
    | text pieces =>
      obtain ⟨nested, rest⟩ := Bool.and_eq_true_iff.mp laid
      have inside := nested_pieces (fun text member => own text (by simp [Line.pieces, member]))
        (of_decide_eq_true nested)
      rw [Line.print, awaitedAfter_written, inside.awaitedAfter, Option.bind_some]
      exact inductionHypothesis others rest _
    | blank => exact inductionHypothesis others laid _
    | opening pieces =>
      obtain ⟨nested, rest⟩ := Bool.and_eq_true_iff.mp laid
      have inside := nested_pieces (fun text member => own text (by simp [Line.pieces, member]))
        (of_decide_eq_true nested)
      rw [Line.print, awaitedAfter_written, awaitedAfter_append, inside.awaitedAfter]
      exact inductionHypothesis others rest _
    | closing =>
      cases braces with
      | zero => cases laid
      | succ braces =>
        rw [Line.print, awaitedAfter_written]
        exact inductionHypothesis others laid _

/-- Lines that are laid out are nested as they are written, if their users write no brackets. -/
theorem Laid.nested (laid : Laid lines) (plain : ∀ text ∈ givenTexts lines, Plain text) :
    Nested (print lines).toList := by
  rw [nested_iff, print, String.toList_ofList]
  exact awaitedAfter_printFrom plain laid 0

end Printing

/-- This function gives the depth that is reached when some lines have been written. -/
def depthBehind (lines : List Line) : Nat :=
  lines.foldl Line.depthAfter 0

/-- What follows some lines is written at the depth behind them. -/
theorem printFrom_behind (front back : List Line) :
    printFrom 0 (front ++ back) = printFrom 0 front ++ printFrom (depthBehind front) back :=
  printFrom_append 0 front back

/-- The depth of lines is kept when it is everywhere the number of opening lines that are not closed yet, when no line
closes at the outermost level, and when all is closed at the end. -/
structure Levelled (lines : List Line) : Prop where
  counted : ∀ front, front <+: lines →
    depthBehind front + front.countP Line.isClosing = front.countP Line.isOpening
  inside : ∀ front back, lines = front ++ .closing :: back → 0 < depthBehind front
  finished : depthBehind lines = 0

section Levels

variable {line : Line} {lines : List Line} {depth : Nat}

/-- A line leads to the depth where the next lines are laid out, and closes nothing at the outermost level. -/
theorem laidFrom_step (laid : laidFrom depth (line :: lines) = true) :
    laidFrom (line.depthAfter depth) lines = true ∧
      line.depthAfter depth + (if line.isClosing then 1 else 0) = depth + (if line.isOpening then 1 else 0) := by
  cases line with
  | text pieces => exact ⟨(Bool.and_eq_true_iff.mp laid).2, rfl⟩
  | blank => exact ⟨laid, rfl⟩
  | opening pieces => exact ⟨(Bool.and_eq_true_iff.mp laid).2, rfl⟩
  | closing =>
    cases depth with
    | zero => cases laid
    | succ depth => exact ⟨laid, rfl⟩

/-- Within lines that are laid out the depth changes by what is opened and closed. -/
theorem laidFrom_front {front back : List Line} (laid : laidFrom depth (front ++ back) = true) :
    laidFrom (front.foldl Line.depthAfter depth) back = true ∧
      front.foldl Line.depthAfter depth + front.countP Line.isClosing = depth + front.countP Line.isOpening := by
  induction front generalizing depth with
  | nil => exact ⟨laid, rfl⟩
  | cons line front inductionHypothesis =>
    obtain ⟨laid, here⟩ := laidFrom_step laid
    obtain ⟨rest, counts⟩ := inductionHypothesis laid
    refine ⟨rest, ?_⟩
    rw [List.foldl_cons, List.countP_cons, List.countP_cons]
    omega

theorem Laid.levelled (laid : Laid lines) : Levelled lines where
  counted := by
    rintro front ⟨back, rfl⟩
    rw [depthBehind, (laidFrom_front laid).2, Nat.zero_add]
  inside := by
    rintro front back rfl
    have closing := (laidFrom_front laid).1
    refine Nat.pos_of_ne_zero fun outermost => ?_
    rw [← depthBehind, outermost] at closing
    cases closing
  finished := by
    have whole : laidFrom 0 (lines ++ []) = true := by rwa [List.append_nil]
    exact of_decide_eq_true (laidFrom_front whole).1

end Levels

namespace Solidity

/-- The parts of a contract that depend on no guard are laid out. -/
theorem parts_laid (name : String) (decimals : UInt8) :
    ∀ part ∈ [preamble name, onlyOwner name, transferOwnership name, tokenState decimals, tokenTables, tokenEvents,
      tokenTransfer, tokenApprove, tokenTransferFrom name, tokenMove name, tokenBurn name, nftState, nftTables,
      nftEvents, nftOwnerOf name, nftTokenUri, nftApprove name, nftApproveAll, nftTransferFrom name, nftBurn,
      nftDigits],
      Laid part := by
  simp only [List.forall_mem_cons, List.not_mem_nil, false_imp_iff, implies_true, and_true, Laid, laidFrom, frame,
    Piece.fixedChars, preamble, onlyOwner, transferOwnership, tokenState, tokenTables, tokenEvents, tokenTransfer,
    tokenApprove, tokenTransferFrom, tokenMove, tokenBurn, nftState, nftTables, nftEvents, nftOwnerOf, nftTokenUri,
    nftApprove, nftApproveAll, nftTransferFrom, nftBurn, nftDigits, demand, block, together, List.flatten_cons,
    List.flatten_nil, List.cons_append, List.nil_append, List.flatMap_cons, List.flatMap_nil, List.append_nil,
    String.toList_append]
  repeat rw [String.toList_ofList]
  decide

/-- The parts of a contract that depend on guards are laid out, whichever are switched on. -/
theorem guardedParts_laid (name symbol baseUri : String) (initialSupply : UInt64) (guards : Guards) :
    ∀ part ∈ [tokenConstructor name symbol initialSupply guards, nftConstructor name symbol baseUri guards,
      tokenMint name guards, nftMint name guards, transferHook name guards], Laid part := by
  simp only [tokenConstructor, nftConstructor, tokenMint, nftMint, transferHook]
  generalize decide (0 < initialSupply) = minted
  obtain ⟨pausable, whitelist, capped⟩ := guards
  cases pausable <;> cases whitelist <;> cases capped <;> cases minted <;>
  · simp only [List.forall_mem_cons, List.not_mem_nil, false_imp_iff, implies_true, and_true, Laid, laidFrom, frame,
      Piece.fixedChars, demand, block, together, only, Bool.or_true, Bool.or_false, List.flatten_cons, List.flatten_nil,
      List.cons_append, List.nil_append, List.flatMap_cons, List.flatMap_nil, List.append_nil, String.toList_append,
      Bool.false_eq_true, if_true, if_false]
    repeat rw [String.toList_ofList]
    decide

/-- A feature is laid out. -/
theorem part_laid (name : String) (isNft : Bool) (decimals : UInt8) (feature : Feature) :
    Laid (part name isNft decimals feature) := by
  rcases feature with _ | _ | _ | _ | _ | ⟨_ | _, _⟩ <;> cases isNft <;>
  · simp only [Laid, laidFrom, frame, Piece.fixedChars, part, heading, Feature.blockType, BlockType.name, fragment,
      mintFragment, burnFragment, pausableFragment, cappedFragment, whitelistFragment, royaltyFragment, demand, block,
      together, List.flatten_cons, List.flatten_nil, List.cons_append, List.nil_append, List.flatMap_cons,
      List.flatMap_nil, List.append_nil, String.toList_append, Bool.false_eq_true, if_true, if_false]
    repeat rw [String.toList_ofList]
    decide

/-- A skeleton is laid out. -/
theorem skeleton_laid (name symbol : String) (guards : Guards) (base : Base) :
    Laid (skeleton name symbol guards base) := by
  have parts := parts_laid name
  have guarded := guardedParts_laid name symbol
  simp only [List.forall_mem_cons] at parts guarded
  cases base with
  | token decimals initialSupply =>
    refine laid_joined ?_
    simp [parts decimals, guarded "" initialSupply guards]
  | nft baseUri =>
    refine laid_joined ?_
    simp [parts 0, guarded baseUri 0 guards]

/-- A contract is laid out. -/
theorem lines_laid (plan : Plan) : Laid (lines plan) := by
  have start := parts_laid plan.contractName 0 _ List.mem_cons_self
  have features : Laid (plan.features.flatMap (part plan.contractName plan.isNft plan.decimals)) :=
    laid_flatMap fun feature _ => part_laid _ _ _ feature
  have header : Nested (frame ["contract ", .given plan.contractName]) := by
    simp only [frame, List.flatMap_cons, Piece.fixedChars]
    rw [String.toList_ofList]
    decide
  exact start.append (.block header ((skeleton_laid ..).append features))

end Solidity

namespace Soroban

/-- The parts of a contract that depend on no guard are laid out. -/
theorem parts_laid (name : String) :
    ∀ part ∈ [preamble name, declaration name, requireAdmin, getter "name" "Name", getter "symbol" "Symbol",
      getter "base_uri" "BaseUri", admin, tokenKeys, tokenDecimals, tokenTotalSupply, tokenBalance, tokenAllowance,
      tokenApprove, tokenTransfer, tokenTransferFrom, tokenReadBalance, tokenWriteBalance, tokenMove, tokenBurn,
      nftKeys, nftTotalSupply, nftOwnerOf, nftBalance, nftApproved, nftApprove, nftTransfer, nftTransferFrom,
      nftReadBalance, nftWriteBalance, nftMove, nftBurn], Laid part := by
  simp only [List.forall_mem_cons, List.not_mem_nil, false_imp_iff, implies_true, and_true, Laid, laidFrom, frame,
    Piece.fixedChars, preamble, declaration, requireAdmin, getter, admin, tokenKeys, tokenDecimals, tokenTotalSupply,
    tokenBalance, tokenAllowance, tokenApprove, tokenTransfer, tokenTransferFrom, tokenReadBalance, tokenWriteBalance,
    tokenMove, tokenBurn, nftKeys, nftTotalSupply, nftOwnerOf, nftBalance, nftApproved, nftApprove, nftTransfer,
    nftTransferFrom, nftReadBalance, nftWriteBalance, nftMove, nftBurn, stored, refuse, stop, block, together,
    List.flatten_cons, List.flatten_nil, List.cons_append, List.nil_append, List.flatMap_cons, List.flatMap_nil,
    List.append_nil, String.toList_append]
  repeat rw [String.toList_ofList]
  decide

/-- The parts of a contract that depend on guards are laid out, whichever are switched on. -/
theorem guardedParts_laid (name symbol baseUri : String) (decimals : UInt8) (initialSupply : UInt64) (guards : Guards) :
    ∀ part ∈ [tokenSetup name symbol decimals initialSupply guards, nftSetup name symbol baseUri guards,
      tokenMint guards, nftMint guards, beforeTransfer guards], Laid part := by
  simp only [tokenSetup, nftSetup, tokenMint, nftMint, beforeTransfer]
  generalize decide (0 < initialSupply) = minted
  obtain ⟨pausable, whitelist, capped⟩ := guards
  cases pausable <;> cases whitelist <;> cases capped <;> cases minted <;>
  · simp only [List.forall_mem_cons, List.not_mem_nil, false_imp_iff, implies_true, and_true, Laid, laidFrom, frame,
      Piece.fixedChars, pausedCheck, whitelistCheck, refuse, stop, block, together, only, Bool.or_true, Bool.or_false,
      List.flatten_cons, List.flatten_nil, List.cons_append, List.nil_append, List.flatMap_cons, List.flatMap_nil,
      List.append_nil, String.toList_append, Bool.false_eq_true, if_true, if_false]
    repeat rw [String.toList_ofList]
    decide

/-- A feature is laid out. -/
theorem part_laid (name : String) (isNft : Bool) (decimals : UInt8) (feature : Feature) :
    Laid (part name isNft decimals feature) := by
  rcases feature with _ | _ | _ | _ | _ | ⟨_ | _, _⟩ <;> cases isNft <;>
  · simp only [Laid, laidFrom, frame, Piece.fixedChars, part, heading, Feature.blockType, BlockType.name, fragment,
      mintFragment, burnFragment, pausableFragment, cappedFragment, whitelistFragment, royaltyFragment, defaultReceiver,
      exported, stored, refuse, stop, block, together, List.flatten_cons, List.flatten_nil, List.cons_append,
      List.nil_append, List.flatMap_cons, List.flatMap_nil, List.append_nil, String.toList_append, Bool.false_eq_true,
      if_true, if_false]
    repeat rw [String.toList_ofList]
    decide

theorem laid_impl {name : String} {functions : List Line} (laid : Laid functions) :
    Laid (block ["impl ", .given name] functions) := by
  refine .block ?_ laid
  simp only [frame, List.flatMap_cons, Piece.fixedChars]
  rw [String.toList_ofList]
  decide

theorem laid_exported {name : String} {functions : List Line} (laid : Laid functions) :
    Laid (exported name functions) := by
  have marked : Laid ["#[contractimpl]"] := by
    simp only [Laid, laidFrom, frame, Piece.fixedChars, List.flatMap_cons, List.flatMap_nil, List.append_nil]
    rw [String.toList_ofList]
    decide
  exact marked.append (laid_impl laid)

/-- A skeleton is laid out. -/
theorem skeleton_laid (name symbol : String) (guards : Guards) (base : Base) :
    Laid (skeleton name symbol guards base) := by
  have parts := parts_laid name
  have guarded := guardedParts_laid name symbol
  simp only [List.forall_mem_cons] at parts guarded
  cases base with
  | token decimals initialSupply =>
    have guarded := guarded "" decimals initialSupply guards
    have interface : Laid (tokenInterface name symbol decimals initialSupply guards) := by
      refine laid_joined ?_
      simp [parts, guarded]
    have internals : Laid (tokenInternals guards) := by
      refine laid_joined ?_
      simp [parts, guarded]
    refine laid_joined ?_
    simp [parts, laid_exported interface, laid_impl internals]
  | nft baseUri =>
    have guarded := guarded baseUri 0 0 guards
    have interface : Laid (nftInterface name symbol baseUri guards) := by
      refine laid_joined ?_
      simp [parts, guarded]
    have internals : Laid (nftInternals guards) := by
      refine laid_joined ?_
      simp [parts, guarded]
    refine laid_joined ?_
    simp [parts, laid_exported interface, laid_impl internals]

/-- A contract is laid out. -/
theorem lines_laid (plan : Plan) : Laid (lines plan) := by
  have start := parts_laid plan.contractName _ List.mem_cons_self
  have features : Laid (plan.features.flatMap (part plan.contractName plan.isNft plan.decimals)) :=
    laid_flatMap fun feature _ => part_laid _ _ _ feature
  exact (start.append (skeleton_laid ..)).append features

end Soroban

theorem lines_laid (language : Language) (plan : Plan) : Laid (lines language plan) := by
  cases language with
  | solidity => exact Solidity.lines_laid plan
  | soroban => exact Soroban.lines_laid plan

/-- A contract whose users write no brackets is nested, and its lines keep their depth. -/
theorem emission_nested {plan : Plan} (plain : ∀ text ∈ plan.userTexts, Plain text) (language : Language) :
    Nested (emit language plan).toList ∧ Levelled (lines language plan) :=
  have laid := lines_laid language plan
  ⟨laid.nested fun text given => plain text (mem_givenTexts_lines.mp given), laid.levelled⟩

/-- This plan has every feature, and texts of users in all of them that can have one. -/
def ornate : Plan :=
  ⟨"Coin", "C-1", .token 2 100, [.mint, .burn, .pausable, .capped 10, .whitelist, .royalty (some "0xA1") 250]⟩

theorem emission_nested_ornate :
    (∀ text ∈ ornate.userTexts, Plain text) ∧ Nested (emit .soroban ornate).toList ∧
      Levelled (lines .soroban ornate) := by
  have plain : ∀ text ∈ ornate.userTexts, Plain text := by decide
  exact ⟨plain, emission_nested plain .soroban⟩

end ContractWorks.Source
