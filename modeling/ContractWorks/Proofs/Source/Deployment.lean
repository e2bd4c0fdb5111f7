import ContractWorks.Proofs.Source.Composition
import ContractWorks.Source.Generated

namespace ContractWorks.Source.Deployment

/-- An act is what a statement of a token does when the token is deployed. A statement passes when it stores a text,
tells what was done, reads what is read again where it counts, or checks what always holds: the deployer is not the zero
address, and an amount that digits give is not negative. -/
inductive Act where
  | pass
  | unowned
  | own
  | enlist
  | mint (supply decimals : Nat)
  | hook
  | unpaused
  | listed
  | bounded
  | grow
  | credit
  deriving DecidableEq, Repr

/-- This type holds what a token knows of its deployer, and how much of it there is. -/
structure Books where
  owned : Bool := false
  paused : Bool := false
  listed : Bool := false
  supply : Nat := 0
  balance : Nat := 0
  deriving DecidableEq, Repr

/-- The deployer calls the function that sets a token up, which makes the initial supply, before which runs what runs
before every transfer. -/
inductive Role where
  | setup
  | mint
  | hook
  deriving DecidableEq, Repr

/-- The code of a deployment is the bound on the supply, if there is one, and what each function does. -/
structure Code where
  bound : Option Nat
  acts : Role → List Act

/-- This is the largest amount of each language: the amounts of one have 256 bits, those of the other have 128 bits of
which one is a sign. -/
def limit : Language → Nat
  | .solidity => 2 ^ 256 - 1
  | .soroban => 2 ^ 127 - 1

/-- Arithmetic stops at an amount that is too large. -/
def checked (language : Language) (amount : Nat) : Option Nat :=
  if amount ≤ limit language then some amount else none

/-- This function multiplies an amount by a power of ten, and both are checked. -/
def scaled (language : Language) (amount decimals : Nat) : Option Nat := do
  let unit ← checked language (10 ^ decimals)
  checked language (amount * unit)

section Reading

/-- This function leaves the names and the numbers of a piece out. -/
def blanked : Piece → Piece
  | .fixed text => .fixed text
  | .number _ => .number 0
  | .given _ => .given ""

/-- This function leaves the names and the numbers of a line out. -/
def outline : Line → Line
  | .text pieces => .text (pieces.map blanked)
  | .blank => .blank
  | .opening pieces => .opening (pieces.map blanked)
  | .closing => .closing

/-- These are the statements that deploy a token, and what they do. -/
def phrases : Language → List (List Line × Act)
  | .solidity =>
    [([.text ["name = \"", .given "", "\";"]], .pass),
     ([.text ["symbol = \"", .given "", "\";"]], .pass),
     (["owner = msg.sender;"], .own),
     (["emit OwnershipTransferred(address(0), msg.sender);"], .pass),
     (["whitelisted[msg.sender] = true;"], .enlist),
     ([.text ["require(to != address(0), \"", .given "", ": mint to the zero address\");"]], .pass),
     (["_beforeTokenTransfer(address(0), to, amount);"], .hook),
     ([.text ["require(totalSupply + amount <= MAX_SUPPLY, \"", .given "", ": cap exceeded\");"]], .bounded),
     (["totalSupply += amount;"], .grow),
     (["balanceOf[to] += amount;"], .credit),
     (["emit Transfer(address(0), to, amount);"], .pass),
     ([.text ["require(!paused, \"", .given "", ": token transfer while paused\");"]], .unpaused),
     ([.text ["require(to == address(0) || whitelisted[to], \"", .given "", ": recipient not whitelisted\");"]],
      .listed)]
  | .soroban =>
    [([.opening ["if env.storage().instance().has(&DataKey::Admin)"], "panic!(\"already initialized\");", .closing],
      .unowned),
     (["env.storage().instance().set(&DataKey::Admin, &admin);"], .own),
     (["env.storage().persistent().set(&WhitelistKey::Allowed(admin.clone()), &true);"], .enlist),
     ([.text ["env.storage().instance().set(&DataKey::Name, &String::from_str(&env, \"", .given "", "\"));"]], .pass),
     ([.text ["env.storage().instance().set(&DataKey::Symbol, &String::from_str(&env, \"", .given "", "\"));"]],
      .pass),
     ([.text ["env.storage().instance().set(&DataKey::Decimals, &", .number 0, "u32);"]], .pass),
     ([.opening ["if amount < 0"], "panic!(\"negative amount\");", .closing], .pass),
     (["Self::before_transfer(env, Some(to));"], .hook),
     (["let supply: i128 = env.storage().instance().get(&DataKey::TotalSupply).unwrap_or(0);"], .pass),
     ([.opening ["if supply + amount > MAX_SUPPLY"], "panic!(\"cap exceeded\");", .closing], .bounded),
     (["env.storage().instance().set(&DataKey::TotalSupply, &(supply + amount));"], .grow),
     (["Self::write_balance(env, to, Self::read_balance(env, to) + amount);"], .credit),
     ([.opening ["if env.storage().instance().get::<_, bool>(&PausableKey::Paused).unwrap_or(false)"],
       "panic!(\"contract is paused\");", .closing], .unpaused),
     ([.opening ["if let Some(to) = to"], "let allowed: bool = env", "    .storage()", "    .persistent()",
       "    .get(&WhitelistKey::Allowed(to.clone()))", "    .unwrap_or(false);", .opening ["if !allowed"],
       "panic!(\"recipient not whitelisted\");", .closing, .closing], .listed)]

/-- This function reads the decimal places that a contract declares. -/
def declaredDecimals : Line → Option Nat
  | .text [.fixed front, .number decimals, .fixed back] =>
    if (front, back) = ("uint8 public constant decimals = ", ";") then some decimals else none
  | _ => none

/-- This function gives the texts around the two numbers of a bound. -/
def boundTexts : Language → String × String × String
  | .solidity => ("uint256 public constant MAX_SUPPLY = ", " * 10 ** ", ";")
  | .soroban => ("pub const MAX_SUPPLY: i128 = ", "i128 * 10i128.pow(", ");")

/-- This function reads the bound that a contract declares. -/
def declaredBound (language : Language) : Line → Option (Nat × Nat)
  | .text [.fixed front, .number bound, .fixed middle, .number decimals, .fixed back] =>
    if (front, middle, back) = boundTexts language then some (bound, decimals) else none
  | _ => none

/-- This function reads a statement that mints the initial supply; only one language has the decimal places in it. -/
def mintOf : Language → Option Nat → List Line → Option Act
  | .solidity, decimals, [.text [.fixed front, .number supply, .fixed back]] =>
    if (front, back) = ("_mint(msg.sender, ", " * 10 ** uint256(decimals));") then decimals.map (.mint supply) else none
  | .soroban, _, [.text [.fixed front, .number supply, .fixed middle, .number decimals, .fixed back]] =>
    if (front, middle, back) = ("Self::mint_to(&env, &admin, ", "i128 * 10i128.pow(", "));") then
      some (.mint supply decimals)
    else none
  | _, _, _ => none

/-- This function gives what a statement does that has the outline of one of some phrases. -/
def meaning (outlined : List Line) : List (List Line × Act) → Option Act
  | [] => none
  | (phrase, act) :: phrases => if phrase = outlined then some act else meaning outlined phrases

/-- This function reads one statement. -/
def act (language : Language) (decimals : Option Nat) (statement : List Line) : Option Act :=
  mintOf language decimals statement <|> meaning (statement.map outline) (phrases language)

/-- This function divides lines into statements: a statement goes on while one of its blocks is open. -/
def statementsFrom (depth : Nat) (begun : List Line) : List Line → List (List Line)
  | [] => if begun = [] then [] else [begun]
  | line :: lines =>
    if line.depthAfter depth = 0 then (begun ++ [line]) :: statementsFrom 0 [] lines
    else statementsFrom (line.depthAfter depth) (begun ++ [line]) lines

/-- This function reads all statements of a function, or none when one cannot be read. -/
def acts (language : Language) (decimals : Option Nat) (body : List Line) : Option (List Act) :=
  (statementsFrom 0 [] body).mapM (act language decimals)

/-- This function gives the lines up to the end of the block that they stand in. -/
def enclosed : Nat → List Line → List Line
  | _, [] => []
  | 0, .closing :: _ => []
  | depth, line :: lines => line :: enclosed (line.depthAfter depth) lines

/-- This function gives the body of the first function that begins as one of some lines. -/
def bodyOf (starts : List Line) : List Line → Option (List Line)
  | [] => none
  | .opening header :: lines =>
    if .opening header ∈ starts then some (enclosed 0 lines) else bodyOf starts lines
  | line :: lines => if line ∈ starts then some [] else bodyOf starts lines

/-- These lines begin a function. What runs before every transfer may be empty, and may name what it looks at or not. -/
def starts : Language → Role → List Line
  | .solidity, .setup => [.opening ["constructor()"]]
  | .solidity, .mint => [.opening ["function _mint(address to, uint256 amount) internal"]]
  | .solidity, .hook =>
    ["function _beforeTokenTransfer(address, address, uint256) internal pure \x7b\x7d",
     .opening ["function _beforeTokenTransfer(address, ", "address", ", uint256) internal view"],
     .opening ["function _beforeTokenTransfer(address, ", "address to", ", uint256) internal view"]]
  | .soroban, .setup => [.opening ["pub fn initialize(env: Env, admin: Address)"]]
  | .soroban, .mint => [.opening ["fn mint_to(env: &Env, to: &Address, amount: i128)"]]
  | .soroban, .hook =>
    ["fn before_transfer(_env: &Env, _to: Option<&Address>) \x7b\x7d",
     .opening ["fn before_transfer(env: &Env, ", "_to", ": Option<&Address>)"],
     .opening ["fn before_transfer(env: &Env, ", "to", ": Option<&Address>)"]]

/-- This function works out a declared bound. One language does so without a limit and checks what comes out, the other
checks every step; a contract whose bound is too large is not compiled. -/
def bound (language : Language) : Option (Nat × Nat) → Option (Option Nat)
  | none => some none
  | some (amount, decimals) =>
    match language with
    | .solidity => (checked language (amount * 10 ^ decimals)).map some
    | .soroban => (scaled language amount decimals).map some

/-- This function reads what a contract does when it is deployed, or nothing when it cannot be. -/
def read (language : Language) (lines : List Line) : Option Code := do
  let decimals := lines.findSome? declaredDecimals
  let bound ← bound language (lines.findSome? (declaredBound language))
  let setup ← (bodyOf (starts language .setup) lines).bind (acts language decimals)
  let mint ← (bodyOf (starts language .mint) lines).bind (acts language decimals)
  let hook ← (bodyOf (starts language .hook) lines).bind (acts language decimals)
  return ⟨bound, fun
    | .setup => setup
    | .mint => mint
    | .hook => hook⟩

end Reading

section Running

variable (language : Language) (code : Code)

/-- This function carries out an act that calls nothing, and stops where a check fails. Only a function that is given an
amount can use it. -/
def step (amount : Option Nat) (books : Books) : Act → Option Books
  | .pass => some books
  | .unowned => if books.owned then none else some books
  | .own => some { books with owned := true }
  | .enlist => some { books with listed := true }
  | .unpaused => if books.paused then none else some books
  | .listed => if books.listed then some books else none
  | .bounded => do
    let total ← checked language (books.supply + (← amount))
    if total ≤ (← code.bound) then some books else none
  | .grow => do
    let supply ← checked language (books.supply + (← amount))
    return { books with supply }
  | .credit => do
    let balance ← checked language (books.balance + (← amount))
    return { books with balance }
  | .mint _ _ | .hook => none

/-- This function carries out what runs before every transfer. -/
def runHook (books : Books) : Option Books :=
  (code.acts .hook).foldlM (step language code none) books

/-- This function makes an amount for the deployer. -/
def runMint (amount : Nat) (books : Books) : Option Books :=
  (code.acts .mint).foldlM (fun books act =>
    if act = .hook then runHook language code books else step language code (some amount) books act) books

/-- This function carries out what the deployer calls. -/
def runSetup (books : Books) : Option Books :=
  (code.acts .setup).foldlM (fun books act =>
    match act with
    | .mint supply decimals => do runMint language code (← scaled language supply decimals) books
    | act => step language code none books act) books

end Running

/-- This function deploys a contract and gives its books, or nothing when the contract stops. -/
def deploy (language : Language) (lines : List Line) : Option Books := do
  runSetup language (← read language lines) {}

section Reading

variable (language : Language) (name symbol : String) (decimals : UInt8) (supply : UInt64) (guards : Guards)

/-- These lines hold a function of a token. -/
def functionLines : Language → Role → List Line
  | .solidity, .setup => Solidity.tokenConstructor name symbol supply guards
  | .solidity, .mint => Solidity.tokenMint name guards
  | .solidity, .hook => Solidity.transferHook name guards
  | .soroban, .setup => Soroban.tokenSetup name symbol decimals supply guards
  | .soroban, .mint => Soroban.tokenMint guards
  | .soroban, .hook => Soroban.beforeTransfer guards

/-- This function leaves out the first line and the last one. -/
def interior : List Line → List Line
  | [] => []
  | _ :: lines => lines.dropLast

/-- This function gives what a function of a token with an initial supply does. -/
def functionActs (supply decimals : Nat) : Language → Role → List Act
  | .solidity, .setup =>
    [.pass, .pass, .own, .pass] ++ (if guards.whitelist then [.enlist] else []) ++ [.mint supply decimals]
  | .solidity, .mint => [.pass, .hook] ++ (if guards.capped then [.bounded] else []) ++ [.grow, .credit, .pass]
  | .soroban, .setup =>
    [.unowned, .own] ++ (if guards.whitelist then [.enlist] else []) ++ [.pass, .pass, .pass, .mint supply decimals]
  | .soroban, .mint => [.pass, .hook, .pass] ++ (if guards.capped then [.bounded] else []) ++ [.grow, .credit]
  | _, .hook => (if guards.pausable then [.unpaused] else []) ++ if guards.whitelist then [.listed] else []

section Functions

variable (role : Role) (positive : 0 < supply)
include positive

set_option maxRecDepth 2000 in
theorem bodyOf_solidity (rest : List Line) :
    bodyOf (starts .solidity role)
        (skeletonLines .solidity name symbol (.token decimals supply) guards ++ rest) =
      some (interior (functionLines name symbol decimals supply guards .solidity role)) := by
  have mints : decide (0 < supply) = true := decide_eq_true positive
  obtain ⟨pausable, whitelist, capped⟩ := guards
  simp only [skeletonLines, Solidity.skeleton, Solidity.tokenSkeleton, functionLines, Solidity.tokenConstructor, mints]
  -- every guard in the text before the function has to be known
  cases role with
  | setup => cases whitelist <;> cbv
  | mint => cases whitelist <;> cases capped <;> cbv
  | hook => cases pausable <;> cases whitelist <;> cases capped <;> cbv

set_option maxRecDepth 2000 in
theorem bodyOf_soroban (rest : List Line) :
    bodyOf (starts .soroban role)
        (skeletonLines .soroban name symbol (.token decimals supply) guards ++ rest) =
      some (interior (functionLines name symbol decimals supply guards .soroban role)) := by
  have mints : decide (0 < supply) = true := decide_eq_true positive
  obtain ⟨pausable, whitelist, capped⟩ := guards
  simp only [skeletonLines, Soroban.skeleton, Soroban.tokenSkeleton, functionLines, Soroban.tokenInterface,
    Soroban.tokenSetup, mints]
  cases role with
  | setup => cases whitelist <;> cbv
  | mint => cases pausable <;> cases whitelist <;> cases capped <;> cbv
  | hook => cases pausable <;> cases whitelist <;> cbv

theorem acts_solidity :
    acts .solidity (some decimals.toNat)
        (interior (functionLines name symbol decimals supply guards .solidity role)) =
      some (functionActs guards supply.toNat decimals.toNat .solidity role) := by
  have mints : decide (0 < supply) = true := decide_eq_true positive
  obtain ⟨pausable, whitelist, capped⟩ := guards
  simp only [functionLines, Solidity.tokenConstructor, mints]
  cases role with
  | setup => cases whitelist <;> cbv
  | mint => cases capped <;> cbv
  | hook => cases pausable <;> cases whitelist <;> cbv

theorem acts_soroban (places : Option Nat) :
    acts .soroban places (interior (functionLines name symbol decimals supply guards .soroban role)) =
      some (functionActs guards supply.toNat decimals.toNat .soroban role) := by
  have mints : decide (0 < supply) = true := decide_eq_true positive
  obtain ⟨pausable, whitelist, capped⟩ := guards
  simp only [functionLines, Soroban.tokenSetup, mints]
  cases role with
  | setup => cases whitelist <;> cbv
  | mint => cases capped <;> cbv
  | hook => cases pausable <;> cases whitelist <;> cbv

end Functions

theorem declaredDecimals_skeleton (rest : List Line) :
    (skeletonLines .solidity name symbol (.token decimals supply) guards ++ rest).findSome? declaredDecimals =
      some decimals.toNat :=
  rfl

end Reading

section Bound

/-- The first line that declares something is sought in one part after the other. -/
theorem findSome?_flatMap {α β : Type} (find : Line → Option β) (lines : α → List Line) (items : List α) :
    (items.flatMap lines).findSome? find = items.findSome? fun item => (lines item).findSome? find := by
  induction items with
  | nil => rfl
  | cons item items inductionHypothesis =>
    rw [List.flatMap_cons, List.findSome?_append, inductionHypothesis, List.findSome?_cons]
    cases (lines item).findSome? find <;> rfl

section Silent

variable {β : Type} {find : Line → Option β}

/-- The blank lines between silent parts are silent. -/
theorem findSome?_joined {parts : List (List Line)} (blank : find .blank = none)
    (silent : ∀ part ∈ parts, part.findSome? find = none) : (joined parts).findSome? find = none := by
  induction parts using joined.induct with
  | case1 => rfl
  | case2 part => exact silent part List.mem_cons_self
  | case3 part parts more inductionHypothesis =>
    rw [joined, List.findSome?_append, silent part List.mem_cons_self, Option.none_or, List.findSome?_cons, blank]
    · exact inductionHypothesis fun other mem => silent other (List.mem_cons_of_mem _ mem)
    · exact more

/-- The braces around silent lines are silent. -/
theorem findSome?_block {header : List Piece} {body : List Line} (opening : find (.opening header) = none)
    (closing : find .closing = none) (silent : body.findSome? find = none) :
    (block header body).findSome? find = none := by
  rw [block, List.findSome?_cons, opening, List.findSome?_append, silent, Option.none_or, List.findSome?_cons, closing,
    List.findSome?_nil]

end Silent

variable (language : Language) (name symbol : String) (decimals : UInt8) (supply : UInt64) (guards : Guards)

/-- Only a feature that bounds the supply declares a bound. -/
theorem declaredBound_fragment (feature : Feature) :
    (fragmentLines language name false decimals feature).findSome? (declaredBound language) =
      (Plan.capOf feature).map fun cap => (cap.toNat, decimals.toNat) := by
  cases language <;> cases feature <;> try rfl
  all_goals (next receiver basisPoints => cases receiver <;> rfl)

variable (positive : 0 < supply)
include positive

theorem declaredBound_skeleton :
    (skeletonLines language name symbol (.token decimals supply) guards).findSome? (declaredBound language) = none := by
  have mints : decide (0 < supply) = true := decide_eq_true positive
  obtain ⟨pausable, whitelist, capped⟩ := guards
  cases language with
  | solidity =>
    rw [skeletonLines, List.findSome?_append, List.findSome?_cons_of_isNone rfl]
    refine Option.or_eq_none_iff.mpr ⟨rfl, findSome?_joined rfl ?_⟩
    simp only [Solidity.tokenConstructor, mints, List.forall_mem_cons, List.not_mem_nil, false_imp_iff, implies_true,
      and_true]
    and_intros
    all_goals first | rfl | (cases pausable <;> cases whitelist <;> cases capped <;> rfl)
  | soroban =>
    have interface : (Soroban.tokenInterface name symbol decimals supply ⟨pausable, whitelist, capped⟩).findSome?
        (declaredBound .soroban) = none := by
      refine findSome?_joined rfl ?_
      simp only [Soroban.tokenSetup, mints, List.forall_mem_cons, List.not_mem_nil, false_imp_iff, implies_true,
        and_true]
      and_intros
      all_goals first | rfl | (cases whitelist <;> rfl)
    have internals :
        (Soroban.tokenInternals ⟨pausable, whitelist, capped⟩).findSome? (declaredBound .soroban) = none := by
      refine findSome?_joined rfl ?_
      simp only [List.forall_mem_cons, List.not_mem_nil, false_imp_iff, implies_true, and_true]
      and_intros
      all_goals first | rfl | (cases pausable <;> cases whitelist <;> cases capped <;> rfl)
    rw [skeletonLines, List.findSome?_append]
    refine Option.or_eq_none_iff.mpr ⟨rfl, findSome?_joined rfl ?_⟩
    simp only [List.forall_mem_cons, List.not_mem_nil, false_imp_iff, implies_true, and_true]
    exact ⟨rfl, rfl, (List.findSome?_cons_of_isNone rfl).trans (findSome?_block rfl rfl interface),
      findSome?_block rfl rfl internals⟩

/-- The bound is read where the text declares it. -/
theorem declaredBound_lines {plan : Plan} (token : plan.base = .token decimals supply) :
    (lines language plan).findSome? (declaredBound language) =
      plan.maxSupply.map fun cap => (cap.toNat, decimals.toNat) := by
  have isNft : plan.isNft = false := by rw [Plan.isNft, token]
  have places : plan.decimals = decimals := by rw [Plan.decimals, token]
  have footer : (footerLines language).findSome? (declaredBound language) = none := by cases language <;> rfl
  rw [lines_eq, token, List.findSome?_append, declaredBound_skeleton _ _ _ _ _ _ positive, Option.none_or,
    List.findSome?_append, footer,
    Option.or_none, findSome?_flatMap, isNft, places, Plan.maxSupply, List.map_findSome?]
  exact congrArg (List.findSome? · plan.features) (funext (declaredBound_fragment language _ decimals))

end Bound

/-- A token with an initial supply is read as what its functions do, unless its bound is too large. -/
theorem read_lines {plan : Plan} {decimals : UInt8} {supply : UInt64} (token : plan.base = .token decimals supply)
    (positive : 0 < supply) (language : Language) :
    read language (lines language plan) =
      (bound language (plan.maxSupply.map fun cap => (cap.toNat, decimals.toNat))).map fun bound =>
        ⟨bound, functionActs plan.guards supply.toNat decimals.toNat language⟩ := by
  have found (role : Role) : ((bodyOf (starts language role) (lines language plan)).bind
      (acts language ((lines language plan).findSome? declaredDecimals))) =
      some (functionActs plan.guards supply.toNat decimals.toNat language role) := by
    rw [lines_eq, token]
    cases language with
    | solidity =>
      rw [bodyOf_solidity _ _ _ _ _ _ positive, declaredDecimals_skeleton]
      exact acts_solidity _ _ _ _ _ _ positive
    | soroban =>
      rw [bodyOf_soroban _ _ _ _ _ _ positive]
      exact acts_soroban _ _ _ _ _ _ positive _
  rw [read, declaredBound_lines language decimals supply positive token]
  simp only [found, Option.bind_eq_bind, Option.bind_some]
  cases bound language (plan.maxSupply.map fun cap => (cap.toNat, decimals.toNat)) with
  | none => rfl
  | some bound =>
    refine congrArg (fun acts => some (Code.mk bound acts)) (funext fun role => ?_)
    cases role <;> rfl

section Order

/-- The lines up to the end of a block are the first ones. -/
theorem prefix_enclosed (depth : Nat) (lines : List Line) : enclosed depth lines <+: lines := by
  induction lines generalizing depth with
  | nil => exact List.prefix_rfl
  | cons line lines inductionHypothesis =>
    rw [enclosed.eq_def]
    split
    · next nil => cases nil
    · exact List.nil_prefix
    · next same =>
      obtain ⟨rfl, rfl⟩ := List.cons.inj same
      exact List.cons_prefix_cons.mpr ⟨rfl, inductionHypothesis _⟩

/-- The body of a function stands in the text. -/
theorem infix_of_bodyOf {starts lines body : List Line} (found : bodyOf starts lines = some body) :
    body <:+: lines := by
  induction lines with
  | nil => cases found
  | cons line lines inductionHypothesis =>
    rw [bodyOf.eq_def] at found
    split at found
    · next nil => cases nil
    · next same =>
      obtain ⟨rfl, rfl⟩ := List.cons.inj same
      split at found
      · obtain rfl := Option.some.inj found
        exact (prefix_enclosed 0 lines).isInfix.trans (List.suffix_cons ..).isInfix
      · exact (inductionHypothesis found).trans (List.suffix_cons ..).isInfix
    · next same =>
      obtain ⟨rfl, rfl⟩ := List.cons.inj same
      split at found
      · obtain rfl := Option.some.inj found
        exact List.nil_infix
      · exact (inductionHypothesis found).trans (List.suffix_cons ..).isInfix

end Order

end ContractWorks.Source.Deployment
