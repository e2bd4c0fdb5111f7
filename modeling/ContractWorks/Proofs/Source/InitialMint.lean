import ContractWorks.Proofs.Source.Placeholder
import ContractWorks.Proofs.Source.Deployment

namespace ContractWorks.Source.Deployment

section Running

variable {language : Language}

theorem checked_of_le {amount : Nat} (fits : amount ≤ limit language) : checked language amount = some amount :=
  if_pos fits

theorem checked_of_lt {amount : Nat} (large : limit language < amount) : checked language amount = none :=
  if_neg (Nat.not_le.mpr large)

/-- A positive amount fits only when its power of ten does. -/
theorem scaled_of_pos {amount : Nat} (positive : 0 < amount) (decimals : Nat) :
    scaled language amount decimals = checked language (amount * 10 ^ decimals) := by
  have unit : 10 ^ decimals ≤ amount * 10 ^ decimals := Nat.le_mul_of_pos_left _ positive
  rw [scaled]
  rcases Nat.lt_or_ge (limit language) (10 ^ decimals) with large | fits
  · rw [checked_of_lt large, checked_of_lt (large.trans_le unit)]
    rfl
  · rw [checked_of_le fits]
    rfl

variable (guards : Guards) (bound : Option Nat) (supply decimals : Nat)

/-- What runs before every transfer lets the deployer pass when nothing is paused and the deployer is listed. -/
theorem runHook_eq {books : Books} (running : books.paused = false) (listed : books.listed = guards.whitelist) :
    runHook language ⟨bound, functionActs guards supply decimals language⟩ books = some books := by
  obtain ⟨pausable, whitelist, capped⟩ := guards
  cases language <;> cases pausable <;> cases whitelist <;> simp_all [runHook, functionActs, step]

/-- The deployer gets an amount when it fits and the bound allows it. -/
theorem runMint_eq {books : Books} (running : books.paused = false) (listed : books.listed = guards.whitelist)
    (empty : books.supply = 0 ∧ books.balance = 0) (capped : guards.capped = bound.isSome) (amount : Nat) :
    runMint language ⟨bound, functionActs guards supply decimals language⟩ amount books =
      if amount ≤ limit language ∧ ∀ cap ∈ bound, amount ≤ cap then
        some { books with supply := amount, balance := amount }
      else none := by
  have hooked : runHook language ⟨bound, functionActs guards supply decimals language⟩ books = some books :=
    runHook_eq guards bound supply decimals running listed
  obtain ⟨supplyEmpty, balanceEmpty⟩ := empty
  cases bound with
  | none =>
    rw [Option.isSome_none] at capped
    by_cases fits : amount ≤ limit language <;> cases language <;>
      simp [runMint, functionActs, capped, step, hooked, checked, supplyEmpty, balanceEmpty, fits]
  | some cap =>
    rw [Option.isSome_some] at capped
    by_cases fits : amount ≤ limit language <;> by_cases allowed : amount ≤ cap <;> cases language <;>
      simp [runMint, functionActs, capped, step, hooked, checked, supplyEmpty, balanceEmpty, fits, allowed]

/-- The deployer is set up, is listed if there is a list, and is given the initial supply. -/
theorem runSetup_eq :
    runSetup language ⟨bound, functionActs guards supply decimals language⟩ {} =
      (scaled language supply decimals).bind fun amount =>
        runMint language ⟨bound, functionActs guards supply decimals language⟩ amount
          { owned := true, listed := guards.whitelist } := by
  obtain ⟨pausable, whitelist, capped⟩ := guards
  cases language <;> cases whitelist <;> simp [runSetup, functionActs, step]

/-- A declared bound has to fit when a power of ten does. -/
theorem bound_of_le {cap decimals : Nat} (unit : 10 ^ decimals ≤ limit language) :
    Deployment.bound language (some (cap, decimals)) = (checked language (cap * 10 ^ decimals)).map some := by
  cases language with
  | solidity => rfl
  | soroban =>
    rw [Deployment.bound, scaled, checked_of_le unit]
    rfl

end Running

/-- The initial supply is allowed when it fits, and if there is a bound, the bound fits and is not below it. -/
def Allows (language : Language) (plan : Plan) (supply decimals : Nat) : Prop :=
  supply * 10 ^ decimals ≤ limit language ∧
    ∀ cap, plan.maxSupply = some cap → cap.toNat * 10 ^ decimals ≤ limit language ∧ supply ≤ cap.toNat

/-- After a deployment there is only the initial supply, which the deployer has. -/
def deployed (plan : Plan) (supply decimals : Nat) : Books :=
  { owned := true, listed := plan.has .whitelist, supply := supply * 10 ^ decimals, balance := supply * 10 ^ decimals }

section Deploying

variable {plan : Plan} {decimals : UInt8} {supply : UInt64} (token : plan.base = .token decimals supply)
  (positive : 0 < supply) (language : Language)
include token positive

theorem deploy_of_allows (allows : Allows language plan supply.toNat decimals.toNat) :
    deploy language (lines language plan) = some (deployed plan supply.toNat decimals.toNat) := by
  obtain ⟨fits, bounded⟩ := allows
  have count : 0 < supply.toNat := UInt64.lt_iff_toNat_lt.mp positive
  have unit : 10 ^ decimals.toNat ≤ limit language := (Nat.le_mul_of_pos_left _ count).trans fits
  rw [deploy, read_lines token positive]
  cases capped : plan.maxSupply with
  | none =>
    rw [Option.map_none, Deployment.bound]
    simp only [Option.bind_eq_bind, Option.map_some, Option.bind_some]
    rw [runSetup_eq, scaled_of_pos count, checked_of_le fits, Option.bind_some,
      runMint_eq _ _ _ _ rfl rfl ⟨rfl, rfl⟩ (by simp [Plan.guards, capped])]
    exact if_pos ⟨fits, by simp⟩
  | some cap =>
    obtain ⟨capFits, above⟩ := bounded cap capped
    rw [Option.map_some, bound_of_le unit, checked_of_le capFits]
    simp only [Option.bind_eq_bind, Option.map_some, Option.bind_some]
    rw [runSetup_eq, scaled_of_pos count, checked_of_le fits, Option.bind_some,
      runMint_eq _ _ _ _ rfl rfl ⟨rfl, rfl⟩ (by simp [Plan.guards, capped])]
    refine if_pos ⟨fits, fun most same => ?_⟩
    rw [← Option.some.inj same]
    exact Nat.mul_le_mul_right _ above

theorem allows_of_deploy {books : Books} (deployed : deploy language (lines language plan) = some books) :
    Allows language plan supply.toNat decimals.toNat := by
  have count : 0 < supply.toNat := UInt64.lt_iff_toNat_lt.mp positive
  rw [deploy, read_lines token positive] at deployed
  obtain ⟨code, isCode, run⟩ := Option.bind_eq_some_iff.mp deployed
  obtain ⟨bound, isBound, rfl⟩ := Option.map_eq_some_iff.mp isCode
  rw [runSetup_eq, scaled_of_pos count] at run
  obtain ⟨amount, isAmount, run⟩ := Option.bind_eq_some_iff.mp run
  rw [checked, Option.ite_none_right_eq_some, Option.some.injEq] at isAmount
  obtain ⟨fits, rfl⟩ := isAmount
  have unit : 10 ^ decimals.toNat ≤ limit language := (Nat.le_mul_of_pos_left _ count).trans fits
  refine ⟨fits, fun cap capped => ?_⟩
  rw [capped, Option.map_some, bound_of_le unit, Option.map_eq_some_iff] at isBound
  obtain ⟨most, isMost, rfl⟩ := isBound
  rw [checked, Option.ite_none_right_eq_some, Option.some.injEq] at isMost
  obtain ⟨capFits, rfl⟩ := isMost
  rw [runMint_eq _ _ _ _ rfl rfl ⟨rfl, rfl⟩ (by simp [Plan.guards, capped]),
    Option.ite_none_right_eq_some] at run
  exact ⟨capFits, Nat.le_of_mul_le_mul_right (run.1.2 _ rfl) (Nat.pow_pos (by decide))⟩

end Deploying

/-- This line puts the deployer on the list of recipients. -/
def admission : Language → Line
  | .solidity => "whitelisted[msg.sender] = true;"
  | .soroban => "env.storage().persistent().set(&WhitelistKey::Allowed(admin.clone()), &true);"

/-- This line makes the initial supply. -/
def minting (supply decimals : Nat) : Language → Line
  | .solidity => .text ["_mint(msg.sender, ", .number supply, " * 10 ** uint256(decimals));"]
  | .soroban =>
    .text ["Self::mint_to(&env, &admin, ", .number supply, "i128 * 10i128.pow(", .number decimals, "));"]

/-- The deployer is listed on a line before the one that makes the initial supply. -/
theorem admission_before_minting {plan : Plan} {decimals : UInt8} {supply : UInt64}
    (token : plan.base = .token decimals supply) (positive : 0 < supply) (listing : plan.has .whitelist = true)
    (language : Language) :
    ∃ front middle back, lines language plan =
      front ++ admission language :: (middle ++ minting supply.toNat decimals.toNat language :: back) := by
  have mints : decide (0 < supply) = true := decide_eq_true positive
  have listed : plan.guards.whitelist = true := listing
  have within : interior (functionLines plan.contractName plan.symbol decimals supply plan.guards language .setup)
      <:+: lines language plan := by
    rw [lines_eq, token]
    cases language with
    | solidity => exact infix_of_bodyOf (bodyOf_solidity _ _ _ _ _ .setup positive _)
    | soroban => exact infix_of_bodyOf (bodyOf_soroban _ _ _ _ _ .setup positive _)
  have ordered : ∃ front middle,
      interior (functionLines plan.contractName plan.symbol decimals supply plan.guards language .setup) =
        front ++ admission language :: (middle ++ [minting supply.toNat decimals.toNat language]) := by
    cases language with
    | solidity =>
      rw [functionLines, Solidity.tokenConstructor, mints, listed]
      exact ⟨[_, _, _, _], [], rfl⟩
    | soroban =>
      rw [functionLines, Soroban.tokenSetup, mints, listed]
      exact ⟨[_, _, _, _], [_, _, _], rfl⟩
  obtain ⟨before, after, text⟩ := within
  obtain ⟨front, middle, body⟩ := ordered
  exact ⟨before ++ front, middle, after, by rw [← text, body]; simp⟩

/-- The text that a token with an initial supply is generated as lists the deployer before it makes the supply, and its
deployment gives the supply to the deployer exactly when the amounts fit and the bound allows them: nothing before the
deployment looks at these numbers. -/
theorem initial_mint {blocks : List Block} {plan : Plan} (planned : Plan.ofBlocks blocks = some plan)
    {decimals : UInt8} {supply : UInt64} (token : plan.base = .token decimals supply) (positive : 0 < supply)
    (language : Language) :
    (generate blocks language).text = print (lines language plan) ∧
      (plan.has .whitelist = true → ∃ front middle back, lines language plan =
        front ++ admission language :: (middle ++ minting supply.toNat decimals.toNat language :: back)) ∧
      (Allows language plan supply.toNat decimals.toNat →
        deploy language (lines language plan) = some (deployed plan supply.toNat decimals.toNat)) ∧
      (¬ Allows language plan supply.toNat decimals.toNat → deploy language (lines language plan) = none) := by
  refine ⟨by rw [generate_of_some planned]; rfl,
    fun listing => admission_before_minting token positive listing language,
    deploy_of_allows token positive language, fun forbids => ?_⟩
  cases run : deploy language (lines language plan) with
  | none => rfl
  | some books => exact absurd (allows_of_deploy token positive language run) forbids

/-- This token has a list of recipients and a bound above its initial supply. -/
def generous : List Block :=
  [⟨"token", "Coin", true, .erc20 { initialSupply := some 5 }⟩, ⟨"cap", "", true, .capped ⟨some 10⟩⟩,
   ⟨"list", "", true, .whitelist⟩]

/-- The deployer of that token gets what is made. -/
theorem initial_mint_generous :
    Plan.ofBlocks generous = some ⟨"Coin", "TKN", .token 18 5, [.capped 10, .whitelist]⟩ ∧
      deploy .soroban (lines .soroban ⟨"Coin", "TKN", .token 18 5, [.capped 10, .whitelist]⟩) =
        some (deployed ⟨"Coin", "TKN", .token 18 5, [.capped 10, .whitelist]⟩ 5 18) := by
  have planned : Plan.ofBlocks generous = some ⟨"Coin", "TKN", .token 18 5, [.capped 10, .whitelist]⟩ := by decide
  refine ⟨planned, (initial_mint planned rfl (by decide) .soroban).2.2.1 ⟨by decide, ?_⟩⟩
  rintro cap capped
  obtain rfl : 10 = cap := Option.some.inj capped
  decide

/-- The bound of this token is below its initial supply. -/
def overdrawn : List Block :=
  [⟨"token", "", true, .erc20 ⟨some "Coin", some "CN", some 2, some 100⟩⟩, ⟨"cap", "", true, .capped ⟨some 10⟩⟩]

/-- That token is generated in both languages, and cannot be deployed in either. -/
theorem initial_mint_overdrawn :
    Plan.ofBlocks overdrawn = some ⟨"Coin", "CN", .token 2 100, [.capped 10]⟩ ∧
      deploy .solidity (lines .solidity ⟨"Coin", "CN", .token 2 100, [.capped 10]⟩) = none ∧
      deploy .soroban (lines .soroban ⟨"Coin", "CN", .token 2 100, [.capped 10]⟩) = none := by
  have refused (language : Language) :
      deploy language (lines language ⟨"Coin", "CN", .token 2 100, [.capped 10]⟩) = none := by
    cases run : deploy language (lines language ⟨"Coin", "CN", .token 2 100, [.capped 10]⟩) with
    | none => rfl
    | some books =>
      have above := ((allows_of_deploy rfl (by decide) language run).2 10 rfl).2
      exact absurd above (by decide)
  exact ⟨by decide, refused .solidity, refused .soroban⟩

end ContractWorks.Source.Deployment
