import ContractWorks.Contract.Plan
import ContractWorks.Source.Line

namespace ContractWorks.Source.Soroban

/-- This function stops with a message. -/
def stop (message : String) : Line :=
  .text [.fixed ("panic!(\"" ++ message ++ "\");")]

/-- A guard stops with a message when a condition holds. -/
def refuse (condition message : String) : List Line :=
  block [.fixed ("if " ++ condition)] [stop message]

/-- These lines add functions to a contract that others may call. -/
def exported (name : String) (functions : List Line) : List Line :=
  "#[contractimpl]" :: block ["impl ", .given name] functions

/-- These lines declare a type that a contract may store. -/
def stored (name : String) (variants : List Line) : List Line :=
  "#[contracttype]" :: "#[derive(Clone)]" :: block [.fixed ("pub enum " ++ name)] variants

/-- These lines declare the contract itself. -/
def declaration (name : String) : List Line :=
  ["#[contract]", .text ["pub struct ", .given name, ";"]]

/-- This function demands that the administrator agrees. -/
def requireAdmin : List Line :=
  block ["fn require_admin(env: &Env) -> Address"]
    ["let admin: Address = env.storage().instance().get(&DataKey::Admin).unwrap();",
     "admin.require_auth();",
     "admin"]

/-- This function reads a text that is stored under a key. -/
def getter (function key : String) : List Line :=
  block [.fixed ("pub fn " ++ function ++ "(env: Env) -> String")]
    [.text [.fixed ("env.storage().instance().get(&DataKey::" ++ key ++ ").unwrap()")]]

/-- This check stops a transfer while the contract is paused. -/
def pausedCheck : List Line :=
  refuse "env.storage().instance().get::<_, bool>(&PausableKey::Paused).unwrap_or(false)"
    "contract is paused"

/-- This check stops a transfer to a recipient that is not on the list. -/
def whitelistCheck : List Line :=
  block ["if let Some(to) = to"]
    (together
      [["let allowed: bool = env",
        "    .storage()",
        "    .persistent()",
        "    .get(&WhitelistKey::Allowed(to.clone()))",
        "    .unwrap_or(false);"],
       refuse "!allowed" "recipient not whitelisted"])

/-- This function runs before every transfer and holds the guards that are switched on. -/
def beforeTransfer (guards : Guards) : List Line :=
  if guards.pausable || guards.whitelist then
    block
      ["fn before_transfer(env: &Env, ", .fixed (if guards.whitelist then "to" else "_to"),
        ": Option<&Address>)"]
      (together [only guards.pausable pausedCheck, only guards.whitelist whitelistCheck])
  else ["fn before_transfer(_env: &Env, _to: Option<&Address>) \x7b\x7d"]

/-- These keys name what a token stores. -/
def tokenKeys : List Line :=
  stored "DataKey"
    ["Admin,",
     "Name,",
     "Symbol,",
     "Decimals,",
     "TotalSupply,",
     "Balance(Address),",
     "Allowance(Address, Address),"]

/-- This function sets the administrator and the names, and mints the initial supply. -/
def tokenSetup (name symbol : String) (decimals : UInt8) (initialSupply : UInt64) (guards : Guards) :
    List Line :=
  block ["pub fn initialize(env: Env, admin: Address)"] <|
    together
      [refuse "env.storage().instance().has(&DataKey::Admin)" "already initialized",
       ["env.storage().instance().set(&DataKey::Admin, &admin);"],
       only guards.whitelist
         ["env.storage().persistent().set(&WhitelistKey::Allowed(admin.clone()), &true);"],
       [.text ["env.storage().instance().set(&DataKey::Name, &String::from_str(&env, \"",
          .given name, "\"));"],
        .text ["env.storage().instance().set(&DataKey::Symbol, &String::from_str(&env, \"",
          .given symbol, "\"));"],
        .text ["env.storage().instance().set(&DataKey::Decimals, &", .number decimals.toNat,
          "u32);"]],
       only (0 < initialSupply)
         [.text ["Self::mint_to(&env, &admin, ", .number initialSupply.toNat,
            "i128 * 10i128.pow(", .number decimals.toNat, "));"]]]

/-- This function gives the number of decimal places. -/
def tokenDecimals : List Line :=
  block ["pub fn decimals(env: Env) -> u32"]
    ["env.storage().instance().get(&DataKey::Decimals).unwrap()"]

/-- This function gives the supply. -/
def tokenTotalSupply : List Line :=
  block ["pub fn total_supply(env: Env) -> i128"]
    ["env.storage().instance().get(&DataKey::TotalSupply).unwrap_or(0)"]

/-- This function gives a balance. -/
def tokenBalance : List Line :=
  block ["pub fn balance(env: Env, id: Address) -> i128"]
    ["Self::read_balance(&env, &id)"]

/-- This function gives an allowance. -/
def tokenAllowance : List Line :=
  block ["pub fn allowance(env: Env, from: Address, spender: Address) -> i128"]
    ["env.storage()",
     "    .persistent()",
     "    .get(&DataKey::Allowance(from, spender))",
     "    .unwrap_or(0)"]

/-- This function grants an allowance. -/
def tokenApprove : List Line :=
  block ["pub fn approve(env: Env, from: Address, spender: Address, amount: i128)"] <|
    together
      [["from.require_auth();"],
       refuse "amount < 0" "negative amount",
       ["env.storage()",
        "    .persistent()",
        "    .set(&DataKey::Allowance(from, spender), &amount);"]]

/-- This function sends an amount. -/
def tokenTransfer : List Line :=
  block ["pub fn transfer(env: Env, from: Address, to: Address, amount: i128)"]
    ["from.require_auth();", "Self::move_balance(&env, &from, &to, amount);"]

/-- This function spends an allowance. -/
def tokenTransferFrom : List Line :=
  block ["pub fn transfer_from(env: Env, spender: Address, from: Address, to: Address, amount: i128)"] <|
    together
      [["spender.require_auth();",
        "let allowed = Self::allowance(env.clone(), from.clone(), spender.clone());"],
       refuse "allowed < amount" "insufficient allowance",
       ["env.storage()",
        "    .persistent()",
        "    .set(&DataKey::Allowance(from.clone(), spender), &(allowed - amount));",
        "Self::move_balance(&env, &from, &to, amount);"]]

/-- This function gives the administrator. -/
def admin : List Line :=
  block ["pub fn admin(env: Env) -> Address"]
    ["env.storage().instance().get(&DataKey::Admin).unwrap()"]

/-- These functions of a token may be called by others. -/
def tokenInterface (name symbol : String) (decimals : UInt8) (initialSupply : UInt64) (guards : Guards) :
    List Line :=
  joined
    [tokenSetup name symbol decimals initialSupply guards, getter "name" "Name",
     getter "symbol" "Symbol", tokenDecimals, tokenTotalSupply, tokenBalance, tokenAllowance,
     tokenApprove, tokenTransfer, tokenTransferFrom, admin]

/-- This function reads a balance. -/
def tokenReadBalance : List Line :=
  block ["fn read_balance(env: &Env, id: &Address) -> i128"]
    ["env.storage()",
     "    .persistent()",
     "    .get(&DataKey::Balance(id.clone()))",
     "    .unwrap_or(0)"]

/-- This function writes a balance. -/
def tokenWriteBalance : List Line :=
  block ["fn write_balance(env: &Env, id: &Address, amount: i128)"]
    ["env.storage()",
     "    .persistent()",
     "    .set(&DataKey::Balance(id.clone()), &amount);"]

/-- This function moves an amount between two balances. -/
def tokenMove : List Line :=
  block ["fn move_balance(env: &Env, from: &Address, to: &Address, amount: i128)"] <|
    together
      [refuse "amount < 0" "negative amount",
       ["Self::before_transfer(env, Some(to));",
        "let from_balance = Self::read_balance(env, from);"],
       refuse "from_balance < amount" "insufficient balance",
       ["Self::write_balance(env, from, from_balance - amount);",
        "Self::write_balance(env, to, Self::read_balance(env, to) + amount);"]]

/-- This function makes an amount, up to the cap. -/
def tokenMint (guards : Guards) : List Line :=
  block ["fn mint_to(env: &Env, to: &Address, amount: i128)"] <|
    together
      [refuse "amount < 0" "negative amount",
       ["Self::before_transfer(env, Some(to));",
        "let supply: i128 = env.storage().instance().get(&DataKey::TotalSupply).unwrap_or(0);"],
       only guards.capped <|
         refuse "supply + amount > MAX_SUPPLY" "cap exceeded",
       ["env.storage().instance().set(&DataKey::TotalSupply, &(supply + amount));",
        "Self::write_balance(env, to, Self::read_balance(env, to) + amount);"]]

/-- This function destroys an amount. -/
def tokenBurn : List Line :=
  block ["fn burn_from(env: &Env, from: &Address, amount: i128)"] <|
    together
      [refuse "amount < 0" "negative amount",
       ["Self::before_transfer(env, None);",
        "let balance = Self::read_balance(env, from);"],
       refuse "balance < amount" "burn amount exceeds balance",
       ["Self::write_balance(env, from, balance - amount);",
        "let supply: i128 = env.storage().instance().get(&DataKey::TotalSupply).unwrap_or(0);",
        "env.storage().instance().set(&DataKey::TotalSupply, &(supply - amount));"]]

/-- These functions of a token are its own. -/
def tokenInternals (guards : Guards) : List Line :=
  joined
    [requireAdmin, beforeTransfer guards, tokenReadBalance, tokenWriteBalance, tokenMove,
     tokenMint guards, tokenBurn]

/-- The skeleton of a token holds all that does not depend on the order of features. -/
def tokenSkeleton (name symbol : String) (decimals : UInt8) (initialSupply : UInt64) (guards : Guards) :
    List Line :=
  joined
    [tokenKeys, declaration name,
     exported name (tokenInterface name symbol decimals initialSupply guards),
     block ["impl ", .given name] (tokenInternals guards)]

/-- These keys name what a collection stores. -/
def nftKeys : List Line :=
  stored "DataKey"
    ["Admin,",
     "Name,",
     "Symbol,",
     "BaseUri,",
     "NextTokenId,",
     "TotalSupply,",
     "Owner(u32),",
     "Balance(Address),",
     "Approved(u32),"]

/-- This function sets the administrator and the names. -/
def nftSetup (name symbol baseUri : String) (guards : Guards) : List Line :=
  block ["pub fn initialize(env: Env, admin: Address)"] <|
    together
      [refuse "env.storage().instance().has(&DataKey::Admin)" "already initialized",
       ["env.storage().instance().set(&DataKey::Admin, &admin);"],
       only guards.whitelist
         ["env.storage().persistent().set(&WhitelistKey::Allowed(admin.clone()), &true);"],
       [.text ["env.storage().instance().set(&DataKey::Name, &String::from_str(&env, \"",
          .given name, "\"));"],
        .text ["env.storage().instance().set(&DataKey::Symbol, &String::from_str(&env, \"",
          .given symbol, "\"));"],
        .text ["env.storage().instance().set(&DataKey::BaseUri, &String::from_str(&env, \"",
          .given baseUri, "\"));"]]]

/-- This function gives the number of tokens. -/
def nftTotalSupply : List Line :=
  block ["pub fn total_supply(env: Env) -> u32"]
    ["env.storage().instance().get(&DataKey::TotalSupply).unwrap_or(0)"]

/-- This function gives the owner of a token. -/
def nftOwnerOf : List Line :=
  block ["pub fn owner_of(env: Env, token_id: u32) -> Address"]
    ["env.storage()",
     "    .persistent()",
     "    .get(&DataKey::Owner(token_id))",
     "    .unwrap_or_else(|| panic!(\"nonexistent token\"))"]

/-- This function counts the tokens of an owner. -/
def nftBalance : List Line :=
  block ["pub fn balance(env: Env, owner: Address) -> u32"]
    ["Self::read_balance(&env, &owner)"]

/-- This function tells who else may move a token. -/
def nftApproved : List Line :=
  block ["pub fn get_approved(env: Env, token_id: u32) -> Option<Address>"]
    ["env.storage().persistent().get(&DataKey::Approved(token_id))"]

/-- This function lets another account move one token. -/
def nftApprove : List Line :=
  block ["pub fn approve(env: Env, owner: Address, to: Address, token_id: u32)"] <|
    together
      [["owner.require_auth();"],
       refuse "Self::owner_of(env.clone(), token_id) != owner" "not token owner",
       ["env.storage().persistent().set(&DataKey::Approved(token_id), &to);"]]

/-- This function moves a token of the sender. -/
def nftTransfer : List Line :=
  block ["pub fn transfer(env: Env, from: Address, to: Address, token_id: u32)"]
    ["from.require_auth();", "Self::move_token(&env, &from, &to, token_id);"]

/-- This function moves a token by approval. -/
def nftTransferFrom : List Line :=
  block ["pub fn transfer_from(env: Env, spender: Address, from: Address, to: Address, token_id: u32)"] <|
    together
      [["spender.require_auth();"],
       refuse "Self::get_approved(env.clone(), token_id) != Some(spender)" "not approved",
       ["Self::move_token(&env, &from, &to, token_id);"]]

/-- These functions of a collection may be called by others. -/
def nftInterface (name symbol baseUri : String) (guards : Guards) : List Line :=
  joined
    [nftSetup name symbol baseUri guards, getter "name" "Name", getter "symbol" "Symbol",
     getter "base_uri" "BaseUri", nftTotalSupply, nftOwnerOf, nftBalance, nftApproved, nftApprove,
     nftTransfer, nftTransferFrom, admin]

/-- This function reads a count of tokens. -/
def nftReadBalance : List Line :=
  block ["fn read_balance(env: &Env, owner: &Address) -> u32"]
    ["env.storage()",
     "    .persistent()",
     "    .get(&DataKey::Balance(owner.clone()))",
     "    .unwrap_or(0)"]

/-- This function writes a count of tokens. -/
def nftWriteBalance : List Line :=
  block ["fn write_balance(env: &Env, owner: &Address, balance: u32)"]
    ["env.storage()",
     "    .persistent()",
     "    .set(&DataKey::Balance(owner.clone()), &balance);"]

/-- This function moves a token between two owners. -/
def nftMove : List Line :=
  block ["fn move_token(env: &Env, from: &Address, to: &Address, token_id: u32)"] <|
    together
      [refuse "Self::owner_of(env.clone(), token_id) != *from" "transfer from incorrect owner",
       ["Self::before_transfer(env, Some(to));",
        "env.storage().persistent().remove(&DataKey::Approved(token_id));",
        "env.storage().persistent().set(&DataKey::Owner(token_id), to);",
        "Self::write_balance(env, from, Self::read_balance(env, from) - 1);",
        "Self::write_balance(env, to, Self::read_balance(env, to) + 1);"]]

/-- This function makes the next token, up to the cap. -/
def nftMint (guards : Guards) : List Line :=
  block ["fn mint_next(env: &Env, to: &Address) -> u32"] <|
    together
      [["Self::before_transfer(env, Some(to));",
        "let supply: u32 = env.storage().instance().get(&DataKey::TotalSupply).unwrap_or(0);"],
       only guards.capped <|
         refuse "supply as u64 >= MAX_SUPPLY" "cap exceeded",
       ["let token_id: u32 = env.storage().instance().get(&DataKey::NextTokenId).unwrap_or(0);",
        "env.storage().instance().set(&DataKey::NextTokenId, &(token_id + 1));",
        "env.storage().instance().set(&DataKey::TotalSupply, &(supply + 1));",
        "env.storage().persistent().set(&DataKey::Owner(token_id), to);",
        "Self::write_balance(env, to, Self::read_balance(env, to) + 1);",
        "token_id"]]

/-- This function destroys a token. -/
def nftBurn : List Line :=
  block ["fn burn_token(env: &Env, token_id: u32)"]
    ["let owner = Self::owner_of(env.clone(), token_id);",
     "Self::before_transfer(env, None);",
     "env.storage().persistent().remove(&DataKey::Approved(token_id));",
     "env.storage().persistent().remove(&DataKey::Owner(token_id));",
     "Self::write_balance(env, &owner, Self::read_balance(env, &owner) - 1);",
     "let supply: u32 = env.storage().instance().get(&DataKey::TotalSupply).unwrap_or(0);",
     "env.storage().instance().set(&DataKey::TotalSupply, &(supply - 1));"]

/-- These functions of a collection are its own. -/
def nftInternals (guards : Guards) : List Line :=
  joined
    [requireAdmin, beforeTransfer guards, nftReadBalance, nftWriteBalance, nftMove,
     nftMint guards, nftBurn]

/-- The skeleton of a collection holds all that does not depend on the order of features. -/
def nftSkeleton (name symbol baseUri : String) (guards : Guards) : List Line :=
  joined
    [nftKeys, declaration name, exported name (nftInterface name symbol baseUri guards),
     block ["impl ", .given name] (nftInternals guards)]

/-- This function lets the administrator mint. -/
def mintFragment (name : String) (isNft : Bool) : List Line :=
  exported name <|
    if isNft then
      block ["pub fn mint(env: Env, to: Address) -> u32"]
        ["Self::require_admin(&env);", "Self::mint_next(&env, &to)"]
    else
      block ["pub fn mint(env: Env, to: Address, amount: i128)"]
        ["Self::require_admin(&env);", "Self::mint_to(&env, &to, amount);"]

/-- This function lets a holder burn. -/
def burnFragment (name : String) (isNft : Bool) : List Line :=
  exported name <|
    if isNft then
      block ["pub fn burn(env: Env, owner: Address, token_id: u32)"] <|
        together
          [["owner.require_auth();"],
           refuse "Self::owner_of(env.clone(), token_id) != owner" "not token owner",
           ["Self::burn_token(&env, token_id);"]]
    else
      block ["pub fn burn(env: Env, from: Address, amount: i128)"]
        ["from.require_auth();", "Self::burn_from(&env, &from, amount);"]

/-- These functions let the administrator stop transfers and let them go on. -/
def pausableFragment (name : String) : List Line :=
  together
    [stored "PausableKey" ["Paused,"],
     [.blank],
     exported name <|
       together
         [block ["pub fn pause(env: Env)"]
            ["Self::require_admin(&env);",
             "env.storage().instance().set(&PausableKey::Paused, &true);"],
          [.blank],
          block ["pub fn unpause(env: Env)"]
            ["Self::require_admin(&env);",
             "env.storage().instance().set(&PausableKey::Paused, &false);"],
          [.blank],
          block ["pub fn paused(env: Env) -> bool"]
            ["env.storage().instance().get(&PausableKey::Paused).unwrap_or(false)"]]]

/-- This constant bounds the supply; a token counts in its smallest unit. -/
def cappedFragment (name : String) (maxSupply : UInt64) (isNft : Bool) (decimals : UInt8) : List Line :=
  if isNft then
    together
      [[.text ["pub const MAX_SUPPLY: u64 = ", .number maxSupply.toNat, ";"], .blank],
       exported name (block ["pub fn cap(_env: Env) -> u64"] ["MAX_SUPPLY"])]
  else
    together
      [[.text ["pub const MAX_SUPPLY: i128 = ", .number maxSupply.toNat, "i128 * 10i128.pow(",
          .number decimals.toNat, ");"],
        .blank],
       exported name (block ["pub fn cap(_env: Env) -> i128"] ["MAX_SUPPLY"])]

/-- These functions let the administrator keep a list of recipients. -/
def whitelistFragment (name : String) : List Line :=
  together
    [stored "WhitelistKey" ["Allowed(Address),"],
     [.blank],
     exported name <|
       together
         [block ["pub fn add_to_whitelist(env: Env, account: Address)"]
            ["Self::require_admin(&env);",
             "env.storage().persistent().set(&WhitelistKey::Allowed(account), &true);"],
          [.blank],
          block ["pub fn remove_from_whitelist(env: Env, account: Address)"]
            ["Self::require_admin(&env);",
             "env.storage().persistent().remove(&WhitelistKey::Allowed(account));"],
          [.blank],
          block ["pub fn is_whitelisted(env: Env, account: Address) -> bool"]
            ["env.storage()",
             "    .persistent()",
             "    .get(&WhitelistKey::Allowed(account))",
             "    .unwrap_or(false)"]]]

/-- This line names who receives a royalty unless another receiver is stored. -/
def defaultReceiver : Option String → Line
  | some address =>
    .text ["    .unwrap_or_else(|| Address::from_string(&String::from_str(&env, \"", .given address,
      "\")));"]
  | none => "    .unwrap_or_else(|| Self::admin(env.clone()));"

/-- These functions tell who receives which part of a sale. -/
def royaltyFragment (name : String) (receiver : Option String) (basisPoints : UInt16) : List Line :=
  together
    [[.text ["pub const ROYALTY_BPS: i128 = ", .number basisPoints.toNat, ";"], .blank],
     stored "RoyaltyKey" ["Receiver,"],
     [.blank],
     exported name <|
       together
         [block ["pub fn royalty_info(env: Env, sale_price: i128) -> (Address, i128)"]
            ["let receiver: Address = env",
             "    .storage()",
             "    .instance()",
             "    .get(&RoyaltyKey::Receiver)",
             defaultReceiver receiver,
             "(receiver, sale_price * ROYALTY_BPS / 10_000)"],
          [.blank],
          block ["pub fn set_royalty_receiver(env: Env, receiver: Address)"]
            ["Self::require_admin(&env);",
             "env.storage().instance().set(&RoyaltyKey::Receiver, &receiver);"]]]

/-- The fragment of a feature is its own part of the contract. -/
def fragment (name : String) (isNft : Bool) (decimals : UInt8) : Feature → List Line
  | .mint => mintFragment name isNft
  | .burn => burnFragment name isNft
  | .pausable => pausableFragment name
  | .capped maxSupply => cappedFragment name maxSupply isNft decimals
  | .whitelist => whitelistFragment name
  | .royalty receiver basisPoints => royaltyFragment name receiver basisPoints

/-- A feature begins with a line that names it. -/
def part (name : String) (isNft : Bool) (decimals : UInt8) (feature : Feature) : List Line :=
  .blank :: heading feature :: .blank :: fragment name isNft decimals feature

/-- The skeleton of a contract depends on its base and its guards. -/
def skeleton (name symbol : String) (guards : Guards) : Base → List Line
  | .token decimals initialSupply => tokenSkeleton name symbol decimals initialSupply guards
  | .nft baseUri => nftSkeleton name symbol baseUri guards

/-- These lines come before the contract. -/
def preamble (name : String) : List Line :=
  ["// SPDX-License-Identifier: MIT",
   .text ["//! ", .given name, ": generated by Blockforge."],
   "#![no_std]",
   .blank,
   "use soroban_sdk::\x7bcontract, contractimpl, contracttype, Address, Env, String\x7d;",
   .blank]

/-- This function writes a plan as a contract. -/
def lines (plan : Plan) : List Line :=
  preamble plan.contractName ++
  skeleton plan.contractName plan.symbol plan.guards plan.base ++
  plan.features.flatMap (part plan.contractName plan.isNft plan.decimals)

end ContractWorks.Source.Soroban
