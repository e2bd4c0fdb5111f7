import ContractWorks.Contract.Plan
import ContractWorks.Source.Line

namespace ContractWorks.Source.Solidity

/-- This line demands a condition and names the contract when it fails. -/
def demand (name condition reason : String) : Line :=
  .text [.fixed ("require(" ++ condition ++ ", \""), .given name, .fixed (": " ++ reason ++ "\");")]

/-- This modifier admits the owner only. -/
def onlyOwner (name : String) : List Line :=
  block ["modifier onlyOwner()"]
    [demand name "msg.sender == owner" "caller is not the owner", "_;"]

/-- This function passes the contract to a new owner. -/
def transferOwnership (name : String) : List Line :=
  block ["function transferOwnership(address newOwner) public onlyOwner"]
    [demand name "newOwner != address(0)" "new owner is the zero address",
     "emit OwnershipTransferred(owner, newOwner);",
     "owner = newOwner;"]

/-- This function runs before every transfer and holds the guards that are switched on. -/
def transferHook (name : String) (guards : Guards) : List Line :=
  if guards.pausable || guards.whitelist then
    block
      ["function _beforeTokenTransfer(address, ",
        .fixed (if guards.whitelist then "address to" else "address"), ", uint256) internal view"] <|
      together
        [only guards.pausable [demand name "!paused" "token transfer while paused"],
         only guards.whitelist
           [demand name "to == address(0) || whitelisted[to]" "recipient not whitelisted"]]
  else ["function _beforeTokenTransfer(address, address, uint256) internal pure \x7b\x7d"]

/-- These variables hold what a token knows about itself. -/
def tokenState (decimals : UInt8) : List Line :=
  ["string public name;",
   "string public symbol;",
   .text ["uint8 public constant decimals = ", .number decimals.toNat, ";"],
   "uint256 public totalSupply;",
   "address public owner;"]

/-- These tables hold balances and allowances. -/
def tokenTables : List Line :=
  ["mapping(address => uint256) public balanceOf;",
   "mapping(address => mapping(address => uint256)) public allowance;"]

/-- These events tell what a token did. -/
def tokenEvents : List Line :=
  ["event Transfer(address indexed from, address indexed to, uint256 value);",
   "event Approval(address indexed holder, address indexed spender, uint256 value);",
   "event OwnershipTransferred(address indexed previousOwner, address indexed newOwner);"]

/-- The constructor sets the names and the owner, and mints the initial supply. -/
def tokenConstructor (name symbol : String) (initialSupply : UInt64) (guards : Guards) :
    List Line :=
  block ["constructor()"] <|
    together
      [[.text ["name = \"", .given name, "\";"],
        .text ["symbol = \"", .given symbol, "\";"],
        "owner = msg.sender;",
        "emit OwnershipTransferred(address(0), msg.sender);"],
       only guards.whitelist ["whitelisted[msg.sender] = true;"],
       only (0 < initialSupply)
         [.text ["_mint(msg.sender, ", .number initialSupply.toNat, " * 10 ** uint256(decimals));"]]]

/-- This function sends an amount. -/
def tokenTransfer : List Line :=
  block ["function transfer(address to, uint256 amount) public returns (bool)"]
    ["_transfer(msg.sender, to, amount);", "return true;"]

/-- This function grants an allowance. -/
def tokenApprove : List Line :=
  block ["function approve(address spender, uint256 amount) public returns (bool)"]
    ["allowance[msg.sender][spender] = amount;",
     "emit Approval(msg.sender, spender, amount);",
     "return true;"]

/-- This function spends an allowance. -/
def tokenTransferFrom (name : String) : List Line :=
  block ["function transferFrom(address from, address to, uint256 amount) public returns (bool)"] <|
    together
      [["uint256 allowed = allowance[from][msg.sender];",
        demand name "allowed >= amount" "insufficient allowance"],
       block ["if (allowed != type(uint256).max)"]
         ["allowance[from][msg.sender] = allowed - amount;"],
       ["_transfer(from, to, amount);", "return true;"]]

/-- This function moves an amount between two balances. -/
def tokenMove (name : String) : List Line :=
  block ["function _transfer(address from, address to, uint256 amount) internal"] <|
    together
      [[demand name "to != address(0)" "transfer to the zero address",
        "_beforeTokenTransfer(from, to, amount);",
        "uint256 fromBalance = balanceOf[from];",
        demand name "fromBalance >= amount" "transfer amount exceeds balance"],
       block ["unchecked"] ["balanceOf[from] = fromBalance - amount;"],
       ["balanceOf[to] += amount;", "emit Transfer(from, to, amount);"]]

/-- This function makes an amount, up to the cap. -/
def tokenMint (name : String) (guards : Guards) : List Line :=
  block ["function _mint(address to, uint256 amount) internal"] <|
    together
      [[demand name "to != address(0)" "mint to the zero address",
        "_beforeTokenTransfer(address(0), to, amount);"],
       only guards.capped [demand name "totalSupply + amount <= MAX_SUPPLY" "cap exceeded"],
       ["totalSupply += amount;",
        "balanceOf[to] += amount;",
        "emit Transfer(address(0), to, amount);"]]

/-- This function destroys an amount. -/
def tokenBurn (name : String) : List Line :=
  block ["function _burn(address from, uint256 amount) internal"] <|
    together
      [["_beforeTokenTransfer(from, address(0), amount);",
        "uint256 fromBalance = balanceOf[from];",
        demand name "fromBalance >= amount" "burn amount exceeds balance"],
       block ["unchecked"]
         ["balanceOf[from] = fromBalance - amount;", "totalSupply -= amount;"],
       ["emit Transfer(from, address(0), amount);"]]

/-- The skeleton of a token holds all that does not depend on the order of features. -/
def tokenSkeleton (name symbol : String) (decimals : UInt8) (initialSupply : UInt64) (guards : Guards) :
    List Line :=
  joined
    [tokenState decimals, tokenTables, tokenEvents, onlyOwner name,
     tokenConstructor name symbol initialSupply guards, tokenTransfer, tokenApprove,
     tokenTransferFrom name, transferOwnership name, tokenMove name, tokenMint name guards,
     tokenBurn name, transferHook name guards]

/-- These variables hold what a collection knows about itself. -/
def nftState : List Line :=
  ["string public name;",
   "string public symbol;",
   "string public baseURI;",
   "uint256 public totalSupply;",
   "uint256 public nextTokenId;",
   "address public owner;"]

/-- These tables hold owners, balances and approvals. -/
def nftTables : List Line :=
  ["mapping(uint256 => address) private _owners;",
   "mapping(address => uint256) public balanceOf;",
   "mapping(uint256 => address) public getApproved;",
   "mapping(address => mapping(address => bool)) public isApprovedForAll;"]

/-- These events tell what a collection did. -/
def nftEvents : List Line :=
  ["event Transfer(address indexed from, address indexed to, uint256 indexed tokenId);",
   "event Approval(address indexed holder, address indexed approved, uint256 indexed tokenId);",
   "event ApprovalForAll(address indexed holder, address indexed operator, bool approved);",
   "event OwnershipTransferred(address indexed previousOwner, address indexed newOwner);"]

/-- The constructor sets the names and the owner. -/
def nftConstructor (name symbol baseUri : String) (guards : Guards) : List Line :=
  block ["constructor()"] <|
    together
      [[.text ["name = \"", .given name, "\";"],
        .text ["symbol = \"", .given symbol, "\";"],
        .text ["baseURI = \"", .given baseUri, "\";"],
        "owner = msg.sender;",
        "emit OwnershipTransferred(address(0), msg.sender);"],
       only guards.whitelist ["whitelisted[msg.sender] = true;"]]

/-- This function gives the owner of a token. -/
def nftOwnerOf (name : String) : List Line :=
  block ["function ownerOf(uint256 tokenId) public view returns (address)"]
    ["address tokenOwner = _owners[tokenId];",
     demand name "tokenOwner != address(0)" "nonexistent token",
     "return tokenOwner;"]

/-- This function gives the address of a token's description. -/
def nftTokenUri : List Line :=
  block ["function tokenURI(uint256 tokenId) public view returns (string memory)"]
    ["ownerOf(tokenId);",
     "return string(abi.encodePacked(baseURI, _toString(tokenId)));"]

/-- This function lets another account move one token. -/
def nftApprove (name : String) : List Line :=
  block ["function approve(address to, uint256 tokenId) public"]
    ["address tokenOwner = ownerOf(tokenId);",
     demand name "msg.sender == tokenOwner || isApprovedForAll[tokenOwner][msg.sender]"
       "not authorized",
     "getApproved[tokenId] = to;",
     "emit Approval(tokenOwner, to, tokenId);"]

/-- This function lets another account move all tokens of the sender. -/
def nftApproveAll : List Line :=
  block ["function setApprovalForAll(address operator, bool approved) public"]
    ["isApprovedForAll[msg.sender][operator] = approved;",
     "emit ApprovalForAll(msg.sender, operator, approved);"]

/-- This function moves a token. -/
def nftTransferFrom (name : String) : List Line :=
  block ["function transferFrom(address from, address to, uint256 tokenId) public"]
    ["address tokenOwner = ownerOf(tokenId);",
     demand name "tokenOwner == from" "transfer from incorrect owner",
     demand name
       ("msg.sender == from || getApproved[tokenId] == msg.sender || " ++
         "isApprovedForAll[from][msg.sender]")
       "not authorized",
     demand name "to != address(0)" "transfer to the zero address",
     "_beforeTokenTransfer(from, to, tokenId);",
     "delete getApproved[tokenId];",
     "balanceOf[from] -= 1;",
     "balanceOf[to] += 1;",
     "_owners[tokenId] = to;",
     "emit Transfer(from, to, tokenId);"]

/-- This function makes the next token, up to the cap. -/
def nftMint (name : String) (guards : Guards) : List Line :=
  block ["function _mint(address to) internal returns (uint256 tokenId)"] <|
    together
      [[demand name "to != address(0)" "mint to the zero address"],
       only guards.capped [demand name "totalSupply < MAX_SUPPLY" "cap exceeded"],
       ["tokenId = nextTokenId;",
        "_beforeTokenTransfer(address(0), to, tokenId);",
        "nextTokenId += 1;",
        "totalSupply += 1;",
        "balanceOf[to] += 1;",
        "_owners[tokenId] = to;",
        "emit Transfer(address(0), to, tokenId);"]]

/-- This function destroys a token. -/
def nftBurn : List Line :=
  block ["function _burn(uint256 tokenId) internal"]
    ["address tokenOwner = ownerOf(tokenId);",
     "_beforeTokenTransfer(tokenOwner, address(0), tokenId);",
     "delete getApproved[tokenId];",
     "balanceOf[tokenOwner] -= 1;",
     "totalSupply -= 1;",
     "delete _owners[tokenId];",
     "emit Transfer(tokenOwner, address(0), tokenId);"]

/-- This function writes a number in decimal digits. -/
def nftDigits : List Line :=
  block ["function _toString(uint256 value) internal pure returns (string memory)"] <|
    together
      [block ["if (value == 0)"] ["return \"0\";"],
       ["uint256 temp = value;", "uint256 digits;"],
       block ["while (temp != 0)"] ["digits++;", "temp /= 10;"],
       ["bytes memory buffer = new bytes(digits);"],
       block ["while (value != 0)"]
         ["digits -= 1;",
          "buffer[digits] = bytes1(uint8(48 + uint256(value % 10)));",
          "value /= 10;"],
       ["return string(buffer);"]]

/-- The skeleton of a collection holds all that does not depend on the order of features. -/
def nftSkeleton (name symbol baseUri : String) (guards : Guards) : List Line :=
  joined
    [nftState, nftTables, nftEvents, onlyOwner name, nftConstructor name symbol baseUri guards,
     nftOwnerOf name, nftTokenUri, nftApprove name, nftApproveAll, nftTransferFrom name,
     transferOwnership name, nftMint name guards, nftBurn, transferHook name guards, nftDigits]

/-- This function lets the owner mint. -/
def mintFragment (isNft : Bool) : List Line :=
  if isNft then
    block ["function mint(address to) public onlyOwner returns (uint256)"]
      ["return _mint(to);"]
  else
    block ["function mint(address to, uint256 amount) public onlyOwner"]
      ["_mint(to, amount);"]

/-- This function lets a holder burn. -/
def burnFragment (name : String) (isNft : Bool) : List Line :=
  if isNft then
    block ["function burn(uint256 tokenId) public"]
      ["address tokenOwner = ownerOf(tokenId);",
       demand name
         ("msg.sender == tokenOwner || getApproved[tokenId] == msg.sender || " ++
           "isApprovedForAll[tokenOwner][msg.sender]")
         "not authorized",
       "_burn(tokenId);"]
  else
    block ["function burn(uint256 amount) public"] ["_burn(msg.sender, amount);"]

/-- These functions let the owner stop transfers and let them go on. -/
def pausableFragment (name : String) : List Line :=
  together
    [["bool public paused;",
      .blank,
      "event Paused(address account);",
      "event Unpaused(address account);",
      .blank],
     block ["function pause() public onlyOwner"]
       [demand name "!paused" "already paused",
        "paused = true;",
        "emit Paused(msg.sender);"],
     [.blank],
     block ["function unpause() public onlyOwner"]
       [demand name "paused" "not paused",
        "paused = false;",
        "emit Unpaused(msg.sender);"]]

/-- This constant bounds the supply; a token counts in its smallest unit. -/
def cappedFragment (maxSupply : UInt64) (isNft : Bool) (decimals : UInt8) : List Line :=
  together
    [if isNft then [.text ["uint256 public constant MAX_SUPPLY = ", .number maxSupply.toNat, ";"]]
     else
       [.text ["uint256 public constant MAX_SUPPLY = ", .number maxSupply.toNat, " * 10 ** ",
         .number decimals.toNat, ";"]],
     [.blank],
     block ["function cap() public pure returns (uint256)"] ["return MAX_SUPPLY;"]]

/-- These functions let the owner keep a list of recipients. -/
def whitelistFragment : List Line :=
  together
    [["mapping(address => bool) public whitelisted;",
      .blank,
      "event WhitelistUpdated(address indexed account, bool allowed);",
      .blank],
     block ["function addToWhitelist(address account) public onlyOwner"]
       ["whitelisted[account] = true;", "emit WhitelistUpdated(account, true);"],
     [.blank],
     block ["function removeFromWhitelist(address account) public onlyOwner"]
       ["whitelisted[account] = false;", "emit WhitelistUpdated(account, false);"]]

/-- These functions tell who receives which part of a sale. -/
def royaltyFragment (receiver : Option String) (basisPoints : UInt16) : List Line :=
  together
    [match receiver with
     | some address => [.text ["address public royaltyReceiver = ", .given address, ";"]]
     | none => ["address public royaltyReceiver;"],
     [.text ["uint256 public constant ROYALTY_BPS = ", .number basisPoints.toNat, ";"], .blank],
     block
       ["function royaltyInfo(uint256, uint256 salePrice) public view ",
         "returns (address receiver, uint256 royaltyAmount)"]
       ["receiver = royaltyReceiver == address(0) ? owner : royaltyReceiver;",
        "royaltyAmount = (salePrice * ROYALTY_BPS) / 10000;"],
     [.blank],
     block ["function setRoyaltyReceiver(address newReceiver) public onlyOwner"]
       ["royaltyReceiver = newReceiver;"]]

/-- The fragment of a feature is its own part of the contract. -/
def fragment (name : String) (isNft : Bool) (decimals : UInt8) : Feature → List Line
  | .mint => mintFragment isNft
  | .burn => burnFragment name isNft
  | .pausable => pausableFragment name
  | .capped maxSupply => cappedFragment maxSupply isNft decimals
  | .whitelist => whitelistFragment
  | .royalty receiver basisPoints => royaltyFragment receiver basisPoints

/-- A feature begins with a line that names it. -/
def part (name : String) (isNft : Bool) (decimals : UInt8) (feature : Feature) : List Line :=
  .blank :: heading feature :: fragment name isNft decimals feature

/-- The skeleton of a contract depends on its base and its guards. -/
def skeleton (name symbol : String) (guards : Guards) : Base → List Line
  | .token decimals initialSupply => tokenSkeleton name symbol decimals initialSupply guards
  | .nft baseUri => nftSkeleton name symbol baseUri guards

/-- These lines come before the contract. -/
def preamble (name : String) : List Line :=
  ["// SPDX-License-Identifier: MIT",
   "pragma solidity ^0.8.20;",
   .blank,
   .text ["/// @title ", .given name],
   "/// @notice Generated by Blockforge."]

/-- This function writes a plan as a contract. -/
def lines (plan : Plan) : List Line :=
  preamble plan.contractName ++
  block ["contract ", .given plan.contractName]
    (skeleton plan.contractName plan.symbol plan.guards plan.base ++
     plan.features.flatMap (part plan.contractName plan.isNft plan.decimals))

end ContractWorks.Source.Solidity
