namespace ContractWorks

/-- A block type says what a block adds to a contract. -/
inductive BlockType where
  | erc20
  | nft
  | mint
  | burn
  | pausable
  | capped
  | whitelist
  | royalty
  deriving DecidableEq, Repr

namespace BlockType

/-- This list holds every block type. -/
def all : List BlockType :=
  [.erc20, .nft, .mint, .burn, .pausable, .capped, .whitelist, .royalty]

/-- This function gives the name of a block type. -/
def name : BlockType → String
  | .erc20 => "erc20"
  | .nft => "nft"
  | .mint => "mint"
  | .burn => "burn"
  | .pausable => "pausable"
  | .capped => "capped"
  | .whitelist => "whitelist"
  | .royalty => "royalty"

/-- A base type selects the skeleton of a contract. -/
def isBase : BlockType → Bool
  | .erc20 => true
  | .nft => true
  | _ => false

end BlockType

/-- This type holds the settings of a fungible token. -/
structure TokenConfig where
  name : Option String := none
  symbol : Option String := none
  decimals : Option UInt8 := none
  initialSupply : Option UInt64 := none
  deriving DecidableEq, Repr

/-- This type holds the settings of a non-fungible token. -/
structure NftConfig where
  name : Option String := none
  symbol : Option String := none
  baseUri : Option String := none
  deriving DecidableEq, Repr

/-- This type holds the settings of a supply cap. -/
structure CapConfig where
  maxSupply : Option UInt64 := none
  deriving DecidableEq, Repr

/-- This type holds the settings of a royalty. -/
structure RoyaltyConfig where
  receiver : Option String := none
  basisPoints : Option UInt16 := none
  deriving DecidableEq, Repr

/-- A block kind is a block type with its settings. -/
inductive BlockKind where
  | erc20 (config : TokenConfig)
  | nft (config : NftConfig)
  | mint
  | burn
  | pausable
  | capped (config : CapConfig)
  | whitelist
  | royalty (config : RoyaltyConfig)
  deriving DecidableEq, Repr

/-- This function forgets the settings. -/
def BlockKind.blockType : BlockKind → BlockType
  | .erc20 _ => .erc20
  | .nft _ => .nft
  | .mint => .mint
  | .burn => .burn
  | .pausable => .pausable
  | .capped _ => .capped
  | .whitelist => .whitelist
  | .royalty _ => .royalty

/-- A block is one unit of a contract; a disabled block adds nothing. -/
structure Block where
  id : String
  name : String
  enabled : Bool
  kind : BlockKind
  deriving DecidableEq, Repr

namespace Block

/-- This function gives the type of a block. -/
def blockType (block : Block) : BlockType :=
  block.kind.blockType

/-- This test asks whether a block selects the skeleton of a contract. -/
def isBase (block : Block) : Bool :=
  block.blockType.isBase

end Block

/-- This type gives the reasons why a block list is refused. -/
inductive BlockListError where
  | repeatedId (id : String)
  | twoBases (first second : String)
  deriving DecidableEq, Repr

/-- This function words the reason. -/
def BlockListError.message : BlockListError → String
  | .repeatedId id => "duplicate block id: " ++ id
  | .twoBases first second =>
    "only one base block may be enabled (found '" ++ first ++ "' and '" ++ second ++ "')"

/-- This function checks the rest of a block list: `seen` ids came before, and `base` is the id of the enabled
base block among them. -/
def checkFrom (seen : List String) (base : Option String) : List Block → Except BlockListError Unit
  | [] => .ok ()
  | block :: rest =>
    if seen.contains block.id then .error (.repeatedId block.id)
    else if block.enabled && block.isBase then
      match base with
      | some first => .error (.twoBases first block.id)
      | none => checkFrom (block.id :: seen) (some block.id) rest
    else checkFrom (block.id :: seen) base rest

/-- This function checks that all ids differ and that at most one base block is enabled. -/
def checkBlocks (blocks : List Block) : Except BlockListError Unit :=
  checkFrom [] none blocks

end ContractWorks
