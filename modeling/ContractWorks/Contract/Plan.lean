import ContractWorks.Contract.Block.Basic
import ContractWorks.Source.Line

namespace ContractWorks

/-- A base is the skeleton that a plan starts from. -/
inductive Base where
  | token (decimals : UInt8) (initialSupply : UInt64)
  | nft (baseUri : String)
  deriving DecidableEq, Repr

/-- A feature is one addition to the skeleton. -/
inductive Feature where
  | mint
  | burn
  | pausable
  | capped (maxSupply : UInt64)
  | whitelist
  | royalty (receiver : Option String) (basisPoints : UInt16)
  deriving DecidableEq, Repr

/-- This function gives the block type that a feature comes from. -/
def Feature.blockType : Feature → BlockType
  | .mint => .mint
  | .burn => .burn
  | .pausable => .pausable
  | .capped _ => .capped
  | .whitelist => .whitelist
  | .royalty _ _ => .royalty

/-- This type says which guards the skeleton has. -/
structure Guards where
  pausable : Bool
  whitelist : Bool
  capped : Bool
  deriving DecidableEq, Repr

/-- A plan is all that is needed to write a contract. -/
structure Plan where
  contractName : String
  symbol : String
  base : Base
  features : List Feature
  deriving DecidableEq, Repr

namespace Plan

/-- This test looks for a feature of a type. -/
def has (plan : Plan) (blockType : BlockType) : Bool :=
  plan.features.any fun feature => feature.blockType = blockType

/-- This function gives the cap of a feature that has one. -/
def capOf : Feature → Option UInt64
  | .capped maxSupply => some maxSupply
  | _ => none

/-- This function gives the bound on the supply, if there is one. -/
def maxSupply (plan : Plan) : Option UInt64 :=
  plan.features.findSome? capOf

/-- This test asks for a non-fungible base. -/
def isNft (plan : Plan) : Bool :=
  match plan.base with
  | .nft _ => true
  | .token _ _ => false

/-- This function gives the decimal places, of which a non-fungible token has none. -/
def decimals (plan : Plan) : UInt8 :=
  match plan.base with
  | .token decimals _ => decimals
  | .nft _ => 0

/-- This function gives the guards that the features ask for. -/
def guards (plan : Plan) : Guards :=
  { pausable := plan.has .pausable, whitelist := plan.has .whitelist, capped := plan.maxSupply.isSome }

/-- This function chooses a name: the configured one, else the name of the block unless it is empty, else a
fallback. -/
def chooseName (configured : Option String) (blockName fallback : String) : String :=
  match configured with
  | some name => name
  | none => if blockName = "" then fallback else blockName

/-- This function gives the name, the symbol and the base of a base block. -/
def header (block : Block) : Option (String × String × Base) :=
  match block.kind with
  | .erc20 config =>
    some (chooseName config.name block.name "MyToken", config.symbol.getD "TKN",
      .token (config.decimals.getD 18) (config.initialSupply.getD 0))
  | .nft config =>
    some (chooseName config.name block.name "MyNFT", config.symbol.getD "NFT",
      .nft (config.baseUri.getD ""))
  | _ => none

/-- This function gives the feature of a block that is no base. -/
def feature? (kind : BlockKind) : Option Feature :=
  match kind with
  | .mint => some .mint
  | .burn => some .burn
  | .pausable => some .pausable
  | .capped config => some (.capped (config.maxSupply.getD 18446744073709551615))
  | .whitelist => some .whitelist
  | .royalty config => some (.royalty config.receiver (config.basisPoints.getD 500))
  | _ => none

/-- This function adds the feature of an enabled block, unless one of its type is there already. -/
def addFeature (features : List Feature) (block : Block) : List Feature :=
  if block.enabled then
    match feature? block.kind with
    | some feature =>
      if features.any fun earlier => earlier.blockType = feature.blockType then features
      else features ++ [feature]
    | none => features
  else features

/-- This function makes a plan of a block list that has an enabled base. -/
def ofBlocks (blocks : List Block) : Option Plan := do
  let block ← blocks.find? fun block => block.enabled && block.isBase
  let (contractName, symbol, base) ← header block
  return { contractName, symbol, base, features := blocks.foldl addFeature [] }

end Plan

namespace Source

/-- This line names a feature. -/
def heading (feature : Feature) : Line :=
  .text ["// ── ", .fixed feature.blockType.name, " ──"]

end Source

end ContractWorks
