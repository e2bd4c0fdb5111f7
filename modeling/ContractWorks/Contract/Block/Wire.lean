import ContractWorks.Contract.Block.Basic
import ContractWorks.Json.Record

namespace ContractWorks

namespace BlockType

/-- This decoder reads a block type by any of its names. -/
def decode : Decoder BlockType :=
  Decode.oneOf
    [(["base-token", "erc20", "token"], .erc20), (["base-nft", "erc721", "nft"], .nft),
      (["mint"], .mint), (["burn"], .burn), (["pausable"], .pausable), (["capped"], .capped),
      (["whitelist"], .whitelist), (["royalty"], .royalty)]

/-- This function encodes a block type. -/
def encode (blockType : BlockType) : Json :=
  .text blockType.name

end BlockType

namespace TokenConfig

/-- This decoder reads the settings of a fungible token. -/
def decode : Decoder TokenConfig := fun draft => do
  let (name, symbol, decimals, initialSupply, ()) ← Row.decode
    (.field (.optional "name" Decode.text) <|
      .field (.optional "symbol" Decode.text) <|
      .field (.optional "decimals" Decode.uint8) <|
      .field (.optional "initialSupply" Decode.uint64) .done)
    "TokenConfig" draft
  return ⟨name, symbol, decimals, initialSupply⟩

/-- This function encodes the settings of a fungible token. -/
def encode (config : TokenConfig) : Json :=
  .record [("name", config.name.map .text), ("symbol", config.symbol.map .text),
    ("decimals", config.decimals.map fun value => .count value.toNat),
    ("initialSupply", config.initialSupply.map fun value => .count value.toNat)]

end TokenConfig

namespace NftConfig

/-- This decoder reads the settings of a non-fungible token. -/
def decode : Decoder NftConfig := fun draft => do
  let (name, symbol, baseUri, ()) ← Row.decode
    (.field (.optional "name" Decode.text) <|
      .field (.optional "symbol" Decode.text) <|
      .field (.optional "baseUri" Decode.text) .done)
    "NftConfig" draft
  return ⟨name, symbol, baseUri⟩

/-- This function encodes the settings of a non-fungible token. -/
def encode (config : NftConfig) : Json :=
  .record [("name", config.name.map .text), ("symbol", config.symbol.map .text),
    ("baseUri", config.baseUri.map .text)]

end NftConfig

namespace CapConfig

/-- This decoder reads the settings of a supply cap. -/
def decode : Decoder CapConfig := fun draft => do
  let (maxSupply, ()) ← Row.decode (.field (.optional "maxSupply" Decode.uint64) .done)
    "CappedConfig" draft
  return ⟨maxSupply⟩

/-- This function encodes the settings of a supply cap. -/
def encode (config : CapConfig) : Json :=
  .record [("maxSupply", config.maxSupply.map fun value => .count value.toNat)]

end CapConfig

namespace RoyaltyConfig

/-- This decoder reads the settings of a royalty. -/
def decode : Decoder RoyaltyConfig := fun draft => do
  let (receiver, basisPoints, ()) ← Row.decode
    (.field (.optional "receiver" Decode.text) <|
      .field (.optional "bps" Decode.uint16) .done)
    "RoyaltyConfig" draft
  return ⟨receiver, basisPoints⟩

/-- This function encodes the settings of a royalty. -/
def encode (config : RoyaltyConfig) : Json :=
  .record [("receiver", config.receiver.map .text),
    ("bps", config.basisPoints.map fun value => .count value.toNat)]

end RoyaltyConfig

namespace BlockKind

/-- This function reads the settings of a block, which stay at their defaults when there are none. -/
def settings {α : Type} (decode : Decoder α) (default : α) : Option Json → Except DecodeError α
  | none => .ok default
  | some config => decode config.draft

/-- This function joins a block type and its settings; a type without settings ignores them. -/
def ofParts (blockType : BlockType) (config : Option Json) : Except DecodeError BlockKind :=
  match blockType with
  | .erc20 => (settings TokenConfig.decode {} config).map .erc20
  | .nft => (settings NftConfig.decode {} config).map .nft
  | .mint => .ok .mint
  | .burn => .ok .burn
  | .pausable => .ok .pausable
  | .capped => (settings CapConfig.decode {} config).map .capped
  | .whitelist => .ok .whitelist
  | .royalty => (settings RoyaltyConfig.decode {} config).map .royalty

/-- This function encodes the settings of a kind that has some; they are kept as a value, whose members are
sorted. -/
def config : BlockKind → Option Json
  | .erc20 config => some config.encode.sorted
  | .nft config => some config.encode.sorted
  | .capped config => some config.encode.sorted
  | .royalty config => some config.encode.sorted
  | _ => none

end BlockKind

namespace Block

/-- This decoder reads a block; its settings are read after the block itself. -/
def decode : Decoder Block := fun draft => do
  let (id, blockType, name, enabled, config, ()) ← Row.decode
    (.field (.required "id" Decode.text) <|
      .field (.required "type" BlockType.decode) <|
      .field (.withDefault "name" Decode.text "") <|
      .field (.withDefault "enabled" Decode.bool true) <|
      .field (.optional "config" Decode.value) .done)
    "RawBlock" draft
  match BlockKind.ofParts blockType config with
  | .ok kind => return ⟨id, name, enabled, kind⟩
  | .error reason => throw (.badConfig id reason)

/-- This function encodes a block. -/
def encode (block : Block) : Json :=
  .record [("id", some (.text block.id)), ("type", some block.blockType.encode),
    ("name", some (.text block.name)), ("enabled", some (.bool block.enabled)),
    ("config", block.kind.config)]

end Block

end ContractWorks
