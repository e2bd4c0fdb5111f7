import ContractWorks.Contract.Block.Wire
import ContractWorks.Contract.Plan

namespace ContractWorks

/-- This function encodes a base. -/
def Base.encode : Base → Json
  | .token decimals initialSupply =>
    .object [("type", .text "token"), ("decimals", .count decimals.toNat),
      ("initialSupply", .count initialSupply.toNat)]
  | .nft baseUri => .object [("type", .text "nft"), ("baseUri", .text baseUri)]

/-- This decoder reads a base; of a token it takes the numbers, of a non-fungible token the address. -/
def Base.decode : Decoder Base := fun draft => do
  let (type, decimals, initialSupply, baseUri, ()) ← Row.decode
    (.field (.required "type" (Decode.oneOf [(["token"], true), (["nft"], false)])) <|
      .field (.withDefault "decimals" Decode.uint8 0) <|
      .field (.withDefault "initialSupply" Decode.uint64 0) <|
      .field (.withDefault "baseUri" Decode.text "") .done)
    "Base" draft
  return if type then .token decimals initialSupply else .nft baseUri

namespace Feature

/-- This function encodes a feature; a royalty without a receiver has null in its place. -/
def encode (feature : Feature) : Json :=
  let type : String × Json := ("type", feature.blockType.encode)
  match feature with
  | .capped maxSupply => .object [type, ("maxSupply", .count maxSupply.toNat)]
  | .royalty receiver basisPoints =>
    .object [type, ("receiver", (receiver.map Json.text).getD .null),
      ("bps", .count basisPoints.toNat)]
  | _ => .object [type]

/-- This function makes the feature of a type with a cap, a receiver and basis points. -/
def ofParts (blockType : BlockType) (maxSupply : UInt64) (receiver : Option String)
    (basisPoints : UInt16) : Except DecodeError Feature :=
  match blockType with
  | .mint => .ok .mint
  | .burn => .ok .burn
  | .pausable => .ok .pausable
  | .capped => .ok (.capped maxSupply)
  | .whitelist => .ok .whitelist
  | .royalty => .ok (.royalty receiver basisPoints)
  | base => .error (.unknownName base.name ((BlockType.all.filter fun type => !type.isBase).map
      BlockType.name))

/-- This decoder reads a feature. -/
def decode : Decoder Feature := fun draft => do
  let (blockType, maxSupply, receiver, basisPoints, ()) ← Row.decode
    (.field (.required "type" BlockType.decode) <|
      .field (.withDefault "maxSupply" Decode.uint64 0) <|
      .field (.optional "receiver" Decode.text) <|
      .field (.withDefault "bps" Decode.uint16 0) .done)
    "Feature" draft
  ofParts blockType maxSupply receiver basisPoints

end Feature

namespace Plan

/-- This function encodes a plan with all that follows from it. -/
def encode (plan : Plan) : Json :=
  .object
    [("contractName", .text plan.contractName), ("symbol", .text plan.symbol),
     ("base", plan.base.encode), ("features", .array (plan.features.map Feature.encode)),
     ("has", .array ((BlockType.all.filter plan.has).map BlockType.encode)),
     ("maxSupply", (plan.maxSupply.map fun supply => Json.count supply.toNat).getD .null),
     ("isNft", .bool plan.isNft), ("decimals", .count plan.decimals.toNat)]

/-- This decoder reads a plan. -/
def decode : Decoder Plan := fun draft => do
  let (contractName, symbol, base, features, ()) ← Row.decode
    (.field (.required "contractName" Decode.text) <|
      .field (.required "symbol" Decode.text) <|
      .field (.required "base" Base.decode) <|
      .field (.required "features" (Decode.list Feature.decode)) .done)
    "Plan" draft
  return { contractName, symbol, base, features }

end Plan

end ContractWorks
